import FetchNow.Theory.Transactions
import Mathlib.Order.Basic

/-!
# Leases with fencing tokens

A resource is claimed under a new token, held for a while, and given up or taken away. Which
guarantees a run has follows from what its single steps respect.
-/
namespace Leases

open Transactions

/-- On whose behalf a step runs. -/
inductive Actor (Owner Token : Type*) where
  | claimer (owner : Owner)
  | holder (owner : Owner) (token : Token)
  | system
  deriving DecidableEq, Repr

/-- How a state shows the lease: the current token, and the owner while there is one. -/
structure View (σ Owner Token : Type*) where
  token : σ → Token
  owner : σ → Option Owner

variable {σ Owner Token : Type*} (view : View σ Owner Token)

/-- The commit claims the lease. -/
structure Claims (commit : Commit (Actor Owner Token) σ) (owner : Owner) (token : Token) :
    Prop where
  actor : commit.actor = .claimer owner
  changed : commit.after ≠ commit.before
  token : view.token commit.after = token

/-- The latest claim is by `owner` under `token`, and the lease has been held ever since. -/
inductive Holds : List (Commit (Actor Owner Token) σ) → Owner → Token → Prop
  | claimed {commit : Commit (Actor Owner Token) σ} {log : List (Commit (Actor Owner Token) σ)}
      {owner : Owner} {token : Token} : Claims view commit owner token →
      Holds (commit :: log) owner token
  | kept {commit : Commit (Actor Owner Token) σ} {log : List (Commit (Actor Owner Token) σ)}
      {owner : Owner} {token : Token} : Holds log owner token →
      (∀ claimer token', ¬ Claims view commit claimer token') →
      (view.owner commit.after).isSome → Holds (commit :: log) owner token

variable {view} in
theorem Holds.exists_claim {log : List (Commit (Actor Owner Token) σ)} {owner : Owner}
    {token : Token} (h : Holds view log owner token) :
    ∃ commit ∈ log, Claims view commit owner token := by
  induction h with
  | claimed hclaims => exact ⟨_, by simp, hclaims⟩
  | kept _ _ _ ih =>
    obtain ⟨commit, hmem, hclaims⟩ := ih
    exact ⟨commit, List.mem_cons_of_mem _ hmem, hclaims⟩

variable [Preorder Token]

/-- What a step must respect: tokens do not decrease, a claim takes a free lease under a larger
token, a holder writes only under its own lease, and a lease passes to nobody without a claim. -/
structure Respects (actor : Actor Owner Token) (s t : σ) : Prop where
  token_le : view.token s ≤ view.token t
  claimer {owner : Owner} : actor = .claimer owner →
    t = s ∨ view.owner s = none ∧ view.owner t = some owner ∧ view.token s < view.token t
  holder {owner : Owner} {token : Token} : actor = .holder owner token →
    t = s ∨ view.owner s = some owner ∧ view.token s = token
  kept {owner : Owner} : view.owner t = some owner →
    (∃ claimer, actor = .claimer claimer ∧ t ≠ s) ∨
      view.owner s = some owner ∧ view.token t = view.token s

/-- The guarantees of a run. -/
structure Exclusive (log : List (Commit (Actor Owner Token) σ)) (s : σ) : Prop where
  monotone : (view.token s :: log.map (view.token ·.before)).Pairwise (· ≥ ·)
  increasing : log.Pairwise fun later earlier => ∀ owner token owner' token',
    Claims view later owner token → Claims view earlier owner' token' → token' < token
  held : ∀ newer commit older, log = newer ++ commit :: older → ∀ owner token,
    commit.actor = .holder owner token → commit.after ≠ commit.before →
    Holds view older owner token
  lost : ∀ newer commit older, log = newer ++ commit :: older → ∀ owner token,
    Holds view older owner token → view.owner commit.after = none →
    ∀ later ∈ newer, later.actor = .holder owner token → later.after = later.before

variable {view} {actor : Actor Owner Token} {s t u s₀ : σ}
  {log : List (Commit (Actor Owner Token) σ)}
  {owner : Owner} {token : Token} {step : Actor Owner Token → σ → σ → Prop}

theorem Respects.refl (actor : Actor Owner Token) (s : σ) : Respects view actor s s where
  token_le := le_rfl
  claimer _ := .inl rfl
  holder _ := .inl rfl
  kept h := .inr ⟨h, rfl⟩

/-- Several steps of one actor respect the lease together. -/
theorem Respects.trans (h : Respects view actor s t) (h' : Respects view actor t u) :
    Respects view actor s u where
  token_le := h.token_le.trans h'.token_le
  claimer hactor := by
    rcases h.claimer hactor with rfl | ⟨hfree, howner, htoken⟩
    · exact h'.claimer hactor
    · rcases h'.claimer hactor with rfl | ⟨hfree', _⟩
      · exact .inr ⟨hfree, howner, htoken⟩
      · simp [howner] at hfree'
  holder hactor := by
    rcases h.holder hactor with rfl | hheld
    · exact h'.holder hactor
    · exact .inr hheld
  kept howner := by
    rcases h'.kept howner with ⟨claimer, rfl, hne⟩ | ⟨howner', htoken'⟩
    · refine .inl ⟨claimer, rfl, fun heq => ?_⟩
      subst heq
      rcases h.claimer rfl with rfl | ⟨_, _, hlt⟩
      · exact hne rfl
      · exact hlt.not_ge h'.token_le
    · rcases h.kept howner' with ⟨claimer, rfl, hne⟩ | ⟨howner'', htoken''⟩
      · refine .inl ⟨claimer, rfl, fun heq => ?_⟩
        subst heq
        rcases h.claimer rfl with heq | ⟨hfree, _⟩
        · exact hne heq
        · simp [hfree] at howner
      · exact .inr ⟨howner'', htoken'.trans htoken''⟩

section

variable (hstep : ∀ {actor s t}, step actor s t → Respects view actor s t)
include hstep

/-- No claim has a larger token than the current one. -/
theorem token_le_of_claims (hrun : Run step s₀ log s) {commit : Commit (Actor Owner Token) σ}
    (hmem : commit ∈ log) (hclaims : Claims view commit owner token) : token ≤ view.token s := by
  induction hrun with
  | start => cases hmem
  | commit hrun hcommit ih =>
    rcases List.mem_cons.mp hmem with rfl | hmem
    · exact hclaims.token.ge
    · exact (ih hmem).trans (hstep hcommit).token_le

/-- Whoever owns the lease made the latest claim and has held it since. -/
theorem holds_of_owner (hfree : view.owner s₀ = none) (hrun : Run step s₀ log s)
    (howner : view.owner s = some owner) : Holds view log owner (view.token s) := by
  induction hrun generalizing owner with
  | start => simp [hfree] at howner
  | @commit log actor s t hrun hcommit ih =>
    have hrespects := hstep hcommit
    by_cases hclaim : ∃ claimer, actor = .claimer claimer ∧ t ≠ s
    · obtain ⟨claimer, rfl, hne⟩ := hclaim
      rcases hrespects.claimer rfl with heq | ⟨_, hclaimed, _⟩
      · exact absurd heq hne
      · obtain rfl : claimer = owner := by simpa [hclaimed] using howner
        exact .claimed ⟨rfl, hne, rfl⟩
    · rcases hrespects.kept howner with hclaim' | ⟨howner', htoken⟩
      · exact absurd hclaim' hclaim
      · refine .kept (htoken ▸ ih howner') (fun claimer token' hclaims => ?_) (by simp [howner])
        exact hclaim ⟨claimer, hclaims.actor, hclaims.changed⟩

theorem monotone_run (hrun : Run step s₀ log s) :
    (view.token s :: log.map (view.token ·.before)).Pairwise (· ≥ ·) := by
  induction hrun with
  | start => simp
  | commit hrun hcommit ih =>
    refine .cons (fun token htoken => ?_) ih
    rcases List.mem_cons.mp htoken with rfl | htoken
    · exact (hstep hcommit).token_le
    · exact (List.rel_of_pairwise_cons ih htoken).trans (hstep hcommit).token_le

theorem increasing_run (hrun : Run step s₀ log s) :
    log.Pairwise fun later earlier => ∀ owner token owner' token',
      Claims view later owner token → Claims view earlier owner' token' → token' < token := by
  induction hrun with
  | start => exact .nil
  | commit hrun hcommit ih =>
    refine .cons (fun earlier hmem owner token owner' token' hlater hearlier => ?_) ih
    obtain ⟨rfl, hne, rfl⟩ := hlater
    rcases (hstep hcommit).claimer rfl with heq | ⟨_, _, hlt⟩
    · exact absurd heq hne
    · exact (token_le_of_claims hstep hrun hmem hearlier).trans_lt hlt

theorem held_run (hfree : view.owner s₀ = none) (hrun : Run step s₀ log s)
    {newer older : List (Commit (Actor Owner Token) σ)} {commit : Commit (Actor Owner Token) σ}
    (hlog : log = newer ++ commit :: older) (hactor : commit.actor = .holder owner token)
    (hne : commit.after ≠ commit.before) : Holds view older owner token := by
  obtain ⟨hbefore, hcommit⟩ := hrun.before hlog
  rcases (hstep hcommit).holder hactor with heq | ⟨howner, rfl⟩
  · exact absurd heq hne
  · exact holds_of_owner hstep hfree hbefore howner

/-- Once a claim has lost the lease, nobody holds the lease under its token again. -/
theorem lost_step (h : token ≤ view.token s ∧ (view.owner s ≠ none → token < view.token s))
    (hst : step actor s t) :
    token ≤ view.token t ∧ (view.owner t ≠ none → token < view.token t) := by
  have hrespects := hstep hst
  refine ⟨h.1.trans hrespects.token_le, fun howned => ?_⟩
  obtain ⟨owner, howner⟩ := Option.ne_none_iff_exists'.mp howned
  rcases hrespects.kept howner with ⟨claimer, rfl, hne⟩ | ⟨howner', htoken⟩
  · rcases hrespects.claimer rfl with heq | ⟨_, _, hlt⟩
    · exact absurd heq hne
    · exact h.1.trans_lt hlt
  · rw [htoken]
    exact h.2 (by simp [howner'])

theorem lost_run (hrun : Run step s₀ log s)
    {newer older : List (Commit (Actor Owner Token) σ)} {commit : Commit (Actor Owner Token) σ}
    (hlog : log = newer ++ commit :: older) (hholds : Holds view older owner token)
    (hfree : view.owner commit.after = none) {later : Commit (Actor Owner Token) σ}
    (hlater : later ∈ newer) (hactor : later.actor = .holder owner token) :
    later.after = later.before := by
  obtain ⟨hbefore, hst⟩ := hrun.before hlog
  obtain ⟨claim, hmem, hclaims⟩ := hholds.exists_claim
  have hle : token ≤ view.token commit.after :=
    (token_le_of_claims hstep hbefore hmem hclaims).trans (hstep hst).token_le
  have hlate := hrun.later (fun h hst => lost_step hstep h hst) hlog
    ⟨hle, fun howned => absurd hfree howned⟩
  obtain ⟨⟨_, hlost⟩, hcommit⟩ := hlate.2 later hlater
  rcases (hstep hcommit).holder hactor with heq | ⟨howner, htoken⟩
  · exact heq
  · exact absurd (hlost (by simp [howner])) (by simp [htoken])

/-- Steps that respect the lease make it exclusive in every run that starts with it free. -/
theorem exclusive_run (hfree : view.owner s₀ = none) (hrun : Run step s₀ log s) :
    Exclusive view log s where
  monotone := monotone_run hstep hrun
  increasing := increasing_run hstep hrun
  held _ _ _ hlog _ _ hactor hne := held_run hstep hfree hrun hlog hactor hne
  lost _ _ _ hlog _ _ hholds hfree _ hlater hactor :=
    lost_run hstep hrun hlog hholds hfree hlater hactor

end

end Leases
