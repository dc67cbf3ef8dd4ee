import Mathlib.Logic.Relation
import Mathlib.Data.List.Basic

/-!
# Transactions

A transaction either raises, and leaves nothing behind, or commits a new state. A run is a
sequence of commits; an invariant of every commit is an invariant of every run.
-/
namespace Transactions

universe u v

variable {ε : Type v} {α β : Type u} {σ : Type*}

/-! ## Raising computations -/

theorem bind_eq_ok {m : Except ε α} {f : α → Except ε β} {b : β} :
    m >>= f = .ok b ↔ ∃ a, m = .ok a ∧ f a = .ok b := by
  cases m <;> simp [bind, Except.bind]

theorem bind_eq_error {m : Except ε α} {f : α → Except ε β} {e : ε} :
    m >>= f = .error e ↔ m = .error e ∨ ∃ a, m = .ok a ∧ f a = .error e := by
  cases m <;> simp [bind, Except.bind]

/-- A computation avoids an error when each of its parts does. -/
theorem bind_ne_error {m : Except ε α} {f : α → Except ε β} {e : ε} (hm : m ≠ .error e)
    (hf : ∀ a, m = .ok a → f a ≠ .error e) : m >>= f ≠ .error e := by
  intro h
  rcases bind_eq_error.mp h with h | ⟨a, ha, h⟩
  · exact hm h
  · exact hf a ha h

@[simp] theorem ok_bind (a : α) (f : α → Except ε β) : (Except.ok a >>= f) = f a := rfl

@[simp] theorem error_bind (e : ε) (f : α → Except ε β) :
    (Except.error e >>= f) = .error e := rfl

/-- Raise `e` unless `p` holds. -/
def require (p : Prop) [Decidable p] (e : ε) : Except ε Unit := if p then .ok () else .error e

variable {p : Prop} [Decidable p] {e e' : ε}

@[simp] theorem require_eq_ok {u : Unit} : require p e = .ok u ↔ p := by
  by_cases h : p <;> simp [require, h]

@[simp] theorem require_eq_error : require p e = .error e' ↔ ¬ p ∧ e = e' := by
  by_cases h : p <;> simp [require, h]

theorem require_true (h : p) : require p e = .ok () := if_pos h

theorem require_false (h : ¬ p) : require p e = .error e := if_neg h

theorem require_bind_eq_ok {β : Type} {f : Unit → Except ε β} {b : β} :
    (require p e >>= f) = .ok b ↔ p ∧ f () = .ok b := by
  by_cases h : p
  · rw [require_true h, ok_bind]
    simp [h]
  · rw [require_false h, error_bind]
    simp [h]

/-! ## Computations on every element of a list -/

section MapM

variable {f : α → Except ε β} {as : List α} {bs : List β} {a : α} {b : β}

theorem mapM_cons_eq_ok :
    (a :: as).mapM f = .ok bs ↔ ∃ b bs', f a = .ok b ∧ as.mapM f = .ok bs' ∧ bs = b :: bs' := by
  rw [List.mapM_cons, bind_eq_ok]
  simp only [bind_eq_ok, pure, Except.pure, Except.ok.injEq]
  exact ⟨fun ⟨b, hb, bs', hbs', h⟩ => ⟨b, bs', hb, hbs', h.symm⟩,
    fun ⟨b, bs', hb, hbs', h⟩ => ⟨b, hb, bs', hbs', h.symm⟩⟩

/-- The results are those of the elements, in order. -/
theorem forall₂_of_mapM (h : as.mapM f = .ok bs) : List.Forall₂ (fun a b => f a = .ok b) as bs := by
  induction as generalizing bs with
  | nil =>
    cases h
    exact .nil
  | cons a as ih =>
    obtain ⟨b, bs', hb, hbs', rfl⟩ := mapM_cons_eq_ok.mp h
    exact .cons hb (ih hbs')

theorem mem_mapM (h : as.mapM f = .ok bs) : b ∈ bs ↔ ∃ a ∈ as, f a = .ok b := by
  induction as generalizing bs with
  | nil =>
    cases h
    simp
  | cons a as ih =>
    obtain ⟨b', bs', hb', hbs', rfl⟩ := mapM_cons_eq_ok.mp h
    rw [List.mem_cons, ih hbs', List.exists_mem_cons_iff, hb', Except.ok.injEq]
    exact or_congr_left eq_comm

theorem exists_of_mem_mapM (h : as.mapM f = .ok bs) (ha : a ∈ as) : ∃ b ∈ bs, f a = .ok b := by
  induction as generalizing bs with
  | nil => exact absurd ha List.not_mem_nil
  | cons a' as ih =>
    obtain ⟨b', bs', hb', hbs', rfl⟩ := mapM_cons_eq_ok.mp h
    rcases List.mem_cons.mp ha with rfl | ha
    · exact ⟨b', List.mem_cons_self, hb'⟩
    · obtain ⟨b, hb, hab⟩ := ih hbs' ha
      exact ⟨b, List.mem_cons_of_mem _ hb, hab⟩

theorem exists_mapM (h : ∀ a ∈ as, ∃ b, f a = .ok b) : ∃ bs, as.mapM f = .ok bs := by
  induction as with
  | nil => exact ⟨[], rfl⟩
  | cons a as ih =>
    obtain ⟨⟨b, hb⟩, htail⟩ := List.forall_mem_cons.mp h
    obtain ⟨bs, hbs⟩ := ih htail
    exact ⟨b :: bs, mapM_cons_eq_ok.mpr ⟨b, bs, hb, hbs, rfl⟩⟩

end MapM

/-! ## Errors that a computation avoids -/

section Avoids

variable {bad : ε → Prop}

def Avoids (bad : ε → Prop) (m : Except ε α) : Prop := ∀ e, m = .error e → ¬ bad e

@[simp] theorem avoids_ok {a : α} : Avoids bad (.ok a) := nofun

@[simp] theorem avoids_error : Avoids bad (.error e : Except ε α) ↔ ¬ bad e :=
  ⟨fun h => h e rfl, fun h _ heq => Except.error.inj heq ▸ h⟩

@[simp] theorem avoids_require : Avoids bad (require p e) ↔ p ∨ ¬ bad e := by
  by_cases h : p <;> simp [require, h]

theorem Avoids.bind {m : Except ε α} {f : α → Except ε β} (hm : Avoids bad m)
    (hf : ∀ a, m = .ok a → Avoids bad (f a)) : Avoids bad (m >>= f) := by
  intro e h
  rcases bind_eq_error.mp h with h | ⟨a, ha, h⟩
  · exact hm e h
  · exact hf a ha e h

theorem Avoids.require_bind {β : Type} {f : Unit → Except ε β} (he : ¬ bad e)
    (hf : p → Avoids bad (f ())) : Avoids bad (require p e >>= f) :=
  Avoids.bind (avoids_require.mpr (.inr he)) fun _ h => hf (require_eq_ok.mp h)

end Avoids

/-! ## Savepoints -/

/-- Run `body` under a savepoint: an error that is caught restores the state before it. -/
def savepoint (caught : ε → Bool) (body : σ → Except ε σ) (s : σ) : Except ε σ :=
  match body s with
  | .ok t => .ok t
  | .error e => if caught e then .ok s else .error e

/-- Leaving a savepoint normally means that its body succeeded or changed nothing. -/
theorem savepoint_eq_ok {caught : ε → Bool} {body : σ → Except ε σ} {s t : σ}
    (h : savepoint caught body s = .ok t) : body s = .ok t ∨ t = s := by
  unfold savepoint at h
  split at h
  · rename_i hbody
    exact .inl (hbody.trans h)
  · split at h
    · cases h
      exact .inr rfl
    · cases h

theorem Avoids.savepoint {bad : ε → Prop} {caught : ε → Bool} {body : σ → Except ε σ} {s : σ}
    (h : Avoids bad (body s)) : Avoids bad (savepoint caught body s) := by
  unfold Transactions.savepoint
  split
  · exact avoids_ok
  · rename_i e hbody
    split
    · exact avoids_ok
    · exact avoids_error.mpr (h e hbody)

/-! ## Runs -/

section Runs

variable {step : σ → σ → Prop} {I : σ → Prop} {s t u : σ}

open Relation (ReflTransGen)

/-- What every commit preserves, every run preserves. -/
theorem invariant_run (hstep : ∀ {s t}, I s → step s t → I t) (h : ReflTransGen step s t)
    (hs : I s) : I t := by
  induction h with
  | refl => exact hs
  | tail _ hst ih => exact hstep ih hst

/-- A preorder that every commit from an invariant state respects, every run respects. -/
theorem related_run {r : σ → σ → Prop} (hrefl : ∀ s, r s s)
    (htrans : ∀ {s t u}, r s t → r t u → r s u) (hI : ∀ {s t}, I s → step s t → I t)
    (hstep : ∀ {s t}, I s → step s t → r s t) (h : ReflTransGen step s t) (hs : I s) : r s t := by
  induction h with
  | refl => exact hrefl _
  | tail hrun hst ih => exact htrans ih (hstep (invariant_run hI hrun hs) hst)

end Runs

/-! ## Logged runs -/

/-- A commit on behalf of some party, with the states before and after it. -/
structure Commit (α σ : Type*) where
  actor : α
  before : σ
  after : σ

/-- A run with its commits, newest first. -/
inductive Run {α σ : Type*} (step : α → σ → σ → Prop) (s₀ : σ) : List (Commit α σ) → σ → Prop
  | start : Run step s₀ [] s₀
  | commit {log : List (Commit α σ)} {a : α} {s t : σ} : Run step s₀ log s → step a s t →
      Run step s₀ (⟨a, s, t⟩ :: log) t

/-- A commit, seen through a projection of its parties and of its states. -/
def Commit.map {α α' σ σ' : Type*} (g : α → α') (f : σ → σ') (commit : Commit α σ) : Commit α' σ' :=
  ⟨g commit.actor, f commit.before, f commit.after⟩

theorem Run.map {α α' σ σ' : Type*} {step : α → σ → σ → Prop} {step' : α' → σ' → σ' → Prop}
    {g : α → α'} {f : σ → σ'} (hstep : ∀ {a s t}, step a s t → step' (g a) (f s) (f t)) {s₀ s : σ}
    {log : List (Commit α σ)} (hrun : Run step s₀ log s) :
    Run step' (f s₀) (log.map (Commit.map g f)) (f s) := by
  induction hrun with
  | start => exact .start
  | commit _ hcommit ih => exact .commit ih (hstep hcommit)

section LoggedRuns

variable {α : Type*} {step : α → σ → σ → Prop} {s₀ s : σ} {log : List (Commit α σ)}

/-- The run up to a commit, and the commit. -/
theorem Run.before {newer older : List (Commit α σ)} {commit : Commit α σ}
    (hrun : Run step s₀ log s) (hlog : log = newer ++ commit :: older) :
    Run step s₀ older commit.before ∧ step commit.actor commit.before commit.after := by
  induction hrun generalizing newer with
  | start => simp at hlog
  | commit hrun hcommit ih =>
    cases newer with
    | nil =>
      obtain ⟨rfl, rfl⟩ := List.cons.inj hlog
      exact ⟨hrun, hcommit⟩
    | cons last newer => exact ih (List.cons.inj hlog).2

/-- What holds after a commit and is preserved by every step holds ever after. -/
theorem Run.later {I : σ → Prop} (hstep : ∀ {a s t}, I s → step a s t → I t)
    {newer older : List (Commit α σ)} {commit : Commit α σ} (hrun : Run step s₀ log s)
    (hlog : log = newer ++ commit :: older) (hI : I commit.after) :
    I s ∧ ∀ later ∈ newer, I later.before ∧ step later.actor later.before later.after := by
  induction hrun generalizing newer with
  | start => simp at hlog
  | commit hrun hcommit ih =>
    cases newer with
    | nil =>
      obtain ⟨rfl, rfl⟩ := List.cons.inj hlog
      exact ⟨hI, by simp⟩
    | cons last newer =>
      obtain ⟨rfl, hrest⟩ := List.cons.inj hlog
      obtain ⟨hs, hnewer⟩ := ih hrest
      exact ⟨hstep hs hcommit, List.forall_mem_cons.mpr ⟨⟨hs, hcommit⟩, hnewer⟩⟩

/-- A condition that can only be entered from states which it rules out for good is entered at
most once. -/
theorem Run.entered_once {P Q : σ → Prop} (hQ : ∀ {a s t}, step a s t → Q t → Q s)
    (henter : ∀ {a s t}, step a s t → P t → P s ∨ Q s) (hdisjoint : ∀ {s}, P s → ¬ Q s)
    (hrun : Run step s₀ log s) :
    log.Pairwise fun later earlier =>
      ¬ P earlier.before ∧ P earlier.after → ¬ (¬ P later.before ∧ P later.after) := by
  have hlog : ∀ (newer older : List (Commit α σ)) commit, log = newer ++ commit :: older →
      P commit.after → ∀ later ∈ newer, ¬ (¬ P later.before ∧ P later.after) := by
    intro newer older commit hlog hP later hlater hentered
    have hlate := hrun.later (I := fun s => ¬ Q s) (fun hs hst ht => hs (hQ hst ht)) hlog
      (hdisjoint hP)
    obtain ⟨hQbefore, hcommit⟩ := hlate.2 later hlater
    rcases henter hcommit hentered.2 with hbefore | hbefore
    · exact hentered.1 hbefore
    · exact hQbefore hbefore
  clear hrun
  induction log with
  | nil => exact .nil
  | cons last log ih =>
    refine .cons (fun earlier hearlier hP => ?_) (ih fun newer older commit h hP later hlater => ?_)
    · obtain ⟨newer, older, rfl⟩ := List.append_of_mem hearlier
      exact hlog (last :: newer) older earlier rfl hP.2 last (by simp)
    · exact hlog (last :: newer) older commit (by rw [h]; rfl) hP later (by simp [hlater])

end LoggedRuns

end Transactions
