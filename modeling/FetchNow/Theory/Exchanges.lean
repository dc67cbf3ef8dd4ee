import Mathlib.Data.List.Basic

/-!
# Exchanges with an environment

A program asks questions and goes on with the answers, which may be any. The environment sees the
whole exchange so far. `wp` is the weakest precondition over every environment, for programs that
ask only what they are allowed to ask.
-/
namespace Exchanges

/-- A program that may raise `ε` and asks questions `q : Q` with answers in `A q`. -/
inductive Prog (Q : Type) (A : Q → Type) (ε α : Type) : Type
  | ret (value : α)
  | raise (error : ε)
  | ask (question : Q) (next : A question → Prog Q A ε α)

/-- Questions with their answers, newest first. -/
abbrev Trace (Q : Type) (A : Q → Type) := List ((q : Q) × A q)

variable {Q : Type} {A : Q → Type} {ε ε' α β σ : Type} {p : Prog Q A ε α}
  {f : α → Prog Q A ε β} {trace : Trace Q A} {allow : Trace Q A → Q → Prop}
  {env : Trace Q A → (q : Q) → A q} {post : Except ε α → Trace Q A → Prop}

namespace Prog

def bind : Prog Q A ε α → (α → Prog Q A ε β) → Prog Q A ε β
  | ret a, f => f a
  | raise e, _ => raise e
  | ask q next, f => ask q fun a => (next a).bind f

instance : Monad (Prog Q A ε) where
  pure := ret
  bind := bind

/-- Ask, and go on with the answer. -/
def query (q : Q) : Prog Q A ε (A q) := ask q ret

/-- `try .. except ..` that raises something else. -/
def mapError (g : ε → ε') : Prog Q A ε α → Prog Q A ε' α
  | ret a => ret a
  | raise e => raise (g e)
  | ask q next => ask q fun a => (next a).mapError g

/-- `try`, with how it went for what comes after. -/
def attempt : Prog Q A ε α → Prog Q A ε' (Except ε α)
  | ret a => ret (.ok a)
  | raise e => ret (.error e)
  | ask q next => ask q fun a => (next a).attempt

def ofExcept : Except ε α → Prog Q A ε α
  | .ok a => ret a
  | .error e => raise e

def require (c : Prop) [Decidable c] (e : ε) : Prog Q A ε Unit := if c then ret () else raise e

/-- `while True`: the body goes on with a new state or leaves with a result. A run that uses up its
fuel leaves with nothing. -/
def iterate (body : σ → Prog Q A ε (σ ⊕ α)) : ℕ → σ → Prog Q A ε (Option α)
  | 0, _ => ret none
  | fuel + 1, s =>
    (body s).bind fun
      | .inl s => iterate body fuel s
      | .inr a => ret (some a)

/-! ## Runs -/

/-- How a run ends and everything that was asked. -/
def run (env : Trace Q A → (q : Q) → A q) : Prog Q A ε α → Trace Q A → Except ε α × Trace Q A
  | ret a, trace => (.ok a, trace)
  | raise e, trace => (.error e, trace)
  | ask q next, trace => (next (env trace q)).run env (⟨q, env trace q⟩ :: trace)

/-- The weakest condition on what was asked before, under which the program asks only what is
allowed and ends as `post` says. -/
def wp (allow : Trace Q A → Q → Prop) :
    Prog Q A ε α → (Except ε α → Trace Q A → Prop) → Trace Q A → Prop
  | ret a, post, trace => post (.ok a) trace
  | raise e, post, trace => post (.error e) trace
  | ask q next, post, trace => allow trace q ∧ ∀ a, (next a).wp allow post (⟨q, a⟩ :: trace)

/-- Every question of the trace was allowed when it was asked. -/
def Allowed (allow : Trace Q A → Q → Prop) : Trace Q A → Prop
  | [] => True
  | x :: older => allow older x.1 ∧ Allowed allow older

theorem allowed_mid {newer older : Trace Q A} {x : (q : Q) × A q}
    (h : Allowed allow (newer ++ x :: older)) : allow older x.1 := by
  induction newer with
  | nil => exact h.1
  | cons y newer ih => exact ih h.2

/-- What is proved by `wp` holds of every run. -/
theorem run_of_wp (hwp : p.wp allow post trace) (htrace : Allowed allow trace) :
    post (p.run env trace).1 (p.run env trace).2 ∧ Allowed allow (p.run env trace).2 := by
  induction p generalizing trace with
  | ret | raise => exact ⟨hwp, htrace⟩
  | ask q next ih => exact ih _ (hwp.2 _) ⟨hwp.1, htrace⟩

/-! ## Rules -/

theorem wp_mono {post' : Except ε α → Trace Q A → Prop} (hwp : p.wp allow post trace)
    (himp : ∀ r trace, post r trace → post' r trace) : p.wp allow post' trace := by
  induction p generalizing trace with
  | ret | raise => exact himp _ _ hwp
  | ask q next ih => exact ⟨hwp.1, fun a => ih a (hwp.2 a)⟩

theorem wp_allow {allow' : Trace Q A → Q → Prop} (hwp : p.wp allow post trace)
    (himp : ∀ trace q, allow trace q → allow' trace q) : p.wp allow' post trace := by
  induction p generalizing trace with
  | ret | raise => exact hwp
  | ask q next ih => exact ⟨himp _ _ hwp.1, fun a => ih a (hwp.2 a)⟩

/-- The condition of a first part, given that of the second. -/
def then_ (post : Except ε β → Trace Q A → Prop) (f : α → Prog Q A ε β)
    (allow : Trace Q A → Q → Prop) : Except ε α → Trace Q A → Prop
  | .ok a, trace => (f a).wp allow post trace
  | .error e, trace => post (.error e) trace

theorem wp_bind {post : Except ε β → Trace Q A → Prop} :
    (p >>= f).wp allow post trace ↔ p.wp allow (then_ post f allow) trace := by
  change (p.bind f).wp allow post trace ↔ _
  induction p generalizing trace with
  | ret | raise => exact Iff.rfl
  | ask q next ih => exact and_congr_right fun _ => forall_congr' fun a => ih a

theorem wp_mapError {g : ε → ε'} {post : Except ε' α → Trace Q A → Prop} :
    (p.mapError g).wp allow post trace ↔
      p.wp allow (fun r trace => post (r.mapError g) trace) trace := by
  induction p generalizing trace with
  | ret | raise => exact Iff.rfl
  | ask q next ih => exact and_congr_right fun _ => forall_congr' fun a => ih a

theorem wp_attempt {post : Except ε' (Except ε α) → Trace Q A → Prop} :
    (p.attempt : Prog Q A ε' (Except ε α)).wp allow post trace ↔
      p.wp allow (fun r trace => post (.ok r) trace) trace := by
  induction p generalizing trace with
  | ret | raise => exact Iff.rfl
  | ask q next ih => exact and_congr_right fun _ => forall_congr' fun a => ih a

theorem wp_ofExcept {x : Except ε α} : (ofExcept x : Prog Q A ε α).wp allow post trace ↔
    post x trace := by
  cases x <;> exact Iff.rfl

theorem wp_require {c : Prop} [Decidable c] {e : ε} {post : Except ε Unit → Trace Q A → Prop}
    (hok : c → post (.ok ()) trace) (herror : ¬ c → post (.error e) trace) :
    (require c e : Prog Q A ε Unit).wp allow post trace := by
  unfold require
  by_cases hc : c
  · rw [if_pos hc]
    exact hok hc
  · rw [if_neg hc]
    exact herror hc

theorem wp_require_then {c : Prop} [Decidable c] {e : ε} {f : Unit → Prog Q A ε β}
    {post : Except ε β → Trace Q A → Prop} (herror : ¬ c → post (.error e) trace)
    (hok : c → (f ()).wp allow post trace) : (require c e >>= f).wp allow post trace :=
  wp_bind.mpr (wp_require hok herror)

theorem wp_ofExcept_then {x : Except ε α} {post : Except ε β → Trace Q A → Prop}
    (herror : ∀ e, x = .error e → post (.error e) trace)
    (hok : ∀ a, x = .ok a → (f a).wp allow post trace) :
    (ofExcept x >>= f).wp allow post trace := by
  rw [wp_bind, wp_ofExcept]
  cases x with
  | error e => exact herror e rfl
  | ok a => exact hok a rfl

/-- A turn of a loop keeps an invariant and lowers a measure, or it ends as `post` says. -/
def turn (I : σ → Trace Q A → Prop) (m : σ → ℕ) (post : Except ε (Option α) → Trace Q A → Prop)
    (s : σ) : Except ε (σ ⊕ α) → Trace Q A → Prop
  | .ok (.inl s'), trace => I s' trace ∧ m s' < m s
  | .ok (.inr a), trace => post (.ok (some a)) trace
  | .error e, trace => post (.error e) trace

/-- A loop does not run out of fuel if the measure is below it. -/
theorem wp_iterate {body : σ → Prog Q A ε (σ ⊕ α)} {I : σ → Trace Q A → Prop} {m : σ → ℕ}
    {post : Except ε (Option α) → Trace Q A → Prop}
    (hbody : ∀ s trace, I s trace → (body s).wp allow (turn I m post s) trace)
    {fuel : ℕ} {s : σ} (hI : I s trace)
    (hfuel : m s < fuel ∨ ∀ s trace, I s trace → post (.ok none) trace) :
    (iterate body fuel s).wp allow post trace := by
  induction fuel generalizing s trace with
  | zero =>
    rcases hfuel with hfuel | hfuel
    · exact absurd hfuel (Nat.not_lt_zero _)
    · exact hfuel s trace hI
  | succ fuel ih =>
    change ((body s) >>= _ : Prog Q A ε (Option α)).wp allow post trace
    rw [wp_bind]
    apply wp_mono (hbody s trace hI)
    rintro (e | s' | a) trace' h
    · exact h
    · exact ih h.1 (hfuel.imp_left fun hlt => by have := h.2; omega)
    · exact h

/-- A turn of a loop that is counted. -/
def turnTo (I : σ → Trace Q A → Prop) (post : Except ε (Option α) → Trace Q A → Prop) :
    Except ε (σ ⊕ α) → Trace Q A → Prop
  | .ok (.inl s), trace => I s trace
  | .ok (.inr a), trace => post (.ok (some a)) trace
  | .error e, trace => post (.error e) trace

/-- What is known of the state may depend on how many turns led to it. -/
theorem wp_iterate_counted {body : σ → Prog Q A ε (σ ⊕ α)} {I : ℕ → σ → Trace Q A → Prop}
    {post : Except ε (Option α) → Trace Q A → Prop} {fuel : ℕ}
    (hbody : ∀ n s trace, I n s trace → (body s).wp allow (turnTo (I (n + 1)) post) trace)
    (hend : ∀ s trace, I fuel s trace → post (.ok none) trace) {s : σ} (hI : I 0 s trace) :
    (iterate body fuel s).wp allow post trace := by
  have hloop : ∀ left n s trace, n + left = fuel → I n s trace →
      (iterate body left s).wp allow post trace := by
    intro left
    induction left with
    | zero =>
      rintro n s trace rfl hI
      exact hend s trace hI
    | succ left ih =>
      intro n s trace hn hI
      change ((body s) >>= _ : Prog Q A ε (Option α)).wp allow post trace
      rw [wp_bind]
      apply wp_mono (hbody n s trace hI)
      rintro (e | s' | a) trace' h
      · exact h
      · exact ih (n + 1) s' trace' (by omega) h
      · exact h
  exact hloop fuel 0 s trace (by omega) hI

theorem run_bind : (p >>= f).run env trace = match p.run env trace with
    | (.ok a, trace) => (f a).run env trace
    | (.error e, trace) => (.error e, trace) := by
  change (p.bind f).run env trace = _
  induction p generalizing trace with
  | ret | raise => rfl
  | ask q next ih => exact ih _

/-! ## Programs within programs -/

/-- A program whose questions are some of another interface's. -/
def embed {Q' : Type} {A' : Q' → Type} (lift : Q → Q') (back : ∀ q, A' (lift q) → A q) :
    Prog Q A ε α → Prog Q' A' ε α
  | ret a => ret a
  | raise e => raise e
  | ask q next => ask (lift q) fun a => (next (back q a)).embed lift back

/-- A result that some answers lead to. -/
def CanEnd : Prog Q A ε α → Except ε α → Prop
  | ret a, r => r = .ok a
  | raise e, r => r = .error e
  | ask _ next, r => ∃ a, (next a).CanEnd r

theorem canEnd_of_wp {P : Except ε α → Prop} {r : Except ε α}
    (hwp : p.wp allow (fun r _ => P r) trace) (hend : p.CanEnd r) : P r := by
  induction p generalizing trace with
  | ret | raise =>
    cases hend
    exact hwp
  | ask q next ih =>
    obtain ⟨a, hend⟩ := hend
    exact ih a (hwp.2 a) hend

/-- An embedded program ends as it can end alone, behind questions of its own. -/
theorem wp_embed {Q' : Type} {A' : Q' → Type} {lift : Q → Q'} {back : ∀ q, A' (lift q) → A q}
    {allow : Trace Q' A' → Q' → Prop} {post : Except ε α → Trace Q' A' → Prop}
    {trace : Trace Q' A'} (hallow : ∀ trace q, allow trace (lift q))
    (hpost : ∀ r newer, (∀ x ∈ newer, ∃ q, x.1 = lift q) → p.CanEnd r →
      post r (newer ++ trace)) :
    (p.embed lift back).wp allow post trace := by
  induction p generalizing trace with
  | ret a => exact hpost _ [] (by simp) rfl
  | raise e => exact hpost _ [] (by simp) rfl
  | ask q next ih =>
    refine ⟨hallow _ _, fun a => ih (back q a) ?_⟩
    intro r newer hnewer hend
    have hmore := hpost r (newer ++ [⟨lift q, a⟩]) ?_ ⟨back q a, hend⟩
    · simpa using hmore
    · intro x hx
      rcases List.mem_append.mp hx with hx | hx
      · exact hnewer x hx
      · rw [List.mem_singleton] at hx
        exact ⟨q, by rw [hx]⟩

end Prog

end Exchanges
