import FetchNow.Theory.Transactions
import Mathlib.Algebra.BigOperators.Group.List.Basic
import Mathlib.Algebra.GroupWithZero.Nat

/-!
# Counting semaphores

Any number of tasks share a pool of permits. Each step is one task's own: it sees the free permits
and its own state.
-/
namespace Semaphores

open Transactions

/-- The free permits, and the tasks in the order they started. -/
structure Pool (τ : Type*) where
  free : ℕ
  tasks : List τ

inductive Label (α : Type*) where
  | spawn
  | act (i : ℕ) (action : α)

/-- A task starts, or one of the tasks acts. -/
inductive Step {τ α : Type*} (fresh : τ → Prop) (act : α → ℕ × τ → ℕ × τ → Prop) :
    Label α → Pool τ → Pool τ → Prop
  | spawn {pool : Pool τ} {t : τ} (hfresh : fresh t) :
      Step fresh act .spawn pool ⟨pool.free, pool.tasks ++ [t]⟩
  | act {pool : Pool τ} {i : ℕ} {a : α} {t t' : τ} {free : ℕ} (hi : pool.tasks[i]? = some t)
      (hact : act a (pool.free, t) (free, t')) :
      Step fresh act (.act i a) pool ⟨free, pool.tasks.set i t'⟩

variable {τ α : Type*} {fresh : τ → Prop} {act : α → ℕ × τ → ℕ × τ → Prop} {I : τ → Prop}
  {held : τ → ℕ} {pool pool' pool₀ : Pool τ} {label : Label α} {N i : ℕ} {t t' : τ}
  {log : List (Commit (Label α) (Pool τ))}

/-- The free permits and those that tasks hold. -/
def Pool.total (held : τ → ℕ) (pool : Pool τ) : ℕ := pool.free + (pool.tasks.map held).sum

theorem sum_set {tasks : List τ} (hi : tasks[i]? = some t) :
    ((tasks.set i t').map held).sum + held t = (tasks.map held).sum + held t' := by
  induction tasks generalizing i with
  | nil => simp at hi
  | cons x tasks ih =>
    cases i with
    | zero =>
      obtain rfl : x = t := by simpa using hi
      simp only [List.set_cons_zero, List.map_cons, List.sum_cons]
      omega
    | succ i =>
      have hrest := ih (by simpa using hi)
      simp only [List.set_cons_succ, List.map_cons, List.sum_cons]
      omega

/-- What every task keeps holds of every task. -/
theorem forall_step (hfresh : ∀ t, fresh t → I t)
    (hact : ∀ {a f t f' t'}, I t → act a (f, t) (f', t') → I t')
    (h : ∀ t ∈ pool.tasks, I t) (hstep : Step fresh act label pool pool') :
    ∀ t ∈ pool'.tasks, I t := by
  cases hstep with
  | spawn ht =>
    intro u hu
    rcases List.mem_append.mp hu with hu | hu
    · exact h u hu
    · exact List.mem_singleton.mp hu ▸ hfresh _ ht
  | act hi ht =>
    intro u hu
    rcases List.mem_or_eq_of_mem_set hu with hu | rfl
    · exact h u hu
    · exact hact (h _ (List.mem_of_getElem? hi)) ht

/-- If no task creates or loses a permit, none is created or lost. -/
theorem total_step (hfresh : ∀ t, fresh t → held t = 0)
    (hact : ∀ {a f t f' t'}, t ∈ pool.tasks → act a (f, t) (f', t') → f + held t = f' + held t')
    (hstep : Step fresh act label pool pool') : pool'.total held = pool.total held := by
  cases hstep with
  | spawn ht => simp [Pool.total, hfresh _ ht]
  | @act _ i a u u' free hi ht =>
    have hlocal := hact (List.mem_of_getElem? hi) ht
    have hset := @sum_set _ held i u u' _ hi
    simp only [Pool.total]
    omega

/-- A task that can no longer act stays as it is. -/
theorem stays_step (hdone : ∀ {a f f' t'}, ¬ act a (f, t) (f', t')) (hi : pool.tasks[i]? = some t)
    (hstep : Step fresh act label pool pool') : pool'.tasks[i]? = some t := by
  cases hstep with
  | spawn =>
    rw [List.getElem?_append_left (List.getElem?_eq_some_iff.mp hi).1]
    exact hi
  | @act _ k a u u' free hk hact =>
    by_cases hik : i = k
    · subst hik
      obtain rfl : t = u := by rw [hi] at hk; injection hk
      exact absurd hact hdone
    · rw [List.getElem?_set_ne (Ne.symm hik)]
      exact hi

end Semaphores
