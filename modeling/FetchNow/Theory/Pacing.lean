import Mathlib.Algebra.Order.Field.Basic
import Mathlib.Algebra.BigOperators.Group.List.Basic
import Mathlib.Tactic.Linarith
import Mathlib.Tactic.Ring

/-!
# Paced deliveries

Amounts that are delivered one after the other, each not before its own time at a rate has gone by
since the one before it.
-/
namespace FetchNow.Pacing

variable {K : Type*} [Field K] [LinearOrder K]

/-- An amount that is delivered at a time. -/
structure Delivery (K : Type*) where
  time : K
  amount : K

/-- From a time on, every delivery has its time. -/
inductive Paced (rate : K) : K → List (Delivery K) → Prop where
  | nil (start : K) : Paced rate start []
  | cons {start : K} {d : Delivery K} {ds : List (Delivery K)} (hpos : 0 < d.amount)
      (h : d.amount ≤ rate * (d.time - start)) (hrest : Paced rate d.time ds) :
      Paced rate start (d :: ds)

/-- What is delivered after one time, up to another one. -/
def deliveredWithin (ds : List (Delivery K)) (t₁ t₂ : K) : K :=
  ((ds.filter fun d => decide (t₁ < d.time) && decide (d.time ≤ t₂)).map Delivery.amount).sum

variable {rate start t t₁ t₂ : K} {ds : List (Delivery K)} {d d₁ d₂ : Delivery K}

theorem deliveredWithin_cons : deliveredWithin (d :: ds) t₁ t₂ =
    (if t₁ < d.time ∧ d.time ≤ t₂ then d.amount else 0) + deliveredWithin ds t₁ t₂ := by
  by_cases h : t₁ < d.time ∧ d.time ≤ t₂
  · simp [deliveredWithin, h]
  · rw [if_neg h, zero_add, deliveredWithin, deliveredWithin, List.filter_cons_of_neg]
    simpa using h

variable [IsStrictOrderedRing K]

/-- Nothing is delivered before the start. -/
theorem Paced.lt_time (hrate : 0 < rate) (h : Paced rate start ds) : ∀ d ∈ ds, start < d.time := by
  induction h with
  | nil => simp
  | @cons start d ds hpos hle hrest ih =>
    have hlt : start < d.time := by
      by_contra hle'
      have hneg : rate * (d.time - start) ≤ 0 :=
        mul_nonpos_of_nonneg_of_nonpos hrate.le (by linarith)
      linarith
    intro d' hd'
    rcases List.mem_cons.mp hd' with rfl | hd'
    · exact hlt
    · exact hlt.trans (ih d' hd')

/-- From the start on, no more is delivered than the rate allows. -/
theorem Paced.from_start (hrate : 0 < rate) (h : Paced rate start ds) (ht : start ≤ t) :
    deliveredWithin ds start t ≤ rate * (t - start) := by
  induction h with
  | nil =>
    have hnonneg : 0 ≤ rate * (t - _) := mul_nonneg hrate.le (sub_nonneg.mpr ht)
    simpa [deliveredWithin] using hnonneg
  | @cons start d ds hpos hle hrest ih =>
    have hlater := (Paced.cons hpos hle hrest).lt_time hrate d List.mem_cons_self
    by_cases hd : d.time ≤ t
    · have hsame : deliveredWithin ds start t = deliveredWithin ds d.time t := by
        rw [deliveredWithin, deliveredWithin]
        congr 2
        apply List.filter_congr
        intro d' hd'
        have hlt := hrest.lt_time hrate d' hd'
        simp [hlt, hlater.trans hlt]
      have hbound := ih hd
      rw [deliveredWithin_cons, if_pos ⟨hlater, hd⟩, hsame]
      have hsplit : rate * (t - start) = rate * (d.time - start) + rate * (t - d.time) := by ring
      linarith
    · have hnone : deliveredWithin ds start t = 0 := by
        have hempty : (ds.filter fun d => decide (start < d.time) && decide (d.time ≤ t)) = [] := by
          apply List.filter_eq_nil_iff.mpr
          intro d' hd'
          have hlt := hrest.lt_time hrate d' hd'
          have hnot : ¬ d'.time ≤ t := by linarith
          simp [hnot]
        rw [deliveredWithin, hempty]
        simp
      rw [deliveredWithin_cons, if_neg fun h => hd h.2, hnone, add_zero]
      exact mul_nonneg hrate.le (sub_nonneg.mpr ht)

/-- Between two deliveries no more is delivered than the rate allows. -/
theorem Paced.between (hrate : 0 < rate) (h : Paced rate start ds) (h₁ : d₁ ∈ ds)
    (ht : d₁.time ≤ t) : deliveredWithin ds d₁.time t ≤ rate * (t - d₁.time) := by
  induction h with
  | nil => cases h₁
  | @cons start d ds hpos hle hrest ih =>
    rw [deliveredWithin_cons]
    rcases List.mem_cons.mp h₁ with rfl | h₁
    · rw [if_neg fun h => lt_irrefl _ h.1, zero_add]
      exact hrest.from_start hrate ht
    · have hlt := hrest.lt_time hrate d₁ h₁
      rw [if_neg fun h => lt_asymm hlt h.1, zero_add]
      exact ih h₁

end FetchNow.Pacing
