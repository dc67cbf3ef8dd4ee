import FetchNow.Theory.TieBreaks
import Mathlib.Data.List.Lex
import Mathlib.Data.Prod.Lex
import Mathlib.Order.Compare
import Mathlib.Order.WithBot

/-!
# Comparators

A comparator may compare by a key. A chain of them compares by the tuple of the keys, and sorting
by one sorts by its key.
-/
namespace Comparators

open FetchNow.TieBreaks

variable {α β κ ρ : Type*} [LinearOrder α] [LinearOrder β] [LinearOrder κ]

/-- The comparator compares by the key. -/
structure ComparesBy (compare : ρ → ρ → Ordering) (key : ρ → κ) : Prop where
  lt_iff : ∀ x y, compare x y = .lt ↔ key x < key y
  gt_iff : ∀ x y, compare x y = .gt ↔ key y < key x

/-- What is absent comes last. -/
def nullsLast (compare : α → α → Ordering) : Option α → Option α → Ordering
  | none, none => .eq
  | none, some _ => .gt
  | some _, none => .lt
  | some a, some b => compare a b

def orTop : Option α → WithTop α
  | none => ⊤
  | some a => a

section Rules

variable {compare : ρ → ρ → Ordering} {key : ρ → κ} {first second : ρ → ρ → Ordering} {a : ρ → α}
  {b : ρ → β} {x y : ρ}

theorem comparesBy_cmp (key : ρ → κ) : ComparesBy (fun x y => cmp (key x) (key y)) key :=
  ⟨fun _ _ => cmp_eq_lt_iff _ _, fun _ _ => cmp_eq_gt_iff _ _⟩

/-- Lists are compared along the order of the runtime, which decides in its own way. -/
theorem comparesBy_list (key : ρ → List ℕ) : ComparesBy (fun x y => cmp (key x) (key y)) key := by
  have hlt : ∀ s t : List ℕ, cmp s t = .lt ↔ List.Lex (· < ·) s t := by
    intro s t
    unfold cmp cmpUsing
    split
    · rename_i h
      exact iff_of_true rfl h
    · rename_i h
      refine iff_of_false ?_ h
      split <;> nofun
  have hgt : ∀ s t : List ℕ, cmp s t = .gt ↔ List.Lex (· < ·) t s := by
    intro s t
    unfold cmp cmpUsing
    split
    · rename_i h
      exact iff_of_false nofun (lt_asymm (α := List ℕ) h)
    · split
      · rename_i h
        exact iff_of_true rfl h
      · rename_i h
        exact iff_of_false nofun h
  exact ⟨fun _ _ => hlt _ _, fun _ _ => hgt _ _⟩

theorem ComparesBy.flip (h : ComparesBy compare key) :
    ComparesBy (fun x y => compare y x) fun x => OrderDual.toDual (key x) :=
  ⟨fun x y => h.lt_iff y x, fun x y => h.gt_iff y x⟩

theorem ComparesBy.eq_iff (h : ComparesBy compare key) : compare x y = .eq ↔ key x = key y := by
  have hlt := h.lt_iff x y
  have hgt := h.gt_iff x y
  rcases lt_trichotomy (key x) (key y) with hkey | hkey | hkey
  · rw [hlt.mpr hkey]
    exact iff_of_false nofun hkey.ne
  · refine iff_of_true ?_ hkey
    cases hcompare : compare x y with
    | eq => rfl
    | lt => exact absurd hkey (hlt.mp hcompare).ne
    | gt => exact absurd hkey (hgt.mp hcompare).ne'
  · rw [hgt.mpr hkey]
    exact iff_of_false nofun hkey.ne'

/-- The first difference decides. -/
theorem ComparesBy.chain (h : ComparesBy first a) (h' : ComparesBy second b) :
    ComparesBy (fun x y => (first x y).then (second x y)) fun x => toLex (a x, b x) := by
  constructor
  · intro x y
    rw [Prod.Lex.toLex_lt_toLex, Ordering.then_eq_lt, h.lt_iff, h.eq_iff, h'.lt_iff]
  · intro x y
    rw [Prod.Lex.toLex_lt_toLex, Ordering.then_eq_gt, h.gt_iff, h.eq_iff, h'.gt_iff, eq_comm]

omit [LinearOrder α] in
theorem comparesBy_nullsLast {inner : α → α → Ordering} {rank : α → β}
    (h : ComparesBy inner rank) (f : ρ → Option α) :
    ComparesBy (fun x y => nullsLast inner (f x) (f y)) fun x => orTop ((f x).map rank) := by
  constructor
  · intro x y
    cases f x with
    | none => cases f y <;> exact iff_of_false nofun not_top_lt
    | some a =>
      cases f y with
      | none => exact iff_of_true rfl (WithTop.coe_lt_top _)
      | some b => exact (h.lt_iff a b).trans WithTop.coe_lt_coe.symm
  · intro x y
    cases f y with
    | none => cases f x <;> exact iff_of_false nofun not_top_lt
    | some b =>
      cases f x with
      | none => exact iff_of_true rfl (WithTop.coe_lt_top _)
      | some a => exact (h.gt_iff a b).trans WithTop.coe_lt_coe.symm

end Rules

/-! ## Sorting -/

section Sorting

variable {compare : ρ → ρ → Ordering} {key : ρ → κ} {l l' : List ρ} {x y : ρ}

/-- A stable sort by a comparator. -/
def sortBy (compare : ρ → ρ → Ordering) (l : List ρ) : List ρ :=
  l.insertionSort fun a b => compare a b ≠ .gt

theorem sortBy_perm (compare : ρ → ρ → Ordering) (l : List ρ) : (sortBy compare l).Perm l :=
  List.perm_insertionSort _ l

theorem ComparesBy.le_iff (h : ComparesBy compare key) : compare x y ≠ .gt ↔ key x ≤ key y := by
  rw [Ne, h.gt_iff, not_lt]

theorem ComparesBy.sorted (h : ComparesBy compare key) (l : List ρ) :
    Sorted key (sortBy compare l) := by
  have htrans : IsTrans ρ fun a b => compare a b ≠ .gt :=
    ⟨fun _ _ _ hab hbc => h.le_iff.mpr ((h.le_iff.mp hab).trans (h.le_iff.mp hbc))⟩
  have htotal : Std.Total fun a b : ρ => compare a b ≠ .gt :=
    ⟨fun a b => (le_total (key a) (key b)).imp h.le_iff.mpr h.le_iff.mpr⟩
  exact (List.pairwise_insertionSort _ l).imp h.le_iff.mp

/-- A comparator that tells all rows apart makes one list of them. -/
theorem ComparesBy.sortBy_eq (h : ComparesBy compare key) (hp : l.Perm l')
    (hties : ∀ x ∈ l, ∀ y ∈ l, key x = key y → x = y) : sortBy compare l = sortBy compare l' := by
  have hperm := (sortBy_perm compare l).trans (hp.trans (sortBy_perm compare l').symm)
  apply (h.sorted l).eq_of_ties (h.sorted l') hperm
  intro x hx y hy
  rw [(sortBy_perm compare l).mem_iff] at hx hy
  exact hties x hx y hy

/-- The first row is before all others. -/
theorem ComparesBy.head_le (h : ComparesBy compare key) (hhead : (sortBy compare l).head? = some x)
    (hy : y ∈ l) : key x ≤ key y := by
  have hsorted := h.sorted l
  have hmem := (sortBy_perm compare l).mem_iff.mpr hy
  cases hrows : sortBy compare l with
  | nil =>
    rw [hrows] at hmem
    cases hmem
  | cons first rest =>
    rw [hrows] at hhead hsorted hmem
    cases hhead
    rcases List.mem_cons.mp hmem with rfl | hmem
    · exact le_rfl
    · exact (List.pairwise_cons.mp hsorted).1 y hmem

/-- A strict order on all rows, and a total one on those of a list. -/
structure StrictTotal (compare : ρ → ρ → Ordering) (l : List ρ) : Prop where
  irrefl : ∀ x, compare x x = .eq
  swap : ∀ x y, compare y x = (compare x y).swap
  trans : ∀ x y z, compare x y = .lt → compare y z = .lt → compare x z = .lt
  total : ∀ x ∈ l, ∀ y ∈ l, x ≠ y → compare x y = .lt ∨ compare y x = .lt

theorem ComparesBy.strictTotal (h : ComparesBy compare key)
    (hties : ∀ x ∈ l, ∀ y ∈ l, key x = key y → x = y) : StrictTotal compare l where
  irrefl x := h.eq_iff.mpr rfl
  swap x y := by
    cases hcompare : compare x y with
    | lt => exact (h.gt_iff y x).mpr ((h.lt_iff x y).mp hcompare)
    | eq => exact h.eq_iff.mpr (h.eq_iff.mp hcompare).symm
    | gt => exact (h.lt_iff y x).mpr ((h.gt_iff x y).mp hcompare)
  trans x y z hxy hyz := by
    rw [h.lt_iff] at *
    exact hxy.trans hyz
  total x hx y hy hne := by
    rw [h.lt_iff, h.lt_iff]
    exact lt_or_gt_of_ne fun heq => hne (hties x hx y hy heq)

end Sorting

end Comparators
