import Mathlib.Data.Fintype.EquivFin
import Mathlib.Data.Set.Finite.List
import Mathlib.Logic.Relation
import Mathlib.Order.WellFounded

/-!
# Reachability

What a relation reaches from a set, a search with a worklist that collects it, and orders that
rule out cycles.
-/
namespace Reachability

open Relation

variable {α : Type*} {R R₁ R₂ : α → α → Prop} {S T P : Set α} {x y : α}

def reached (R : α → α → Prop) (S : Set α) : Set α := {x | ∃ s ∈ S, ReflTransGen R s x}

theorem subset_reached : S ⊆ reached R S := fun x hx => ⟨x, hx, .refl⟩

theorem reached_step (hx : x ∈ reached R S) (h : R x y) : y ∈ reached R S := by
  obtain ⟨s, hs, hsx⟩ := hx
  exact ⟨s, hs, hsx.tail h⟩

/-- The least set above `S` that the relation does not leave. -/
theorem reached_least (hS : S ⊆ P) (hP : ∀ x ∈ P, ∀ y, R x y → y ∈ P) : reached R S ⊆ P := by
  rintro x ⟨s, hs, hsx⟩
  induction hsx with
  | refl => exact hS hs
  | tail _ hstep ih => exact hP _ ih _ hstep

theorem reached_subset_iff : reached R S ⊆ reached R T ↔ S ⊆ reached R T :=
  ⟨fun h => subset_reached.trans h, fun h => reached_least h fun _ hx _ => reached_step hx⟩

/-- Two relations that agree on a set they do not leave reach the same from it. -/
theorem reached_congr (hS : S ⊆ P) (hP : ∀ x ∈ P, ∀ y, R₁ x y → y ∈ P)
    (hagree : ∀ x ∈ P, ∀ y, R₁ x y ↔ R₂ x y) : reached R₁ S = reached R₂ S := by
  have hle : reached R₁ S ⊆ P := reached_least hS hP
  apply Set.Subset.antisymm
  · have hboth : reached R₁ S ⊆ {x | x ∈ P ∧ x ∈ reached R₂ S} := by
      apply reached_least
      · exact fun x hx => ⟨hS hx, subset_reached hx⟩
      · rintro x ⟨hx, hreach⟩ y hxy
        exact ⟨hP x hx y hxy, reached_step hreach ((hagree x hx y).mp hxy)⟩
    exact fun x hx => (hboth hx).2
  · apply reached_least subset_reached
    intro x hx y hxy
    exact reached_step hx ((hagree x (hle hx) y).mpr hxy)

/-! ## A search with a worklist -/

section Search

variable {start result : Set α} {stack rest ys : List α}

/-- What a search that began at `start` has found, and what it still has to look at. -/
structure Explored (R : α → α → Prop) (start result : Set α) (stack : List α) : Prop where
  found : ∀ x ∈ result, x ∈ reached R start
  waiting : ∀ x ∈ stack, x ∈ reached R start
  started : ∀ x ∈ start, x ∈ result ∨ x ∈ stack
  followed : ∀ x ∈ result, ∀ y, R x y → y ∈ result ∨ y ∈ stack

theorem Explored.init (hstack : ∀ x, x ∈ start ↔ x ∈ stack) : Explored R start ∅ stack where
  found _ hx := hx.elim
  waiting x hx := subset_reached ((hstack x).mpr hx)
  started x hx := Or.inr ((hstack x).mp hx)
  followed _ hx := hx.elim

/-- An element found before is dropped. -/
theorem Explored.skip (h : Explored R start result (x :: rest)) (hx : x ∈ result) :
    Explored R start result rest where
  found := h.found
  waiting y hy := h.waiting y (List.mem_cons_of_mem _ hy)
  started y hy := by
    rcases h.started y hy with hr | hs
    · exact Or.inl hr
    · rcases List.mem_cons.mp hs with rfl | hs
      · exact Or.inl hx
      · exact Or.inr hs
  followed y hy z hyz := by
    rcases h.followed y hy z hyz with hr | hs
    · exact Or.inl hr
    · rcases List.mem_cons.mp hs with rfl | hs
      · exact Or.inl hx
      · exact Or.inr hs

/-- A new element is found, and its successors wait. -/
theorem Explored.visit (h : Explored R start result (x :: rest)) (hys : ∀ y, R x y ↔ y ∈ ys) :
    Explored R start (insert x result) (ys ++ rest) where
  found y hy := by
    rcases hy with rfl | hy
    · exact h.waiting y List.mem_cons_self
    · exact h.found y hy
  waiting y hy := by
    rcases List.mem_append.mp hy with hy | hy
    · exact reached_step (h.waiting x List.mem_cons_self) ((hys y).mpr hy)
    · exact h.waiting y (List.mem_cons_of_mem _ hy)
  started y hy := by
    rcases h.started y hy with hr | hs
    · exact Or.inl (Or.inr hr)
    · rcases List.mem_cons.mp hs with rfl | hs
      · exact Or.inl (Or.inl rfl)
      · exact Or.inr (List.mem_append_right _ hs)
  followed y hy z hyz := by
    rcases hy with rfl | hy
    · exact Or.inr (List.mem_append_left _ ((hys z).mp hyz))
    · rcases h.followed y hy z hyz with hr | hs
      · exact Or.inl (Or.inr hr)
      · rcases List.mem_cons.mp hs with rfl | hs
        · exact Or.inl (Or.inl rfl)
        · exact Or.inr (List.mem_append_right _ hs)

theorem Explored.done (h : Explored R start result []) : result = reached R start := by
  apply Set.Subset.antisymm h.found
  apply reached_least
  · exact fun s hs => (h.started s hs).resolve_right (by simp)
  · exact fun y hy z hyz => (h.followed y hy z hyz).resolve_right (by simp)

end Search

/-! ## Cycles -/

def Acyclic (R : α → α → Prop) : Prop := ∀ x, ¬ TransGen R x x

/-- Successors stand behind their element, and none stands there twice. -/
inductive Ordered (R : α → α → Prop) : List α → Prop
  | nil : Ordered R []
  | cons {x l} : x ∉ l → (∀ y, R x y → y ∈ l) → Ordered R l → Ordered R (x :: l)

theorem Ordered.closed {l : List α} (h : Ordered R l) : ∀ x ∈ l, ∀ y, R x y → y ∈ l := by
  induction h with
  | nil => simp
  | cons _ hx _ ih =>
    intro z hz y hzy
    rcases List.mem_cons.mp hz with rfl | hz
    · exact List.mem_cons_of_mem _ (hx y hzy)
    · exact List.mem_cons_of_mem _ (ih z hz y hzy)

theorem TransGen.mem (hP : ∀ x ∈ P, ∀ y, R x y → y ∈ P) (hx : x ∈ P) (h : TransGen R x y) :
    y ∈ P := by
  induction h with
  | single h => exact hP _ hx _ h
  | tail _ h ih => exact hP _ ih _ h

theorem Ordered.irrefl {l : List α} (h : Ordered R l) : ∀ x ∈ l, ¬ TransGen R x x := by
  induction h with
  | nil => simp
  | @cons x l hx hstep hl ih =>
    intro z hz hcycle
    rcases List.mem_cons.mp hz with rfl | hz
    · obtain ⟨y, hy, hback⟩ := TransGen.head'_iff.mp hcycle
      have hmem : ∀ w, ReflTransGen R y w → w ∈ l := by
        intro w hw
        induction hw with
        | refl => exact hstep y hy
        | tail _ h ihw => exact hl.closed _ ihw _ h
      exact hx (hmem _ hback)
    · exact ih z hz hcycle

/-- A relation is acyclic when it is so inside and outside a set it does not leave. -/
theorem acyclic_of_split (hP : ∀ x ∈ P, ∀ y, R x y → y ∈ P)
    (hin : ∀ x ∈ P, ∀ y, R x y → R₂ x y) (hout : ∀ x, x ∉ P → ∀ y, R x y → R₁ x y)
    (h₁ : Acyclic R₁) (h₂ : Acyclic R₂) : Acyclic R := by
  intro x hcycle
  by_cases hx : x ∈ P
  · have hinside : ∀ y, TransGen R x y → TransGen R₂ x y := by
      intro y hy
      induction hy with
      | single h => exact .single (hin x hx _ h)
      | tail hxz h ih => exact ih.tail (hin _ (TransGen.mem hP hx hxz) _ h)
    exact h₂ x (hinside x hcycle)
  · have houtside : ∀ y, TransGen R x y → y ∉ P → TransGen R₁ x y := by
      intro y hy
      induction hy with
      | single h => exact fun _ => .single (hout x hx _ h)
      | tail _ h ih =>
        intro hy
        have hz := fun hz => hy (hP _ hz _ h)
        exact (ih hz).tail (hout _ hz _ h)
    exact h₁ x (houtside x hcycle hx)

/-- A finite set that an acyclic relation starts from has an element nothing leads to. -/
theorem exists_source {l : List α} (h : Acyclic R) (hl : l ≠ []) (hR : ∀ x y, R x y → x ∈ l) :
    ∃ x ∈ l, ∀ y, ¬ R y x := by
  let r : {x // x ∈ l} → {x // x ∈ l} → Prop := fun a b => TransGen R a.1 b.1
  have : Finite {x // x ∈ l} := l.finite_toSet.to_subtype
  have : IsTrans _ r := ⟨fun _ _ _ => TransGen.trans⟩
  have : Std.Irrefl r := ⟨fun a => h a.1⟩
  have hwf : WellFounded r := Finite.wellFounded_of_trans_of_irrefl r
  obtain ⟨a, ha⟩ := List.exists_mem_of_ne_nil l hl
  obtain ⟨m, -, hm⟩ := hwf.has_min Set.univ ⟨⟨a, ha⟩, trivial⟩
  exact ⟨m.1, m.2, fun y hy => hm ⟨y, hR y _ hy⟩ trivial (.single hy)⟩

end Reachability
