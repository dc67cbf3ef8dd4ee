import Mathlib.Data.List.Chain

/-!
# Functions that act between separators

A function on lists that leaves one element in its place and works on what is on either side.
-/
namespace Separators

variable {α : Type*} {f : List α → List α} {c : α} {s t : List α}

structure ActsBetween (f : List α → List α) (c : α) : Prop where
  split : ∀ s t, f (s ++ c :: t) = f s ++ c :: f t
  mem : ∀ s, c ∈ f s → c ∈ s
  nonempty : ∀ s, f s = [] → s = []

/-- No two separators next to each other. -/
def Single (c : α) (s : List α) : Prop := s.IsChain fun a b => ¬ (a = c ∧ b = c)

theorem single_of_not_mem (h : c ∉ s) : Single c s := by
  induction s with
  | nil => exact .nil
  | cons a s ih =>
    refine List.isChain_cons.mpr ⟨?_, ih fun hc => h (List.mem_cons_of_mem _ hc)⟩
    rintro b - ⟨rfl, -⟩
    exact h List.mem_cons_self

theorem single_cons : Single c (c :: s) ↔ s.head? ≠ some c ∧ Single c s := by
  rw [Single, List.isChain_cons]
  apply and_congr_left'
  constructor
  · exact fun h hhead => h c hhead ⟨rfl, rfl⟩
  · rintro h b hb ⟨-, rfl⟩
    exact h hb

theorem Single.append (hs : Single c s) (ht : Single c t)
    (hjoin : s.getLast? ≠ some c ∨ t.head? ≠ some c) : Single c (s ++ t) := by
  refine List.isChain_append.mpr ⟨hs, ht, ?_⟩
  rintro a ha b hb ⟨rfl, rfl⟩
  rcases hjoin with hjoin | hjoin
  · exact hjoin ha
  · exact hjoin hb

namespace ActsBetween

variable (h : ActsBetween f c)
include h

theorem nil (hmem : c ∉ s) : c ∉ f s := fun hc => hmem (h.mem s hc)

theorem head (hhead : (f s).head? = some c) : s.head? = some c := by
  have hmem : c ∈ s := h.mem s (List.mem_of_head? hhead)
  obtain ⟨a, b, rfl, ha⟩ := List.eq_append_cons_of_mem hmem
  rw [h.split] at hhead
  cases hfa : f a with
  | nil =>
    rw [h.nonempty a hfa]
    rfl
  | cons d rest =>
    rw [hfa] at hhead
    obtain rfl : d = c := by simpa using hhead
    exact (ha (h.mem a (hfa ▸ List.mem_cons_self))).elim

theorem last (hlast : (f s).getLast? = some c) : s.getLast? = some c := by
  have hmem : c ∈ s.reverse := List.mem_reverse.mpr (h.mem s (List.mem_of_getLast? hlast))
  obtain ⟨b, a, hs, hb⟩ := List.eq_append_cons_of_mem hmem
  obtain rfl : s = a.reverse ++ c :: b.reverse := by
    rw [← List.reverse_reverse s, hs]
    simp
  rw [h.split] at hlast
  cases hfb : f b.reverse with
  | nil =>
    rw [h.nonempty _ hfb]
    simp
  | cons d rest =>
    rw [hfb, List.getLast?_append_of_ne_nil _ (by simp), List.getLast?_cons_cons, ← hfb] at hlast
    have hend : c ∈ f b.reverse := List.mem_of_getLast? hlast
    exact (hb (List.mem_reverse.mp (h.mem _ hend))).elim

/-- Separators that were apart stay apart. -/
theorem single (hs : Single c s) : Single c (f s) := by
  induction hlen : s.length using Nat.strong_induction_on generalizing s with
  | _ n ih =>
    by_cases hmem : c ∈ s
    · obtain ⟨a, b, rfl, ha⟩ := List.eq_append_cons_of_mem hmem
      obtain ⟨hhead, hb⟩ := single_cons.mp (List.IsChain.right_of_append hs)
      have hfb : Single c (f b) := ih b.length (by simp at hlen; omega) hb rfl
      rw [h.split]
      apply Single.append (single_of_not_mem (h.nil ha))
      · exact single_cons.mpr ⟨fun hc => hhead (h.head hc), hfb⟩
      · exact Or.inl fun hc => h.nil ha (List.mem_of_getLast? hc)
    · exact single_of_not_mem (h.nil hmem)

end ActsBetween

end Separators
