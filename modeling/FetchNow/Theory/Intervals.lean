import Mathlib.Data.Finset.Card
import Mathlib.Order.Interval.Finset.Nat
import Mathlib.Data.Finset.Union
import Mathlib.Tactic.ApplyFun

/-!
# Half-open intervals over the naturals

A list of intervals stands for the finite set it covers. A list is normal when its
intervals are nonempty, ascending and never touch; it is then determined by the set it
covers, and its length is the number of maximal runs of that set.
-/
namespace Intervals

/-- The half-open interval `[fst, snd)`. -/
abbrev Interval := ℕ × ℕ

def covered (l : List Interval) : Finset ℕ :=
  l.foldr (fun i acc => Finset.Ico i.1 i.2 ∪ acc) ∅

variable {l l₁ l₂ : List Interval} {i j : Interval} {a b c x : ℕ} {X Y : Finset ℕ}

@[simp] theorem covered_nil : covered [] = ∅ := rfl

@[simp] theorem covered_cons : covered (i :: l) = Finset.Ico i.1 i.2 ∪ covered l := rfl

theorem mem_covered : x ∈ covered l ↔ ∃ i ∈ l, i.1 ≤ x ∧ x < i.2 := by
  induction l with
  | nil => simp
  | cons i l ih => simp [ih]

theorem covered_append : covered (l₁ ++ l₂) = covered l₁ ∪ covered l₂ := by
  induction l₁ with
  | nil => simp
  | cons i l ih => simp [ih, Finset.union_assoc]

theorem covered_congr (h : ∀ i, i ∈ l₁ ↔ i ∈ l₂) : covered l₁ = covered l₂ := by
  ext x
  simp [mem_covered, h]

theorem covered_reverse : covered l.reverse = covered l := covered_congr (by simp)

/-- Empty intervals cover nothing. -/
theorem covered_filter_nonempty :
    covered (l.filter fun i => i.1 < i.2) = covered l := by
  ext x
  simp only [mem_covered, List.mem_filter, decide_eq_true_eq]
  constructor
  · rintro ⟨i, ⟨hi, _⟩, hb⟩
    exact ⟨i, hi, hb⟩
  · rintro ⟨i, hi, hb⟩
    exact ⟨i, ⟨hi, by omega⟩, hb⟩

/-! ## Maximal runs -/

/-- The members of a set whose predecessor is missing: one for each maximal run. -/
def leftEnds (X : Finset ℕ) : Finset ℕ := X.filter fun x => ∀ y ∈ X, y + 1 ≠ x

def components (X : Finset ℕ) : ℕ := (leftEnds X).card

theorem mem_leftEnds : x ∈ leftEnds X ↔ x ∈ X ∧ ∀ y ∈ X, y + 1 ≠ x := by
  simp [leftEnds]

/-- Lengthening a run by one never starts a new run; it can only swallow the next one. -/
theorem components_insert_succ (hx : x ∈ X) : components (insert (x + 1) X) ≤ components X := by
  apply Finset.card_le_card
  intro y hy
  rw [mem_leftEnds, Finset.mem_insert] at hy
  obtain ⟨rfl | hyX, hpred⟩ := hy
  · exact (hpred x (Finset.mem_insert_of_mem hx) rfl).elim
  · exact mem_leftEnds.mpr ⟨hyX, fun z hz => hpred z (Finset.mem_insert_of_mem hz)⟩

/-- Extending a nonempty prefix `[a, b)` to `[a, c)` never adds a run. -/
theorem components_extend (hab : a < b) (hbc : b ≤ c) :
    components (Finset.Ico a c ∪ X) ≤ components (Finset.Ico a b ∪ X) := by
  induction c, hbc using Nat.le_induction with
  | base => exact le_rfl
  | succ c hbc ih =>
    have hlast : c - 1 ∈ Finset.Ico a c ∪ X := by
      simp only [Finset.mem_union, Finset.mem_Ico]
      left
      omega
    have hsucc : Finset.Ico a (c + 1) ∪ X = insert (c - 1 + 1) (Finset.Ico a c ∪ X) := by
      ext y
      simp only [Finset.mem_union, Finset.mem_Ico, Finset.mem_insert]
      have : (a ≤ y ∧ y < c + 1) ↔ y = c - 1 + 1 ∨ (a ≤ y ∧ y < c) := by omega
      rw [this, or_assoc]
    rw [hsucc]
    exact (components_insert_succ hlast).trans ih

/-- One more point adds at most one run. -/
theorem components_insert_le : components (insert x X) ≤ components X + 1 := by
  have hsub : leftEnds (insert x X) ⊆ insert x (leftEnds X) := by
    intro y hy
    rw [mem_leftEnds, Finset.mem_insert] at hy
    obtain ⟨rfl | hyX, hpred⟩ := hy
    · exact Finset.mem_insert_self _ _
    · refine Finset.mem_insert_of_mem (mem_leftEnds.mpr ⟨hyX, fun z hz => ?_⟩)
      exact hpred z (Finset.mem_insert_of_mem hz)
  exact (Finset.card_le_card hsub).trans (Finset.card_insert_le _ _)

/-- There are no more runs than intervals, since a run begins where one of them does. -/
theorem components_covered_le : components (covered l) ≤ l.length := by
  have hsub : leftEnds (covered l) ⊆ (l.map Prod.fst).toFinset := by
    intro x hx
    obtain ⟨hmem, hpred⟩ := mem_leftEnds.mp hx
    obtain ⟨i, hi, hle, hlt⟩ := mem_covered.mp hmem
    have hstart : i.1 = x := by
      by_contra hne
      exact hpred (x - 1) (mem_covered.mpr ⟨i, hi, by omega, by omega⟩) (by omega)
    exact List.mem_toFinset.mpr (List.mem_map.mpr ⟨i, hi, hstart⟩)
  have hcard := (Finset.card_le_card hsub).trans (List.toFinset_card_le _)
  rwa [List.length_map] at hcard

/-! ## Normal lists -/

/-- Nonempty intervals in ascending order with a gap between neighbours. -/
structure Normal (l : List Interval) : Prop where
  nonempty : ∀ i ∈ l, i.1 < i.2
  separated : l.Pairwise fun i j => i.2 < j.1

theorem normal_singleton (h : a < b) : Normal [(a, b)] := ⟨by simpa using h, by simp⟩

theorem Normal.tail (h : Normal (i :: l)) : Normal l :=
  ⟨fun j hj => h.nonempty j (List.mem_cons_of_mem _ hj), (List.pairwise_cons.mp h.separated).2⟩

theorem Normal.head_lt (h : Normal (i :: l)) : i.1 < i.2 := h.nonempty i (by simp)

/-- Everything after the head of a normal list lies beyond the head's gap. -/
theorem Normal.head_gap (h : Normal (i :: l)) (hx : x ∈ covered l) : i.2 < x := by
  obtain ⟨j, hj, hjx, _⟩ := mem_covered.mp hx
  have := (List.pairwise_cons.mp h.separated).1 j hj
  omega

theorem leftEnds_cons (h : Normal (i :: l)) :
    leftEnds (covered (i :: l)) = insert i.1 (leftEnds (covered l)) := by
  have hlt := h.head_lt
  ext x
  simp only [mem_leftEnds, covered_cons, Finset.mem_insert, Finset.mem_union, Finset.mem_Ico]
  constructor
  · rintro ⟨hx | hx, hpred⟩
    · left
      by_contra hne
      exact hpred (x - 1) (Or.inl (by omega)) (by omega)
    · exact Or.inr ⟨hx, fun y hy => hpred y (Or.inr hy)⟩
  · rintro (rfl | ⟨hx, hpred⟩)
    · refine ⟨Or.inl (by omega), ?_⟩
      rintro y (hy | hy) heq
      · omega
      · have := h.head_gap hy
        omega
    · refine ⟨Or.inr hx, ?_⟩
      rintro y (hy | hy) heq
      · have := h.head_gap hx
        omega
      · exact hpred y hy heq

/-- A normal list has one interval for each maximal run of the set it covers. -/
theorem Normal.length_eq (h : Normal l) : l.length = components (covered l) := by
  induction l with
  | nil => rfl
  | cons i l ih =>
    have hnot : i.1 ∉ leftEnds (covered l) := by
      intro hi
      have := h.head_gap (mem_leftEnds.mp hi).1
      have := h.head_lt
      omega
    rw [components, leftEnds_cons h, Finset.card_insert_of_notMem hnot, List.length_cons,
      ih h.tail, components]

/-- The head of a normal list is the first run of the set. -/
theorem Normal.head_eq (h₁ : Normal (i :: l₁)) (h₂ : Normal (j :: l₂))
    (hc : covered (i :: l₁) = covered (j :: l₂)) : i = j := by
  have hi := h₁.head_lt
  have hj := h₂.head_lt
  have hmem : ∀ x, (i.1 ≤ x ∧ x < i.2) ∨ x ∈ covered l₁ ↔
      (j.1 ≤ x ∧ x < j.2) ∨ x ∈ covered l₂ := by
    intro x
    have := congrArg (x ∈ ·) hc
    simpa using this
  have gap₁ := fun x (hx : x ∈ covered l₁) => h₁.head_gap hx
  have gap₂ := fun x (hx : x ∈ covered l₂) => h₂.head_gap hx
  have hstart : i.1 = j.1 := by
    rcases (hmem i.1).mp (Or.inl (by omega)) with h | h <;>
      rcases (hmem j.1).mpr (Or.inl (by omega)) with h' | h'
    · omega
    · have := gap₁ _ h'
      omega
    · have := gap₂ _ h
      omega
    · have := gap₁ _ h'
      have := gap₂ _ h
      omega
  have hend : i.2 = j.2 := by
    rcases Nat.lt_trichotomy i.2 j.2 with hlt | heq | hgt
    · rcases (hmem i.2).mpr (Or.inl (by omega)) with h | h
      · omega
      · have := gap₁ _ h
        omega
    · exact heq
    · rcases (hmem j.2).mp (Or.inl (by omega)) with h | h
      · omega
      · have := gap₂ _ h
        omega
  exact Prod.ext hstart hend

/-- A normal list is determined by the set it covers. -/
theorem Normal.eq_of_covered_eq (h₁ : Normal l₁) (h₂ : Normal l₂)
    (hc : covered l₁ = covered l₂) : l₁ = l₂ := by
  induction l₁ generalizing l₂ with
  | nil =>
    cases l₂ with
    | nil => rfl
    | cons j l₂ =>
      have : j.1 ∈ covered (j :: l₂) := by simp [h₂.head_lt]
      rw [← hc] at this
      simp at this
  | cons i l₁ ih =>
    cases l₂ with
    | nil =>
      have : i.1 ∈ covered (i :: l₁) := by simp [h₁.head_lt]
      rw [hc] at this
      simp at this
    | cons j l₂ =>
      obtain rfl := h₁.head_eq h₂ hc
      have htail : covered l₁ = covered l₂ := by
        ext x
        have hx := congrArg (x ∈ ·) hc
        simp only [covered_cons, Finset.mem_union, Finset.mem_Ico, eq_iff_iff] at hx
        constructor
        · intro h
          have := h₁.head_gap h
          exact (hx.mp (Or.inr h)).resolve_left (by omega)
        · intro h
          have := h₂.head_gap h
          exact (hx.mpr (Or.inr h)).resolve_left (by omega)
      rw [ih h₁.tail h₂.tail htail]

/-- A normal list covers exactly `[a, b)` when it is that one interval. -/
theorem Normal.eq_singleton_iff (h : Normal l) (hab : a < b) :
    l = [(a, b)] ↔ covered l = Finset.Ico a b := by
  constructor
  · rintro rfl
    simp
  · intro hc
    exact h.eq_of_covered_eq (normal_singleton hab) (by simpa using hc)

/-! ## Merging an ascending list -/

/-- Add an interval to an accumulator that keeps its last interval at the head. -/
def mergeInto : List Interval → Interval → List Interval
  | [], i => [i]
  | last :: rest, i =>
    if last.2 < i.1 then i :: last :: rest else (last.1, max last.2 i.2) :: rest

theorem covered_mergeInto {acc : List Interval} (h : ∀ last ∈ acc.head?, last.1 ≤ i.1)
    (hacc : ∀ j ∈ acc, j.1 < j.2) :
    covered (mergeInto acc i) = covered acc ∪ Finset.Ico i.1 i.2 := by
  cases acc with
  | nil => simp [mergeInto]
  | cons last rest =>
    have hle := h last (by simp)
    have hlt := hacc last (by simp)
    ext x
    simp only [mergeInto]
    split
    · simp only [covered_cons, Finset.mem_union]
      tauto
    · simp only [covered_cons, Finset.mem_union, Finset.mem_Ico, lt_max_iff]
      constructor
      · rintro (⟨h1, h2⟩ | hx)
        · by_cases hx : x < last.2
          · exact Or.inl (Or.inl ⟨h1, hx⟩)
          · exact Or.inr ⟨by omega, by omega⟩
        · exact Or.inl (Or.inr hx)
      · rintro ((⟨h1, h2⟩ | hx) | ⟨h1, h2⟩)
        · exact Or.inl ⟨h1, Or.inl h2⟩
        · exact Or.inr hx
        · exact Or.inl ⟨by omega, Or.inr h2⟩

/-- The accumulator reversed is normal, and no interval of it starts after the bound `a`. -/
structure Merging (acc : List Interval) (a : ℕ) : Prop where
  nonempty : ∀ i ∈ acc, i.1 < i.2
  separated : acc.Pairwise fun i j => j.2 < i.1
  started : ∀ i ∈ acc, i.1 ≤ a

theorem Merging.normal {acc : List Interval} (h : Merging acc a) : Normal acc.reverse :=
  ⟨by simpa using h.nonempty, by simpa [List.pairwise_reverse] using h.separated⟩

theorem Merging.mergeInto {acc : List Interval} (h : Merging acc a) (ha : a ≤ i.1)
    (hi : i.1 < i.2) : Merging (mergeInto acc i) i.1 := by
  cases acc with
  | nil => exact ⟨by simpa [Intervals.mergeInto] using hi, by simp [Intervals.mergeInto],
      by simp [Intervals.mergeInto]⟩
  | cons last rest =>
    have hlast := h.started last (by simp)
    have hne := h.nonempty last (by simp)
    have hsep := List.pairwise_cons.mp h.separated
    have hrest : ∀ j ∈ rest, j.1 < j.2 ∧ j.2 < last.1 := fun j hj =>
      ⟨h.nonempty j (List.mem_cons_of_mem _ hj), hsep.1 j hj⟩
    by_cases hgap : last.2 < i.1
    · simp only [Intervals.mergeInto, hgap, if_true]
      refine ⟨?_, List.pairwise_cons.mpr ⟨?_, h.separated⟩, ?_⟩
      · rintro j hj
        rcases List.mem_cons.mp hj with rfl | hj
        · exact hi
        · exact h.nonempty j hj
      · intro j hj
        rcases List.mem_cons.mp hj with rfl | hj
        · exact hgap
        · have := hrest j hj
          omega
      · intro j hj
        rcases List.mem_cons.mp hj with rfl | hj
        · exact le_rfl
        · exact (h.started j hj).trans ha
    · simp only [Intervals.mergeInto, hgap, if_false]
      refine ⟨?_, List.pairwise_cons.mpr ⟨?_, hsep.2⟩, ?_⟩
      · intro j hj
        rcases List.mem_cons.mp hj with rfl | hj
        · simp only [lt_max_iff]
          exact Or.inl hne
        · exact (hrest j hj).1
      · exact hsep.1
      · intro j hj
        rcases List.mem_cons.mp hj with rfl | hj
        · exact hlast.trans ha
        · have := hrest j hj
          omega

/-- Merging nonempty intervals in ascending order of start yields, reversed, the normal list
of what they and the accumulator cover. -/
theorem foldl_mergeInto {acc : List Interval} (hacc : Merging acc a)
    (hne : ∀ i ∈ l, i.1 < i.2) (hsorted : l.Pairwise fun i j => i.1 ≤ j.1)
    (ha : ∀ i ∈ l, a ≤ i.1) :
    Normal (l.foldl mergeInto acc).reverse ∧
      covered (l.foldl mergeInto acc).reverse = covered acc ∪ covered l := by
  induction l generalizing acc a with
  | nil => exact ⟨hacc.normal, by simp [covered_reverse]⟩
  | cons i l ih =>
    have hsorted' := List.pairwise_cons.mp hsorted
    have hi := ha i (by simp)
    have hstep := hacc.mergeInto hi (hne i (by simp))
    obtain ⟨hnormal, hcover⟩ := ih hstep (fun j hj => hne j (List.mem_cons_of_mem _ hj))
      hsorted'.2 hsorted'.1
    refine ⟨hnormal, ?_⟩
    have hhead : ∀ last ∈ acc.head?, last.1 ≤ i.1 := fun last hlast =>
      (hacc.started last (List.mem_of_mem_head? hlast)).trans hi
    rw [List.foldl_cons, hcover, covered_mergeInto hhead hacc.nonempty, covered_cons,
      Finset.union_assoc]

end Intervals
