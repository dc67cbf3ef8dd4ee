import FetchNow.Theory.Transactions
import Mathlib.Data.List.Sort

/-!
# Batches

A batch selects rows by a condition, in some order and up to a limit, and then runs a step that
may raise on each of them by key. Without savepoints the first error ends the batch, so that a
batch succeeds exactly when every step would have succeeded on its own.
-/
namespace Batches

open Transactions

universe u v

variable {ε : Type v} {κ α : Type u}

/-! ## Selection -/

section Selection

variable {ι : Type*} [LinearOrder ι] {f : α → ι} {limit : Nat} {p : α → Bool} {a : α}
  {as : List α}

/-- `ORDER BY f LIMIT limit`. -/
def firstBy (f : α → ι) (limit : Nat) (as : List α) : List α :=
  (as.insertionSort fun a b => f a ≤ f b).take limit

theorem mem_of_mem_firstBy (h : a ∈ firstBy f limit as) : a ∈ as :=
  (List.mem_insertionSort _).mp (List.mem_of_mem_take h)

/-- A limit that is not reached selects everything. -/
theorem firstBy_perm (h : as.length ≤ limit) : (firstBy f limit as).Perm as := by
  rw [firstBy, List.take_of_length_le (by rwa [List.length_insertionSort])]
  exact List.perm_insertionSort _ as

/-- With a positive limit, the first row is one that no other row precedes. -/
theorem head?_firstBy_eq_some (h : (firstBy f (limit + 1) as).head? = some a) :
    a ∈ as ∧ ∀ b ∈ as, f a ≤ f b := by
  refine ⟨mem_of_mem_firstBy (List.mem_of_mem_head? h), fun b hb => ?_⟩
  have hpairwise := List.pairwise_insertionSort (fun a b => f a ≤ f b) as
  have hmem := (List.mem_insertionSort fun a b => f a ≤ f b).mpr hb
  rw [firstBy] at h
  cases hsorted : as.insertionSort fun a b => f a ≤ f b with
  | nil => simp [hsorted] at h
  | cons c cs =>
    rw [hsorted] at h hpairwise hmem
    obtain rfl : c = a := by simpa using h
    rcases List.mem_cons.mp hmem with rfl | hmem
    · exact le_rfl
    · exact (List.pairwise_cons.mp hpairwise).1 b hmem

/-- With unique keys, what comes after the first `limit` rows is what at least `limit` rows
precede. -/
theorem mem_drop_insertionSort (limit : Nat) (hkeys : (as.map f).Nodup) (ha : a ∈ as) :
    a ∈ (as.insertionSort fun a b => f a ≤ f b).drop limit ↔
      limit ≤ (as.filter (f · < f a)).length := by
  have hperm := List.perm_insertionSort (fun a b => f a ≤ f b) as
  have hpairwise := List.pairwise_insertionSort (fun a b => f a ≤ f b) as
  obtain ⟨before, after, hsorted⟩ := List.append_of_mem (hperm.mem_iff.mpr ha)
  have hnodup := (hperm.map f).nodup_iff.mpr hkeys
  rw [hsorted] at hperm hpairwise hnodup ⊢
  have hbefore : (before ++ a :: after).filter (f · < f a) = before := by
    have hlt : before.filter (f · < f a) = before := by
      refine List.filter_eq_self.mpr fun b hb => decide_eq_true (lt_of_le_of_ne ?_ fun heq => ?_)
      · exact (List.pairwise_append.mp hpairwise).2.2 b hb a List.mem_cons_self
      · rw [List.map_append] at hnodup
        exact (List.nodup_append.mp hnodup).2.2 _ (List.mem_map_of_mem hb) _
          (List.mem_map_of_mem List.mem_cons_self) heq
    have hge : (a :: after).filter (f · < f a) = [] := by
      refine List.filter_eq_nil_iff.mpr (List.forall_mem_cons.mpr ⟨by simp, fun b hb => ?_⟩)
      simpa using (List.pairwise_cons.mp (List.pairwise_append.mp hpairwise).2.1).1 b hb
    rw [List.filter_append, hlt, hge, List.append_nil]
  have hlength := (hperm.filter (f · < f a)).length_eq
  rw [hbefore] at hlength
  rw [← hlength, List.drop_append]
  have hafter : a ∉ after := by
    rw [List.map_append, List.nodup_append, List.map_cons] at hnodup
    exact fun hmem => (List.nodup_cons.mp hnodup.2.1).1 (List.mem_map_of_mem hmem)
  constructor
  · intro hmem
    by_contra hlimit
    obtain ⟨k, hk⟩ := Nat.exists_eq_add_of_lt (Nat.lt_of_not_le hlimit)
    rw [List.drop_eq_nil_of_le (by omega), show limit - before.length = k + 1 by omega,
      List.drop_succ_cons] at hmem
    exact hafter (List.mem_of_mem_drop (by simpa using hmem))
  · intro hlimit
    rw [Nat.sub_eq_zero_of_le hlimit]
    exact List.mem_append_right _ List.mem_cons_self

/-- The first row in order that meets a condition. -/
theorem find?_insertionSort_eq_some
    (h : (as.insertionSort fun a b => f a ≤ f b).find? p = some a) :
    a ∈ as ∧ p a = true ∧ ∀ b ∈ as, p b = true → f a ≤ f b := by
  obtain ⟨hp, before, after, hsorted, hbefore⟩ := List.find?_eq_some_iff_append.mp h
  refine ⟨(List.mem_insertionSort _).mp (List.mem_of_find?_eq_some h), hp, fun b hb hpb => ?_⟩
  have hpairwise := List.pairwise_insertionSort (fun a b => f a ≤ f b) as
  have hmem := (List.mem_insertionSort fun a b => f a ≤ f b).mpr hb
  rw [hsorted] at hpairwise hmem
  rcases List.mem_append.mp hmem with hmem | hmem
  · have hnot := hbefore b hmem
    simp [hpb] at hnot
  · rcases List.mem_cons.mp hmem with rfl | hmem
    · exact le_rfl
    · exact (List.pairwise_cons.mp (List.pairwise_append.mp hpairwise).2.1).1 b hmem

theorem head?_firstBy_eq_none (h : (firstBy f (limit + 1) as).head? = none) : as = [] := by
  have hempty := congrArg List.length (List.head?_eq_none_iff.mp h)
  rw [firstBy, List.length_take, List.length_insertionSort, List.length_nil] at hempty
  exact List.length_eq_zero_iff.mp (by omega)

theorem nodup_firstBy {β : Type*} {key : α → β} (h : (as.map key).Nodup) :
    ((firstBy f limit as).map key).Nodup := by
  have hsorted : ((as.insertionSort fun a b => f a ≤ f b).map key).Nodup :=
    ((List.perm_insertionSort _ as).map key).nodup_iff.mpr h
  exact hsorted.sublist ((List.take_sublist ..).map key)

/-- Whatever is selected comes after fewer than `limit` others. -/
theorem length_before_lt (h : a ∈ firstBy f limit as) :
    (as.filter (f · < f a)).length < limit := by
  obtain ⟨before, after, hselected⟩ := List.append_of_mem h
  set sorted := as.insertionSort fun a b => f a ≤ f b with hsort
  have hsorted : sorted = before ++ a :: (after ++ sorted.drop limit) := by
    rw [← List.cons_append, ← List.append_assoc, ← hselected, firstBy, List.take_append_drop]
  have hpairwise := List.pairwise_insertionSort (fun a b => f a ≤ f b) as
  rw [← hsort, hsorted] at hpairwise
  have hlate : (a :: (after ++ sorted.drop limit)).filter (f · < f a) = [] := by
    refine List.filter_eq_nil_iff.mpr (List.forall_mem_cons.mpr ⟨by simp, fun b hb => ?_⟩)
    have hle := (List.pairwise_cons.mp (List.pairwise_append.mp hpairwise).2.1).1 b hb
    simpa using hle
  have hperm := (List.perm_insertionSort (fun a b => f a ≤ f b) as).filter (f · < f a)
  rw [← hsort, hsorted, List.filter_append, hlate, List.append_nil] at hperm
  calc (as.filter (f · < f a)).length = (before.filter (f · < f a)).length := hperm.length_eq.symm
    _ ≤ before.length := List.length_filter_le ..
    _ < (firstBy f limit as).length := by simp [hselected]
    _ ≤ limit := List.length_take_le ..

/-- If ties are broken in favour of `a`, fewer than `limit` others before it suffice. -/
theorem mem_firstBy_cons (h : (as.filter (f · < f a)).length < limit) :
    a ∈ firstBy f limit (a :: as) := by
  set sorted := as.insertionSort fun a b => f a ≤ f b with hsort
  have hbefore : (sorted.takeWhile (f · < f a)).length < limit := by
    have hall : (sorted.takeWhile (f · < f a)).filter (f · < f a) =
        sorted.takeWhile (f · < f a) :=
      List.filter_eq_self.mpr fun b hb => List.all_eq_true.mp List.all_takeWhile b hb
    have hsublist := (List.takeWhile_sublist (l := sorted) (f · < f a)).filter (f · < f a)
    rw [hall] at hsublist
    have hperm := (List.perm_insertionSort (fun a b => f a ≤ f b) as).filter (f · < f a)
    exact lt_of_le_of_lt (hsublist.length_le.trans hperm.length_eq.le) h
  have hinserted : (a :: as).insertionSort (fun a b => f a ≤ f b) =
      sorted.takeWhile (f · < f a) ++ a :: sorted.dropWhile (f · < f a) := by
    rw [List.insertionSort_cons_eq_take_drop]
    simp only [not_le, ← hsort]
  obtain ⟨k, hk⟩ := Nat.exists_eq_add_of_lt hbefore
  rw [firstBy, hinserted, List.take_append]
  refine List.mem_append_right _ ?_
  rw [show limit - (sorted.takeWhile (f · < f a)).length = k + 1 by omega, List.take_succ_cons]
  exact List.mem_cons_self ..

/-- With unique keys and a limit that is not reached, the selected keys are those of the rows that
meet the condition. -/
theorem key_mem_firstBy {β : Type*} {key : α → β} (hkeys : (as.map key).Nodup)
    (hlimit : (as.filter p).length ≤ limit) (ha : a ∈ as) :
    key a ∈ (firstBy f limit (as.filter p)).map key ↔ p a = true := by
  rw [((firstBy_perm hlimit).map key).mem_iff]
  constructor
  · intro hmem
    obtain ⟨b, hb, hkey⟩ := List.mem_map.mp hmem
    obtain ⟨hb, hp⟩ := List.mem_filter.mp hb
    rwa [← List.inj_on_of_nodup_map hkeys hb ha hkey]
  · exact fun hp => List.mem_map_of_mem (List.mem_filter.mpr ⟨ha, hp⟩)

theorem nodup_firstBy_filter {β : Type*} {key : α → β} (hkeys : (as.map key).Nodup) :
    ((firstBy f limit (as.filter p)).map key).Nodup :=
  nodup_firstBy (hkeys.sublist ((List.filter_sublist ..).map key))

end Selection

/-! ## Running a step by key -/

section Pass

variable [DecidableEq κ] {key : α → κ} {step : α → Except ε α} {k : κ} {ks : List κ} {a b : α}
  {as bs : List α}

/-- Run the step on a row if it has this key. -/
def stepAt (key : α → κ) (step : α → Except ε α) (k : κ) (a : α) : Except ε α :=
  if key a = k then step a else .ok a

/-- Run the step on the rows with this key. -/
def runAt (key : α → κ) (step : α → Except ε α) (k : κ) : List α → Except ε (List α)
  | [] => .ok []
  | a :: as => do
    let b ← stepAt key step k a
    let bs ← runAt key step k as
    .ok (b :: bs)

/-- Run the step on the rows with each of these keys in turn. -/
def pass (key : α → κ) (step : α → Except ε α) : List κ → List α → Except ε (List α)
  | [], as => .ok as
  | k :: ks, as => do
    let bs ← runAt key step k as
    pass key step ks bs

/-- The row as its own step leaves it; unchanged where that raises. -/
def repaired (step : α → Except ε α) (a : α) : α :=
  match step a with
  | .ok b => b
  | .error _ => a

theorem repaired_eq (h : step a = .ok b) : repaired step a = b := by
  rw [repaired, h]

theorem stepAt_eq_ok : stepAt key step k a = .ok b ↔
    (key a = k → ∃ b, step a = .ok b) ∧ b = if key a = k then repaired step a else a := by
  unfold stepAt
  split
  · constructor
    · intro h
      exact ⟨fun _ => ⟨b, h⟩, (repaired_eq h).symm⟩
    · rintro ⟨hok, rfl⟩
      obtain ⟨b, hb⟩ := hok ‹_›
      rw [hb, repaired_eq hb]
  · simp_all [eq_comm]

theorem runAt_eq_ok : runAt key step k as = .ok bs ↔
    (∀ a ∈ as, key a = k → ∃ b, step a = .ok b) ∧
      bs = as.map fun a => if key a = k then repaired step a else a := by
  induction as generalizing bs with
  | nil => simp [runAt, eq_comm]
  | cons a as ih =>
    simp only [runAt, bind_eq_ok, stepAt_eq_ok, ih, Except.ok.injEq, List.forall_mem_cons,
      List.map_cons]
    constructor
    · rintro ⟨_, ⟨ha, rfl⟩, _, ⟨hrest, rfl⟩, rfl⟩
      exact ⟨⟨ha, hrest⟩, rfl⟩
    · rintro ⟨⟨ha, hrest⟩, rfl⟩
      exact ⟨_, ⟨ha, rfl⟩, _, ⟨hrest, rfl⟩, rfl⟩

/-- A pass commits exactly when every selected row's own step would, and then each of them is as
that step leaves it. -/
theorem pass_eq_ok (hkey : ∀ a b, step a = .ok b → key b = key a) (hks : ks.Nodup) :
    pass key step ks as = .ok bs ↔
      (∀ a ∈ as, key a ∈ ks → ∃ b, step a = .ok b) ∧
        bs = as.map fun a => if key a ∈ ks then repaired step a else a := by
  induction ks generalizing as with
  | nil => simp [pass, eq_comm]
  | cons k ks ih =>
    obtain ⟨hk, hks⟩ := List.nodup_cons.mp hks
    -- the rest of the pass does not come back to the rows that are done
    have hat : ∀ a, key (if key a = k then repaired step a else a) = key a := by
      intro a
      unfold repaired
      split
      · split
        · exact hkey _ _ ‹_›
        · rfl
      · rfl
    have hdone : ∀ a, key a ∈ ks → (if key a = k then repaired step a else a) = a := by
      intro a ha
      have hne : key a ≠ k := fun hsame => hk (hsame ▸ ha)
      exact if_neg hne
    have hmap : (as.map fun a => if key a = k then repaired step a else a).map
        (fun a => if key a ∈ ks then repaired step a else a) =
        as.map fun a => if key a ∈ k :: ks then repaired step a else a := by
      rw [List.map_map]
      refine List.map_congr_left fun a _ => ?_
      simp only [Function.comp, hat, List.mem_cons]
      by_cases ha : key a ∈ ks
      · simp [ha, hdone a ha]
      · simp [ha]
    have hrest : (∀ b ∈ as.map fun a => if key a = k then repaired step a else a,
        key b ∈ ks → ∃ c, step b = .ok c) ↔ ∀ a ∈ as, key a ∈ ks → ∃ b, step a = .ok b := by
      rw [List.forall_mem_map]
      refine forall₂_congr fun a _ => ?_
      rw [hat]
      exact forall_congr' fun ha => by rw [hdone a ha]
    simp only [pass, bind_eq_ok, runAt_eq_ok, ih hks]
    constructor
    · rintro ⟨_, ⟨hat, rfl⟩, hothers, rfl⟩
      refine ⟨fun a ha hmem => ?_, hmap⟩
      rcases List.mem_cons.mp hmem with hsame | hmem
      · exact hat a ha hsame
      · exact hrest.mp hothers a ha hmem
    · rintro ⟨hall, rfl⟩
      exact ⟨_, ⟨fun a ha hsame => hall a ha (List.mem_cons.mpr (.inl hsame)), rfl⟩,
        hrest.mpr fun a ha hmem => hall a ha (List.mem_cons_of_mem _ hmem), hmap.symm⟩

/-- The same for a batch that the limit does not cut: it is a map over the rows that meet the
condition. -/
theorem pass_selected {ι : Type*} [LinearOrder ι] {f : α → ι} {limit : Nat} {p : α → Bool}
    (hkey : ∀ a b, step a = .ok b → key b = key a) (hkeys : (as.map key).Nodup)
    (hlimit : (as.filter p).length ≤ limit) :
    pass key step ((firstBy f limit (as.filter p)).map key) as = .ok bs ↔
      (∀ a ∈ as, p a = true → ∃ b, step a = .ok b) ∧
        bs = as.map fun a => if p a then repaired step a else a := by
  have hselected : ∀ a ∈ as, key a ∈ (firstBy f limit (as.filter p)).map key ↔ p a = true :=
    fun a ha => key_mem_firstBy hkeys hlimit ha
  have hmap : (as.map fun a =>
      if key a ∈ (firstBy f limit (as.filter p)).map key then repaired step a else a) =
      as.map fun a => if p a then repaired step a else a := by
    refine List.map_congr_left fun a ha => ?_
    simp only [hselected a ha]
  rw [pass_eq_ok hkey (nodup_firstBy_filter hkeys), hmap]
  exact and_congr_left fun _ => forall₂_congr fun a ha => by rw [hselected a ha]

/-- What no step raises, no pass raises. -/
theorem pass_avoids {bad : ε → Prop} (h : ∀ a, Avoids bad (step a)) :
    Avoids bad (pass key step ks as) := by
  have hat : ∀ k as, Avoids bad (runAt key step k as) := by
    intro k as
    induction as with
    | nil => exact avoids_ok
    | cons a as ih =>
      have hstep : Avoids bad (stepAt key step k a) := by
        unfold stepAt
        split
        · exact h a
        · exact avoids_ok
      exact hstep.bind fun _ _ => ih.bind fun _ _ => avoids_ok
  induction ks generalizing as with
  | nil => exact avoids_ok
  | cons k ks ih => exact (hat k as).bind fun _ _ => ih

end Pass

end Batches
