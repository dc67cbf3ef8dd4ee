import Mathlib.Data.List.Sort

/-!
# Sliding windows

How many events a half-open window holds, and the event whose leaving brings their number below a
limit.
-/
namespace FetchNow.SlidingWindows

variable {T : Type*} [LinearOrder T]

/-- The events in `(a, b]`. -/
def inside (a b : T) (events : List T) : List T :=
  events.filter fun x => decide (a < x) && decide (x ≤ b)

/-- The event that is followed by fewer than `limit` events of the window. -/
def releasing (a b : T) (limit : ℕ) (events : List T) : Option T :=
  ((inside a b events).insertionSort (· ≤ ·))[(inside a b events).length - limit]?

variable {a b a' b' k x : T} {events : List T} {limit : ℕ}

theorem mem_inside : x ∈ inside a b events ↔ x ∈ events ∧ a < x ∧ x ≤ b := by
  simp [inside]

theorem exists_releasing (hpos : 1 ≤ limit) (hlimit : limit ≤ (inside a b events).length) :
    ∃ k, releasing a b limit events = some k := by
  have hlt : (inside a b events).length - limit <
      ((inside a b events).insertionSort (· ≤ ·)).length := by
    rw [List.length_insertionSort]
    omega
  exact ⟨_, List.getElem?_eq_getElem hlt⟩

/-- The window in order: what comes before the releasing event, and the last `limit` events. -/
theorem releasing_split (hlimit : limit ≤ (inside a b events).length)
    (h : releasing a b limit events = some k) : ∃ before after : List T,
      (before ++ k :: after).Perm (inside a b events) ∧ after.length + 1 = limit ∧
        (∀ x ∈ before, x ≤ k) ∧ ∀ x ∈ after, k ≤ x := by
  obtain ⟨hlt, hget⟩ := List.getElem?_eq_some_iff.mp h
  have hsorted := List.pairwise_insertionSort (· ≤ ·) (inside a b events)
  have hperm := List.perm_insertionSort (· ≤ ·) (inside a b events)
  have hlen := hperm.length_eq
  generalize (inside a b events).insertionSort (· ≤ ·) = s at hlt hget hsorted hperm hlen
  generalize hi : (inside a b events).length - limit = i at hlt hget
  have hsplit : s = s.take i ++ k :: s.drop (i + 1) := by
    rw [← hget, List.getElem_cons_drop, List.take_append_drop]
  refine ⟨s.take i, s.drop (i + 1), hsplit ▸ hperm, ?_, ?_, ?_⟩
  · rw [List.length_drop]
    omega
  · rw [hsplit, List.pairwise_append] at hsorted
    intro x hx
    exact hsorted.2.2 x hx k List.mem_cons_self
  · rw [hsplit, List.pairwise_append, List.pairwise_cons] at hsorted
    exact hsorted.2.1.1

theorem releasing_mem (h : releasing a b limit events = some k) : a < k ∧ k ≤ b := by
  have hmem := List.mem_of_getElem? h
  rw [List.mem_insertionSort] at hmem
  exact (mem_inside.mp hmem).2

theorem length_inside : (inside a' b' events).length =
    events.countP fun x => decide (a' < x) && decide (x ≤ b') :=
  List.countP_eq_length_filter.symm

/-- As long as the releasing event is in a later window, the window is full. -/
theorem full_before (hlimit : limit ≤ (inside a b events).length)
    (h : releasing a b limit events = some k) (ha : a' < k) (hb : b ≤ b') :
    limit ≤ (inside a' b' events).length := by
  obtain ⟨before, after, hperm, hlen, -, hafter⟩ := releasing_split hlimit h
  have hbound : ∀ x ∈ k :: after, x ≤ b := by
    intro x hx
    exact (mem_inside.mp (hperm.mem_iff.mp (List.mem_append_right _ hx))).2.2
  have hall : (k :: after).countP (fun x => decide (a' < x) && decide (x ≤ b')) =
      (k :: after).length := by
    apply List.countP_eq_length.mpr
    intro x hx
    have hk : k ≤ x := by
      rcases List.mem_cons.mp hx with rfl | hx
      · exact le_rfl
      · exact hafter x hx
    simpa using ⟨ha.trans_le hk, (hbound x hx).trans hb⟩
  have hsub : (before ++ k :: after).countP (fun x => decide (a' < x) && decide (x ≤ b')) ≤
      events.countP fun x => decide (a' < x) && decide (x ≤ b') := by
    rw [hperm.countP_eq]
    exact List.Sublist.countP_le List.filter_sublist
  rw [List.countP_append, hall, List.length_cons] at hsub
  rw [length_inside]
  omega

/-- Once the releasing event has left, and without later events, the window is not full. -/
theorem not_full_after (hlimit : limit ≤ (inside a b events).length)
    (h : releasing a b limit events = some k) (hlast : ∀ x ∈ events, x ≤ b) :
    (inside k b' events).length < limit := by
  obtain ⟨before, after, hperm, hlen, hbefore, -⟩ := releasing_split hlimit h
  have hsame : events.countP (fun x => decide (k < x) && decide (x ≤ b')) =
      (inside a b events).countP fun x => decide (k < x) && decide (x ≤ b') := by
    rw [inside, List.countP_filter]
    apply List.countP_congr
    intro x hx
    have hxb := hlast x hx
    have hak : k < x → a < x := fun hk => (releasing_mem h).1.trans hk
    simp only [Bool.and_eq_true, decide_eq_true_eq]
    tauto
  have hzero : before.countP (fun x => decide (k < x) && decide (x ≤ b')) = 0 := by
    apply List.countP_eq_zero.mpr
    intro x hx
    have hle := hbefore x hx
    simp [hle.not_gt]
  have hbound := @List.countP_le_length _ (fun x => decide (k < x) && decide (x ≤ b')) after
  rw [length_inside, hsame, ← hperm.countP_eq, List.countP_append, hzero, List.countP_cons]
  simp only [lt_self_iff_false, decide_false, Bool.false_and, Bool.false_eq_true, if_false]
  omega

end FetchNow.SlidingWindows
