import FetchNow.Quota.Delivery
import Mathlib.Data.List.Perm.Basic

/-! What each statement of the delivery ledger does to the covered bytes and the open attempts. -/
namespace FetchNow

open Transactions Intervals

variable {rows rows' new : List FreeDownloadDeliveryRange} {row : FreeDownloadDeliveryRange}
  {closing among : FreeDownloadDeliveryRange → Bool} {now : Timestamp} {fresh : Nat → Uuid}
  {job : MediaDownloadJob} {x : ℕ}

/-! ## Normalization -/

section Normalization

variable {l l' : List Interval}

instance : Std.Total Earlier where
  total i j := by
    simp only [Earlier]
    omega

instance : IsTrans Interval Earlier where
  trans i j k := by
    simp only [Earlier]
    omega

theorem normalizeIntervals_spec (l : List Interval) :
    Normal (normalizeIntervals l) ∧ covered (normalizeIntervals l) = covered l := by
  have hmem : ∀ i, i ∈ (l.filter fun i => i.1 < i.2).insertionSort Earlier ↔
      i ∈ l.filter fun i => i.1 < i.2 := fun i => List.mem_insertionSort _
  have hne : ∀ i ∈ (l.filter fun i => i.1 < i.2).insertionSort Earlier, i.1 < i.2 := by
    intro i hi
    simpa using (List.mem_filter.mp ((hmem i).mp hi)).2
  have hsorted : ((l.filter fun i => i.1 < i.2).insertionSort Earlier).Pairwise
      fun i j => i.1 ≤ j.1 := by
    refine (List.pairwise_insertionSort Earlier _).imp ?_
    intro i j h
    rcases h with h | h
    · exact h.le
    · exact h.1.le
  have hempty : Merging [] 0 := ⟨by simp, by simp, by simp⟩
  obtain ⟨hnormal, hcover⟩ := foldl_mergeInto hempty hne hsorted (fun _ _ => Nat.zero_le _)
  refine ⟨hnormal, hcover.trans ?_⟩
  rw [covered_nil, Finset.empty_union, covered_congr hmem, covered_filter_nonempty]

theorem normal_normalizeIntervals : Normal (normalizeIntervals l) := (normalizeIntervals_spec l).1

@[simp] theorem covered_normalizeIntervals : covered (normalizeIntervals l) = covered l :=
  (normalizeIntervals_spec l).2

theorem length_normalizeIntervals : (normalizeIntervals l).length = components (covered l) := by
  rw [normal_normalizeIntervals.length_eq, covered_normalizeIntervals]

end Normalization

/-! ## The covered bytes -/

/-- The bytes the server observed for an entry: the union of its rows. -/
def coverage (rows : List FreeDownloadDeliveryRange) : Finset ℕ := covered (rows.map (·.served))

def closedRows (rows : List FreeDownloadDeliveryRange) : List FreeDownloadDeliveryRange :=
  rows.filter (·.state = .closed)

def activeRows (rows : List FreeDownloadDeliveryRange) : List FreeDownloadDeliveryRange :=
  rows.filter (·.state = .active)

theorem mem_coverage :
    x ∈ coverage rows ↔ ∃ row ∈ rows, row.requestStart ≤ x ∧ x < row.servedEndExclusive := by
  simp [coverage, mem_covered, FreeDownloadDeliveryRange.served]

@[simp] theorem coverage_nil : coverage [] = ∅ := rfl

theorem coverage_append : coverage (rows ++ new) = coverage rows ∪ coverage new := by
  simp [coverage, covered_append]

theorem coverage_congr (h : ∀ row, row ∈ rows ↔ row ∈ rows') : coverage rows = coverage rows' := by
  ext x
  simp [mem_coverage, h]

theorem state_ne_closed : row.state ≠ .closed ↔ row.state = .active := by
  cases row.state <;> simp

theorem activeRows_cons_active (h : row.state = .active) :
    activeRows (row :: rows) = row :: activeRows rows := by
  simp [activeRows, h]

theorem activeRows_cons_closed (h : row.state = .closed) :
    activeRows (row :: rows) = activeRows rows := by
  simp [activeRows, h]

theorem coverage_eq (rows : List FreeDownloadDeliveryRange) :
    coverage rows = coverage (closedRows rows) ∪ coverage (activeRows rows) := by
  rw [← coverage_append]
  apply coverage_congr
  intro row
  simp only [closedRows, activeRows, List.mem_append, List.mem_filter, decide_eq_true_eq]
  cases row.state <;> simp

/-- A row that served nothing covers nothing. -/
theorem coverage_filter_served :
    coverage (rows.filter fun row => row.servedEndExclusive > row.requestStart) =
      coverage rows := by
  ext x
  simp only [mem_coverage, List.mem_filter, decide_eq_true_eq, gt_iff_lt]
  constructor
  · rintro ⟨row, ⟨hrow, _⟩, hx⟩
    exact ⟨row, hrow, hx⟩
  · rintro ⟨row, hrow, hx⟩
    exact ⟨row, ⟨hrow, by omega⟩, hx⟩

theorem covered_closedIntervals : covered (closedIntervals rows) = coverage rows := by
  rw [closedIntervals, covered_normalizeIntervals, ← coverage_filter_served]
  rfl

theorem length_closedIntervals :
    (closedIntervals rows).length = components (coverage rows) := by
  rw [closedIntervals, length_normalizeIntervals, ← coverage_filter_served]
  rfl

/-- The completion test of `_consume_if_complete` compares covered sets. -/
theorem closedIntervals_eq_whole {n : ℕ} (hn : 0 < n) :
    closedIntervals rows = [(0, n)] ↔ coverage rows = Finset.Ico 0 n := by
  rw [← covered_closedIntervals]
  exact normal_normalizeIntervals.eq_singleton_iff hn

/-! ## Reading the rows in order -/

theorem perm_lockRanges : List.Perm (lockRanges rows) rows := List.perm_insertionSort _ _

@[simp] theorem mem_lockRanges : row ∈ lockRanges rows ↔ row ∈ rows := perm_lockRanges.mem_iff

@[simp] theorem coverage_lockRanges : coverage (lockRanges rows) = coverage rows :=
  coverage_congr fun _ => mem_lockRanges

theorem assertGeneration_eq_ok {u : Unit} :
    assertGeneration rows job = .ok u ↔ ∀ row ∈ rows, GenerationMatches job row := by
  simp [assertGeneration]

theorem insertRanges_eq_ok (h : insertRanges rows new = .ok rows') :
    ((rows.map (·.id)).Nodup → (rows'.map (·.id)).Nodup) ∧ (∀ row ∈ rows', row.Checked) ∧
      rows' = rows ++ new := by
  simp only [insertRanges, bind_eq_ok, require_eq_ok, flushRanges_eq_ok] at h
  obtain ⟨_, ⟨hnew, hfresh⟩, hchecked, rfl⟩ := h
  refine ⟨fun hrows => ?_, hchecked, rfl⟩
  rw [List.map_append, List.nodup_append]
  refine ⟨hrows, hnew, ?_⟩
  rintro a ha b hb rfl
  obtain ⟨row, hrow, rfl⟩ := List.mem_map.mp hb
  exact hfresh row hrow ha

/-! ## Closing attempts -/

/-- Same artifact, fence and size: the columns that a generation check reads. -/
def SameGeneration (a b : FreeDownloadDeliveryRange) : Prop :=
  a.artifactId = b.artifactId ∧ a.fenceToken = b.fenceToken ∧ a.artifactBytes = b.artifactBytes

/-- The open attempts that `closing` selects become durable bytes and nothing else changes. -/
structure Settles (closing : FreeDownloadDeliveryRange → Bool)
    (rows rows' : List FreeDownloadDeliveryRange) : Prop where
  active : List.Perm (activeRows rows') ((activeRows rows).filter fun row => !closing row)
  closed : coverage (closedRows rows') =
    coverage (closedRows rows) ∪ coverage ((activeRows rows).filter closing)
  generation : ∀ row' ∈ rows', ∃ row ∈ rows, SameGeneration row' row
  nodup : (rows.map (·.id)).Nodup → (rows'.map (·.id)).Nodup
  checked : (∀ row ∈ rows, row.Checked) → ∀ row ∈ rows', row.Checked

theorem coverage_filter_union :
    coverage (rows.filter fun row => !closing row) ∪ coverage (rows.filter closing) =
      coverage rows := by
  rw [← coverage_append]
  apply coverage_congr
  intro row
  simp only [List.mem_append, List.mem_filter]
  cases closing row <;> simp

/-- Closing attempts neither loses nor invents a byte. -/
theorem Settles.coverage_eq (h : Settles closing rows rows') : coverage rows' = coverage rows := by
  have hactive : coverage (activeRows rows') =
      coverage ((activeRows rows).filter fun row => !closing row) :=
    coverage_congr fun row => h.active.mem_iff
  rw [FetchNow.coverage_eq, h.closed, hactive, FetchNow.coverage_eq rows,
    Finset.union_assoc, Finset.union_comm (coverage ((activeRows rows).filter closing)),
    coverage_filter_union]

theorem Settles.of_perm (h : List.Perm rows' rows) : Settles (fun _ => false) rows rows' where
  active := by simpa [activeRows] using h.filter (·.state = .active)
  closed := by
    simp only [List.filter_false, coverage_nil, Finset.union_empty]
    exact coverage_congr fun row => (h.filter _).mem_iff
  generation row hrow := ⟨row, h.mem_iff.mp hrow, rfl, rfl, rfl⟩
  nodup hn := (h.map _).nodup_iff.mpr hn
  checked hc row hrow := hc row (h.mem_iff.mp hrow)

theorem Settles.refl : Settles (fun _ => false) rows rows := .of_perm (.refl rows)

theorem Settles.trans {closing' : FreeDownloadDeliveryRange → Bool}
    {rows'' : List FreeDownloadDeliveryRange} (h : Settles closing rows rows')
    (h' : Settles closing' rows' rows'') :
    Settles (fun row => closing row || closing' row) rows rows'' where
  active := by
    refine (h'.active.trans (h.active.filter _)).trans ?_
    simp [List.filter_filter, Bool.and_comm]
  closed := by
    have hactive : coverage ((activeRows rows').filter closing') =
        coverage (((activeRows rows).filter fun row => !closing row).filter closing') :=
      coverage_congr fun row => (h.active.filter _).mem_iff
    rw [h'.closed, h.closed, hactive, Finset.union_assoc, ← coverage_append]
    congr 1
    apply coverage_congr
    intro row
    simp only [List.mem_append, List.mem_filter]
    cases closing row <;> simp
  generation row'' hrow'' := by
    obtain ⟨row', hrow', ha', hf', hb'⟩ := h'.generation row'' hrow''
    obtain ⟨row, hrow, ha, hf, hb⟩ := h.generation row' hrow'
    exact ⟨row, hrow, ha'.trans ha, hf'.trans hf, hb'.trans hb⟩
  nodup hn := h'.nodup (h.nodup hn)
  checked hc := h'.checked (h.checked hc)

theorem settles_lockRanges : Settles (fun _ => false) rows (lockRanges rows) :=
  .of_perm perm_lockRanges

/-- Reading the rows in order between two steps changes nothing. -/
theorem Settles.locked (h : Settles closing (lockRanges rows) rows') :
    Settles closing rows rows' := by
  simpa using settles_lockRanges.trans h

/-- An attempt closed at its prefix; `none` when it is deleted because it served nothing. -/
def closedAttempt (now : Timestamp) (row : FreeDownloadDeliveryRange) :
    Option FreeDownloadDeliveryRange :=
  if row.servedEndExclusive = row.requestStart then none
  else some { row with
    requestEndExclusive := row.servedEndExclusive, state := .closed, leaseExpiresAt := none,
    closedAt := some now }

/-- What closing does to one row. -/
def closeStep (closing : FreeDownloadDeliveryRange → Bool) (now : Timestamp)
    (row : FreeDownloadDeliveryRange) : Option FreeDownloadDeliveryRange :=
  if row.state = .active ∧ closing row = true then closedAttempt now row else some row

/-- Close the open attempts that `closing` selects. -/
def closeAttempts (closing : FreeDownloadDeliveryRange → Bool) (now : Timestamp)
    (rows : List FreeDownloadDeliveryRange) : List FreeDownloadDeliveryRange :=
  rows.filterMap (closeStep closing now)

theorem closeStep_closed (h : row.state = .closed) : closeStep closing now row = some row := by
  simp [closeStep, h]

theorem closeStep_kept (h : closing row = false) : closeStep closing now row = some row := by
  simp [closeStep, h]

theorem closeStep_chosen (now : Timestamp) (hactive : row.state = .active)
    (h : closing row = true) :
    closeStep closing now row = closedAttempt now row := by
  simp [closeStep, hactive, h]

theorem closedAttempt_some {row' : FreeDownloadDeliveryRange}
    (h : closedAttempt now row = some row') :
    row'.state = .closed ∧ row'.id = row.id ∧ SameGeneration row' row ∧
      row'.served = row.served := by
  unfold closedAttempt at h
  split at h
  · cases h
  · cases h
    exact ⟨rfl, rfl, ⟨rfl, rfl, rfl⟩, rfl⟩

theorem closedAttempt_none (h : closedAttempt now row = none) : coverage [row] = ∅ := by
  unfold closedAttempt at h
  split at h
  · rename_i hempty
    simp [coverage, FreeDownloadDeliveryRange.served, hempty]
  · cases h

theorem closeStep_id {row' : FreeDownloadDeliveryRange}
    (h : closeStep closing now row = some row') : row'.id = row.id ∧ SameGeneration row' row := by
  unfold closeStep at h
  split at h
  · exact ⟨(closedAttempt_some h).2.1, (closedAttempt_some h).2.2.1⟩
  · cases h
    exact ⟨rfl, rfl, rfl, rfl⟩

theorem activeRows_closeAttempts :
    activeRows (closeAttempts closing now rows) =
      (activeRows rows).filter fun row => !closing row := by
  induction rows with
  | nil => rfl
  | cons row rows ih =>
    rw [closeAttempts] at ih ⊢
    cases hstate : row.state with
    | closed =>
      rw [List.filterMap_cons_some (closeStep_closed hstate), activeRows_cons_closed hstate,
        activeRows_cons_closed hstate, ih]
    | active =>
      rw [activeRows_cons_active hstate]
      cases hclosing : closing row with
      | false =>
        rw [List.filterMap_cons_some (closeStep_kept hclosing), activeRows_cons_active hstate, ih,
          List.filter_cons_of_pos (by simp [hclosing])]
      | true =>
        rw [List.filter_cons_of_neg (by simp [hclosing]), ← ih]
        have hstep := closeStep_chosen now hstate hclosing
        cases hclosed : closedAttempt now row with
        | none => rw [List.filterMap_cons_none (hstep.trans hclosed)]
        | some row' =>
          rw [List.filterMap_cons_some (hstep.trans hclosed),
            activeRows_cons_closed (closedAttempt_some hclosed).1]

theorem coverage_closedRows_closeAttempts :
    coverage (closedRows (closeAttempts closing now rows)) =
      coverage (closedRows rows) ∪ coverage ((activeRows rows).filter closing) := by
  induction rows with
  | nil => rfl
  | cons row rows ih =>
    rw [← List.singleton_append (l := rows)]
    simp only [closeAttempts, closedRows, activeRows, List.filterMap_append, List.filter_append,
      coverage_append] at ih ⊢
    rw [ih]
    have hrow : coverage (([row].filterMap (closeStep closing now)).filter (·.state = .closed)) =
        coverage ([row].filter (·.state = .closed)) ∪
          coverage (([row].filter (·.state = .active)).filter closing) := by
      cases hstate : row.state with
      | closed => simp [closeStep_closed hstate, hstate]
      | active =>
        cases hclosing : closing row with
        | false => simp [closeStep_kept hclosing, hstate, hclosing]
        | true =>
          have hstep := closeStep_chosen now hstate hclosing
          cases hclosed : closedAttempt now row with
          | none => simp [hstep, hclosed, hstate, hclosing, closedAttempt_none hclosed]
          | some row' =>
            obtain ⟨hstate', _, _, hserved⟩ := closedAttempt_some hclosed
            simp [hstep, hclosed, hstate, hstate', hclosing, coverage, hserved]
    rw [hrow, Finset.union_union_union_comm]

theorem closeAttempts_ids :
    ((closeAttempts closing now rows).map (·.id)).Sublist (rows.map (·.id)) := by
  induction rows with
  | nil => simp [closeAttempts]
  | cons row rows ih =>
    rw [closeAttempts] at ih ⊢
    cases hrow : closeStep closing now row with
    | none =>
      rw [List.filterMap_cons_none hrow]
      exact ih.trans (List.sublist_cons_self _ _)
    | some row' =>
      rw [List.filterMap_cons_some hrow, List.map_cons, (closeStep_id hrow).1, List.map_cons]
      exact ih.cons_cons _

/-- Closing rows that then pass the constraints settles exactly the attempts it selects. -/
theorem settles_closeAttempts (h : ∀ row ∈ closeAttempts closing now rows, row.Checked) :
    Settles closing rows (closeAttempts closing now rows) where
  active := .of_eq activeRows_closeAttempts
  closed := coverage_closedRows_closeAttempts
  generation row' hrow' := by
    obtain ⟨row, hrow, hstep⟩ := List.mem_filterMap.mp hrow'
    exact ⟨row, hrow, (closeStep_id hstep).2⟩
  nodup hn := closeAttempts_ids.nodup hn
  checked _ := h

/-! ## Stale leases -/

/-- The lease of the row does not reach beyond `now`. -/
def lapsed (now : Timestamp) (row : FreeDownloadDeliveryRange) : Bool :=
  !row.leaseExpiresAt.any (· > now)

/-- `_close_stale` closes the selected attempts whose lease has lapsed. -/
theorem closeStale_settles (h : closeStale among now rows = .ok rows') :
    Settles (fun row => among row && lapsed now row) rows rows' := by
  have hstep : (fun row => if among row then closeStaleRow now row else some row) =
      closeStep (fun row => among row && lapsed now row) now := by
    funext row
    cases hamong : among row <;> cases hlive : row.leaseExpiresAt.any (· > now) <;>
      cases hstate : row.state <;>
      simp [closeStep, closeStaleRow, closedAttempt, lapsed, hamong, hlive, hstate]
  rw [closeStale, hstep, flushRanges_eq_ok] at h
  obtain ⟨hchecked, rfl⟩ := h
  exact settles_closeAttempts hchecked

/-! ## Compaction -/

theorem filter_ne_closed : rows.filter (·.state ≠ .closed) = activeRows rows := by
  refine List.filter_congr fun row _ => ?_
  cases row.state <;> rfl

theorem activeRows_append_closed (h : ∀ row ∈ new, row.state = .closed) :
    activeRows (activeRows rows ++ new) = activeRows rows := by
  have hnew : activeRows new = [] :=
    List.filter_eq_nil_iff.mpr fun row hrow => by simp [h row hrow]
  rw [activeRows, List.filter_append, ← activeRows, ← activeRows, hnew, List.append_nil]
  simp [activeRows, List.filter_filter]

theorem closedRows_append_closed (h : ∀ row ∈ new, row.state = .closed) :
    closedRows (activeRows rows ++ new) = new := by
  have hrows : closedRows (activeRows rows) = [] := by
    refine List.filter_eq_nil_iff.mpr fun row hrow => ?_
    have hactive := (List.mem_filter.mp hrow).2
    simp_all
  have hnew : closedRows new = new := List.filter_eq_self.mpr fun row hrow => by simp [h row hrow]
  rw [closedRows, List.filter_append, ← closedRows, ← closedRows, hrows, hnew, List.nil_append]

theorem coverage_compacted {template : FreeDownloadDeliveryRange} {union : List Interval} :
    coverage (union.mapIdx fun k i => compactedRow template now (fresh k) i) = covered union := by
  ext x
  simp only [mem_coverage, mem_covered, List.mem_mapIdx]
  constructor
  · rintro ⟨row, ⟨k, hk, rfl⟩, hx⟩
    exact ⟨_, List.getElem_mem hk, hx⟩
  · rintro ⟨i, hi, hx⟩
    obtain ⟨k, hk, rfl⟩ := List.getElem_of_mem hi
    exact ⟨_, ⟨k, hk, rfl⟩, hx⟩

/-- Compaction replaces the closed rows by their normalized union. -/
theorem compactClosed_settles (h : compactClosed fresh now rows = .ok rows') :
    Settles (fun _ => false) rows rows' ∧
      components (coverage (closedRows rows)) ≤ maxClosedFragments := by
  simp only [compactClosed, bind_eq_ok, require_eq_ok] at h
  obtain ⟨_, hbound, h⟩ := h
  rw [length_closedIntervals] at hbound
  refine ⟨?_, hbound⟩
  split at h
  · cases h
    exact .refl
  split at h
  · cases h
    exact .refl
  rename_i template htemplate
  have htemplate : template ∈ rows := (List.mem_filter.mp (List.mem_of_mem_head? htemplate)).1
  rw [filter_ne_closed] at h
  obtain ⟨hnodup, hchecked, rfl⟩ := insertRanges_eq_ok h
  have hclosed : ∀ row ∈ (closedIntervals (closedRows rows)).mapIdx
      fun k i => compactedRow template now (fresh k) i, row.state = .closed := by
    intro row hrow
    obtain ⟨k, hk, rfl⟩ := List.mem_mapIdx.mp hrow
    rfl
  refine ⟨?_, ?_, ?_, fun hrows => hnodup ?_, fun _ => hchecked⟩
  · exact .of_eq ((activeRows_append_closed hclosed).trans (by simp))
  · refine (congrArg coverage (closedRows_append_closed hclosed)).trans ?_
    rw [coverage_compacted, covered_closedIntervals]
    simp
  · intro row' hrow'
    rcases List.mem_append.mp hrow' with hkept | hnew
    · exact ⟨row', (List.mem_filter.mp hkept).1, rfl, rfl, rfl⟩
    · obtain ⟨k, hk, rfl⟩ := List.mem_mapIdx.mp hnew
      exact ⟨template, htemplate, rfl, rfl, rfl⟩
  · exact (List.filter_sublist.map _).nodup hrows

/-- Compaction reports the fragment bound only when the durable bytes exceed it. -/
theorem compactClosed_fragmentBound
    (h : components (coverage (closedRows rows)) ≤ maxClosedFragments) :
    compactClosed fresh now rows ≠ .error fragmentBound := by
  intro herror
  simp only [compactClosed, bind_eq_error, require_eq_error, require_eq_ok] at herror
  rw [length_closedIntervals] at herror
  rcases herror with ⟨hbound, _⟩ | ⟨_, _, herror⟩
  · exact hbound h
  split at herror
  · cases herror
  split at herror
  · cases herror
  simp only [insertRanges, bind_eq_error, require_eq_error] at herror
  rcases herror with ⟨_, h⟩ | ⟨_, _, h⟩
  · cases h
  · obtain ⟨_, h⟩ := flushRanges_eq_error h
    cases h

end FetchNow
