import FetchNow.Quota.Ledger

/-!
# Calls on the delivery ledger

What a committed call of `DeliveryQuotaAccounting` has done, as relations that the invariants
of the ledger are proved against.
-/
namespace FetchNow

open Transactions Intervals

variable {rows rows' : DownloadRows} {quota quota' : QuotaRows} {job : MediaDownloadJob}
  {now : Timestamp} {fresh : Nat → Uuid} {clock : Clock} {start stop observedEnd : Nat}
  {newId attemptId : Uuid} {result : DeliveryAccountingResult}

/-- The test of `_consume_if_complete`: the observed bytes are the whole artifact. -/
def Complete (job : MediaDownloadJob) (ranges : List FreeDownloadDeliveryRange) : Prop :=
  closedIntervals (lockRanges ranges) = [(0, job.artifactBytes.getD 0)]

theorem complete_iff {ranges : List FreeDownloadDeliveryRange}
    (hn : 0 < job.artifactBytes.getD 0) :
    Complete job ranges ↔ coverage ranges = Finset.Ico 0 (job.artifactBytes.getD 0) := by
  rw [Complete, closedIntervals_eq_whole hn, coverage_lockRanges]

def FreeDownloadQuotaEntry.consumed (entry : FreeDownloadQuotaEntry) (now : Timestamp) :
    FreeDownloadQuotaEntry :=
  { entry with state := .consumed, consumedAt := some now, releasedAt := none }

def FreeDownloadQuotaEntry.extended (entry : FreeDownloadQuotaEntry) (t : Timestamp) :
    FreeDownloadQuotaEntry :=
  { entry with reservationExpiresAt := t }

/-- What `_consume_if_complete` decides. -/
inductive Consumes (job : MediaDownloadJob) (now : Timestamp) (quota : QuotaRows) :
    QuotaRows → DeliveryAccountingResult → Prop
  | duplicate : quota.entry.state = .consumed → Consumes job now quota quota { duplicate := true }
  | incomplete : quota.entry.state = .reserved →
      (∀ row ∈ quota.ranges, GenerationMatches job row) → ¬ Complete job quota.ranges →
      Consumes job now quota quota {}
  | complete : quota.entry.state = .reserved →
      (∀ row ∈ quota.ranges, GenerationMatches job row) → Complete job quota.ranges →
      Consumes job now quota { quota with entry := quota.entry.consumed now } { consumed := true }

theorem consumeIfComplete_spec (h : consumeIfComplete job now quota = .ok (quota', result)) :
    Consumes job now quota quota' result := by
  unfold consumeIfComplete at h
  split at h
  · rename_i hstate
    cases h
    exact .duplicate hstate
  simp only [bind_eq_ok, require_eq_ok, assertGeneration_eq_ok, mem_lockRanges] at h
  obtain ⟨_, hstate, _, hgen, h⟩ := h
  split at h
  · rename_i hincomplete
    cases h
    exact .incomplete hstate hgen hincomplete
  · rename_i hcomplete
    simp only [bind_eq_ok, consumeLocked_eq_ok] at h
    obtain ⟨_, ⟨_, rfl⟩, h⟩ := h
    cases h
    exact .complete hstate hgen (not_not.mp hcomplete)

theorem Consumes.ranges (h : Consumes job now quota quota' result) :
    quota'.ranges = quota.ranges := by
  cases h <;> rfl

/-! ## What a commit does to the entry -/

/-- A reservation is kept, extended or consumed; a settled entry is kept. -/
inductive EntryMove (expiresAt now : Timestamp) (entry : FreeDownloadQuotaEntry) :
    FreeDownloadQuotaEntry → Prop
  | kept : EntryMove expiresAt now entry entry
  | extended {t : Timestamp} : entry.state = .reserved →
      (expiresAt ≤ entry.reservationExpiresAt → expiresAt ≤ t) →
      EntryMove expiresAt now entry (entry.extended t)
  | consumed {t : Timestamp} : entry.state = .reserved →
      EntryMove expiresAt now entry ((entry.extended t).consumed now)

theorem Consumes.entryMove {expiresAt : Timestamp} (h : Consumes job now quota quota' result) :
    EntryMove expiresAt now quota.entry quota'.entry := by
  cases h with
  | duplicate => exact .kept
  | incomplete => exact .kept
  | complete hstate => exact .consumed hstate

/-! ## `begin` -/

section Begin

variable {authorization : MediaDownloadJob} {tier : Tier} {revalidated : Except DownloadError Uuid}
  {attempt : Option DeliveryAccountingAttempt}

/-- A committed `begin`: either nothing, or one more open attempt over the settled ledger. -/
inductive BeginStep (start stop : Nat) (newId : Uuid) (now : Timestamp) (rows : DownloadRows) :
    DownloadRows → Option DeliveryAccountingAttempt → Prop
  | unaccounted : BeginStep start stop newId now rows rows none
  | admitted {quota : QuotaRows} {ranges : List FreeDownloadDeliveryRange} :
      rows.quota = some quota → start < stop → rows.job.publicState = .ready →
      rows.job.artifactId.isSome → now < rows.job.expiresAt → quota.entry.state = .reserved →
      Settles (lapsed now) quota.ranges ranges →
      (∀ row ∈ ranges, GenerationMatches rows.job row) →
      (activeRows ranges).length < maxActiveAttempts →
      ((ranges.map (·.id)).Nodup →
        ((ranges ++ [openAttempt rows.job newId start stop now]).map (·.id)).Nodup) →
      (∀ row ∈ ranges ++ [openAttempt rows.job newId start stop now], row.Checked) →
      BeginStep start stop newId now rows
        { rows with
          quota := some
            ⟨quota.entry.extended
                (max quota.entry.reservationExpiresAt (now + deliveryAttemptLease)),
              ranges ++ [openAttempt rows.job newId start stop now]⟩ }
        (some ⟨newId, start, stop⟩)

theorem begin_spec
    (h : begin authorization tier start stop revalidated newId fresh clock rows =
      .ok (rows', attempt)) : BeginStep start stop newId (clock 0) rows rows' attempt := by
  unfold begin at h
  split at h
  · cases h
    exact .unaccounted
  simp only [bind_eq_ok, require_eq_ok] at h
  obtain ⟨_, ⟨hlt, _⟩, h⟩ := h
  split at h
  · cases h
    exact .unaccounted
  rename_i quota hquota
  simp only [bind_eq_ok, require_eq_ok, validateJobBinding] at h
  obtain ⟨_, _, _, _, _, ⟨_, ⟨hready, hartifact, _⟩, hunexpired⟩, h⟩ := h
  split at h
  · cases h
    exact .unaccounted
  simp only [bind_eq_ok, require_eq_ok, assertGeneration_eq_ok, flushEntry_eq_ok,
    mem_lockRanges] at h
  obtain ⟨_, hstate, closed, hclose, _, hgen, compacted, hcompact, _, hactive, _, _, ranges, hnew,
    entry, ⟨_, _, rfl⟩, h⟩ := h
  obtain ⟨hnodup, hchecked, rfl⟩ := insertRanges_eq_ok hnew
  cases h
  obtain ⟨hcompacted, _⟩ := compactClosed_settles hcompact
  refine .admitted hquota hlt hready hartifact (hunexpired _ (by simp)) hstate ?_ ?_ hactive
    hnodup hchecked
  · have hsettled := (closeStale_settles hclose).locked.trans hcompacted.locked
    simpa using hsettled.trans settles_lockRanges
  · intro row hrow
    obtain ⟨row', hrow', ha, hf, hb⟩ := hcompacted.locked.generation row (mem_lockRanges.mp hrow)
    obtain ⟨ha', hf', hb'⟩ := hgen row' hrow'
    exact ⟨ha ▸ ha', hf.trans hf', hb.trans hb'⟩

end Begin

/-! ## `checkpoint` and `finalize` -/

/-- The ledger with the observed prefix of one attempt advanced. -/
def advance (attemptId : Uuid) (observedEnd : Nat) (ranges : List FreeDownloadDeliveryRange) :
    List FreeDownloadDeliveryRange :=
  updateRange attemptId (fun row => { row with servedEndExclusive := observedEnd }) ranges

/-- The attempt that a call has locked, and the prefix it then makes durable. -/
structure Observes (attemptId : Uuid) (observedEnd : Nat) (rows : DownloadRows) (quota : QuotaRows)
    (attempt : FreeDownloadDeliveryRange) (served : Nat) : Prop where
  stored : rows.quota = some quota
  found : quota.ranges.find? (·.id = attemptId) = some attempt
  ready : rows.job.publicState = .ready
  active : attempt.state = DeliveryRangeState.active
  length : served = max observedEnd attempt.servedEndExclusive
  within : served ≤ attempt.requestEndExclusive

theorem lockAttemptContext_eq_some {allowClosed : Bool} {attempt : FreeDownloadDeliveryRange}
    (h : lockAttemptContext attemptId allowClosed rows = .ok (some (quota, attempt))) :
    rows.quota = some quota ∧ quota.ranges.find? (·.id = attemptId) = some attempt ∧
      rows.job.publicState = .ready ∧ (attempt.state = .closed → allowClosed = true) := by
  unfold lockAttemptContext at h
  split at h
  · cases h
  rename_i quota hquota
  split at h
  · cases h
  rename_i attempt hattempt
  simp only [bind_eq_ok, require_eq_ok, validateJobBinding] at h
  obtain ⟨_, hclosed, _, ⟨_, ⟨hready, _⟩, _⟩, h⟩ := h
  cases h
  exact ⟨hquota, hattempt, hready, hclosed⟩

/-- A committed `checkpoint`: a longer prefix under a renewed lease. -/
inductive CheckpointStep (attemptId : Uuid) (observedEnd : Nat) (now : Timestamp)
    (rows : DownloadRows) : DownloadRows → DeliveryAccountingResult → Prop
  | advanced {quota quota' : QuotaRows} {attempt : FreeDownloadDeliveryRange} {served : Nat}
      {entry : FreeDownloadQuotaEntry} {ranges : List FreeDownloadDeliveryRange}
      {result : DeliveryAccountingResult} :
      Observes attemptId observedEnd rows quota attempt served →
      EntryMove rows.job.expiresAt now quota.entry entry → entry.state = quota.entry.state →
      ranges = updateRange attemptId (fun row =>
        { row with
          servedEndExclusive := served, leaseExpiresAt := some (now + deliveryAttemptLease) })
        quota.ranges →
      (∀ row ∈ ranges, row.Checked) → Consumes rows.job now ⟨entry, ranges⟩ quota' result →
      EntryMove rows.job.expiresAt now quota.entry quota'.entry →
      CheckpointStep attemptId observedEnd now rows { rows with quota := some quota' } result

theorem checkpoint_spec
    (h : checkpoint attemptId observedEnd clock rows = .ok (rows', result)) :
    CheckpointStep attemptId observedEnd (clock 0) rows rows' result := by
  simp only [checkpoint, bind_eq_ok] at h
  obtain ⟨locked, hlocked, h⟩ := h
  split at h
  · cases h
  rename_i quota attempt
  obtain ⟨hquota, hattempt, hready, hclosed⟩ := lockAttemptContext_eq_some hlocked
  have hactive : attempt.state = .active := by
    cases hstate : attempt.state with
    | active => rfl
    | closed => exact absurd (hclosed hstate) (by simp)
  simp only [bind_eq_ok, require_eq_ok, flushRanges_eq_ok, flushEntry_eq_ok] at h
  obtain ⟨_, hwithin, ranges, ⟨hchecked, rfl⟩, ⟨quota', result'⟩, hconsume, entry, ⟨_, _, rfl⟩,
    h⟩ := h
  cases h
  have hconsume := consumeIfComplete_spec hconsume
  have hobserves : Observes attemptId observedEnd rows quota attempt
      (max observedEnd attempt.servedEndExclusive) :=
    ⟨hquota, hattempt, hready, hactive, rfl, hwithin⟩
  split at hconsume
  · rename_i hstate
    let t := max quota.entry.reservationExpiresAt (clock 0 + deliveryAttemptLease)
    have hrenewed : EntryMove rows.job.expiresAt (clock 0) quota.entry (quota.entry.extended t) :=
      .extended hstate fun h => h.trans (le_max_left _ _)
    refine .advanced hobserves hrenewed rfl rfl hchecked hconsume ?_
    cases hconsume with
    | duplicate hconsumed => simp [hstate] at hconsumed
    | incomplete => exact hrenewed
    | complete => exact .consumed hstate
  · exact .advanced hobserves .kept rfl rfl hchecked hconsume hconsume.entryMove

/-- A committed `finalize`: nothing, or the attempt closed at its prefix and then compacted. -/
inductive FinalizeStep (attemptId : Uuid) (observedEnd : Nat) (now : Timestamp)
    (rows : DownloadRows) : DownloadRows → DeliveryAccountingResult → Prop
  | duplicate : FinalizeStep attemptId observedEnd now rows rows { duplicate := true }
  | closed {quota quota' : QuotaRows} {attempt : FreeDownloadDeliveryRange} {served : Nat}
      {entry : FreeDownloadQuotaEntry} {ranges : List FreeDownloadDeliveryRange}
      {result : DeliveryAccountingResult} :
      Observes attemptId observedEnd rows quota attempt served →
      ((quota.ranges.map (·.id)).Nodup →
        Settles (·.id = attemptId) (advance attemptId served quota.ranges) ranges) →
      (∀ row ∈ ranges, row.Checked) →
      Consumes rows.job now ⟨quota.entry, ranges⟩ quota' result →
      entry.state = quota'.entry.state → EntryMove rows.job.expiresAt now quota.entry entry →
      FinalizeStep attemptId observedEnd now rows
        { rows with quota := some { quota' with entry } } result

theorem find?_unique {ranges : List FreeDownloadDeliveryRange} {row attempt}
    (hnodup : (ranges.map (·.id)).Nodup) (hfind : ranges.find? (·.id = attemptId) = some attempt)
    (hrow : row ∈ ranges) (hid : row.id = attemptId) : row = attempt := by
  have hattempt := List.find?_some hfind
  have hmem := List.mem_of_find?_eq_some hfind
  exact List.inj_on_of_nodup_map hnodup hrow hmem (by simp_all)

/-- The write of `finalize` closes the advanced attempt. -/
theorem finalize_write (now : Timestamp) {ranges : List FreeDownloadDeliveryRange} {attempt}
    {served : Nat}
    (hnodup : (ranges.map (·.id)).Nodup) (hfind : ranges.find? (·.id = attemptId) = some attempt)
    (hactive : attempt.state = .active) :
    (if served = attempt.requestStart then ranges.filter (·.id ≠ attemptId)
      else updateRange attemptId (fun row =>
        { row with
          servedEndExclusive := served, requestEndExclusive := served,
          state := .closed, leaseExpiresAt := none, closedAt := some now }) ranges) =
      closeAttempts (·.id = attemptId) now (advance attemptId served ranges) := by
  simp only [closeAttempts, advance, updateRange, List.filterMap_map]
  split
  · rename_i hempty
    rw [← List.filterMap_eq_filter]
    refine List.filterMap_congr fun row hrow => ?_
    by_cases hid : row.id = attemptId
    · obtain rfl := find?_unique hnodup hfind hrow hid
      simp [closeStep, closedAttempt, Option.guard, hid, hactive, hempty]
    · simp [closeStep, Option.guard, hid]
  · rename_i hserved
    rw [← List.filterMap_eq_map]
    refine List.filterMap_congr fun row hrow => ?_
    by_cases hid : row.id = attemptId
    · obtain rfl := find?_unique hnodup hfind hrow hid
      simp [closeStep, closedAttempt, hid, hactive, hserved]
    · simp [closeStep, hid]

theorem finalize_spec
    (h : finalize attemptId observedEnd fresh clock rows = .ok (rows', result)) :
    FinalizeStep attemptId observedEnd (clock 0) rows rows' result := by
  simp only [finalize, bind_eq_ok] at h
  obtain ⟨locked, hlocked, h⟩ := h
  split at h
  · cases h
    exact .duplicate
  rename_i quota attempt
  obtain ⟨hquota, hattempt, hready, _⟩ := lockAttemptContext_eq_some hlocked
  split at h
  · cases h
    exact .duplicate
  rename_i hopen
  simp only [bind_eq_ok, require_eq_ok, flushRanges_eq_ok, flushEntry_eq_ok] at h
  obtain ⟨_, hwithin, written, ⟨hchecked, hwritten⟩, ranges, hcompact, ⟨quota', result'⟩, hconsume,
    entry, ⟨_, _, rfl⟩, h⟩ := h
  cases h
  have hactive : attempt.state = .active := state_ne_closed.mp hopen
  obtain ⟨hcompacted, _⟩ := compactClosed_settles hcompact
  have hobserves : Observes attemptId observedEnd rows quota attempt
      (max observedEnd attempt.servedEndExclusive) :=
    ⟨hquota, hattempt, hready, hactive, rfl, hwithin⟩
  have hconsumed := consumeIfComplete_spec hconsume
  subst hwritten
  refine .closed hobserves (fun hnodup => ?_) (hcompacted.locked.checked hchecked) hconsumed ?_ ?_
  · rw [finalize_write (clock 0) hnodup hattempt hactive] at hchecked hcompacted
    simpa using (settles_closeAttempts hchecked).trans hcompacted.locked
  · split <;> rfl
  · cases hconsumed with
    | duplicate hstate =>
      have hstate : quota.entry.state = .consumed := hstate
      rw [if_neg (by simp [hstate])]
      exact .kept
    | incomplete hstate =>
      have hstate : quota.entry.state = .reserved := hstate
      rw [if_pos hstate]
      exact .extended hstate fun _ => le_max_left _ _
    | complete hstate =>
      rw [if_neg (by simp [FreeDownloadQuotaEntry.consumed])]
      exact .consumed hstate

/-! ## `reconcile_locked` -/

theorem reconcileLocked_spec (h : reconcileLocked fresh now job quota = .ok (quota', result)) :
    ∃ ranges, Settles (fun row => row.stale now && lapsed now row) quota.ranges ranges ∧
      (∀ row ∈ ranges, row.Checked) ∧ Consumes job now ⟨quota.entry, ranges⟩ quota' result := by
  simp only [reconcileLocked, bind_eq_ok, flushEntry_eq_ok] at h
  obtain ⟨_, _, closed, hclose, ranges, hcompact, ⟨quota', result'⟩, hconsume, entry,
    ⟨_, _, rfl⟩, h⟩ := h
  cases h
  have hclosed := closeStale_settles hclose
  obtain ⟨hcompacted, _⟩ := compactClosed_settles hcompact
  refine ⟨ranges, ?_, ?_, consumeIfComplete_spec hconsume⟩
  · simpa using hclosed.locked.trans hcompacted.locked
  · rw [closeStale, flushRanges_eq_ok] at hclose
    obtain ⟨hchecked, rfl⟩ := hclose
    exact hcompacted.locked.checked hchecked

theorem reconcileLocked_entryMove {expiresAt : Timestamp}
    (h : reconcileLocked fresh now job quota = .ok (quota', result)) :
    EntryMove expiresAt now quota.entry quota'.entry := by
  obtain ⟨_, _, _, hconsumes⟩ := reconcileLocked_spec h
  exact hconsumes.entryMove

/-! ## Runs of calls on one entry -/

/-- A ledger call writes the entry of a ready job and its rows, nothing else. -/
inductive LedgerFrame (now : Timestamp) (rows : DownloadRows) : DownloadRows → Prop
  | unchanged : LedgerFrame now rows rows
  | moved {quota quota' : QuotaRows} : rows.quota = some quota →
      rows.job.publicState = .ready → EntryMove rows.job.expiresAt now quota.entry quota'.entry →
      LedgerFrame now rows { rows with quota := some quota' }

theorem BeginStep.frame {attempt : Option DeliveryAccountingAttempt}
    (h : BeginStep start stop newId now rows rows' attempt) : LedgerFrame now rows rows' := by
  cases h with
  | unaccounted => exact .unchanged
  | admitted hquota _ hready _ _ hstate =>
    exact .moved hquota hready (.extended hstate fun h => h.trans (le_max_left _ _))

theorem CheckpointStep.frame (h : CheckpointStep attemptId observedEnd now rows rows' result) :
    LedgerFrame now rows rows' := by
  cases h with
  | advanced hobserves _ _ _ _ _ hmove => exact .moved hobserves.stored hobserves.ready hmove

theorem FinalizeStep.frame (h : FinalizeStep attemptId observedEnd now rows rows' result) :
    LedgerFrame now rows rows' := by
  cases h with
  | duplicate => exact .unchanged
  | closed hobserves _ _ _ _ hmove => exact .moved hobserves.stored hobserves.ready hmove

/-- What the ledger calls report to the outside. -/
inductive LedgerEvent where
  | begun (attempt : DeliveryAccountingAttempt)
  | reported (attemptId : Uuid) (observedEnd : Nat)
  deriving DecidableEq, Repr

/-- The calls that `DeliveryQuotaAccounting` accepts, with everything they read from outside. -/
inductive LedgerCall where
  | begin (authorization : MediaDownloadJob) (tier : Tier) (start stop : Nat)
      (revalidated : Except DownloadError Uuid) (newId : Uuid) (fresh : Nat → Uuid) (clock : Clock)
  | checkpoint (attemptId : Uuid) (observedEnd : Nat) (clock : Clock)
  | finalize (attemptId : Uuid) (observedEnd : Nat) (fresh : Nat → Uuid) (clock : Clock)
  | reconcile (fresh : Nat → Uuid) (now : Timestamp)

def LedgerCall.run (call : LedgerCall) (rows : DownloadRows) :
    Except Raised (DownloadRows × List LedgerEvent) :=
  match call with
  | begin authorization tier start stop revalidated newId fresh clock => do
    let (rows, attempt) ←
      FetchNow.begin authorization tier start stop revalidated newId fresh clock rows
    .ok (rows, attempt.toList.map .begun)
  | checkpoint attemptId observedEnd clock => do
    let (rows, _) ← FetchNow.checkpoint attemptId observedEnd clock rows
    .ok (rows, [.reported attemptId observedEnd])
  | finalize attemptId observedEnd fresh clock => do
    let (rows, _) ← FetchNow.finalize attemptId observedEnd fresh clock rows
    .ok (rows, [.reported attemptId observedEnd])
  | reconcile fresh now =>
    match rows.quota with
    | none => .ok (rows, [])
    | some quota => do
      let (quota, _) ← reconcileLocked fresh now rows.job quota
      .ok ({ rows with quota := some quota }, [])

/-- A committed call, by what it did. -/
inductive LedgerStep (rows : DownloadRows) : DownloadRows → List LedgerEvent → Prop
  | begin {start stop : Nat} {newId : Uuid} {now : Timestamp} {rows' : DownloadRows}
      {attempt : Option DeliveryAccountingAttempt} :
      BeginStep start stop newId now rows rows' attempt →
      LedgerStep rows rows' (attempt.toList.map .begun)
  | checkpoint {attemptId : Uuid} {observedEnd : Nat} {now : Timestamp} {rows' : DownloadRows}
      {result : DeliveryAccountingResult} :
      CheckpointStep attemptId observedEnd now rows rows' result →
      LedgerStep rows rows' [.reported attemptId observedEnd]
  | finalize {attemptId : Uuid} {observedEnd : Nat} {now : Timestamp} {rows' : DownloadRows}
      {result : DeliveryAccountingResult} :
      FinalizeStep attemptId observedEnd now rows rows' result →
      LedgerStep rows rows' [.reported attemptId observedEnd]
  | idle : LedgerStep rows rows []
  | reconcile {now : Timestamp} {quota quota' : QuotaRows}
      {ranges : List FreeDownloadDeliveryRange} {result : DeliveryAccountingResult} :
      rows.quota = some quota →
      Settles (fun row => row.stale now && lapsed now row) quota.ranges ranges →
      (∀ row ∈ ranges, row.Checked) → Consumes rows.job now ⟨quota.entry, ranges⟩ quota' result →
      LedgerStep rows { rows with quota := some quota' } []

theorem LedgerCall.run_spec {call : LedgerCall} {events : List LedgerEvent}
    (h : call.run rows = .ok (rows', events)) : LedgerStep rows rows' events := by
  cases call with
  | begin authorization tier start stop revalidated newId fresh clock =>
    simp only [run, bind_eq_ok] at h
    obtain ⟨⟨_, attempt⟩, hbegin, h⟩ := h
    cases h
    exact .begin (begin_spec hbegin)
  | checkpoint attemptId observedEnd clock =>
    simp only [run, bind_eq_ok] at h
    obtain ⟨⟨_, _⟩, hcheckpoint, h⟩ := h
    cases h
    exact .checkpoint (checkpoint_spec hcheckpoint)
  | finalize attemptId observedEnd fresh clock =>
    simp only [run, bind_eq_ok] at h
    obtain ⟨⟨_, _⟩, hfinalize, h⟩ := h
    cases h
    exact .finalize (finalize_spec hfinalize)
  | reconcile fresh now =>
    simp only [run] at h
    split at h
    · cases h
      exact .idle
    rename_i quota hquota
    simp only [bind_eq_ok] at h
    obtain ⟨⟨_, _⟩, hreconcile, h⟩ := h
    cases h
    obtain ⟨_, hsettles, hchecked, hconsumes⟩ := reconcileLocked_spec hreconcile
    exact .reconcile hquota hsettles hchecked hconsumes

end FetchNow
