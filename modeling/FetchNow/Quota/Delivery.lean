import FetchNow.Downloads.Models
import FetchNow.Theory.Intervals
import Mathlib.Data.List.Sort

/-!
# The delivery ledger of `fetchnow.quota.delivery`

Every function reads the rows it has locked and either raises or returns the rows it wrote.
Offsets are naturals, so the guards against negative ones have no counterpart.
-/
namespace FetchNow

open Transactions

/-- `DELIVERY_ATTEMPT_LEASE_SECONDS`. -/
def deliveryAttemptLease : Timestamp := seconds 600

/-- `MAX_ACTIVE_ATTEMPTS`. -/
def maxActiveAttempts : Nat := 16

/-- `MAX_CLOSED_FRAGMENTS`. -/
def maxClosedFragments : Nat := 64

structure DeliveryAccountingAttempt where
  id : Uuid
  start : Nat
  stop : Nat
  deriving DecidableEq, Repr

structure DeliveryAccountingResult where
  consumed : Bool := false
  duplicate : Bool := false
  deriving DecidableEq, Repr

/-- Ascending by start, then by end: the order of Python tuples. -/
abbrev Earlier (i j : Intervals.Interval) : Prop := i.1 < j.1 ∨ i.1 = j.1 ∧ i.2 ≤ j.2

/-- Sorted union of half-open intervals; adjacent and overlapping ones are merged. -/
def normalizeIntervals (intervals : List Intervals.Interval) : List Intervals.Interval :=
  let ordered := (intervals.filter fun i => i.1 < i.2).insertionSort Earlier
  (ordered.foldl Intervals.mergeInto []).reverse

def failClosed (reason : String) : Raised := .downloadError .downloadStorageUnavailable reason

def boundRejected (reason : String) : Raised := .downloadError .downloadStorageUnavailable reason

def fragmentBound : Raised := .quotaInvariantError "delivery coverage exceeds fragment bound"

/-- `_lock_ranges`: the ledger by start, then by id. -/
def lockRanges (rows : List FreeDownloadDeliveryRange) : List FreeDownloadDeliveryRange :=
  rows.insertionSort fun a b =>
    a.requestStart < b.requestStart ∨ a.requestStart = b.requestStart ∧ a.id ≤ b.id

def closedIntervals (rows : List FreeDownloadDeliveryRange) : List Intervals.Interval :=
  normalizeIntervals
    ((rows.filter fun row => row.servedEndExclusive > row.requestStart).map (·.served))

/-- The row as `_close_stale` leaves it; `none` when it is deleted. -/
def closeStaleRow (now : Timestamp) (row : FreeDownloadDeliveryRange) :
    Option FreeDownloadDeliveryRange :=
  if row.state ≠ .active ∨ row.leaseExpiresAt.any (· > now) then some row
  else if row.servedEndExclusive = row.requestStart then none
  else some { row with
    requestEndExclusive := row.servedEndExclusive, state := .closed, leaseExpiresAt := none,
    closedAt := some now }

/-- `_close_stale` over the rows of the ledger that `among` selects. -/
def closeStale (among : FreeDownloadDeliveryRange → Bool) (now : Timestamp)
    (rows : List FreeDownloadDeliveryRange) : Except Raised (List FreeDownloadDeliveryRange) :=
  flushRanges (rows.filterMap fun row => if among row then closeStaleRow now row else some row)

/-- Insert rows under the primary key and the CHECK constraints of the table. -/
def insertRanges (rows new : List FreeDownloadDeliveryRange) :
    Except Raised (List FreeDownloadDeliveryRange) := do
  require ((new.map (·.id)).Nodup ∧ ∀ row ∈ new, row.id ∉ rows.map (·.id))
    (.integrityError .rangePrimaryKey)
  flushRanges (rows ++ new)

/-- The row that `_compact_closed` inserts for an interval of the union. -/
def compactedRow (template : FreeDownloadDeliveryRange) (now : Timestamp) (id : Uuid)
    (i : Intervals.Interval) : FreeDownloadDeliveryRange :=
  { id, artifactId := template.artifactId, fenceToken := template.fenceToken,
    artifactBytes := template.artifactBytes, requestStart := i.1, requestEndExclusive := i.2,
    servedEndExclusive := i.2, state := .closed, startedAt := template.startedAt,
    leaseExpiresAt := none, closedAt := some now }

/-- `_compact_closed`: `fresh` supplies the identifiers of the rows it inserts. -/
def compactClosed (fresh : Nat → Uuid) (now : Timestamp) (rows : List FreeDownloadDeliveryRange) :
    Except Raised (List FreeDownloadDeliveryRange) := do
  let closed := rows.filter (·.state = .closed)
  let union := closedIntervals closed
  require (union.length ≤ maxClosedFragments) fragmentBound
  if closed.map (fun row => (row.served, row.requestEndExclusive)) =
      union.map (fun i => (i, i.2)) then .ok rows
  else
    match closed.head? with
    | none => .ok rows
    | some template =>
      insertRanges (rows.filter (·.state ≠ .closed))
        (union.mapIdx fun k i => compactedRow template now (fresh k) i)

/-- The evidence of a row is about the artifact the job publishes now. -/
def GenerationMatches (job : MediaDownloadJob) (row : FreeDownloadDeliveryRange) : Prop :=
  some row.artifactId = job.artifactId ∧ row.fenceToken = job.fenceToken ∧
    row.artifactBytes = job.artifactBytes.getD 0

instance (job : MediaDownloadJob) (row : FreeDownloadDeliveryRange) :
    Decidable (GenerationMatches job row) := inferInstanceAs (Decidable (_ ∧ _))

def assertGeneration (rows : List FreeDownloadDeliveryRange) (job : MediaDownloadJob) :
    Except Raised Unit :=
  require (∀ row ∈ rows, GenerationMatches job row)
    (.quotaInvariantError "delivery evidence generation mismatch")

/-- `_validate_job_binding`; `unexpiredAt` is the clock reading when `require_unexpired` is set. -/
def validateJobBinding (job : MediaDownloadJob) (artifactId : Option Uuid) (fenceToken : Nat)
    (artifactBytes : Nat) (unexpiredAt : Option Timestamp) : Except Raised Unit := do
  require (job.publicState = .ready ∧ job.artifactId.isSome ∧ job.artifactId = artifactId ∧
      job.fenceToken = fenceToken ∧ job.artifactBytes.getD 0 = artifactBytes)
    (failClosed "ACCOUNTING_ARTIFACT_MISMATCH")
  require (∀ now ∈ unexpiredAt, now < job.expiresAt) (failClosed "ACCOUNTING_JOB_EXPIRED")

/-- `_consume_if_complete`. -/
def consumeIfComplete (job : MediaDownloadJob) (now : Timestamp) (quota : QuotaRows) :
    Except Raised (QuotaRows × DeliveryAccountingResult) :=
  if quota.entry.state = .consumed then .ok (quota, { duplicate := true })
  else do
    require (quota.entry.state = .reserved) (failClosed "ACCOUNTING_QUOTA_NOT_RESERVED")
    let rows := lockRanges quota.ranges
    assertGeneration rows job
    if closedIntervals rows ≠ [(0, job.artifactBytes.getD 0)] then .ok (quota, {})
    else
      let entry ← consumeLocked quota.entry now
      .ok ({ quota with entry }, { consumed := true })

/-- The first byte of a requested range. -/
def firstByte (start stop : Nat) : Intervals.Interval := (start, min (start + 1) stop)

/-- The row that `begin` inserts. -/
def openAttempt (job : MediaDownloadJob) (id : Uuid) (start stop : Nat) (now : Timestamp) :
    FreeDownloadDeliveryRange :=
  { id, artifactId := job.artifactId.getD 0, fenceToken := job.fenceToken,
    artifactBytes := job.artifactBytes.getD 0, requestStart := start, requestEndExclusive := stop,
    servedEndExclusive := start, state := .active, startedAt := now,
    leaseExpiresAt := some (now + deliveryAttemptLease), closedAt := none }

/-- `DeliveryQuotaAccounting.begin` for an authorization of this job. `revalidated` is the job
that the transport authorization returns when it is run again under the locks. -/
def begin (authorization : MediaDownloadJob) (tier : Tier) (start stop : Nat)
    (revalidated : Except DownloadError Uuid) (newId : Uuid) (fresh : Nat → Uuid) (clock : Clock)
    (rows : DownloadRows) : Except Raised (DownloadRows × Option DeliveryAccountingAttempt) :=
  if tier = .premium then .ok (rows, none)
  else do
    require (start < stop ∧ authorization.artifactBytes.isSome)
      (.quotaInvariantError "invalid delivery accounting interval")
    match rows.quota with
    | none => .ok (rows, none)
    | some quota =>
      let job := rows.job
      let current ← revalidated.mapError DownloadError.raised
      require (current = job.id) (failClosed "ACCOUNTING_REAUTH_MISMATCH")
      let now := clock 0
      validateJobBinding job authorization.artifactId authorization.fenceToken
        (authorization.artifactBytes.getD 0) (some now)
      if quota.entry.state = .consumed then .ok (rows, none)
      else do
        require (quota.entry.state = .reserved) (failClosed "ACCOUNTING_QUOTA_TERMINAL")
        let ranges ← closeStale (fun _ => true) now (lockRanges quota.ranges)
        assertGeneration (lockRanges ranges) job
        let ranges ← compactClosed fresh now (lockRanges ranges)
        let ranges := lockRanges ranges
        let active := ranges.filter (·.state = .active)
        require (active.length < maxActiveAttempts) (boundRejected "ACCOUNTING_ACTIVE_LIMIT")
        let activeFirstBytes :=
          active.map fun row => firstByte row.requestStart row.requestEndExclusive
        require ((normalizeIntervals (closedIntervals ranges ++ activeFirstBytes ++
            [firstByte start stop])).length ≤ maxClosedFragments)
          (boundRejected "ACCOUNTING_FRAGMENT_LIMIT")
        let ranges ← insertRanges ranges [openAttempt job newId start stop now]
        let entry ← flushEntry { quota.entry with
          reservationExpiresAt :=
            max quota.entry.reservationExpiresAt (now + deliveryAttemptLease) }
        .ok ({ rows with quota := some { entry, ranges } }, some ⟨newId, start, stop⟩)

/-- `_lock_attempt_context`: the quota rows and the attempt, or `none` when it is gone. -/
def lockAttemptContext (attemptId : Uuid) (allowClosed : Bool) (rows : DownloadRows) :
    Except Raised (Option (QuotaRows × FreeDownloadDeliveryRange)) :=
  match rows.quota with
  | none => .ok none
  | some quota =>
    match quota.ranges.find? (·.id = attemptId) with
    | none => .ok none
    | some attempt => do
      require (attempt.state = .closed → allowClosed = true)
        (.quotaInvariantError "delivery checkpoint targets closed attempt")
      validateJobBinding rows.job (some attempt.artifactId) attempt.fenceToken
        attempt.artifactBytes none
      .ok (some (quota, attempt))

/-- Rewrite the row with this primary key. -/
def updateRange (attemptId : Uuid) (write : FreeDownloadDeliveryRange → FreeDownloadDeliveryRange)
    (rows : List FreeDownloadDeliveryRange) : List FreeDownloadDeliveryRange :=
  rows.map fun row => if row.id = attemptId then write row else row

def checkpoint (attemptId : Uuid) (observedEnd : Nat) (clock : Clock) (rows : DownloadRows) :
    Except Raised (DownloadRows × DeliveryAccountingResult) := do
  match ← lockAttemptContext attemptId false rows with
  | none => .error (.quotaInvariantError "active delivery attempt disappeared")
  | some (quota, attempt) =>
    let now := clock 0
    let observedEnd := max observedEnd attempt.servedEndExclusive
    require (observedEnd ≤ attempt.requestEndExclusive)
      (.quotaInvariantError "delivery checkpoint exceeds requested range")
    let leaseExpires := now + deliveryAttemptLease
    let ranges ← flushRanges (updateRange attemptId (fun row =>
      { row with servedEndExclusive := observedEnd, leaseExpiresAt := some leaseExpires })
      quota.ranges)
    let entry := if quota.entry.state = .reserved then
        { quota.entry with
          reservationExpiresAt := max quota.entry.reservationExpiresAt leaseExpires }
      else quota.entry
    let (quota, result) ← consumeIfComplete rows.job now { entry, ranges }
    let entry ← flushEntry quota.entry
    .ok ({ rows with quota := some { quota with entry } }, result)

/-- The latest lease of an active row, or `default` when there is none. -/
def liveUntil (default : Timestamp) (rows : List FreeDownloadDeliveryRange) : Timestamp :=
  ((rows.filter (·.state = .active)).filterMap (·.leaseExpiresAt)).max?.getD default

def finalize (attemptId : Uuid) (observedEnd : Nat) (fresh : Nat → Uuid) (clock : Clock)
    (rows : DownloadRows) : Except Raised (DownloadRows × DeliveryAccountingResult) := do
  match ← lockAttemptContext attemptId true rows with
  | none => .ok (rows, { duplicate := true })
  | some (quota, attempt) =>
    let now := clock 0
    if attempt.state = .closed then .ok (rows, { duplicate := true })
    else do
      let observedEnd := max observedEnd attempt.servedEndExclusive
      require (observedEnd ≤ attempt.requestEndExclusive)
        (.quotaInvariantError "delivery finalization exceeds requested range")
      let ranges ← flushRanges (if observedEnd = attempt.requestStart then
          quota.ranges.filter (·.id ≠ attemptId)
        else updateRange attemptId (fun row =>
          { row with
            servedEndExclusive := observedEnd, requestEndExclusive := observedEnd,
            state := .closed, leaseExpiresAt := none, closedAt := some now }) quota.ranges)
      let ranges ← compactClosed fresh now (lockRanges ranges)
      let (quota, result) ← consumeIfComplete rows.job now { quota with ranges }
      let entry ← flushEntry (if quota.entry.state = .reserved then
          { quota.entry with
            reservationExpiresAt :=
              max rows.job.expiresAt (liveUntil rows.job.expiresAt quota.ranges) }
        else quota.entry)
      .ok ({ rows with quota := some { quota with entry } }, result)

/-- `has_live_attempt_locked`. -/
def hasLiveAttempt (now : Timestamp) (quota : QuotaRows) : Bool := quota.ranges.any (·.live now)

/-- `reconcile_locked`: close stale attempts, compact the evidence, repair full coverage. -/
def reconcileLocked (fresh : Nat → Uuid) (now : Timestamp) (job : MediaDownloadJob)
    (quota : QuotaRows) : Except Raised (QuotaRows × DeliveryAccountingResult) := do
  let ranges := lockRanges quota.ranges
  assertGeneration ranges job
  let ranges ← closeStale (·.stale now) now ranges
  let ranges ← compactClosed fresh now (lockRanges ranges)
  let (quota, result) ← consumeIfComplete job now { quota with ranges }
  let entry ← flushEntry quota.entry
  .ok ({ quota with entry }, result)

/-! ## What the repair of a ledger raises -/

/-- The constraints of the quota tables. -/
def Constraint.onQuota : Constraint → Bool
  | entryExpiry | entryLifecycle | rangeArtifactBytesPositive | rangeRequest | rangeServed
  | rangeLifecycle | rangePrimaryKey => true
  | _ => false

/-- A refused row of the quota tables, or a ledger that contradicts its job or its entry. -/
def Raised.onQuota : Raised → Bool
  | .integrityError violated => violated.onQuota
  | .quotaInvariantError message =>
    message ∈ ["delivery evidence generation mismatch",
      "delivery coverage exceeds fragment bound",
      "ready transition lacks a reserved quota entry", "cannot release a consumed quota entry"]
  | .downloadError .downloadStorageUnavailable _ => true
  | _ => false

section

variable {bad : Raised → Prop} {fresh : Nat → Uuid} {now : Timestamp} {job : MediaDownloadJob}
  {quota : QuotaRows} {entry : FreeDownloadQuotaEntry} {ranges : List FreeDownloadDeliveryRange}
  (hbad : ∀ e : Raised, e.onQuota = true → ¬ bad e)
include hbad

theorem flushEntry_avoids : Avoids bad (flushEntry entry) :=
  .require_bind (hbad _ rfl) fun _ => .require_bind (hbad _ rfl) fun _ => avoids_ok

theorem consumeLocked_avoids : Avoids bad (consumeLocked entry now) :=
  .require_bind (hbad _ (by decide)) fun _ => avoids_ok

theorem releaseLocked_avoids {expired : Bool} : Avoids bad (releaseLocked entry now expired) := by
  unfold releaseLocked
  split
  · exact avoids_ok
  · exact avoids_ok
  · exact avoids_ok
  · exact avoids_error.mpr (hbad _ (by decide))

theorem flushRanges_avoids : Avoids bad (flushRanges ranges) := by
  induction ranges with
  | nil => exact avoids_ok
  | cons row ranges ih =>
    have hrow : Avoids bad (flushRange row) :=
      .require_bind (hbad _ rfl) fun _ => .require_bind (hbad _ rfl) fun _ =>
        .require_bind (hbad _ rfl) fun _ => avoids_require.mpr (.inr (hbad _ rfl))
    exact hrow.bind fun _ _ => ih.bind fun _ _ => avoids_ok

theorem compactClosed_avoids : Avoids bad (compactClosed fresh now ranges) := by
  refine .require_bind (hbad _ (by decide)) fun _ => ?_
  split
  · exact avoids_ok
  split
  · exact avoids_ok
  · exact .require_bind (hbad _ rfl) fun _ => flushRanges_avoids hbad

theorem consumeIfComplete_avoids : Avoids bad (consumeIfComplete job now quota) := by
  unfold consumeIfComplete
  split
  · exact avoids_ok
  refine .require_bind (hbad _ rfl) fun _ => ?_
  refine .require_bind (hbad _ (by decide)) fun _ => ?_
  split
  · exact avoids_ok
  · exact (consumeLocked_avoids hbad).bind fun _ _ => avoids_ok

theorem reconcileLocked_avoids : Avoids bad (reconcileLocked fresh now job quota) := by
  refine .require_bind (hbad _ (by decide)) fun _ => ?_
  refine (flushRanges_avoids hbad).bind fun _ _ => ?_
  refine (compactClosed_avoids hbad).bind fun _ _ => ?_
  refine (consumeIfComplete_avoids hbad).bind fun _ _ => ?_
  exact (flushEntry_avoids hbad).bind fun _ _ => avoids_ok

end

end FetchNow
