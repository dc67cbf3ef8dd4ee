import FetchNow.Quota.Delivery

/-!
# `MediaDownloadJobRepository`

Every function is one job's part of a transaction: it reads the rows it has locked and either
raises or returns the rows it wrote, with the row count of its update where the source returns
it. `clock k` is the k-th value of `clock_timestamp()` that the part reads.
-/
namespace FetchNow

open Transactions

def internalError (reason : String) : Raised := .downloadError .internalError reason

/-! ## Creation -/

structure EnqueueRequest where
  jobId : Uuid
  mediaJobId : Uuid
  formatOptionId : String
  providerId : String
  canonicalProviderUrl : String
  mediaId : String
  hostname : String
  path : String
  scheme : String
  port : Option Nat
  selectedFormatSnapshot : SelectedFormatSnapshot
  maxAttempts : Int
  suggestedFilename : Option String
  deriving DecidableEq, Repr

def EnqueueRequest.target (request : EnqueueRequest) : JobTarget :=
  { mediaJobId := request.mediaJobId, formatOptionId := request.formatOptionId,
    providerId := request.providerId, canonicalProviderUrl := request.canonicalProviderUrl,
    mediaId := request.mediaId, hostname := request.hostname, path := request.path,
    scheme := request.scheme, port := request.port, schemaVersion := 1,
    suggestedFilename := request.suggestedFilename }

/-- The row that `enqueue_or_get` inserts. -/
def queuedJob (request : EnqueueRequest) (now expiresAt : Timestamp) : MediaDownloadJob :=
  { id := request.jobId, target := request.target, publicState := .queued,
    selectedFormatSnapshot := request.selectedFormatSnapshot, attemptCount := 0,
    maxAttempts := request.maxAttempts, availableAt := now, leaseOwner := none,
    leaseExpiresAt := none, fenceToken := 0, artifactId := none, artifactBytes := none,
    artifactContentType := none, artifactContainer := none, publicErrorCode := none,
    progressStage := .queued, progressPercent := none, cancelRequestedAt := none,
    createdAt := now, updatedAt := now, startedAt := none, completedAt := none, expiresAt }

/-- Every field that must be identical across idempotent creates. -/
def ImmutableFieldsMatch (existing : MediaDownloadJob) (request : EnqueueRequest) : Prop :=
  { existing.target with suggestedFilename := none } =
      { request.target with suggestedFilename := none } ∧
    existing.maxAttempts = request.maxAttempts ∧
    stripEffectivePolicySnapshot existing.selectedFormatSnapshot =
      stripEffectivePolicySnapshot request.selectedFormatSnapshot

instance (existing : MediaDownloadJob) (request : EnqueueRequest) :
    Decidable (ImmutableFieldsMatch existing request) := inferInstanceAs (Decidable (_ ∧ _))

/-- `existing` is the row with the same parent and format option, if there is one. -/
def enqueueOrGet (request : EnqueueRequest) (existing : Option MediaDownloadJob)
    (now ttl parentExpiresAt : Timestamp) : Except Raised (MediaDownloadJob × Bool) := do
  require ('?' ∉ request.canonicalProviderUrl.toList ∧ '#' ∉ request.canonicalProviderUrl.toList)
    (internalError "CANONICAL_QUERY_OR_FRAGMENT")
  require (request.formatOptionId ≠ "" ∧ request.formatOptionId.length ≤ 64)
    (internalError "FORMAT_OPTION_ID_INVALID")
  match existing with
  | some row => do
    require (ImmutableFieldsMatch row request) (internalError "IDEMPOTENT_ROW_MISMATCH")
    .ok (row, false)
  | none =>
    match insertJob (queuedJob request now (min (now + ttl) parentExpiresAt)) with
    | .ok job => .ok (job, true)
    | .error _ => .error (internalError "IDEMPOTENCY_LOOKUP_MISS")

/-! ## Guards and quota side effects -/

/-- The row is downloading under this lease owner and fence. -/
def Fenced (owner : String) (fence : Nat) (job : MediaDownloadJob) : Prop :=
  job.publicState = .downloading ∧ job.leaseOwner = some owner ∧ job.fenceToken = fence

/-- Neither the lease nor the job has run out, by two readings of the clock. -/
def LeaseLive (clock : Clock) (job : MediaDownloadJob) : Prop :=
  (∃ t ∈ job.leaseExpiresAt, clock 0 < t) ∧ clock 1 < job.expiresAt

def Uncancelled (job : MediaDownloadJob) : Prop := job.cancelRequestedAt = none

section

variable (owner : String) (fence : Nat) (clock : Clock) (job : MediaDownloadJob)

instance : Decidable (Fenced owner fence job) := inferInstanceAs (Decidable (_ ∧ _))
instance : Decidable (LeaseLive clock job) := inferInstanceAs (Decidable (_ ∧ _))
instance : Decidable (Uncancelled job) := inferInstanceAs (Decidable (_ = _))

end

/-- `UPDATE .. WHERE guard` on one row, with its row count as a flag. -/
def updateJob (guard : Prop) [Decidable guard] (write : MediaDownloadJob → MediaDownloadJob)
    (job : MediaDownloadJob) : Except Raised (MediaDownloadJob × Bool) :=
  if guard then do
    let job ← flushJob (write job)
    .ok (job, true)
  else .ok (job, false)

/-- `_consume_quota_after_job_lock`. -/
def consumeQuotaAfterJobLock (now : Timestamp) :
    Option QuotaRows → Except Raised (Option QuotaRows)
  | none => .ok none
  | some quota => do
    let entry ← consumeLocked quota.entry now
    let entry ← flushEntry entry
    .ok (some { quota with entry })

/-- `_release_quota_after_job_lock`. -/
def releaseQuotaAfterJobLock (now : Timestamp) (expired : Bool) :
    Option QuotaRows → Except Raised (Option QuotaRows)
  | none => .ok none
  | some quota => do
    let entry ← releaseLocked quota.entry now expired
    let entry ← flushEntry entry
    .ok (some { quota with entry })

/-- Apply a write of the job row alone. -/
def DownloadRows.onJob (write : MediaDownloadJob → Except Raised (MediaDownloadJob × Bool))
    (rows : DownloadRows) : Except Raised (DownloadRows × Bool) := do
  let (job, applied) ← write rows.job
  .ok ({ rows with job }, applied)

/-! ## Claim and lease -/

/-- The predicate of `_claim_select`. -/
def Claimable (clock : Clock) (job : MediaDownloadJob) : Prop :=
  job.publicState = .queued ∧ job.availableAt ≤ clock 0 ∧ clock 1 < job.expiresAt ∧
    job.attemptCount < job.maxAttempts ∧ job.cancelRequestedAt = none

instance (clock : Clock) (job : MediaDownloadJob) : Decidable (Claimable clock job) :=
  inferInstanceAs (Decidable (_ ∧ _))

/-- The fields that a claim writes. -/
def claimedJob (workerId : String) (lease now : Timestamp) (job : MediaDownloadJob) :
    MediaDownloadJob :=
  { job with
    publicState := .downloading, progressStage := .inspecting, progressPercent := none,
    leaseOwner := some workerId, leaseExpiresAt := some (now + lease),
    fenceToken := job.fenceToken + 1, attemptCount := job.attemptCount + 1, updatedAt := now,
    startedAt := some (job.startedAt.getD now) }

def claimNext (workerId : String) (lease now : Timestamp) (clock : Clock)
    (job : MediaDownloadJob) : Except Raised (MediaDownloadJob × Bool) := do
  require (workerId ≠ "" ∧ workerId.length ≤ 128) (internalError "INVALID_WORKER_ID")
  if Claimable clock job then do
    assertTransition job.publicState .downloading
    let job ← flushJob (claimedJob workerId lease now job)
    .ok (job, true)
  else .ok (job, false)

def renewedJob (lease : Timestamp) (clock : Clock) (job : MediaDownloadJob) : MediaDownloadJob :=
  { job with leaseExpiresAt := some (clock 2 + lease), updatedAt := clock 3 }

def renewLease (owner : String) (fence : Nat) (lease : Timestamp) (clock : Clock)
    (job : MediaDownloadJob) : Except Raised (MediaDownloadJob × Bool) :=
  updateJob (Fenced owner fence job ∧ LeaseLive clock job) (renewedJob lease clock) job

inductive LeaseStatus where
  | owned
  | lost
  | cancelled
  deriving DecidableEq, Repr

def leaseStatus (owner : String) (fence : Nat) (lease : Timestamp) (clock : Clock)
    (job : MediaDownloadJob) : Except Raised (MediaDownloadJob × LeaseStatus) :=
  if Fenced owner fence job ∧ LeaseLive clock job then
    if job.cancelRequestedAt.isSome then .ok (job, .cancelled)
    else do
      let (job, renewed) ← renewLease owner fence lease (fun k => clock (k + 2)) job
      .ok (job, if renewed then .owned else .lost)
  else .ok (job, .lost)

/-! ## Terminal writes of the lease holder -/

/-- The artifact a worker publishes. -/
structure Artifact where
  id : Uuid
  bytes : Nat
  contentType : String
  container : String
  deriving DecidableEq, Repr

/-- The fields of a published job. -/
def readyJob (artifact : Artifact) (clock : Clock) (job : MediaDownloadJob) : MediaDownloadJob :=
  { job with
    publicState := .ready, progressStage := .ready, progressPercent := none,
    artifactId := some artifact.id, artifactBytes := some artifact.bytes,
    artifactContentType := some artifact.contentType,
    artifactContainer := some artifact.container, publicErrorCode := none, leaseOwner := none,
    leaseExpiresAt := none, completedAt := some (clock 2), updatedAt := clock 3 }

def completeReady (owner : String) (fence : Nat) (artifact : Artifact) (clock : Clock)
    (consumeQuotaOnReady : Bool) (rows : DownloadRows) :
    Except Raised (DownloadRows × Bool) := do
  require (0 < artifact.bytes) (internalError "ARTIFACT_BYTES_INVALID")
  assertTransition .downloading .ready
  let (job, applied) ← updateJob
    (Fenced owner fence rows.job ∧ LeaseLive clock rows.job ∧ Uncancelled rows.job)
    (readyJob artifact clock) rows.job
  if applied = true ∧ consumeQuotaOnReady = true then do
    let quota ← consumeQuotaAfterJobLock (clock 4) rows.quota
    .ok ({ rows with job, quota }, applied)
  else .ok ({ rows with job }, applied)

/-- The fields of a permanent failure. -/
def failedJob (code : DownloadErrorCode) (clock : Clock) (job : MediaDownloadJob) :
    MediaDownloadJob :=
  { job with
    publicState := .failed, progressStage := .failed, progressPercent := none,
    publicErrorCode := some code.value, artifactId := none, artifactBytes := none,
    artifactContentType := none, artifactContainer := none, leaseOwner := none,
    leaseExpiresAt := none, completedAt := some (clock 2), updatedAt := clock 3 }

def failPermanent (owner : String) (fence : Nat) (code : DownloadErrorCode) (clock : Clock)
    (rows : DownloadRows) : Except Raised (DownloadRows × Bool) := do
  assertTransition .downloading .failed
  let (job, applied) ← updateJob
    (Fenced owner fence rows.job ∧ LeaseLive clock rows.job ∧ Uncancelled rows.job)
    (failedJob code clock) rows.job
  if applied = true then do
    let quota ← releaseQuotaAfterJobLock (clock 4) false rows.quota
    .ok ({ rows with job, quota }, applied)
  else .ok ({ rows with job }, applied)

/-- The fields of a cancellation by the lease holder. -/
def cancelledJob (clock : Clock) (job : MediaDownloadJob) : MediaDownloadJob :=
  { job with
    publicState := .expired, progressStage := .cancelled, progressPercent := none,
    publicErrorCode := none, artifactId := none, artifactBytes := none,
    artifactContentType := none, artifactContainer := none, leaseOwner := none,
    leaseExpiresAt := none, completedAt := some (clock 0), updatedAt := clock 1 }

def completeCancelled (owner : String) (fence : Nat) (clock : Clock) (rows : DownloadRows) :
    Except Raised (DownloadRows × Bool) := do
  assertTransition .downloading .expired
  let (job, applied) ← updateJob
    (Fenced owner fence rows.job ∧ rows.job.cancelRequestedAt.isSome) (cancelledJob clock)
    rows.job
  if applied = true then do
    let quota ← releaseQuotaAfterJobLock (clock 2) false rows.quota
    .ok ({ rows with job, quota }, applied)
  else .ok ({ rows with job }, applied)

/-- The fields of a retry with backoff. -/
def retriedJob (now backoff : Timestamp) (clock : Clock) (job : MediaDownloadJob) :
    MediaDownloadJob :=
  { job with
    publicState := .queued, progressStage := .retrying, progressPercent := none,
    publicErrorCode := none, availableAt := now + max 0 backoff, leaseOwner := none,
    leaseExpiresAt := none, updatedAt := clock 2 }

/-- `seen` is what the unlocked read at the start returned; the row may have changed since. -/
def failRetry (seen : Option MediaDownloadJob) (owner : String) (fence : Nat)
    (now backoff : Timestamp) (code : DownloadErrorCode) (clock : Clock) (rows : DownloadRows) :
    Except Raised (DownloadRows × Bool) :=
  match seen with
  | none => .ok (rows, false)
  | some job =>
    if ¬ Fenced owner fence job then .ok (rows, false)
    else if job.cancelRequestedAt.isSome then completeCancelled owner fence clock rows
    else if job.attemptCount ≥ job.maxAttempts then failPermanent owner fence code clock rows
    else do
      assertTransition .downloading .queued
      rows.onJob (updateJob
        (Fenced owner fence rows.job ∧ LeaseLive clock rows.job ∧ Uncancelled rows.job)
        (retriedJob now backoff clock))

/-- The fields of a release, which does not count the attempt. -/
def releasedJob (now : Timestamp) (clock : Clock) (job : MediaDownloadJob) : MediaDownloadJob :=
  { job with
    publicState := .queued, progressStage := .queued, progressPercent := none,
    attemptCount := max (job.attemptCount - 1) 0, availableAt := now, leaseOwner := none,
    leaseExpiresAt := none, updatedAt := clock 2 }

def releaseToQueued (owner : String) (fence : Nat) (now : Timestamp) (clock : Clock)
    (job : MediaDownloadJob) : Except Raised (MediaDownloadJob × Bool) := do
  assertTransition .downloading .queued
  updateJob (Fenced owner fence job ∧ LeaseLive clock job ∧ Uncancelled job)
    (releasedJob now clock) job

/-! ## Progress of the lease holder -/

def stagedJob (target : DownloadProgressStage) (now : Timestamp) (job : MediaDownloadJob) :
    MediaDownloadJob :=
  { job with
    progressPercent := if job.progressStage = target then job.progressPercent else none,
    progressStage := target, updatedAt := now }

def setProgressStage (owner : String) (fence : Nat) (target : DownloadProgressStage)
    (now : Timestamp) (job : MediaDownloadJob) : Except Raised (MediaDownloadJob × Bool) :=
  if target.terminal = true then .ok (job, false)
  else if Fenced owner fence job ∧ Uncancelled job then do
    assertProgressTransition job.progressStage target
    let job ← flushJob (stagedJob target now job)
    .ok (job, true)
  else .ok (job, false)

def percentJob (percent : Int) (now : Timestamp) (job : MediaDownloadJob) : MediaDownloadJob :=
  { job with progressPercent := some percent, updatedAt := now }

def setProgressPercent (owner : String) (fence : Nat) (percent : Int) (now : Timestamp)
    (clock : Clock) (job : MediaDownloadJob) : Except Raised (MediaDownloadJob × Bool) :=
  if percent < 0 ∨ percent > 99 then .ok (job, false)
  else if Fenced owner fence job ∧ Uncancelled job ∧ LeaseLive clock job ∧
      job.progressStage.transferring = true then
    if ∃ stored ∈ job.progressPercent, percent < stored then .ok (job, false)
    else if job.progressPercent = some percent then .ok (job, true)
    else do
      let job ← flushJob (percentJob percent now job)
      .ok (job, true)
  else .ok (job, false)

/-! ## User cancel -/

/-- `_apply_stored_cancel`: an expired row that still carries its cancel markers. -/
def applyStoredCancel (job : MediaDownloadJob) (now : Timestamp) : MediaDownloadJob :=
  { job with
    publicState := .expired, progressStage := .cancelled, progressPercent := none,
    leaseOwner := none, leaseExpiresAt := none, updatedAt := now,
    completedAt := some (job.completedAt.getD now), publicErrorCode := none, artifactId := none,
    artifactBytes := none, artifactContentType := none, artifactContainer := none }

/-- A queued job is cancelled at once. -/
def cancelledQueued (now : Timestamp) (job : MediaDownloadJob) : MediaDownloadJob :=
  applyStoredCancel { job with cancelRequestedAt := some now } now

def cancelRequestedJob (now : Timestamp) (job : MediaDownloadJob) : MediaDownloadJob :=
  { job with cancelRequestedAt := some now, updatedAt := now }

/-- `seen` is what `DownloadJobService.cancel` has read in the same session. The locked read returns
that object, not the row under the lock, so `seen` decides and only changed columns are written. -/
def requestCancel (seen : MediaDownloadJob) (now : Timestamp) (clock : Clock)
    (rows : DownloadRows) : Except Raised DownloadRows :=
  if isStoredCancelled seen.publicState seen.progressStage seen.cancelRequestedAt = true then
    .ok rows
  else
    match seen.publicState with
    | .ready | .failed | .expired => .ok rows
    | .queued => do
      assertTransition .queued .expired
      let job ← flushJob (rows.job.overwritten seen (cancelledQueued now seen))
      let quota ← releaseQuotaAfterJobLock (clock 0) false rows.quota
      .ok { rows with job, quota }
    | .downloading =>
      if seen.cancelRequestedAt.isSome then .ok rows
      else do
        let job ← flushJob (rows.job.overwritten seen (cancelRequestedJob now seen))
        .ok { rows with job }
    | .cancelled => .error (internalError "UNKNOWN_DOWNLOAD_STATE")

/-! ## Hygiene -/

/-- A reclaimed job whose attempts are exhausted. -/
def exhaustedJob (now : Timestamp) (job : MediaDownloadJob) : MediaDownloadJob :=
  { job with
    publicState := .failed, progressStage := .failed, progressPercent := none,
    leaseOwner := none, leaseExpiresAt := none, fenceToken := job.fenceToken + 1,
    availableAt := now, updatedAt := now,
    publicErrorCode := some DownloadErrorCode.downloadToolFailed.value,
    completedAt := some now, artifactId := none, artifactBytes := none,
    artifactContentType := none, artifactContainer := none }

/-- A reclaimed job that is tried again. -/
def reclaimedJob (now : Timestamp) (job : MediaDownloadJob) : MediaDownloadJob :=
  { job with
    publicState := .queued, progressStage := .retrying, progressPercent := none,
    leaseOwner := none, leaseExpiresAt := none, fenceToken := job.fenceToken + 1,
    availableAt := now, updatedAt := now }

/-- A reclaimed job whose user has asked for a cancel. -/
def reclaimedCancel (now : Timestamp) (job : MediaDownloadJob) : MediaDownloadJob :=
  { applyStoredCancel job now with fenceToken := job.fenceToken + 1 }

/-- The predicate of `reclaim_expired_leases`. -/
def Reclaimable (clock : Clock) (job : MediaDownloadJob) : Prop :=
  job.publicState = .downloading ∧ (∃ t ∈ job.leaseExpiresAt, t ≤ clock 0) ∧
    clock 1 < job.expiresAt

instance (clock : Clock) (job : MediaDownloadJob) : Decidable (Reclaimable clock job) :=
  inferInstanceAs (Decidable (_ ∧ _))

/-- The loop body of `reclaim_expired_leases`. -/
def reclaimExpiredLeases (now : Timestamp) (clock : Clock) (rows : DownloadRows) :
    Except Raised DownloadRows :=
  let job := rows.job
  if Reclaimable clock job then
    if job.cancelRequestedAt.isSome then do
      assertTransition .downloading .expired
      let job ← flushJob (reclaimedCancel now job)
      let quota ← releaseQuotaAfterJobLock (clock 2) false rows.quota
      .ok { rows with job, quota }
    else if job.attemptCount ≥ job.maxAttempts then do
      assertTransition .downloading .failed
      let job ← flushJob (exhaustedJob now job)
      let quota ← releaseQuotaAfterJobLock (clock 2) false rows.quota
      .ok { rows with job, quota }
    else do
      assertTransition .downloading .queued
      let job ← flushJob (reclaimedJob now job)
      .ok { rows with job }
  else .ok rows

/-- The fields of an expired job. -/
def expiredJob (now : Timestamp) (job : MediaDownloadJob) : MediaDownloadJob :=
  { job with
    publicState := .expired, progressStage := .expired, progressPercent := none,
    leaseOwner := none, leaseExpiresAt := none, cancelRequestedAt := none, artifactId := none,
    artifactBytes := none, artifactContentType := none, artifactContainer := none,
    publicErrorCode := none, updatedAt := now, fenceToken := job.fenceToken + 1,
    completedAt := some (job.completedAt.getD now) }

/-- A stored cancel expires as the cancelled state that it encodes. -/
def assertExpirable (job : MediaDownloadJob) : Except Raised Unit :=
  if isStoredCancelled job.publicState job.progressStage job.cancelRequestedAt = true then
    assertTransition .cancelled .expired
  else assertTransition job.publicState .expired

/-- `_apply_expired_job_fields`, with the artifact that needs a filesystem delete. -/
def applyExpiredJobFields (now : Timestamp) (job : MediaDownloadJob) :
    Except Raised (MediaDownloadJob × List Uuid) := do
  assertExpirable job
  let expired ← flushJob (expiredJob now job)
  .ok (expired, job.artifactId.toList)

/-- `is_coherent_promoted_premium_job`. -/
def isCoherentPromotedPremiumJob (job : MediaDownloadJob) (expectedIdentityId : Option Uuid) :
    Bool :=
  match decodeEffectivePolicySnapshot job.selectedFormatSnapshot,
    decodeAuthorizedIdentityId job.selectedFormatSnapshot with
  | .ok (some policy), .ok (some identity) =>
    policy.tier = .premium && expectedIdentityId.all (identity = ·)
  | _, _ => false

/-- `quarantine_ready_terminal_quota_locked`; `none` when a live lease defers the cleanup. -/
def quarantineReadyTerminalQuotaLocked (now : Timestamp) (quota : QuotaRows)
    (rows : DownloadRows) : Except Raised (Option (DownloadRows × List Uuid)) :=
  if hasLiveAttempt now quota = true then .ok none
  else do
    let (job, artifactIds) ← applyExpiredJobFields now rows.job
    .ok (some ({ rows with job, grants := revokeActiveGrants now rows.grants }, artifactIds))

/-- Past its lifetime, and either not terminal yet or a stored cancel. -/
def Due (clock : Clock) (job : MediaDownloadJob) : Prop :=
  job.expiresAt ≤ clock 0 ∧
    ((job.publicState = .queued ∨ job.publicState = .downloading ∨ job.publicState = .ready ∨
        job.publicState = .failed) ∨
      (job.publicState = .expired ∧ job.progressStage = .cancelled ∧
        job.cancelRequestedAt.isSome))

instance (clock : Clock) (job : MediaDownloadJob) : Decidable (Due clock job) :=
  inferInstanceAs (Decidable (_ ∧ _))

/-- The end of the loop body of `expire_due_jobs`: the job expires and a reservation with it. -/
def expireJob (now : Timestamp) (clock : Clock) (rows : DownloadRows) :
    Except Raised (DownloadRows × List Uuid) := do
  let grants :=
    if rows.job.publicState = .ready then revokeActiveGrants now rows.grants else rows.grants
  let (job, artifactIds) ← applyExpiredJobFields now rows.job
  match rows.quota with
  | none => .ok ({ rows with job, grants }, artifactIds)
  | some quota =>
    if quota.entry.state = .reserved then do
      let entry ← releaseLocked quota.entry (clock 1) true
      let entry ← flushEntry entry
      .ok ({ job, grants, quota := some { quota with entry } }, artifactIds)
    else .ok ({ rows with job, grants }, artifactIds)

/-- The loop body of `expire_due_jobs` under its savepoint. -/
def expireDueJob (fresh : Nat → Uuid) (now : Timestamp) (clock : Clock) (rows : DownloadRows) :
    Except Raised (DownloadRows × List Uuid) :=
  let job := rows.job
  if ¬ Due clock job then .ok (rows, [])
  else
    match rows.quota with
    | none => expireJob now clock rows
    | some quota =>
      let state := quota.entry.state
      if job.publicState = .ready ∧ state = .released ∧
          isCoherentPromotedPremiumJob job (some quota.entry.anonymousClientId) = true then
        if hasLiveAttempt now quota = true then .ok (rows, [])
        else expireJob now clock rows
      else if job.publicState = .ready ∧ (state = .released ∨ state = .expired) then do
        let quarantined ← quarantineReadyTerminalQuotaLocked now quota rows
        .ok (quarantined.getD (rows, []))
      else if state = .reserved ∧ job.publicState = .ready then do
        let (quota, _) ← reconcileLocked fresh now job quota
        let rows := { rows with quota := some quota }
        if quota.entry.state = .reserved ∧ hasLiveAttempt now quota = true then .ok (rows, [])
        else expireJob now clock rows
      else expireJob now clock rows

def Raised.isQuotaInvariantError : Raised → Bool
  | .quotaInvariantError _ => true
  | _ => false

/-- One job of `expire_due_jobs`; `artifactIds` are those collected so far. -/
def expireDueJobs (fresh : Nat → Uuid) (now : Timestamp) (clock : Clock)
    (rows : DownloadRows) : Except Raised (DownloadRows × List Uuid) :=
  savepoint Raised.isQuotaInvariantError
    (fun s => do
      let (rows, artifactIds) ← expireDueJob fresh now clock s.1
      .ok (rows, s.2 ++ artifactIds)) (rows, [])

end FetchNow
