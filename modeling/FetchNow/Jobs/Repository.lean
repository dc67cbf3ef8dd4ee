import FetchNow.Jobs.Models

/-!
# `MediaJobRepository`

Every function is one row's part of a transaction. A call reads `now` before its statements, and
`clock k` is the k-th value of `clock_timestamp()` that the statements read.
-/
namespace FetchNow.Jobs

open Transactions

variable {μ : Type}

/-- The clocks that a call reads. -/
structure Reading where
  now : Timestamp
  clock : Clock

structure EnqueueRequest where
  credentialHash : List UInt8
  requestFingerprint : List UInt8
  providerId : String
  canonicalProviderUrl : String
  mediaId : String
  hostname : String
  path : String
  scheme : String
  port : Option Nat
  ttl : Timestamp
  maxAttempts : Int
  deriving DecidableEq

/-- The row that `enqueue_or_get` inserts. -/
def queuedJob (request : EnqueueRequest) (now : Timestamp) : MediaJob μ :=
  { schemaVersion := 1, resultVersion := 0, publicState := .queued,
    providerId := request.providerId, canonicalProviderUrl := request.canonicalProviderUrl,
    mediaId := request.mediaId, hostname := request.hostname, path := request.path,
    scheme := request.scheme, port := request.port, credentialHash := request.credentialHash,
    requestFingerprint := request.requestFingerprint, resultMetadata := none,
    publicErrorCode := none, attemptCount := 0, maxAttempts := request.maxAttempts,
    availableAt := now, leaseOwner := none, leaseExpiresAt := none, fenceToken := 0,
    createdAt := now, updatedAt := now, startedAt := none, completedAt := none,
    expiresAt := now + request.ttl }

/-- `existing` is the row with the credential hash of the request, if there is one. -/
def enqueueOrGet (request : EnqueueRequest) (now : Timestamp) (existing : Option (MediaJob μ)) :
    Except JobRaised (MediaJob μ × Bool) := do
  require (request.credentialHash.length = 32 ∧ request.requestFingerprint.length = 32)
    (internalError "HASH_LENGTH")
  require ('?' ∉ request.canonicalProviderUrl.toList ∧ '#' ∉ request.canonicalProviderUrl.toList)
    (internalError "CANONICAL_QUERY_OR_FRAGMENT")
  match existing with
  | some row => do
    require (row.requestFingerprint = request.requestFingerprint)
      (.jobError .idempotencyConflict "FINGERPRINT_MISMATCH")
    .ok (row, false)
  | none =>
    match insertJob (queuedJob request now) with
    | .ok job => .ok (job, true)
    | .error _ => .error (internalError "IDEMPOTENCY_LOOKUP_MISS")

/-- The predicate of `_claim_select`. -/
def Claimable (clock : Clock) (job : MediaJob μ) : Prop :=
  job.publicState = .queued ∧ job.availableAt ≤ clock 0 ∧ clock 1 < job.expiresAt ∧
    job.attemptCount < job.maxAttempts

/-- The predicate of every update by a lease owner. -/
def Leased (owner : String) (fence : Nat) (clock : Clock) (job : MediaJob μ) : Prop :=
  (job.publicState = .inspecting ∧ job.leaseOwner = some owner ∧ job.fenceToken = fence) ∧
    (∃ t ∈ job.leaseExpiresAt, clock 0 < t) ∧ clock 1 < job.expiresAt

instance (clock : Clock) (job : MediaJob μ) : Decidable (Claimable clock job) :=
  inferInstanceAs (Decidable (_ ∧ _))

instance (owner : String) (fence : Nat) (clock : Clock) (job : MediaJob μ) :
    Decidable (Leased owner fence clock job) := inferInstanceAs (Decidable (_ ∧ _))

/-- The fields that a claim writes. -/
def claimedJob (workerId : String) (lease now : Timestamp) (job : MediaJob μ) : MediaJob μ :=
  { job with
    publicState := .inspecting, leaseOwner := some workerId, leaseExpiresAt := some (now + lease),
    fenceToken := job.fenceToken + 1, attemptCount := job.attemptCount + 1, updatedAt := now,
    startedAt := some (job.startedAt.getD now) }

def claimNext (workerId : String) (lease : Timestamp) (r : Reading) (job : MediaJob μ) :
    Except JobRaised (MediaJob μ) := do
  require (workerId ≠ "" ∧ workerId.length ≤ 128) (internalError "INVALID_WORKER_ID")
  if Claimable r.clock job then do
    assertTransition job.publicState .inspecting
    flushJob (claimedJob workerId lease r.now job)
  else .ok job

/-- `UPDATE .. WHERE` the row is leased, with its row count as a flag. -/
def updateLeased (owner : String) (fence : Nat) (r : Reading)
    (write : MediaJob μ → MediaJob μ) (job : MediaJob μ) : Except JobRaised (MediaJob μ × Bool) :=
  if Leased owner fence r.clock job then do
    let job ← flushJob (write job)
    .ok (job, true)
  else .ok (job, false)

def inspectedJob (metadata : μ) (r : Reading) (job : MediaJob μ) : MediaJob μ :=
  { job with
    publicState := .inspected, resultMetadata := some metadata, publicErrorCode := none,
    resultVersion := 1, leaseOwner := none, leaseExpiresAt := none,
    completedAt := some (r.clock 2), updatedAt := r.clock 3 }

def complete (owner : String) (fence : Nat) (metadata : μ) (r : Reading) :
    MediaJob μ → Except JobRaised (MediaJob μ × Bool) :=
  updateLeased owner fence r (inspectedJob metadata r)

def failedJob (code : String) (r : Reading) (job : MediaJob μ) : MediaJob μ :=
  { job with
    publicState := .failed, publicErrorCode := some code, resultMetadata := none,
    leaseOwner := none, leaseExpiresAt := none, completedAt := some (r.clock 2),
    updatedAt := r.clock 3 }

def failPermanent (owner : String) (fence : Nat) (code : String) (r : Reading) :
    MediaJob μ → Except JobRaised (MediaJob μ × Bool) :=
  updateLeased owner fence r (failedJob code r)

def retriedJob (backoff : Timestamp) (r : Reading) (job : MediaJob μ) : MediaJob μ :=
  { job with
    publicState := .queued, publicErrorCode := none, availableAt := r.now + max 0 backoff,
    leaseOwner := none, leaseExpiresAt := none, updatedAt := r.clock 2 }

/-- The row is first read without a lock: `seen` is what that read found. -/
def failRetry (seen : Option (MediaJob μ)) (owner : String) (fence : Nat) (backoff : Timestamp)
    (code : String) (r : Reading) (job : MediaJob μ) : Except JobRaised (MediaJob μ × Bool) :=
  match seen with
  | none => .ok (job, false)
  | some read =>
    if read.publicState ≠ .inspecting ∨ read.leaseOwner ≠ some owner ∨ read.fenceToken ≠ fence then
      .ok (job, false)
    else if read.maxAttempts ≤ read.attemptCount then
      failPermanent owner fence code r job
    else
      updateLeased owner fence r (retriedJob backoff r) job

/-- The attempt of the claim is taken back. -/
def releasedJob (r : Reading) (job : MediaJob μ) : MediaJob μ :=
  { job with
    publicState := .queued, attemptCount := max (job.attemptCount - 1) 0, availableAt := r.now,
    leaseOwner := none, leaseExpiresAt := none, updatedAt := r.clock 2 }

def releaseToQueued (owner : String) (fence : Nat) (r : Reading) :
    MediaJob μ → Except JobRaised (MediaJob μ × Bool) :=
  updateLeased owner fence r (releasedJob r)

def renewedJob (lease : Timestamp) (r : Reading) (job : MediaJob μ) : MediaJob μ :=
  { job with leaseExpiresAt := some (r.clock 2 + lease), updatedAt := r.clock 3 }

def renewLease (owner : String) (fence : Nat) (lease : Timestamp) (r : Reading) :
    MediaJob μ → Except JobRaised (MediaJob μ × Bool) :=
  updateLeased owner fence r (renewedJob lease r)

/-- The predicate of the select of `reclaim_expired_leases`. -/
def Reclaimable (clock : Clock) (job : MediaJob μ) : Prop :=
  job.publicState = .inspecting ∧ (∃ t ∈ job.leaseExpiresAt, t ≤ clock 0) ∧
    clock 1 < job.expiresAt

/-- The predicate of the select of `expire_due_jobs`. -/
def Due (clock : Clock) (job : MediaJob μ) : Prop :=
  job.expiresAt ≤ clock 0 ∧
    job.publicState ∈ [MediaJobState.queued, .inspecting, .inspected, .failed]

instance (clock : Clock) (job : MediaJob μ) : Decidable (Reclaimable clock job) :=
  inferInstanceAs (Decidable (_ ∧ _))

instance (clock : Clock) (job : MediaJob μ) : Decidable (Due clock job) :=
  inferInstanceAs (Decidable (_ ∧ _))

def reclaimedJob (target : MediaJobState) (now : Timestamp) (job : MediaJob μ) : MediaJob μ :=
  { job with
    publicState := target, leaseOwner := none, leaseExpiresAt := none,
    fenceToken := job.fenceToken + 1, availableAt := now, updatedAt := now }

def reclaimExpiredLeases (r : Reading) (job : MediaJob μ) : Except JobRaised (MediaJob μ) :=
  if Reclaimable r.clock job then
    if job.maxAttempts ≤ job.attemptCount then do
      assertTransition .inspecting .failed
      flushJob { reclaimedJob .failed r.now job with
        publicErrorCode := some JobErrorCode.mediaInspectionFailed.value, completedAt := some r.now }
    else do
      assertTransition .inspecting .queued
      flushJob (reclaimedJob .queued r.now job)
  else .ok job

def expiredJob (now : Timestamp) (job : MediaJob μ) : MediaJob μ :=
  { job with
    publicState := .expired, resultMetadata := none, publicErrorCode := none, leaseOwner := none,
    leaseExpiresAt := none, updatedAt := now, fenceToken := job.fenceToken + 1,
    completedAt := some (job.completedAt.getD now) }

def expireDueJobs (r : Reading) (job : MediaJob μ) : Except JobRaised (MediaJob μ) :=
  if Due r.clock job then do
    assertTransition job.publicState .expired
    flushJob (expiredJob r.now job)
  else .ok job

/-! ## Calls -/

/-- What an owner of a lease may ask for. -/
inductive WorkerCall (μ : Type) where
  | complete (metadata : μ)
  | failPermanent (code : String)
  | failRetry (seen : Option (MediaJob μ)) (backoff : Timestamp) (code : String)
  | releaseToQueued
  | renewLease (lease : Timestamp)

/-- The calls that touch one row. -/
inductive Call (μ : Type) where
  | enqueueOrGet (request : EnqueueRequest)
  | claimNext (workerId : String) (lease : Timestamp)
  | worker (owner : String) (fence : Nat) (call : WorkerCall μ)
  | reclaimExpiredLeases
  | expireDueJobs

def WorkerCall.run (owner : String) (fence : Nat) (r : Reading) (job : MediaJob μ) :
    WorkerCall μ → Except JobRaised (MediaJob μ × Bool)
  | complete metadata => Jobs.complete owner fence metadata r job
  | failPermanent code => Jobs.failPermanent owner fence code r job
  | failRetry seen backoff code => Jobs.failRetry seen owner fence backoff code r job
  | releaseToQueued => Jobs.releaseToQueued owner fence r job
  | renewLease lease => Jobs.renewLease owner fence lease r job

/-- A call on the row of one credential. Without a row only an insert has an effect. -/
def Call.run (r : Reading) : Call μ → Option (MediaJob μ) → Except JobRaised (Option (MediaJob μ))
  | enqueueOrGet request, row => (Jobs.enqueueOrGet request r.now row).map (some ·.1)
  | _, none => .ok none
  | claimNext workerId lease, some job => (Jobs.claimNext workerId lease r job).map some
  | worker owner fence call, some job => (call.run owner fence r job).map (some ·.1)
  | reclaimExpiredLeases, some job => (Jobs.reclaimExpiredLeases r job).map some
  | expireDueJobs, some job => (Jobs.expireDueJobs r job).map some

end FetchNow.Jobs
