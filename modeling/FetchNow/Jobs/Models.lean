import FetchNow.Basic

/-!
# Rows of `media_jobs`

The stored metadata of an inspection is of any type. The CHECK constraints are those of the table;
`flushJob` is the database refusing a row that violates one of them.
-/
namespace FetchNow.Jobs

open Transactions

/-- `fetchnow.jobs.errors.JobErrorCode`, as far as the repository raises or stores it. -/
inductive JobErrorCode where
  | idempotencyConflict
  | mediaInspectionFailed
  | internalError
  deriving DecidableEq, Repr

def JobErrorCode.value : JobErrorCode → String
  | idempotencyConflict => "IDEMPOTENCY_CONFLICT"
  | mediaInspectionFailed => "MEDIA_INSPECTION_FAILED"
  | internalError => "INTERNAL_ERROR"

/-- Exceptions that leave a transaction. -/
inductive JobRaised where
  | jobError (code : JobErrorCode) (internalReason : String)
  | integrityError
  deriving DecidableEq, Repr

def internalError (reason : String) : JobRaised := .jobError .internalError reason

inductive MediaJobState where
  | queued
  | inspecting
  | inspected
  | failed
  | expired
  deriving DecidableEq, Repr

/-- `_ALLOWED_TRANSITIONS`. -/
def MediaJobState.allowed : MediaJobState → List MediaJobState
  | queued => [inspecting, expired]
  | inspecting => [queued, inspected, failed, expired]
  | inspected => [expired]
  | failed => [expired]
  | expired => []

def assertTransition (src dst : MediaJobState) : Except JobRaised Unit :=
  require (dst ∈ src.allowed) (internalError "ILLEGAL_STATE_TRANSITION")

structure MediaJob (μ : Type) where
  schemaVersion : Int
  resultVersion : Int
  publicState : MediaJobState
  providerId : String
  canonicalProviderUrl : String
  mediaId : String
  hostname : String
  path : String
  scheme : String
  port : Option Nat
  credentialHash : List UInt8
  requestFingerprint : List UInt8
  resultMetadata : Option μ
  publicErrorCode : Option String
  attemptCount : Int
  maxAttempts : Int
  availableAt : Timestamp
  leaseOwner : Option String
  leaseExpiresAt : Option Timestamp
  fenceToken : Nat
  createdAt : Timestamp
  updatedAt : Timestamp
  startedAt : Option Timestamp
  completedAt : Option Timestamp
  expiresAt : Timestamp
  deriving DecidableEq

variable {μ : Type}

namespace MediaJob

/-- `ck_media_jobs_lease_state`. -/
def CkLeaseState (job : MediaJob μ) : Prop :=
  (job.publicState = .inspecting ∧ job.leaseOwner.isSome ∧ job.leaseExpiresAt.isSome) ∨
    (job.publicState ≠ .inspecting ∧ job.leaseOwner.isNone ∧ job.leaseExpiresAt.isNone)

/-- `ck_media_jobs_result_state`. -/
def CkResultState (job : MediaJob μ) : Prop :=
  (job.publicState = .inspected ∧ job.resultMetadata.isSome ∧ job.publicErrorCode.isNone ∧
      job.completedAt.isSome) ∨
    (job.publicState = .failed ∧ job.resultMetadata.isNone ∧ job.publicErrorCode.isSome ∧
      job.completedAt.isSome) ∨
    (job.publicState ∉ [MediaJobState.inspected, .failed] ∧ job.resultMetadata.isNone ∧
      job.publicErrorCode.isNone)

/-- The constraints over the columns that updates write. -/
structure Checked (job : MediaJob μ) : Prop where
  attemptCount : 0 ≤ job.attemptCount
  resultVersion : 0 ≤ job.resultVersion
  leaseState : job.CkLeaseState
  resultState : job.CkResultState

instance (job : MediaJob μ) : Decidable job.CkLeaseState := inferInstanceAs (Decidable (_ ∨ _))
instance (job : MediaJob μ) : Decidable job.CkResultState := inferInstanceAs (Decidable (_ ∨ _))

instance (job : MediaJob μ) : Decidable job.Checked :=
  decidable_of_iff (0 ≤ job.attemptCount ∧ 0 ≤ job.resultVersion ∧ job.CkLeaseState ∧
      job.CkResultState)
    ⟨fun ⟨hattempts, hversion, hlease, hresult⟩ => ⟨hattempts, hversion, hlease, hresult⟩,
      fun ⟨hattempts, hversion, hlease, hresult⟩ => ⟨hattempts, hversion, hlease, hresult⟩⟩

/-- The constraints over the columns that only the insert writes. -/
structure Inserted (job : MediaJob μ) : Prop where
  canonical : '?' ∉ job.canonicalProviderUrl.toList ∧ '#' ∉ job.canonicalProviderUrl.toList
  maxAttempts : 1 ≤ job.maxAttempts
  credential : job.credentialHash.length = 32
  fingerprint : job.requestFingerprint.length = 32
  schemaVersion : 1 ≤ job.schemaVersion
  transport : job.scheme = "https" ∧ job.port = none

instance (job : MediaJob μ) : Decidable job.Inserted :=
  decidable_of_iff (('?' ∉ job.canonicalProviderUrl.toList ∧
      '#' ∉ job.canonicalProviderUrl.toList) ∧ 1 ≤ job.maxAttempts ∧
      job.credentialHash.length = 32 ∧ job.requestFingerprint.length = 32 ∧
      1 ≤ job.schemaVersion ∧ job.scheme = "https" ∧ job.port = none)
    ⟨fun ⟨h1, h2, h3, h4, h5, h6⟩ => ⟨h1, h2, h3, h4, h5, h6⟩,
      fun ⟨h1, h2, h3, h4, h5, h6⟩ => ⟨h1, h2, h3, h4, h5, h6⟩⟩

end MediaJob

def flushJob (job : MediaJob μ) : Except JobRaised (MediaJob μ) := do
  require job.Checked .integrityError
  .ok job

theorem flushJob_eq_ok {job job' : MediaJob μ} :
    flushJob job = .ok job' ↔ job.Checked ∧ job' = job := by
  simp only [flushJob, bind_eq_ok, require_eq_ok, Except.ok.injEq]
  constructor
  · rintro ⟨_, hchecked, rfl⟩
    exact ⟨hchecked, rfl⟩
  · rintro ⟨hchecked, rfl⟩
    exact ⟨(), hchecked, rfl⟩

theorem flushJob_of_checked {job : MediaJob μ} (h : job.Checked) : flushJob job = .ok job :=
  flushJob_eq_ok.mpr ⟨h, rfl⟩

def insertJob (job : MediaJob μ) : Except JobRaised (MediaJob μ) := do
  require job.Inserted .integrityError
  flushJob job

end FetchNow.Jobs
