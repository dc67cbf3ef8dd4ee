import FetchNow.Downloads.States
import FetchNow.Quota.Models

/-!
# Rows of `media_download_jobs` and their browser grants

The CHECK constraints are those of the table; `flushJob` is the database refusing a row
that violates one of them.
-/
namespace FetchNow

open Transactions

/-- `fetchnow.media_inspection.models.MediaKind`. -/
inductive MediaKind where
  | normalVideo
  | videoOnly
  | audioOnly
  deriving DecidableEq, Repr

inductive Tier where
  | free
  | premium
  deriving DecidableEq, Repr

/-- `fetchnow.quota.policy.EffectiveDownloadPolicy`. -/
structure EffectiveDownloadPolicy where
  tier : Tier
  downloadLimit : Option Nat
  quotaWindowSeconds : Option Nat
  deliveryRateBytesPerSecond : Option Nat
  premiumExpiresAt : Option Timestamp
  allowCombined : Bool
  allowAudioOnly : Bool
  allowVideoOnly : Bool
  deriving DecidableEq, Repr

/-- The format part of a stored snapshot. `decodable` says whether the strict decoder accepts
its remaining keys. -/
structure FormatSnapshot where
  formatOptionId : String
  mediaKind : MediaKind
  decodable : Bool
  deriving DecidableEq, Repr

/-- The value under the policy key of a stored snapshot. -/
inductive PolicySnapshot where
  | absent
  | malformed
  | stored (policy : EffectiveDownloadPolicy) (authorizedIdentityId : Option Uuid)
  deriving DecidableEq, Repr

/-- The column `selected_format_snapshot`. -/
structure SelectedFormatSnapshot where
  format : FormatSnapshot
  effectivePolicy : PolicySnapshot
  deriving DecidableEq, Repr

def stripEffectivePolicySnapshot (payload : SelectedFormatSnapshot) : FormatSnapshot :=
  payload.format

def decodeSelectedFormatSnapshot (payload : FormatSnapshot) (expectedFormatOptionId : String) :
    Except Raised MediaKind := do
  require (payload.decodable = true ∧ payload.formatOptionId = expectedFormatOptionId)
    (.downloadError .formatUnavailable "SNAPSHOT_INVALID")
  .ok payload.mediaKind

/-- `none` denotes a legacy job. -/
def decodeEffectivePolicySnapshot (payload : SelectedFormatSnapshot) :
    Except Raised (Option EffectiveDownloadPolicy) :=
  match payload.effectivePolicy with
  | .absent => .ok none
  | .malformed => .error (.downloadError .formatUnavailable "POLICY_SNAPSHOT_INVALID")
  | .stored policy _ => .ok (some policy)

/-- The server-bound Premium identity, absent for Free and legacy jobs. -/
def decodeAuthorizedIdentityId (payload : SelectedFormatSnapshot) :
    Except Raised (Option Uuid) :=
  match payload.effectivePolicy with
  | .absent => .ok none
  | .malformed => .error (.downloadError .formatUnavailable "POLICY_SNAPSHOT_INVALID")
  | .stored policy identity => .ok (if policy.tier = .premium then identity else none)

def attachEffectivePolicySnapshot (format : FormatSnapshot) (policy : EffectiveDownloadPolicy)
    (authorizedIdentityId : Option Uuid) : Except Raised SelectedFormatSnapshot := do
  let _ ← decodeSelectedFormatSnapshot format format.formatOptionId
  .ok { format, effectivePolicy := .stored policy authorizedIdentityId }

/-- The columns that no statement updates after the insert. -/
structure JobTarget where
  mediaJobId : Uuid
  formatOptionId : String
  providerId : String
  canonicalProviderUrl : String
  mediaId : String
  hostname : String
  path : String
  scheme : String
  port : Option Nat
  schemaVersion : Nat
  suggestedFilename : Option String
  deriving DecidableEq, Repr

structure MediaDownloadJob where
  id : Uuid
  target : JobTarget
  publicState : MediaDownloadJobState
  selectedFormatSnapshot : SelectedFormatSnapshot
  attemptCount : Int
  maxAttempts : Int
  availableAt : Timestamp
  leaseOwner : Option String
  leaseExpiresAt : Option Timestamp
  fenceToken : Nat
  artifactId : Option Uuid
  artifactBytes : Option Nat
  artifactContentType : Option String
  artifactContainer : Option String
  publicErrorCode : Option String
  progressStage : DownloadProgressStage
  progressPercent : Option Int
  cancelRequestedAt : Option Timestamp
  createdAt : Timestamp
  updatedAt : Timestamp
  startedAt : Option Timestamp
  completedAt : Option Timestamp
  expiresAt : Timestamp
  deriving DecidableEq, Repr

namespace MediaDownloadJob

variable (job : MediaDownloadJob)

/-- The job has not ended and still holds its reservation. -/
abbrev Pending : Prop := job.publicState = .queued ∨ job.publicState = .downloading

/-- `ck_media_download_jobs_public_state`. -/
def CkPublicState : Prop := job.publicState ≠ .cancelled

/-- `ck_media_download_jobs_lease_state`. -/
def CkLeaseState : Prop :=
  (job.publicState = .downloading ∧ job.leaseOwner.isSome ∧ job.leaseExpiresAt.isSome) ∨
    (job.publicState ≠ .downloading ∧ job.leaseOwner = none ∧ job.leaseExpiresAt = none)

/-- `ck_media_download_jobs_result_state`. -/
def CkResultState : Prop :=
  (job.publicState = .ready ∧ job.artifactId.isSome ∧ (∃ n ∈ job.artifactBytes, 0 < n) ∧
      job.artifactContainer.isSome ∧ job.artifactContentType.isSome ∧
      job.publicErrorCode = none ∧ job.completedAt.isSome) ∨
    (job.publicState = .failed ∧ job.artifactId = none ∧ job.artifactBytes = none ∧
      job.artifactContainer = none ∧ job.artifactContentType = none ∧
      (∃ code ∈ job.publicErrorCode, 1 ≤ code.length ∧ code.length ≤ 64) ∧
      job.completedAt.isSome) ∨
    ((job.publicState = .queued ∨ job.publicState = .downloading ∨ job.publicState = .expired) ∧
      job.artifactId = none ∧ job.artifactBytes = none ∧
      job.artifactContainer = none ∧ job.artifactContentType = none ∧ job.publicErrorCode = none)

/-- `ck_media_download_jobs_artifact_bytes_positive`. -/
def CkArtifactBytesPositive : Prop := ∀ n ∈ job.artifactBytes, 0 < n

/-- `ck_media_download_jobs_progress_state`. -/
def CkProgressState : Prop :=
  (job.publicState = .queued ∧ (job.progressStage = .queued ∨ job.progressStage = .retrying)) ∨
    (job.publicState = .downloading ∧ job.progressStage.working = true) ∨
    (job.publicState = .ready ∧ job.progressStage = .ready) ∨
    (job.publicState = .failed ∧ job.progressStage = .failed) ∨
    (job.publicState = .expired ∧
      (job.progressStage = .expired ∨ job.progressStage = .cancelled))

/-- `ck_media_download_jobs_cancel_requested`. -/
def CkCancelRequested : Prop :=
  (job.cancelRequestedAt = none ∧ job.progressStage ≠ .cancelled) ∨
    (job.cancelRequestedAt.isSome ∧
      (job.publicState = .downloading ∨
        (job.publicState = .expired ∧ job.progressStage = .cancelled)))

/-- `ck_media_download_jobs_progress_percent`. -/
def CkProgressPercent : Prop :=
  job.progressPercent = none ∨
    ((∃ percent ∈ job.progressPercent, 0 ≤ percent ∧ percent ≤ 99) ∧
      job.publicState = .downloading ∧ job.progressStage.transferring = true)

/-- `ck_media_download_jobs_attempt_count_nonneg`. -/
def CkAttemptCountNonneg : Prop := 0 ≤ job.attemptCount

instance : Decidable job.CkPublicState := inferInstanceAs (Decidable (_ ≠ _))
instance : Decidable job.CkLeaseState := inferInstanceAs (Decidable (_ ∨ _))
instance : Decidable job.CkResultState := inferInstanceAs (Decidable (_ ∨ _))
instance : Decidable job.CkArtifactBytesPositive :=
  inferInstanceAs (Decidable (∀ n ∈ job.artifactBytes, 0 < n))
instance : Decidable job.CkProgressState := inferInstanceAs (Decidable (_ ∨ _))
instance : Decidable job.CkCancelRequested := inferInstanceAs (Decidable (_ ∨ _))
instance : Decidable job.CkProgressPercent := inferInstanceAs (Decidable (_ ∨ _))
instance : Decidable job.CkAttemptCountNonneg := inferInstanceAs (Decidable (_ ≤ _))

end MediaDownloadJob

/-- What an `UPDATE` leaves in a column: the session writes it if its object no longer has the value
that was loaded. -/
def written {α : Type} [DecidableEq α] (loaded object stored : α) : α :=
  if object = loaded then stored else object

/-- The stored row after a flush of an object that was loaded as `loaded`. -/
def MediaDownloadJob.overwritten (stored loaded object : MediaDownloadJob) : MediaDownloadJob where
  id := written loaded.id object.id stored.id
  target := written loaded.target object.target stored.target
  publicState := written loaded.publicState object.publicState stored.publicState
  selectedFormatSnapshot :=
    written loaded.selectedFormatSnapshot object.selectedFormatSnapshot
      stored.selectedFormatSnapshot
  attemptCount := written loaded.attemptCount object.attemptCount stored.attemptCount
  maxAttempts := written loaded.maxAttempts object.maxAttempts stored.maxAttempts
  availableAt := written loaded.availableAt object.availableAt stored.availableAt
  leaseOwner := written loaded.leaseOwner object.leaseOwner stored.leaseOwner
  leaseExpiresAt := written loaded.leaseExpiresAt object.leaseExpiresAt stored.leaseExpiresAt
  fenceToken := written loaded.fenceToken object.fenceToken stored.fenceToken
  artifactId := written loaded.artifactId object.artifactId stored.artifactId
  artifactBytes := written loaded.artifactBytes object.artifactBytes stored.artifactBytes
  artifactContentType :=
    written loaded.artifactContentType object.artifactContentType stored.artifactContentType
  artifactContainer :=
    written loaded.artifactContainer object.artifactContainer stored.artifactContainer
  publicErrorCode := written loaded.publicErrorCode object.publicErrorCode stored.publicErrorCode
  progressStage := written loaded.progressStage object.progressStage stored.progressStage
  progressPercent := written loaded.progressPercent object.progressPercent stored.progressPercent
  cancelRequestedAt :=
    written loaded.cancelRequestedAt object.cancelRequestedAt stored.cancelRequestedAt
  createdAt := written loaded.createdAt object.createdAt stored.createdAt
  updatedAt := written loaded.updatedAt object.updatedAt stored.updatedAt
  startedAt := written loaded.startedAt object.startedAt stored.startedAt
  completedAt := written loaded.completedAt object.completedAt stored.completedAt
  expiresAt := written loaded.expiresAt object.expiresAt stored.expiresAt

section Overwritten

variable {α : Type} [DecidableEq α] {loaded object stored : α}

@[simp] theorem written_unchanged : written loaded loaded stored = stored := if_pos rfl

@[simp] theorem written_changed (h : object ≠ loaded) : written loaded object stored = object :=
  if_neg h

end Overwritten

/-- The constraints over the columns that updates write, evaluated when a row is flushed. -/
def flushJob (job : MediaDownloadJob) : Except Raised MediaDownloadJob := do
  require job.CkPublicState (.integrityError .publicState)
  require job.CkAttemptCountNonneg (.integrityError .attemptCountNonneg)
  require job.CkLeaseState (.integrityError .leaseState)
  require job.CkResultState (.integrityError .resultState)
  require job.CkArtifactBytesPositive (.integrityError .artifactBytesPositive)
  require job.CkProgressState (.integrityError .progressState)
  require job.CkCancelRequested (.integrityError .cancelRequested)
  require job.CkProgressPercent (.integrityError .progressPercent)
  .ok job

/-- The constraints over the columns that only the insert writes. -/
def insertJob (job : MediaDownloadJob) : Except Raised MediaDownloadJob := do
  require ('?' ∉ job.target.canonicalProviderUrl.toList ∧
      '#' ∉ job.target.canonicalProviderUrl.toList) (.integrityError .canonicalNoQueryFragment)
  require (1 ≤ job.maxAttempts) (.integrityError .maxAttemptsPositive)
  require (1 ≤ job.target.schemaVersion) (.integrityError .schemaVersion)
  require (job.target.scheme = "https" ∧ job.target.port = none)
    (.integrityError .terminalTransport)
  require (∀ name ∈ job.target.suggestedFilename,
      (1 ≤ name.length ∧ name.length ≤ 255) ∧ '/' ∉ name.toList ∧ '\\' ∉ name.toList ∧
        '\n' ∉ name.toList ∧ '\r' ∉ name.toList) (.integrityError .suggestedFilename)
  flushJob job

/-- A row of `media_delivery_grants`. -/
structure MediaDeliveryGrant where
  id : Uuid
  artifactId : Uuid
  fenceToken : Nat
  createdAt : Timestamp
  expiresAt : Timestamp
  revokedAt : Option Timestamp
  deriving DecidableEq, Repr

def MediaDeliveryGrant.active (now : Timestamp) (grant : MediaDeliveryGrant) : Bool :=
  grant.revokedAt.isNone && grant.expiresAt > now

/-- `list_active_for_job` followed by `revoke_grants`: a stale caller clock never writes a
revocation earlier than the creation. -/
def revokeActiveGrants (now : Timestamp) (grants : List MediaDeliveryGrant) :
    List MediaDeliveryGrant :=
  grants.map fun grant =>
    if grant.active now then
      { grant with revokedAt := some (if now ≥ grant.createdAt then now else grant.createdAt) }
    else grant

/-- Everything `flushJob` demands of a row. -/
structure MediaDownloadJob.Checked (job : MediaDownloadJob) : Prop where
  publicState : job.CkPublicState
  attemptCount : job.CkAttemptCountNonneg
  leaseState : job.CkLeaseState
  resultState : job.CkResultState
  artifactBytes : job.CkArtifactBytesPositive
  progressState : job.CkProgressState
  cancelRequested : job.CkCancelRequested
  progressPercent : job.CkProgressPercent

/-- Every row that belongs to one download job. The unique keys and the foreign keys from a
grant to its job, from an entry to its job and from a range to its entry hold by construction. -/
structure DownloadRows where
  job : MediaDownloadJob
  quota : Option QuotaRows
  grants : List MediaDeliveryGrant
  deriving DecidableEq, Repr

theorem flushJob_eq_ok {job job' : MediaDownloadJob} :
    flushJob job = .ok job' ↔ job.Checked ∧ job' = job := by
  simp only [flushJob, bind_eq_ok, require_eq_ok, Except.ok.injEq]
  constructor
  · rintro ⟨_, h1, _, h2, _, h3, _, h4, _, h5, _, h6, _, h7, _, h8, rfl⟩
    exact ⟨⟨h1, h2, h3, h4, h5, h6, h7, h8⟩, rfl⟩
  · rintro ⟨⟨h1, h2, h3, h4, h5, h6, h7, h8⟩, rfl⟩
    exact ⟨(), h1, (), h2, (), h3, (), h4, (), h5, (), h6, (), h7, (), h8, rfl⟩

/-- A row that violates a constraint is refused. -/
theorem flushJob_refused {job : MediaDownloadJob} (h : ¬ job.Checked) :
    ∃ violated, flushJob job = .error (.integrityError violated) := by
  have hraised : Avoids (fun e => ∀ violated, e ≠ .integrityError violated) (flushJob job) := by
    unfold flushJob
    iterate 8 refine .require_bind (fun hother => hother _ rfl) fun _ => ?_
    exact avoids_ok
  cases hflush : flushJob job with
  | ok job' => exact absurd (flushJob_eq_ok.mp hflush).1 h
  | error e =>
    have hviolated := hraised e hflush
    push Not at hviolated
    obtain ⟨violated, rfl⟩ := hviolated
    exact ⟨violated, rfl⟩

/-- A row that passes every constraint is stored as it is. -/
theorem MediaDownloadJob.Checked.flush {job : MediaDownloadJob} (h : job.Checked) :
    flushJob job = .ok job := flushJob_eq_ok.mpr ⟨h, rfl⟩

/-! ## What the constraints say in each state -/

namespace MediaDownloadJob

variable {job : MediaDownloadJob}

/-- The result columns are empty. -/
def Blank (job : MediaDownloadJob) : Prop :=
  job.artifactId = none ∧ job.artifactBytes = none ∧ job.artifactContainer = none ∧
    job.artifactContentType = none

/-- Nobody holds a lease, and no percentage is reported. -/
def Idle (job : MediaDownloadJob) : Prop :=
  job.leaseOwner = none ∧ job.leaseExpiresAt = none ∧ job.progressPercent = none

namespace Checked

/-- Before it ends a job has no result. -/
theorem blank (h : job.Checked) (hpending : job.Pending) :
    job.Blank ∧ job.publicErrorCode = none := by
  have hresult := h.resultState
  rcases hpending with hstate | hstate <;> simp only [CkResultState, hstate] at hresult <;>
    simp_all [Blank]

theorem idle (h : job.Checked) (hstate : job.publicState ≠ .downloading) : job.Idle := by
  have hlease := h.leaseState
  have hpercent := h.progressPercent
  simp_all [CkLeaseState, CkProgressPercent, Idle]

theorem working (h : job.Checked) (hstate : job.publicState = .downloading) :
    job.progressStage.working = true := by
  have hprogress := h.progressState
  simp_all [CkProgressState]

theorem leased (h : job.Checked) (hstate : job.publicState = .downloading) :
    job.leaseOwner.isSome ∧ job.leaseExpiresAt.isSome := by
  have hlease := h.leaseState
  simp_all [CkLeaseState]

theorem uncancelled (h : job.Checked) (hstate : job.publicState = .queued) :
    job.cancelRequestedAt = none := by
  have hcancel := h.cancelRequested
  simp_all [CkCancelRequested]

end Checked
end MediaDownloadJob

end FetchNow
