import FetchNow.Downloads.Repository

/-! The database part of `DownloadJobService.create` for an admitted Free job. -/
namespace FetchNow

open Transactions

/-- Insert the job, reserve the quota slot until the job expires, and attach the policy. -/
def create (request : EnqueueRequest) (now ttl parentExpiresAt : Timestamp) (entryId client : Uuid)
    (reservedAt : Timestamp) (policy : EffectiveDownloadPolicy) : Except Raised DownloadRows := do
  let (job, _) ← enqueueOrGet request none now ttl parentExpiresAt
  let entry ← reserveLocked entryId client reservedAt job.expiresAt
  let snapshot ← attachEffectivePolicySnapshot
    (stripEffectivePolicySnapshot job.selectedFormatSnapshot) policy none
  let job ← flushJob { job with selectedFormatSnapshot := snapshot }
  .ok { job, quota := some ⟨entry, []⟩, grants := [] }

/-- The rows of a download job right after its creation with a Free reservation. -/
def Created (rows : DownloadRows) : Prop :=
  ∃ request now ttl parentExpiresAt entryId client reservedAt policy, policy.tier = .free ∧
    create request now ttl parentExpiresAt entryId client reservedAt policy = .ok rows

/-- The rows of a download job right after its creation: with a Free reservation, or without an
entry for a Premium identity or while quotas are off. -/
inductive Enqueued : DownloadRows → Prop
  | reserved {rows : DownloadRows} : Created rows → Enqueued rows
  | unreserved {request : EnqueueRequest} {now ttl parentExpiresAt : Timestamp}
      {policy : EffectiveDownloadPolicy} {identity : Option Uuid} {job job' : MediaDownloadJob}
      {snapshot : SelectedFormatSnapshot} :
      enqueueOrGet request none now ttl parentExpiresAt = .ok (job, true) →
      attachEffectivePolicySnapshot (stripEffectivePolicySnapshot job.selectedFormatSnapshot)
        policy identity = .ok snapshot →
      flushJob { job with selectedFormatSnapshot := snapshot } = .ok job' →
      Enqueued { job := job', quota := none, grants := [] }

/-- What creation stores. -/
structure Fresh (rows : DownloadRows) : Prop where
  queued : rows.job.publicState = .queued
  stage : rows.job.progressStage = .queued
  unclaimed : rows.job.fenceToken = 0 ∧ rows.job.attemptCount = 0
  attempts : 1 ≤ rows.job.maxAttempts
  option : rows.job.target.formatOptionId ≠ "" ∧ rows.job.target.formatOptionId.length ≤ 64
  uncancelled : rows.job.cancelRequestedAt = none
  unpublished : rows.job.artifactId = none
  checked : rows.job.Checked
  reserved : ∀ quota ∈ rows.quota, quota.entry.state = .reserved

theorem insertJob_eq_ok {job job' : MediaDownloadJob} (h : insertJob job = .ok job') :
    job' = job ∧ job.Checked ∧ 1 ≤ job.maxAttempts := by
  simp only [insertJob, bind_eq_ok, require_eq_ok, flushJob_eq_ok] at h
  obtain ⟨_, _, _, hattempts, _, _, _, _, _, _, hchecked, rfl⟩ := h
  exact ⟨rfl, hchecked, hattempts⟩

theorem enqueueOrGet_created {request : EnqueueRequest} {now ttl parentExpiresAt : Timestamp}
    {job : MediaDownloadJob} {created : Bool}
    (h : enqueueOrGet request none now ttl parentExpiresAt = .ok (job, created)) :
    job = queuedJob request now (min (now + ttl) parentExpiresAt) ∧ created = true ∧
      job.Checked ∧ 1 ≤ job.maxAttempts ∧
      request.formatOptionId ≠ "" ∧ request.formatOptionId.length ≤ 64 := by
  simp only [enqueueOrGet, bind_eq_ok, require_eq_ok] at h
  obtain ⟨_, _, _, hoption, h⟩ := h
  split at h
  · rename_i hinsert
    cases h
    obtain ⟨rfl, hchecked, hattempts⟩ := insertJob_eq_ok hinsert
    exact ⟨rfl, rfl, hchecked, hattempts, hoption⟩
  · cases h

/-- A stored snapshot is the one that was attached. -/
theorem attachEffectivePolicySnapshot_eq_ok {format : FormatSnapshot}
    {policy : EffectiveDownloadPolicy} {identity : Option Uuid}
    {snapshot : SelectedFormatSnapshot}
    (h : attachEffectivePolicySnapshot format policy identity = .ok snapshot) :
    snapshot = ⟨format, .stored policy identity⟩ := by
  simp only [attachEffectivePolicySnapshot, bind_eq_ok] at h
  obtain ⟨_, _, h⟩ := h
  cases h
  rfl

theorem Created.fresh {rows : DownloadRows} (h : Created rows) :
    Fresh rows ∧ ∃ policy,
      rows.job.selectedFormatSnapshot.effectivePolicy = .stored policy none ∧
        policy.tier = .free := by
  obtain ⟨request, now, ttl, parentExpiresAt, entryId, client, reservedAt, policy, hfree, h⟩ := h
  simp only [create, bind_eq_ok, flushJob_eq_ok] at h
  obtain ⟨⟨job, _⟩, hjob, entry, hentry, snapshot, hattach, _, ⟨hchecked, rfl⟩, h⟩ := h
  cases h
  obtain ⟨rfl, rfl, _, hattempts, hoption⟩ := enqueueOrGet_created hjob
  obtain ⟨rfl, _⟩ := reserveLocked_eq_ok hentry
  obtain rfl := attachEffectivePolicySnapshot_eq_ok hattach
  refine ⟨⟨rfl, rfl, ⟨rfl, rfl⟩, hattempts, hoption, rfl, rfl, hchecked, ?_⟩, policy, rfl, hfree⟩
  rintro quota ⟨⟩
  rfl

theorem Enqueued.fresh {rows : DownloadRows} (h : Enqueued rows) : Fresh rows := by
  cases h with
  | reserved hcreated => exact hcreated.fresh.1
  | unreserved hjob hattach hflush =>
    obtain ⟨rfl, _, _, hattempts, hoption⟩ := enqueueOrGet_created hjob
    obtain ⟨hchecked, rfl⟩ := flushJob_eq_ok.mp hflush
    obtain rfl := attachEffectivePolicySnapshot_eq_ok hattach
    exact ⟨rfl, rfl, ⟨rfl, rfl⟩, hattempts, hoption, rfl, rfl, hchecked, by simp⟩

/-! ## A sample job -/

def sampleRequest : EnqueueRequest :=
  { jobId := 1, mediaJobId := 2, formatOptionId := "f", providerId := "p",
    canonicalProviderUrl := "u", mediaId := "m", hostname := "h", path := "p", scheme := "https",
    port := none, selectedFormatSnapshot := ⟨⟨"f", .normalVideo, true⟩, .absent⟩, maxAttempts := 2,
    suggestedFilename := none }

def samplePolicy : EffectiveDownloadPolicy :=
  { tier := .free, downloadLimit := some 1, quotaWindowSeconds := some 60,
    deliveryRateBytesPerSecond := none, premiumExpiresAt := none, allowCombined := true,
    allowAudioOnly := false, allowVideoOnly := false }

/-- A job of client 4 that was created at time 0 and expires at time 100. -/
def sampleRows : DownloadRows :=
  { job :=
      { queuedJob sampleRequest 0 100 with
        selectedFormatSnapshot :=
          ⟨sampleRequest.selectedFormatSnapshot.format, .stored samplePolicy none⟩ },
    quota := some ⟨⟨3, 4, .reserved, 0, 100, none, none⟩, []⟩, grants := [] }

theorem sampleRows_created : Created sampleRows :=
  ⟨sampleRequest, 0, 200, 100, 3, 4, 0, samplePolicy, rfl, by decide +kernel⟩

end FetchNow
