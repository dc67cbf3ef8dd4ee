import FetchNow.Downloads.Coherence

/-!
# The CHECK constraints of `media_download_jobs`

Every write of a checked row yields a checked row, so no flush of a job row is refused.
-/
namespace FetchNow

open Transactions MediaDownloadJob

variable {rows rows' rows₀ : DownloadRows} {job : MediaDownloadJob} {actor : Actor}
  {now lease backoff : Timestamp} {clock : Clock} {compat : Bool} {owner workerId : String}
  {fence : Nat} {code : DownloadErrorCode} {artifact : Artifact} {target : DownloadProgressStage}
  {quota : QuotaRows} {fresh : Nat → Uuid}

/-! ## Rows that satisfy the constraints -/

namespace MediaDownloadJob.Checked

theorem of_queued (hstate : job.publicState = .queued)
    (hstage : job.progressStage = .queued ∨ job.progressStage = .retrying) (hidle : job.Idle)
    (hblank : job.Blank) (herror : job.publicErrorCode = none)
    (hopen : job.cancelRequestedAt = none) (hcount : job.CkAttemptCountNonneg) :
    job.Checked := by
  obtain ⟨howner, hlease, hpercent⟩ := hidle
  obtain ⟨hid, hbytes, hcontainer, htype⟩ := hblank
  refine ⟨by simp [CkPublicState, hstate], hcount, .inr ⟨by simp [hstate], howner, hlease⟩,
    .inr (.inr ⟨.inl hstate, hid, hbytes, hcontainer, htype, herror⟩),
    by simp [CkArtifactBytesPositive, hbytes], .inl ⟨hstate, hstage⟩, .inl ⟨hopen, ?_⟩,
    .inl hpercent⟩
  rcases hstage with hstage | hstage <;> simp [hstage]

/-- A downloading row needs its lease and a working stage. -/
theorem of_downloading (hstate : job.publicState = .downloading)
    (hstage : job.progressStage.working = true) (howner : job.leaseOwner.isSome)
    (hlease : job.leaseExpiresAt.isSome) (hblank : job.Blank) (herror : job.publicErrorCode = none)
    (hcount : job.CkAttemptCountNonneg) (hpercent : job.CkProgressPercent) : job.Checked := by
  obtain ⟨hid, hbytes, hcontainer, htype⟩ := hblank
  refine ⟨by simp [CkPublicState, hstate], hcount, .inl ⟨hstate, howner, hlease⟩,
    .inr (.inr ⟨.inr (.inl hstate), hid, hbytes, hcontainer, htype, herror⟩),
    by simp [CkArtifactBytesPositive, hbytes], .inr (.inl ⟨hstate, hstage⟩), ?_, hpercent⟩
  cases hcancel : job.cancelRequestedAt with
  | none =>
    refine .inl ⟨hcancel, fun hcancelled => ?_⟩
    simp [hcancelled, DownloadProgressStage.working] at hstage
  | some => exact .inr ⟨by simp [hcancel], .inl hstate⟩

theorem of_failed (hstate : job.publicState = .failed) (hstage : job.progressStage = .failed)
    (hidle : job.Idle) (hblank : job.Blank) (hcompleted : job.completedAt.isSome)
    (herror : job.publicErrorCode = some code.value)
    (hopen : job.cancelRequestedAt = none) (hcount : job.CkAttemptCountNonneg) :
    job.Checked := by
  obtain ⟨howner, hlease, hpercent⟩ := hidle
  obtain ⟨hid, hbytes, hcontainer, htype⟩ := hblank
  exact ⟨by simp [CkPublicState, hstate], hcount, .inr ⟨by simp [hstate], howner, hlease⟩,
    .inr (.inl ⟨hstate, hid, hbytes, hcontainer, htype, ⟨_, herror, code.value_length⟩,
      hcompleted⟩),
    by simp [CkArtifactBytesPositive, hbytes],
    .inr (.inr (.inr (.inl ⟨hstate, hstage⟩))), .inl ⟨hopen, by simp [hstage]⟩, .inl hpercent⟩

/-- An expired row keeps its cancel markers together or not at all. -/
theorem of_expired (hstate : job.publicState = .expired)
    (hstage : job.progressStage = .expired ∧ job.cancelRequestedAt = none ∨
      job.progressStage = .cancelled ∧ job.cancelRequestedAt.isSome)
    (hidle : job.Idle) (hblank : job.Blank) (herror : job.publicErrorCode = none)
    (hcount : job.CkAttemptCountNonneg) : job.Checked := by
  obtain ⟨howner, hlease, hpercent⟩ := hidle
  obtain ⟨hid, hbytes, hcontainer, htype⟩ := hblank
  refine ⟨by simp [CkPublicState, hstate], hcount, .inr ⟨by simp [hstate], howner, hlease⟩,
    .inr (.inr ⟨.inr (.inr hstate), hid, hbytes, hcontainer, htype, herror⟩),
    by simp [CkArtifactBytesPositive, hbytes],
    .inr (.inr (.inr (.inr ⟨hstate, hstage.imp And.left And.left⟩))), ?_, .inl hpercent⟩
  rcases hstage with ⟨hstage, hopen⟩ | ⟨hstage, hrequested⟩
  · exact .inl ⟨hopen, by simp [hstage]⟩
  · exact .inr ⟨hrequested, .inr ⟨hstate, hstage⟩⟩

/-! ## The writes -/

theorem claimed (h : job.Checked) (hstate : job.publicState = .queued) :
    (claimedJob workerId lease now job).Checked := by
  obtain ⟨hblank, herror⟩ := h.blank (.inl hstate)
  exact of_downloading rfl rfl rfl rfl hblank herror (add_nonneg h.attemptCount zero_le_one)
    (.inl rfl)

theorem renewed (h : job.Checked) (hstate : job.publicState = .downloading) :
    (renewedJob lease clock job).Checked := by
  obtain ⟨hblank, herror⟩ := h.blank (.inr hstate)
  exact of_downloading hstate (h.working hstate) (h.leased hstate).1 rfl hblank herror
    h.attemptCount h.progressPercent

theorem staged (h : job.Checked)
    (hstate : job.publicState = .downloading) (hworking : target.working = true) :
    (stagedJob target now job).Checked := by
  obtain ⟨hblank, herror⟩ := h.blank (.inr hstate)
  obtain ⟨howner, hlease⟩ := h.leased hstate
  refine of_downloading hstate hworking howner hlease hblank herror h.attemptCount ?_
  by_cases hsame : job.progressStage = target
  · have hpercent := h.progressPercent
    simpa [stagedJob, CkProgressPercent, hsame] using hpercent
  · simp [stagedJob, CkProgressPercent, hsame]

theorem percent {percent : Int} (h : job.Checked) (hstate : job.publicState = .downloading)
    (hrange : 0 ≤ percent ∧ percent ≤ 99) (hstage : job.progressStage.transferring = true) :
    (percentJob percent now job).Checked := by
  obtain ⟨hblank, herror⟩ := h.blank (.inr hstate)
  obtain ⟨howner, hlease⟩ := h.leased hstate
  exact of_downloading hstate (h.working hstate) howner hlease hblank herror h.attemptCount
    (.inr ⟨⟨percent, rfl, hrange⟩, hstate, hstage⟩)

theorem ready (h : job.Checked) (hopen : job.cancelRequestedAt = none)
    (hbytes : 0 < artifact.bytes) : (readyJob artifact clock job).Checked := by
  refine ⟨by simp [CkPublicState, readyJob], h.attemptCount, .inr ⟨nofun, rfl, rfl⟩,
    .inl ⟨rfl, rfl, ⟨_, rfl, hbytes⟩, rfl, rfl, rfl, rfl⟩, ?_, .inr (.inr (.inl ⟨rfl, rfl⟩)),
    .inl ⟨hopen, nofun⟩, .inl rfl⟩
  rintro n ⟨⟩
  exact hbytes

theorem failed (h : job.Checked) (hopen : job.cancelRequestedAt = none) :
    (failedJob code clock job).Checked :=
  of_failed rfl rfl ⟨rfl, rfl, rfl⟩ ⟨rfl, rfl, rfl, rfl⟩ rfl rfl hopen h.attemptCount

theorem exhausted (h : job.Checked) (hopen : job.cancelRequestedAt = none) :
    (exhaustedJob now job).Checked :=
  of_failed rfl rfl ⟨rfl, rfl, rfl⟩ ⟨rfl, rfl, rfl, rfl⟩ rfl rfl hopen h.attemptCount

theorem cancelled (h : job.Checked) (hrequested : job.cancelRequestedAt.isSome) :
    (cancelledJob clock job).Checked :=
  of_expired rfl (.inr ⟨rfl, hrequested⟩) ⟨rfl, rfl, rfl⟩ ⟨rfl, rfl, rfl, rfl⟩ rfl h.attemptCount

theorem cancelStored {updatedAt : Timestamp} {completedAt : Option Timestamp} (h : job.Checked)
    (hstate : job.publicState = .queued) :
    (cancelStored now updatedAt completedAt job).Checked := by
  obtain ⟨hblank, herror⟩ := h.blank (.inl hstate)
  exact of_expired rfl (.inr ⟨rfl, rfl⟩) (h.idle (by simp [hstate])) hblank herror h.attemptCount

theorem reclaimedCancel (h : job.Checked) (hrequested : job.cancelRequestedAt.isSome) :
    (reclaimedCancel now job).Checked :=
  of_expired rfl (.inr ⟨rfl, hrequested⟩) ⟨rfl, rfl, rfl⟩ ⟨rfl, rfl, rfl, rfl⟩ rfl h.attemptCount

theorem expired (h : job.Checked) : (expiredJob now job).Checked :=
  of_expired rfl (.inl ⟨rfl, rfl⟩) ⟨rfl, rfl, rfl⟩ ⟨rfl, rfl, rfl, rfl⟩ rfl h.attemptCount

theorem retried (h : job.Checked) (hstate : job.publicState = .downloading)
    (hopen : job.cancelRequestedAt = none) : (retriedJob now backoff clock job).Checked :=
  of_queued rfl (.inr rfl) ⟨rfl, rfl, rfl⟩ (h.blank (.inr hstate)).1 rfl hopen h.attemptCount

theorem released (h : job.Checked) (hstate : job.publicState = .downloading)
    (hopen : job.cancelRequestedAt = none) : (releasedJob now clock job).Checked := by
  obtain ⟨hblank, herror⟩ := h.blank (.inr hstate)
  exact of_queued rfl (.inl rfl) ⟨rfl, rfl, rfl⟩ hblank herror hopen (le_max_right _ _)

theorem reclaimed (h : job.Checked) (hstate : job.publicState = .downloading)
    (hopen : job.cancelRequestedAt = none) : (reclaimedJob now job).Checked := by
  obtain ⟨hblank, herror⟩ := h.blank (.inr hstate)
  exact of_queued rfl (.inr rfl) ⟨rfl, rfl, rfl⟩ hblank herror hopen h.attemptCount

theorem cancelStamped {updatedAt : Timestamp} (h : job.Checked)
    (hstate : job.publicState = .downloading) : (cancelStamped now updatedAt job).Checked := by
  obtain ⟨hblank, herror⟩ := h.blank (.inr hstate)
  obtain ⟨howner, hlease⟩ := h.leased hstate
  exact of_downloading hstate (h.working hstate) howner hlease hblank herror h.attemptCount
    h.progressPercent

end MediaDownloadJob.Checked

/-! ## Reachable rows -/

/-- The row passes its constraints, and no attempt exceeds the bound. -/
structure Legal (job : MediaDownloadJob) : Prop extends job.Checked where
  bounded : job.attemptCount ≤ job.maxAttempts

theorem Step.legal (hI : Legal rows.job) (h : Step compat actor rows rows') : Legal rows'.job := by
  obtain ⟨hI, hbounded⟩ := hI
  cases h with
  | idle | settle | charge | prune => exact ⟨hI, hbounded⟩
  | claim hclaimable =>
    obtain ⟨hstate, _, _, hattempts, _⟩ := hclaimable
    exact ⟨hI.claimed hstate, hattempts⟩
  | renew hfenced => exact ⟨hI.renewed hfenced.1, hbounded⟩
  | stage _ _ _ _ hchecked => exact ⟨hchecked, hbounded⟩
  | percent _ _ _ hchecked => exact ⟨hchecked, hbounded⟩
  | ready _ _ hopen hbytes => exact ⟨hI.ready hopen hbytes, hbounded⟩
  | fail _ _ hopen => exact ⟨hI.failed hopen, hbounded⟩
  | cancel _ hrequested => exact ⟨hI.cancelled hrequested, hbounded⟩
  | retry hfenced _ hopen => exact ⟨hI.retried hfenced.1 hopen, hbounded⟩
  | release hfenced _ hopen =>
    have hcount : 0 ≤ rows.job.attemptCount := hI.attemptCount
    have hless : rows.job.attemptCount - 1 ≤ rows.job.maxAttempts := by omega
    exact ⟨hI.released hfenced.1 hopen, max_le hless (hcount.trans hbounded)⟩
  | cancelQueued hchecked => exact ⟨hchecked, hbounded⟩
  | requestCancel hchecked => exact ⟨hchecked, hbounded⟩
  | reclaimCancel _ hrequested => exact ⟨hI.reclaimedCancel hrequested, hbounded⟩
  | reclaimExhausted _ hopen => exact ⟨hI.exhausted hopen, hbounded⟩
  | reclaim hreclaimable hopen => exact ⟨hI.reclaimed hreclaimable.1 hopen, hbounded⟩
  | expire => exact ⟨hI.expired, hbounded⟩
  | ledger hframe => cases hframe <;> exact ⟨hI, hbounded⟩
  | promote => exact ⟨⟨hI.1, hI.2, hI.3, hI.4, hI.5, hI.6, hI.7, hI.8⟩, hbounded⟩

theorem Enqueued.legal (h : Enqueued rows) : Legal rows.job := by
  have hfresh := h.fresh
  have hattempts := hfresh.attempts
  exact ⟨hfresh.checked, by rw [hfresh.unclaimed.2]; omega⟩

theorem Reaches.legal (hrun : Reaches compat rows₀ rows) (hqueued : Enqueued rows₀) :
    Legal rows.job :=
  hrun.invariant (I := fun rows => Legal rows.job) (fun hI hstep => hstep.legal hI) hqueued.legal

/-! ## Errors of the job row -/

/-- The constraints that updates of a job row must satisfy. -/
def Constraint.onJob : Constraint → Bool
  | publicState | leaseState | resultState | artifactBytesPositive | progressState
  | cancelRequested | progressPercent | attemptCountNonneg => true
  | _ => false

/-- A refused job row, or a transition that `assert_transition` or `assert_progress_transition`
refuses. -/
def Raised.onJob : Raised → Bool
  | .integrityError violated => violated.onJob
  | .downloadError .internalError reason =>
    reason ∈ ["ILLEGAL_STATE_TRANSITION", "TERMINAL_PROGRESS_IMMUTABLE",
      "ILLEGAL_PROGRESS_TRANSITION"]
  | _ => false

/-- The computation raises no error of the job row. -/
abbrev Faultless {α : Type} (m : Except Raised α) : Prop := Avoids (·.onJob = true) m

theorem flushJob_faultless (h : job.Checked) : Faultless (flushJob job) := by
  simp [Faultless, h.flush]

theorem assertTransition_faultless {src dst : MediaDownloadJobState} (h : dst ∈ src.allowed) :
    Faultless (assertTransition src dst) := by
  simp [Faultless, assertTransition, h]

theorem updateJob_faultless {guard : Prop} [Decidable guard]
    {write : MediaDownloadJob → MediaDownloadJob} (h : guard → (write job).Checked) :
    Faultless (updateJob guard write job) := by
  unfold updateJob
  split
  · rename_i hguard
    exact (flushJob_faultless (h hguard)).bind fun _ _ => avoids_ok
  · exact avoids_ok

theorem onJob_faultless {write : MediaDownloadJob → Except Raised (MediaDownloadJob × Bool)}
    (h : Faultless (write rows.job)) : Faultless (rows.onJob write) :=
  h.bind fun _ _ => avoids_ok

/-- No error of the quota tables is one of the job row. -/
theorem onQuota_faultless (e : Raised) (h : e.onQuota = true) : ¬ e.onJob = true := by
  cases e with
  | integrityError violated => cases violated <;> simp_all [Raised.onQuota, Constraint.onQuota,
      Raised.onJob, Constraint.onJob]
  | downloadError code => cases code <;> simp_all [Raised.onQuota, Raised.onJob]
  | quotaInvariantError | anonymousIdentityRequired | freeQuotaExceeded | valueError
  | inspectionError | paymentError | premiumEntitlementInvariantError => simp [Raised.onJob]

theorem flushEntry_faultless {entry : FreeDownloadQuotaEntry} : Faultless (flushEntry entry) :=
  flushEntry_avoids onQuota_faultless

theorem consumeLocked_faultless {entry : FreeDownloadQuotaEntry} :
    Faultless (consumeLocked entry now) :=
  consumeLocked_avoids onQuota_faultless

theorem releaseLocked_faultless {entry : FreeDownloadQuotaEntry} {expired : Bool} :
    Faultless (releaseLocked entry now expired) :=
  releaseLocked_avoids onQuota_faultless

theorem releaseQuotaAfterJobLock_faultless {expired : Bool} {quota : Option QuotaRows} :
    Faultless (releaseQuotaAfterJobLock now expired quota) := by
  cases quota with
  | none => exact avoids_ok
  | some =>
    exact releaseLocked_faultless.bind fun _ _ => flushEntry_faultless.bind fun _ _ => avoids_ok

theorem consumeQuotaAfterJobLock_faultless {quota : Option QuotaRows} :
    Faultless (consumeQuotaAfterJobLock now quota) := by
  cases quota with
  | none => exact avoids_ok
  | some =>
    exact consumeLocked_faultless.bind fun _ _ => flushEntry_faultless.bind fun _ _ => avoids_ok

theorem reconcileLocked_faultless : Faultless (reconcileLocked fresh now job quota) :=
  reconcileLocked_avoids onQuota_faultless

/-! ## The calls of the repository -/

/-- What is due for expiry may expire. -/
theorem Due.expirable (h : Due clock job) : Expirable job := by
  obtain ⟨_, (hstate | hstate | hstate | hstate) | ⟨hstate, hstage, hrequested⟩⟩ := h
  · exact .inr (by rw [hstate]; decide)
  · exact .inr (by rw [hstate]; decide)
  · exact .inr (by rw [hstate]; decide)
  · exact .inr (by rw [hstate]; decide)
  · exact .inl (by simp [isStoredCancelled, hstate, hstage, hrequested])

theorem settleReserved_faultless {expired : Bool} (hchecked : job.Checked) :
    Faultless (settleReserved now expired quota job rows) :=
  releaseLocked_faultless.bind fun _ _ => (flushJob_faultless hchecked).bind fun _ _ =>
    flushEntry_faultless.bind fun _ _ => avoids_ok

section Calls

variable (hjob : rows.job.Checked)
include hjob

theorem claimNext_faultless : Faultless (claimNext workerId lease now clock rows.job) := by
  refine .require_bind (by decide) fun _ => ?_
  split
  · rename_i hclaimable
    refine Avoids.bind (assertTransition_faultless (by rw [hclaimable.1]; decide)) fun _ _ => ?_
    exact (flushJob_faultless (hjob.claimed hclaimable.1)).bind fun _ _ => avoids_ok
  · exact avoids_ok

theorem renewLease_faultless : Faultless (renewLease owner fence lease clock rows.job) :=
  updateJob_faultless fun hguard => hjob.renewed hguard.1.1

theorem leaseStatus_faultless : Faultless (leaseStatus owner fence lease clock rows.job) := by
  unfold leaseStatus
  split
  · split
    · exact avoids_ok
    · exact (renewLease_faultless hjob).bind fun _ _ => avoids_ok
  · exact avoids_ok

/-- The holder of an uncancelled job passes a stage that its row does not allow. -/
def OutOfOrder (owner : String) (fence : Nat) (target : DownloadProgressStage)
    (job : MediaDownloadJob) : Prop :=
  Fenced owner fence job ∧ Uncancelled job ∧ job.progressStage ≠ target ∧
    target ∉ job.progressStage.allowed

/-- A working stage is refused only when it is out of order, and then as such. -/
theorem setProgressStage_error {e : Raised} (hworking : target.working = true)
    (h : setProgressStage owner fence target now rows.job = .error e) :
    e = internalError "ILLEGAL_PROGRESS_TRANSITION" ∧ OutOfOrder owner fence target rows.job := by
  unfold setProgressStage at h
  split at h
  · cases h
  split at h
  · rename_i hguard
    have hstate := hguard.1.1
    rcases bind_eq_error.mp h with h | ⟨_, _, h⟩
    · have hsource := hjob.working hstate
      unfold assertProgressTransition at h
      split at h
      · cases h
      rename_i hne
      split at h
      · rename_i hterminal
        cases hstage : rows.job.progressStage <;>
          simp_all [DownloadProgressStage.working, DownloadProgressStage.terminal]
      · obtain ⟨hallowed, rfl⟩ := require_eq_error.mp h
        exact ⟨rfl, hguard.1, hguard.2, hne, hallowed⟩
    · rw [(hjob.staged hstate hworking).flush] at h
      cases h
  · cases h

theorem setProgressPercent_faultless {percent : Int} :
    Faultless (setProgressPercent owner fence percent now clock rows.job) := by
  unfold setProgressPercent
  split
  · exact avoids_ok
  rename_i hrange
  split
  · rename_i hguard
    split
    · exact avoids_ok
    split
    · exact avoids_ok
    refine Avoids.bind (flushJob_faultless ?_) fun _ _ => avoids_ok
    exact hjob.percent hguard.1.1 (by omega) hguard.2.2.2
  · exact avoids_ok

theorem completeReady_faultless :
    Faultless (completeReady owner fence artifact clock compat rows) := by
  refine .require_bind (by decide) fun hbytes => ?_
  refine Avoids.bind (assertTransition_faultless (by decide)) fun _ _ => ?_
  refine Avoids.bind (updateJob_faultless fun hguard => hjob.ready hguard.2.2 hbytes) ?_
  rintro ⟨job, applied⟩ -
  dsimp only
  split
  · exact consumeQuotaAfterJobLock_faultless.bind fun _ _ => avoids_ok
  · exact avoids_ok

theorem failPermanent_faultless : Faultless (failPermanent owner fence code clock rows) := by
  refine Avoids.bind (assertTransition_faultless (by decide)) fun _ _ => ?_
  refine Avoids.bind (updateJob_faultless fun hguard => hjob.failed hguard.2.2) ?_
  rintro ⟨job, applied⟩ -
  dsimp only
  split
  · exact releaseQuotaAfterJobLock_faultless.bind fun _ _ => avoids_ok
  · exact avoids_ok

theorem completeCancelled_faultless : Faultless (completeCancelled owner fence clock rows) := by
  refine Avoids.bind (assertTransition_faultless (by decide)) fun _ _ => ?_
  refine Avoids.bind (updateJob_faultless fun hguard => hjob.cancelled hguard.2) ?_
  rintro ⟨job, applied⟩ -
  dsimp only
  split
  · exact releaseQuotaAfterJobLock_faultless.bind fun _ _ => avoids_ok
  · exact avoids_ok

theorem failRetry_faultless {seen : Option MediaDownloadJob} :
    Faultless (failRetry seen owner fence now backoff code clock rows) := by
  unfold failRetry
  split
  · exact avoids_ok
  split
  · exact avoids_ok
  split
  · exact completeCancelled_faultless hjob
  split
  · exact failPermanent_faultless hjob
  refine Avoids.bind (assertTransition_faultless (by decide)) fun _ _ => ?_
  exact onJob_faultless (updateJob_faultless fun hguard => hjob.retried hguard.1.1 hguard.2.2)

theorem releaseToQueued_faultless :
    Faultless (releaseToQueued owner fence now clock rows.job) := by
  refine Avoids.bind (assertTransition_faultless (by decide)) fun _ _ => ?_
  exact updateJob_faultless fun hguard => hjob.released hguard.1.1 hguard.2.2

/-- A cancel passes the constraints while the job is in the state that its session has read. -/
theorem requestCancel_faultless {seen : MediaDownloadJob} (hseen : seen.Checked)
    (hsame : seen.publicState = rows.job.publicState) :
    Faultless (requestCancel seen now clock rows) := by
  simp only [requestCancel]
  split
  · exact avoids_ok
  split
  · exact avoids_ok
  · exact avoids_ok
  · exact avoids_ok
  · rename_i hqueued
    refine Avoids.bind (assertTransition_faultless (by decide)) fun _ _ => ?_
    rw [overwritten_cancelledQueued hseen hqueued]
    refine Avoids.bind (flushJob_faultless ?_) fun _ _ => ?_
    · exact hjob.cancelStored (hsame ▸ hqueued)
    · exact releaseQuotaAfterJobLock_faultless.bind fun _ _ => avoids_ok
  · rename_i hdownloading
    split
    · exact avoids_ok
    · rename_i hopen
      rw [overwritten_cancelRequested (Option.not_isSome_iff_eq_none.mp hopen)]
      refine (flushJob_faultless ?_).bind fun _ _ => avoids_ok
      exact hjob.cancelStamped (hsame ▸ hdownloading)
  · exact avoids_error.mpr (by decide)

theorem reclaimExpiredLeases_faultless : Faultless (reclaimExpiredLeases now clock rows) := by
  simp only [reclaimExpiredLeases]
  split
  · rename_i hreclaimable
    split
    · rename_i hrequested
      refine Avoids.bind (assertTransition_faultless (by decide)) fun _ _ => ?_
      refine Avoids.bind (flushJob_faultless (hjob.reclaimedCancel hrequested)) fun _ _ => ?_
      exact releaseQuotaAfterJobLock_faultless.bind fun _ _ => avoids_ok
    rename_i hopen
    have hopen : rows.job.cancelRequestedAt = none := Option.not_isSome_iff_eq_none.mp hopen
    split
    · refine Avoids.bind (assertTransition_faultless (by decide)) fun _ _ => ?_
      refine Avoids.bind (flushJob_faultless (hjob.exhausted hopen)) fun _ _ => ?_
      exact releaseQuotaAfterJobLock_faultless.bind fun _ _ => avoids_ok
    · refine Avoids.bind (assertTransition_faultless (by decide)) fun _ _ => ?_
      refine Avoids.bind (flushJob_faultless (hjob.reclaimed hreclaimable.1 hopen)) fun _ _ => ?_
      exact avoids_ok
  · exact avoids_ok

/-- Expiry is allowed from every state but a plainly expired one. -/
theorem applyExpiredJobFields_faultless (hexpirable : Expirable rows.job) :
    Faultless (applyExpiredJobFields now rows.job) := by
  refine Avoids.bind ?_ fun _ _ => (flushJob_faultless hjob.expired).bind fun _ _ => avoids_ok
  unfold assertExpirable
  split
  · exact assertTransition_faultless (by decide)
  · rename_i hplain
    exact assertTransition_faultless (hexpirable.resolve_left hplain)

theorem expireJob_faultless (hexpirable : Expirable rows.job) :
    Faultless (expireJob now clock rows) := by
  refine Avoids.bind (applyExpiredJobFields_faultless hjob hexpirable) ?_
  rintro ⟨job, artifactIds⟩ -
  dsimp only
  split
  · exact avoids_ok
  split
  · exact releaseLocked_faultless.bind fun _ _ => flushEntry_faultless.bind fun _ _ => avoids_ok
  · exact avoids_ok

theorem quarantineReadyTerminalQuotaLocked_faultless (hready : rows.job.publicState = .ready) :
    Faultless (quarantineReadyTerminalQuotaLocked now quota rows) := by
  unfold quarantineReadyTerminalQuotaLocked
  split
  · exact avoids_ok
  · refine Avoids.bind (applyExpiredJobFields_faultless hjob (.inr ?_)) fun _ _ => avoids_ok
    rw [hready]
    decide

theorem expireDueJob_faultless : Faultless (expireDueJob fresh now clock rows) := by
  simp only [expireDueJob]
  split
  · exact avoids_ok
  rename_i hdue
  have hexpirable := (not_not.mp hdue).expirable
  split
  · exact expireJob_faultless hjob hexpirable
  split
  · split
    · exact avoids_ok
    · exact expireJob_faultless hjob hexpirable
  split
  · rename_i hterminal
    refine Avoids.bind (quarantineReadyTerminalQuotaLocked_faultless hjob hterminal.1) ?_
    exact fun _ _ => avoids_ok
  split
  · refine reconcileLocked_faultless.bind fun _ _ => ?_
    split
    · exact avoids_ok
    · refine expireJob_faultless ?_ ?_
      · exact hjob
      · exact hexpirable
  · exact expireJob_faultless hjob hexpirable

theorem reconcileInvalid_faultless : Faultless (reconcileInvalid now rows) := by
  simp only [reconcileInvalid]
  split
  · exact avoids_ok
  split
  · exact avoids_ok
  rename_i hterminal
  split
  · exact avoids_ok
  · have hready : rows.job.publicState = .ready := by_contra fun h => hterminal (.inl h)
    exact (quarantineReadyTerminalQuotaLocked_faultless hjob hready).bind fun _ _ => avoids_ok

theorem reconcileReserved_faultless : Faultless (reconcileReserved compat fresh now rows) := by
  simp only [reconcileReserved]
  split
  · exact avoids_ok
  split
  · exact avoids_ok
  split
  · split
    · exact avoids_error.mpr (by decide)
    split
    · exact consumeLocked_faultless.bind fun _ _ => flushEntry_faultless.bind fun _ _ => avoids_ok
    · exact reconcileLocked_faultless.bind fun _ _ => avoids_ok
  · exact settleReserved_faultless hjob
  · exact settleReserved_faultless hjob
  · split
    · exact settleReserved_faultless hjob.expired
    · exact avoids_ok
  · split
    · exact settleReserved_faultless hjob.expired
    · exact avoids_ok
  · exact avoids_ok

end Calls

/-! ## All calls -/

/-- The calls that write job states, with `set_progress_stage` passing a stage of an executor. -/
def Call.OnStates : Call → Prop
  | worker _ _ (.setProgressStage target _) => target.working = true
  | begin .. | checkpoint .. | finalize .. | upgrade .. => False
  | _ => True

/-- A cancel finds the job in the state in which its session has read it. -/
def Call.Current (job : MediaDownloadJob) : Call → Prop
  | requestCancel seen _ _ => seen.1.publicState = job.publicState
  | _ => True

/-- No stage that the call passes is out of order. -/
def Call.InOrder (job : MediaDownloadJob) : Call → Prop
  | worker owner fence (.setProgressStage target _) => ¬ OutOfOrder owner fence target job
  | _ => True

theorem setProgressStage_faultless (hjob : rows.job.Checked) (hworking : target.working = true)
    (horder : ¬ OutOfOrder owner fence target rows.job) :
    Faultless (setProgressStage owner fence target now rows.job) :=
  fun _ h => absurd (setProgressStage_error hjob hworking h).2 horder

theorem Call.run_faultless {call : Call} (hjob : rows.job.Checked) (hstates : call.OnStates)
    (hcurrent : call.Current rows.job) (horder : call.InOrder rows.job) :
    Faultless (call.run compat rows) := by
  cases call with
  | claimNext => exact (onJob_faultless (claimNext_faultless hjob)).bind fun _ _ => avoids_ok
  | worker owner fence call =>
    refine Avoids.bind ?_ fun _ _ => avoids_ok
    cases call with
    | renewLease => exact onJob_faultless (renewLease_faultless hjob)
    | leaseStatus => exact (leaseStatus_faultless hjob).bind fun _ _ => avoids_ok
    | setProgressStage =>
      exact onJob_faultless (setProgressStage_faultless hjob hstates horder)
    | setProgressPercent => exact onJob_faultless (setProgressPercent_faultless hjob)
    | completeReady => exact completeReady_faultless hjob
    | failPermanent => exact failPermanent_faultless hjob
    | failRetry => exact failRetry_faultless hjob
    | releaseToQueued => exact onJob_faultless (releaseToQueued_faultless hjob)
    | completeCancelled => exact completeCancelled_faultless hjob
  | requestCancel seen => exact requestCancel_faultless hjob seen.2 hcurrent
  | reclaimExpiredLeases => exact reclaimExpiredLeases_faultless hjob
  | expireDueJobs =>
    refine Avoids.bind (Avoids.savepoint ?_) fun _ _ => avoids_ok
    exact (expireDueJob_faultless hjob).bind fun _ _ => avoids_ok
  | reconcileInvalid => exact Avoids.savepoint (reconcileInvalid_faultless hjob)
  | reconcileReserved => exact reconcileReserved_faultless hjob
  | deleteTerminalEntry => exact avoids_ok
  | begin | checkpoint | finalize | upgrade => exact hstates.elim

/-- The only error of the job row is a stage out of order. -/
theorem Call.run_error {call : Call} {e : Raised} (hjob : rows.job.Checked)
    (hstates : call.OnStates) (hcurrent : call.Current rows.job)
    (h : call.run compat rows = .error e) (he : e.onJob = true) :
    e = internalError "ILLEGAL_PROGRESS_TRANSITION" ∧ ¬ call.InOrder rows.job := by
  by_cases horder : call.InOrder rows.job
  · exact absurd he (run_faultless hjob hstates hcurrent horder e h)
  refine ⟨?_, horder⟩
  cases call with
  | worker owner fence call =>
    cases call with
    | setProgressStage target now =>
      rcases bind_eq_error.mp h with h | ⟨_, _, h⟩
      · rcases bind_eq_error.mp h with h | ⟨_, _, h⟩
        · exact (setProgressStage_error hjob hstates h).1
        · cases h
      · cases h
    | _ => exact absurd trivial horder
  | _ => exact absurd trivial horder

end FetchNow
