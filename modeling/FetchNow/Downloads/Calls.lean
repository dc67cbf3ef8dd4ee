import FetchNow.Downloads.Steps

/-! Every committed call is a sequence of steps: one for most, two when expiry reconciles first. -/
namespace FetchNow

open Transactions

open Relation (ReflTransGen)

variable {rows rows' : DownloadRows} {job job' : MediaDownloadJob} {quota quota' : QuotaRows}
  {now lease backoff : Timestamp} {clock : Clock} {owner workerId : String} {fence : Nat}
  {fresh : Nat → Uuid} {applied compat : Bool} {code : DownloadErrorCode} {artifact : Artifact}
  {artifactIds : List Uuid}

theorem updateJob_cases {guard : Prop} [Decidable guard]
    {write : MediaDownloadJob → MediaDownloadJob}
    (h : updateJob guard write job = .ok (job', applied)) :
    (guard ∧ applied = true ∧ job' = write job) ∨ (applied = false ∧ job' = job) := by
  unfold updateJob at h
  split at h
  · rename_i hguard
    simp only [bind_eq_ok, flushJob_eq_ok] at h
    obtain ⟨_, ⟨_, rfl⟩, h⟩ := h
    cases h
    exact .inl ⟨hguard, rfl, rfl⟩
  · cases h
    exact .inr ⟨rfl, rfl⟩

theorem onJob_eq_ok {write : MediaDownloadJob → Except Raised (MediaDownloadJob × Bool)} :
    rows.onJob write = .ok (rows', applied) ↔
      ∃ job, write rows.job = .ok (job, applied) ∧ rows' = { rows with job } := by
  simp only [DownloadRows.onJob, bind_eq_ok]
  constructor
  · rintro ⟨⟨job, _⟩, hwrite, h⟩
    cases h
    exact ⟨job, hwrite, rfl⟩
  · rintro ⟨job, hwrite, rfl⟩
    exact ⟨(job, applied), hwrite, rfl⟩

/-! ## The lease holder -/

theorem claimNext_applied (h : claimNext workerId lease now clock job = .ok (job', true)) :
    Claimable clock job ∧ job' = claimedJob workerId lease now job := by
  simp only [claimNext, bind_eq_ok, require_eq_ok] at h
  obtain ⟨_, _, h⟩ := h
  split at h
  · rename_i hclaimable
    simp only [bind_eq_ok, flushJob_eq_ok] at h
    obtain ⟨_, _, _, ⟨_, rfl⟩, h⟩ := h
    cases h
    exact ⟨hclaimable, rfl⟩
  · cases h

theorem claimNext_step (h : claimNext workerId lease now clock rows.job = .ok (job', applied)) :
    Step compat (.claimer workerId) rows { rows with job := job' } := by
  simp only [claimNext, bind_eq_ok, require_eq_ok] at h
  obtain ⟨_, _, h⟩ := h
  split at h
  · rename_i hclaimable
    simp only [bind_eq_ok, flushJob_eq_ok] at h
    obtain ⟨_, _, _, ⟨_, rfl⟩, h⟩ := h
    cases h
    exact .claim hclaimable
  · cases h
    exact .idle

theorem renewLease_step (h : renewLease owner fence lease clock rows.job = .ok (job', applied)) :
    Step compat (.holder owner fence) rows { rows with job := job' } := by
  rcases updateJob_cases h with ⟨⟨hfenced, hlive⟩, _, rfl⟩ | ⟨_, rfl⟩
  · exact .renew hfenced hlive
  · exact .idle

theorem leaseStatus_step {status : LeaseStatus}
    (h : leaseStatus owner fence lease clock rows.job = .ok (job', status)) :
    Step compat (.holder owner fence) rows { rows with job := job' } := by
  unfold leaseStatus at h
  split at h
  · split at h
    · cases h
      exact .idle
    · simp only [bind_eq_ok] at h
      obtain ⟨⟨_, _⟩, hrenew, h⟩ := h
      cases h
      exact renewLease_step hrenew
  · cases h
    exact .idle

theorem setProgressStage_step {target : DownloadProgressStage}
    (h : setProgressStage owner fence target now rows.job = .ok (job', applied)) :
    Step compat (.holder owner fence) rows { rows with job := job' } := by
  unfold setProgressStage at h
  split at h
  · cases h
    exact .idle
  rename_i hterminal
  split at h
  · rename_i hguard
    simp only [bind_eq_ok, flushJob_eq_ok, assertProgressTransition_eq_ok] at h
    obtain ⟨_, hallowed, _, ⟨hchecked, rfl⟩, h⟩ := h
    cases h
    exact .stage hguard.1 hguard.2 (by simpa using hterminal) hallowed hchecked
  · cases h
    exact .idle

theorem setProgressPercent_cases {percent : Int}
    (h : setProgressPercent owner fence percent now clock job = .ok (job', applied)) :
    job' = job ∨ (Fenced owner fence job ∧ Uncancelled job ∧ LeaseLive clock job ∧
      (percentJob percent now job).Checked ∧ job' = percentJob percent now job) := by
  unfold setProgressPercent at h
  split at h
  · cases h
    exact .inl rfl
  split at h
  · rename_i hguard
    obtain ⟨hfenced, hopen, hlive, _⟩ := hguard
    split at h
    · cases h
      exact .inl rfl
    split at h
    · cases h
      exact .inl rfl
    simp only [bind_eq_ok, flushJob_eq_ok] at h
    obtain ⟨_, ⟨hchecked, rfl⟩, h⟩ := h
    cases h
    exact .inr ⟨hfenced, hopen, hlive, hchecked, rfl⟩
  · cases h
    exact .inl rfl

theorem setProgressPercent_step {percent : Int}
    (h : setProgressPercent owner fence percent now clock rows.job = .ok (job', applied)) :
    Step compat (.holder owner fence) rows { rows with job := job' } := by
  rcases setProgressPercent_cases h with rfl | ⟨hfenced, hopen, hlive, hchecked, rfl⟩
  · exact .idle
  · exact .percent hfenced hopen hlive hchecked

/-- `complete_ready` publishes exactly when its guard holds. -/
theorem completeReady_cases
    (h : completeReady owner fence artifact clock compat rows = .ok (rows', applied)) :
    (applied = true ∧ Fenced owner fence rows.job ∧ LeaseLive clock rows.job ∧
        Uncancelled rows.job ∧ 0 < artifact.bytes ∧ ∃ quota, QuotaCharge compat rows.quota quota ∧
          rows' = { rows with job := readyJob artifact clock rows.job, quota }) ∨
      (applied = false ∧ rows' = rows) := by
  simp only [completeReady, bind_eq_ok, require_eq_ok] at h
  obtain ⟨_, hbytes, _, _, ⟨job, applied'⟩, hupdate, h⟩ := h
  rcases updateJob_cases hupdate with ⟨⟨hfenced, hlive, hopen⟩, rfl, rfl⟩ | ⟨rfl, rfl⟩
  · left
    cases compat with
    | false =>
      simp only [Bool.false_eq_true, and_false, if_false] at h
      cases h
      exact ⟨rfl, hfenced, hlive, hopen, hbytes, _, .off, rfl⟩
    | true =>
      simp only [and_self, if_true, bind_eq_ok] at h
      obtain ⟨quota, hcharge, h⟩ := h
      cases h
      exact ⟨rfl, hfenced, hlive, hopen, hbytes, _, consumeQuotaAfterJobLock_spec hcharge, rfl⟩
  · right
    simp only [Bool.false_eq_true, false_and, if_false] at h
    cases h
    exact ⟨rfl, rfl⟩

theorem completeReady_step
    (h : completeReady owner fence artifact clock compat rows = .ok (rows', applied)) :
    Step compat (.holder owner fence) rows rows' := by
  rcases completeReady_cases h with
    ⟨_, hfenced, hlive, hopen, hbytes, quota, hcharge, rfl⟩ | ⟨_, rfl⟩
  · exact .ready hfenced hlive hopen hbytes hcharge
  · exact .idle

theorem failPermanent_step
    (h : failPermanent owner fence code clock rows = .ok (rows', applied)) :
    Step compat (.holder owner fence) rows rows' := by
  simp only [failPermanent, bind_eq_ok] at h
  obtain ⟨_, _, ⟨job, applied'⟩, hupdate, h⟩ := h
  rcases updateJob_cases hupdate with ⟨⟨hfenced, hlive, hopen⟩, rfl, rfl⟩ | ⟨rfl, rfl⟩
  · simp only [if_true, bind_eq_ok] at h
    obtain ⟨quota, hrelease, h⟩ := h
    cases h
    exact .fail hfenced hlive hopen (releaseQuotaAfterJobLock_spec hrelease)
  · simp only [Bool.false_eq_true, if_false] at h
    cases h
    exact .idle

theorem completeCancelled_step
    (h : completeCancelled owner fence clock rows = .ok (rows', applied)) :
    Step compat (.holder owner fence) rows rows' := by
  simp only [completeCancelled, bind_eq_ok] at h
  obtain ⟨_, _, ⟨job, applied'⟩, hupdate, h⟩ := h
  rcases updateJob_cases hupdate with ⟨⟨hfenced, hrequested⟩, rfl, rfl⟩ | ⟨rfl, rfl⟩
  · simp only [if_true, bind_eq_ok] at h
    obtain ⟨quota, hrelease, h⟩ := h
    cases h
    exact .cancel hfenced hrequested (releaseQuotaAfterJobLock_spec hrelease)
  · simp only [Bool.false_eq_true, if_false] at h
    cases h
    exact .idle

theorem failRetry_step {seen : Option MediaDownloadJob}
    (h : failRetry seen owner fence now backoff code clock rows = .ok (rows', applied)) :
    Step compat (.holder owner fence) rows rows' := by
  unfold failRetry at h
  split at h
  · cases h
    exact .idle
  split at h
  · cases h
    exact .idle
  split at h
  · exact completeCancelled_step h
  split at h
  · exact failPermanent_step h
  simp only [bind_eq_ok, onJob_eq_ok] at h
  obtain ⟨_, _, job, hupdate, rfl⟩ := h
  rcases updateJob_cases hupdate with ⟨⟨hfenced, hlive, hopen⟩, _, rfl⟩ | ⟨_, rfl⟩
  · exact .retry hfenced hlive hopen
  · exact .idle

theorem releaseToQueued_step
    (h : releaseToQueued owner fence now clock rows.job = .ok (job', applied)) :
    Step compat (.holder owner fence) rows { rows with job := job' } := by
  simp only [releaseToQueued, bind_eq_ok] at h
  obtain ⟨_, _, hupdate⟩ := h
  rcases updateJob_cases hupdate with ⟨⟨hfenced, hlive, hopen⟩, _, rfl⟩ | ⟨_, rfl⟩
  · exact .release hfenced hlive hopen
  · exact .idle

theorem WorkerCall.run_step {call : WorkerCall}
    (h : call.run compat owner fence rows = .ok (rows', applied)) :
    Step compat (.holder owner fence) rows rows' := by
  cases call with
  | renewLease =>
    obtain ⟨job, hwrite, rfl⟩ := onJob_eq_ok.mp h
    exact renewLease_step hwrite
  | leaseStatus =>
    simp only [run, bind_eq_ok] at h
    obtain ⟨⟨_, _⟩, hstatus, h⟩ := h
    cases h
    exact leaseStatus_step hstatus
  | setProgressStage =>
    obtain ⟨job, hwrite, rfl⟩ := onJob_eq_ok.mp h
    exact setProgressStage_step hwrite
  | setProgressPercent =>
    obtain ⟨job, hwrite, rfl⟩ := onJob_eq_ok.mp h
    exact setProgressPercent_step hwrite
  | completeReady => exact completeReady_step h
  | failPermanent => exact failPermanent_step h
  | failRetry => exact failRetry_step h
  | releaseToQueued =>
    obtain ⟨job, hwrite, rfl⟩ := onJob_eq_ok.mp h
    exact releaseToQueued_step hwrite
  | completeCancelled => exact completeCancelled_step h

/-! ## What each call of the holder writes -/

/-- The job row after a call of the holder; only `set_progress_stage` moves the stage of a job that
goes on, and only `complete_ready` stores an artifact. -/
inductive HolderWrite (owner : String) (fence : Nat) (job : MediaDownloadJob) :
    WorkerCall → MediaDownloadJob → Prop
  | kept {call : WorkerCall} : HolderWrite owner fence job call job
  | renewed {call : WorkerCall} {lease : Timestamp} {clock : Clock} :
      HolderWrite owner fence job call (renewedJob lease clock job)
  | percent {call : WorkerCall} {percent : Int} {now : Timestamp} :
      HolderWrite owner fence job call (percentJob percent now job)
  | staged {target : DownloadProgressStage} {now : Timestamp} :
      HolderWrite owner fence job (.setProgressStage target now) (stagedJob target now job)
  | ready {artifact : Artifact} {clock : Clock} : Fenced owner fence job →
      HolderWrite owner fence job (.completeReady artifact clock) (readyJob artifact clock job)
  | failed {call : WorkerCall} {code : DownloadErrorCode} {clock : Clock} :
      HolderWrite owner fence job call (failedJob code clock job)
  | cancelled {call : WorkerCall} {clock : Clock} :
      HolderWrite owner fence job call (cancelledJob clock job)
  | retried {call : WorkerCall} {now backoff : Timestamp} {clock : Clock} :
      HolderWrite owner fence job call (retriedJob now backoff clock job)
  | released {call : WorkerCall} {now : Timestamp} {clock : Clock} :
      HolderWrite owner fence job call (releasedJob now clock job)

theorem updateJob_write {call : WorkerCall} {guard : Prop} [Decidable guard]
    {write : MediaDownloadJob → MediaDownloadJob}
    (h : updateJob guard write job = .ok (job', applied))
    (hwrite : guard → HolderWrite owner fence job call (write job)) :
    HolderWrite owner fence job call job' := by
  rcases updateJob_cases h with ⟨hguard, _, rfl⟩ | ⟨_, rfl⟩
  · exact hwrite hguard
  · exact .kept

/-- The job row of an update that is followed by the release of the entry. -/
theorem settleUpdate_job {guard : Prop} [Decidable guard]
    {write : MediaDownloadJob → MediaDownloadJob} {settled : Except Raised (Option QuotaRows)}
    (h : (do
      let (job, applied) ← updateJob guard write rows.job
      if applied = true then do
        let quota ← settled
        .ok ({ rows with job, quota }, applied)
      else .ok ({ rows with job }, applied)) = .ok (rows', applied)) :
    ∃ updated, updateJob guard write rows.job = .ok (rows'.job, updated) := by
  obtain ⟨⟨job, updated⟩, hupdate, h⟩ := bind_eq_ok.mp h
  refine ⟨updated, ?_⟩
  dsimp only at h
  split at h
  · obtain ⟨_, _, h⟩ := bind_eq_ok.mp h
    cases h
    exact hupdate
  · cases h
    exact hupdate

section

variable {call : WorkerCall}

theorem completeCancelled_write
    (h : completeCancelled owner fence clock rows = .ok (rows', applied)) :
    HolderWrite owner fence rows.job call rows'.job := by
  obtain ⟨_, _, h⟩ := bind_eq_ok.mp h
  obtain ⟨_, hupdate⟩ := settleUpdate_job h
  exact updateJob_write hupdate fun _ => .cancelled

theorem failPermanent_write
    (h : failPermanent owner fence code clock rows = .ok (rows', applied)) :
    HolderWrite owner fence rows.job call rows'.job := by
  obtain ⟨_, _, h⟩ := bind_eq_ok.mp h
  obtain ⟨_, hupdate⟩ := settleUpdate_job h
  exact updateJob_write hupdate fun _ => .failed

theorem failRetry_write {seen : Option MediaDownloadJob}
    (h : failRetry seen owner fence now backoff code clock rows = .ok (rows', applied)) :
    HolderWrite owner fence rows.job call rows'.job := by
  unfold failRetry at h
  split at h
  · cases h
    exact .kept
  split at h
  · cases h
    exact .kept
  split at h
  · exact completeCancelled_write h
  split at h
  · exact failPermanent_write h
  obtain ⟨_, _, h⟩ := bind_eq_ok.mp h
  obtain ⟨job, hupdate, rfl⟩ := onJob_eq_ok.mp h
  exact updateJob_write hupdate fun _ => .retried

theorem renewLease_write (h : renewLease owner fence lease clock job = .ok (job', applied)) :
    HolderWrite owner fence job call job' :=
  updateJob_write h fun _ => .renewed

theorem leaseStatus_write {status : LeaseStatus}
    (h : leaseStatus owner fence lease clock job = .ok (job', status)) :
    HolderWrite owner fence job call job' := by
  unfold leaseStatus at h
  split at h
  · split at h
    · cases h
      exact .kept
    · obtain ⟨⟨_, _⟩, hrenew, h⟩ := bind_eq_ok.mp h
      cases h
      exact renewLease_write hrenew
  · cases h
    exact .kept

theorem setProgressStage_write {target : DownloadProgressStage}
    (h : setProgressStage owner fence target now job = .ok (job', applied)) :
    HolderWrite owner fence job (.setProgressStage target now) job' := by
  unfold setProgressStage at h
  split at h
  · cases h
    exact .kept
  split at h
  · simp only [bind_eq_ok, flushJob_eq_ok] at h
    obtain ⟨_, _, _, ⟨_, rfl⟩, h⟩ := h
    cases h
    exact .staged
  · cases h
    exact .kept

theorem WorkerCall.run_write (h : call.run compat owner fence rows = .ok (rows', applied)) :
    HolderWrite owner fence rows.job call rows'.job := by
  cases call with
  | renewLease =>
    obtain ⟨job, hwrite, rfl⟩ := onJob_eq_ok.mp h
    exact renewLease_write hwrite
  | leaseStatus =>
    obtain ⟨⟨job, _⟩, hstatus, h⟩ := bind_eq_ok.mp h
    cases h
    exact leaseStatus_write hstatus
  | setProgressStage =>
    obtain ⟨job, hwrite, rfl⟩ := onJob_eq_ok.mp h
    exact setProgressStage_write hwrite
  | setProgressPercent =>
    obtain ⟨job, hwrite, rfl⟩ := onJob_eq_ok.mp h
    rcases setProgressPercent_cases hwrite with rfl | ⟨_, _, _, _, rfl⟩
    · exact .kept
    · exact .percent
  | completeReady =>
    rcases completeReady_cases h with ⟨_, hfenced, _, _, _, _, _, rfl⟩ | ⟨_, rfl⟩
    · exact .ready hfenced
    · exact .kept
  | failPermanent => exact failPermanent_write h
  | failRetry => exact failRetry_write h
  | releaseToQueued =>
    obtain ⟨job, hwrite, rfl⟩ := onJob_eq_ok.mp h
    obtain ⟨_, _, hupdate⟩ := bind_eq_ok.mp hwrite
    exact updateJob_write hupdate fun _ => .released
  | completeCancelled => exact completeCancelled_write h

end

/-! ## The system -/

/-- A cancel of a queued object writes five columns. -/
theorem overwritten_cancelledQueued {seen : MediaDownloadJob} (hseen : seen.Checked)
    (hqueued : seen.publicState = .queued) :
    job.overwritten seen (cancelledQueued now seen) =
      cancelStored now (written seen.updatedAt now job.updatedAt)
        (written seen.completedAt (some (seen.completedAt.getD now)) job.completedAt) job := by
  obtain ⟨⟨hid, hbytes, hcontainer, htype⟩, herror⟩ := hseen.blank (.inl hqueued)
  obtain ⟨howner, hlease, hpercent⟩ := hseen.idle (by simp [hqueued])
  have hopen := hseen.uncancelled hqueued
  have hstage : DownloadProgressStage.cancelled ≠ seen.progressStage := by
    intro hstage
    have hcancel := hseen.cancelRequested
    simp [MediaDownloadJob.CkCancelRequested, hopen, ← hstage] at hcancel
  simp only [MediaDownloadJob.overwritten, cancelledQueued, applyStoredCancel, cancelStored,
    written_unchanged, hid, hbytes, hcontainer, htype, herror, howner, hlease, hpercent, hopen,
    hqueued, written_changed hstage, ne_eq, reduceCtorEq, not_false_eq_true, written_changed]

/-- A cancel of a downloading object writes two. -/
theorem overwritten_cancelRequested {seen : MediaDownloadJob}
    (hopen : seen.cancelRequestedAt = none) :
    job.overwritten seen (cancelRequestedJob now seen) =
      cancelStamped now (written seen.updatedAt now job.updatedAt) job := by
  simp only [MediaDownloadJob.overwritten, cancelRequestedJob, cancelStamped, written_unchanged,
    hopen, ne_eq, reduceCtorEq, not_false_eq_true, written_changed]

theorem requestCancel_step {seen : MediaDownloadJob} (hseen : seen.Checked)
    (h : requestCancel seen now clock rows = .ok rows') : Step compat .system rows rows' := by
  simp only [requestCancel] at h
  split at h
  · cases h
    exact .idle
  split at h
  · cases h
    exact .idle
  · cases h
    exact .idle
  · cases h
    exact .idle
  · rename_i hqueued
    simp only [bind_eq_ok, flushJob_eq_ok, overwritten_cancelledQueued hseen hqueued] at h
    obtain ⟨_, _, _, ⟨hchecked, rfl⟩, quota, hrelease, h⟩ := h
    cases h
    exact .cancelQueued hchecked (releaseQuotaAfterJobLock_spec hrelease)
  · split at h
    · cases h
      exact .idle
    · rename_i hopen
      have hopen := Option.not_isSome_iff_eq_none.mp hopen
      simp only [bind_eq_ok, flushJob_eq_ok, overwritten_cancelRequested hopen] at h
      obtain ⟨_, ⟨hchecked, rfl⟩, h⟩ := h
      cases h
      exact .requestCancel hchecked
  · cases h

theorem reclaimExpiredLeases_step (h : reclaimExpiredLeases now clock rows = .ok rows') :
    Step compat .system rows rows' := by
  simp only [reclaimExpiredLeases] at h
  split at h
  · rename_i hreclaimable
    split at h
    · rename_i hrequested
      simp only [bind_eq_ok, flushJob_eq_ok] at h
      obtain ⟨_, _, _, ⟨_, rfl⟩, quota, hrelease, h⟩ := h
      cases h
      exact .reclaimCancel hreclaimable hrequested (releaseQuotaAfterJobLock_spec hrelease)
    rename_i hopen
    have hopen : Uncancelled rows.job := Option.not_isSome_iff_eq_none.mp hopen
    split at h
    · rename_i hexhausted
      simp only [bind_eq_ok, flushJob_eq_ok] at h
      obtain ⟨_, _, _, ⟨_, rfl⟩, quota, hrelease, h⟩ := h
      cases h
      exact .reclaimExhausted hreclaimable hopen hexhausted
        (releaseQuotaAfterJobLock_spec hrelease)
    · rename_i hattempts
      simp only [bind_eq_ok, flushJob_eq_ok] at h
      obtain ⟨_, _, _, ⟨_, rfl⟩, h⟩ := h
      cases h
      exact .reclaim hreclaimable hopen (not_le.mp hattempts)
  · cases h
    exact .idle

theorem applyExpiredJobFields_eq_ok
    (h : applyExpiredJobFields now job = .ok (job', artifactIds)) :
    Expirable job ∧ job' = expiredJob now job ∧ artifactIds = job.artifactId.toList := by
  simp only [applyExpiredJobFields, bind_eq_ok, flushJob_eq_ok] at h
  obtain ⟨_, hassert, _, ⟨_, rfl⟩, h⟩ := h
  cases h
  refine ⟨?_, rfl, rfl⟩
  unfold assertExpirable at hassert
  split at hassert
  · rename_i hcancelled
    exact .inl hcancelled
  · rw [assertTransition, require_eq_ok] at hassert
    exact .inr hassert

theorem expireJob_step (h : expireJob now clock rows = .ok (rows', artifactIds)) :
    Step compat .system rows rows' := by
  simp only [expireJob, bind_eq_ok] at h
  obtain ⟨⟨job, ids⟩, hexpired, h⟩ := h
  obtain ⟨hexpirable, rfl, rfl⟩ := applyExpiredJobFields_eq_ok hexpired
  split at h
  · rename_i hquota
    cases h
    exact .expire hexpirable (by rw [hquota]; exact .kept (by simp))
  rename_i quota hquota
  split at h
  · rename_i hreserved
    simp only [bind_eq_ok, flushEntry_eq_ok] at h
    obtain ⟨entry, hrelease, _, ⟨_, _, rfl⟩, h⟩ := h
    cases h
    rcases releaseLocked_cases hrelease with ⟨_, rfl⟩ | ⟨hstate, _⟩
    · exact .expire hexpirable (by rw [hquota]; exact .expired hreserved)
    · simp [hreserved] at hstate
  · rename_i hsettled
    cases h
    exact .expire hexpirable (.kept (by rw [hquota]; rintro q ⟨⟩; exact hsettled))

theorem quarantine_step {rows'' : DownloadRows}
    (hquota : rows.quota = some quota) (hstate : quota.entry.state ≠ .reserved)
    (h : quarantineReadyTerminalQuotaLocked now quota rows = .ok (some (rows'', artifactIds))) :
    Step compat .system rows rows'' := by
  unfold quarantineReadyTerminalQuotaLocked at h
  split at h
  · cases h
  · simp only [bind_eq_ok] at h
    obtain ⟨⟨job, ids⟩, hexpired, h⟩ := h
    obtain ⟨hexpirable, rfl, rfl⟩ := applyExpiredJobFields_eq_ok hexpired
    cases h
    exact .expire hexpirable (.kept (by rw [hquota]; rintro q ⟨⟩; exact hstate))

/-- Several steps on behalf of one actor. -/
abbrev Steps (compat : Bool) (actor : Actor) : DownloadRows → DownloadRows → Prop :=
  ReflTransGen (Step compat actor)

theorem reconcileLocked_step {result : DeliveryAccountingResult} (hquota : rows.quota = some quota)
    (hready : rows.job.publicState = .ready)
    (h : reconcileLocked fresh now rows.job quota = .ok (quota', result)) :
    Step compat .system rows { rows with quota := some quota' } :=
  .ledger (.moved hquota hready (reconcileLocked_entryMove h))

theorem expireDueJob_steps (h : expireDueJob fresh now clock rows = .ok (rows', artifactIds)) :
    Steps compat .system rows rows' := by
  simp only [expireDueJob] at h
  split at h
  · cases h
    exact .refl
  split at h
  · exact .single (expireJob_step h)
  rename_i quota hquota
  split at h
  · split at h
    · cases h
      exact .refl
    · exact .single (expireJob_step h)
  split at h
  · rename_i hterminal
    simp only [bind_eq_ok] at h
    obtain ⟨quarantined, hquarantine, h⟩ := h
    cases quarantined with
    | none =>
      cases h
      exact .refl
    | some result =>
      cases h
      have hsettled : quota.entry.state ≠ .reserved := by
        rcases hterminal.2 with hstate | hstate <;> simp [hstate]
      exact .single (quarantine_step hquota hsettled hquarantine)
  split at h
  · rename_i hreserved
    simp only [bind_eq_ok] at h
    obtain ⟨⟨quota', result⟩, hreconcile, h⟩ := h
    have hledger : Step compat .system rows { rows with quota := some quota' } :=
      reconcileLocked_step hquota hreserved.2 hreconcile
    split at h
    · cases h
      exact .single hledger
    · exact .tail (.single hledger) (expireJob_step h)
  · exact .single (expireJob_step h)

theorem reconcileInvalid_step (h : reconcileInvalid now rows = .ok rows') :
    Step compat .system rows rows' := by
  simp only [reconcileInvalid] at h
  split at h
  · cases h
    exact .idle
  rename_i quota hquota
  split at h
  · cases h
    exact .idle
  rename_i hterminal
  split at h
  · cases h
    exact .idle
  simp only [bind_eq_ok] at h
  obtain ⟨quarantined, hquarantine, h⟩ := h
  cases quarantined with
  | none =>
    cases h
    exact .idle
  | some result =>
    cases h
    refine quarantine_step hquota (fun hreserved => hterminal ?_) hquarantine
    simp [hreserved]

/-- The inlined expiry of `QuotaReconciler.run` writes the same fields as the shared one. -/
theorem reconcileExpiredFields_eq : reconcileExpiredFields now job = expiredJob now job := rfl

theorem settleReserved_eq {expired : Bool} (hreserved : quota.entry.state = .reserved)
    (h : settleReserved now expired quota job rows = .ok rows') :
    rows' = { rows with
      job, quota := some { quota with entry := quota.entry.released now expired } } := by
  simp only [settleReserved, bind_eq_ok, flushJob_eq_ok, flushEntry_eq_ok] at h
  obtain ⟨entry, hrelease, _, ⟨_, rfl⟩, _, ⟨_, _, rfl⟩, h⟩ := h
  cases h
  rcases releaseLocked_cases hrelease with ⟨_, rfl⟩ | ⟨hstate, _⟩
  · rfl
  · simp [hreserved] at hstate

theorem reconcileReserved_step (h : reconcileReserved compat fresh now rows = .ok rows') :
    Step compat .system rows rows' := by
  simp only [reconcileReserved] at h
  split at h
  · cases h
    exact .idle
  rename_i quota hquota
  split at h
  · cases h
    exact .idle
  rename_i hreserved
  have hreserved : quota.entry.state = .reserved := not_not.mp hreserved
  have hreleased : ∀ expired, QuotaRelease rows.quota
      (some { quota with entry := quota.entry.released now expired }) := fun expired =>
    hquota ▸ .released hreserved
  have hexpiry : QuotaExpiry rows.quota
      (some { quota with entry := quota.entry.released now true }) := hquota ▸ .expired hreserved
  split at h
  · rename_i hready
    split at h
    · cases h
    split at h
    · rename_i hcompat
      simp only [bind_eq_ok, consumeLocked_eq_ok, flushEntry_eq_ok] at h
      obtain ⟨_, ⟨_, rfl⟩, _, ⟨_, _, rfl⟩, h⟩ := h
      cases h
      exact .charge hcompat hready hquota hreserved
    · simp only [bind_eq_ok] at h
      obtain ⟨⟨quota', result⟩, hreconcile, h⟩ := h
      cases h
      exact reconcileLocked_step hquota hready hreconcile
  · rename_i hfailed
    rw [settleReserved_eq hreserved h]
    exact .settle (.inl hfailed) (hreleased false)
  · rename_i hstate
    rw [settleReserved_eq hreserved h]
    exact .settle (.inr hstate) (hreleased true)
  · rename_i hqueued
    split at h
    · rw [settleReserved_eq hreserved h, reconcileExpiredFields_eq]
      exact .expire (.inr (by rw [hqueued]; decide)) hexpiry
    · cases h
      exact .idle
  · rename_i hdownloading
    split at h
    · rw [settleReserved_eq hreserved h, reconcileExpiredFields_eq]
      exact .expire (.inr (by rw [hdownloading]; decide)) hexpiry
    · cases h
      exact .idle
  · cases h
    exact .idle

/-! ## Promotion -/

section Promotion

variable {settings : QuotaSettings} {client : Uuid} {active authorized : Bool}
  {capability : PremiumCapability} {promoted : Option QuotaRows}

theorem upgradeQuota_spec (h : upgradeQuota settings client now rows = .ok promoted) :
    QuotaPromotion client now rows.quota promoted := by
  unfold upgradeQuota at h
  split at h
  · rename_i hquota
    simp only [bind_eq_ok] at h
    obtain ⟨_, _, h⟩ := h
    cases h
    rw [hquota]
    exact .none
  rename_i quota hquota
  simp only [bind_eq_ok, require_eq_ok, flushEntry_eq_ok] at h
  obtain ⟨_, hclient, ranges, _, _, _, _, _, entry, hrule, _, ⟨_, _, rfl⟩, h⟩ := h
  cases h
  rw [hquota]
  unfold applyQuotaRule at hrule
  split at hrule
  · rename_i hstate
    cases hrule
    exact .charged hclient hstate
  · cases hrule
  · cases hrule
  · rename_i hstate
    split at hrule
    · obtain ⟨_, rfl⟩ := consumeLocked_eq_ok.mp hrule
      exact .consumed hclient hstate
    · rcases releaseLocked_cases hrule with ⟨_, rfl⟩ | ⟨hsettled, _⟩
      · exact .released hclient hstate
      · simp [hstate] at hsettled

theorem upgrade_step
    (h : upgrade settings client active authorized capability clock rows = .ok (rows', applied)) :
    Step compat .system rows rows' := by
  simp only [upgrade, bind_eq_ok, require_eq_ok] at h
  obtain ⟨_, _, _, _, _, _, _, hready, _, _, _, _, _, _, stored, hstored, h⟩ := h
  split at h
  · cases h
  rename_i policy
  simp only [bind_eq_ok] at h
  obtain ⟨_, _, h⟩ := h
  split at h
  · simp only [bind_eq_ok] at h
    obtain ⟨_, _, h⟩ := h
    cases h
    exact .idle
  rename_i hfree
  simp only [bind_eq_ok, require_eq_ok, flushJob_eq_ok] at h
  obtain ⟨_, ⟨hpremium, _⟩, quota, hquota, premium, hpolicy, snapshot, hattach, _, ⟨_, rfl⟩,
    h⟩ := h
  cases h
  simp only [attachEffectivePolicySnapshot, bind_eq_ok] at hattach
  obtain ⟨_, _, hattach⟩ := hattach
  cases hattach
  have htier : premium.tier = .premium :=
    (effectiveDownloadPolicy_tier hpolicy).mpr ⟨capability, rfl, hpremium⟩
  exact .promote hready hstored hfree htier (upgradeQuota_spec hquota)

end Promotion

/-! ## All calls -/

/-- No write changes the key of a job. -/
theorem Step.job_id {actor : Actor} (h : Step compat actor rows rows') :
    rows'.job.id = rows.job.id := by
  cases h with
  | ledger hframe => cases hframe <;> rfl
  | _ => rfl

theorem expireDueJobs_steps (h : expireDueJobs fresh now clock rows = .ok (rows', artifactIds)) :
    Steps compat .system rows rows' := by
  rcases savepoint_eq_ok h with h | h
  · simp only [bind_eq_ok] at h
    obtain ⟨⟨_, _⟩, hexpire, h⟩ := h
    cases h
    exact expireDueJob_steps hexpire
  · cases h
    exact .refl

theorem Call.run_steps {call : Call} (h : call.run compat rows = .ok rows') :
    Steps compat call.actor rows rows' := by
  cases call with
  | claimNext =>
    simp only [run, bind_eq_ok] at h
    obtain ⟨⟨_, _⟩, hwrite, h⟩ := h
    obtain ⟨job, hclaim, rfl⟩ := onJob_eq_ok.mp hwrite
    cases h
    exact .single (claimNext_step hclaim)
  | worker =>
    simp only [run, bind_eq_ok] at h
    obtain ⟨⟨_, _⟩, hworker, h⟩ := h
    cases h
    exact .single (WorkerCall.run_step hworker)
  | requestCancel seen => exact .single (requestCancel_step seen.2 h)
  | reclaimExpiredLeases => exact .single (reclaimExpiredLeases_step h)
  | expireDueJobs =>
    simp only [run, bind_eq_ok] at h
    obtain ⟨⟨_, _⟩, hexpire, h⟩ := h
    cases h
    exact expireDueJobs_steps hexpire
  | reconcileInvalid =>
    rcases savepoint_eq_ok h with h | rfl
    · exact .single (reconcileInvalid_step h)
    · exact .refl
  | reconcileReserved => exact .single (reconcileReserved_step h)
  | deleteTerminalEntry =>
    cases h
    exact .single .prune
  | begin =>
    simp only [run, bind_eq_ok] at h
    obtain ⟨⟨_, _⟩, hbegin, h⟩ := h
    cases h
    exact .single (.ledger (begin_spec hbegin).frame)
  | checkpoint =>
    simp only [run, bind_eq_ok] at h
    obtain ⟨⟨_, _⟩, hcheckpoint, h⟩ := h
    cases h
    exact .single (.ledger (checkpoint_spec hcheckpoint).frame)
  | finalize =>
    simp only [run, bind_eq_ok] at h
    obtain ⟨⟨_, _⟩, hfinalize, h⟩ := h
    cases h
    exact .single (.ledger (finalize_spec hfinalize).frame)
  | upgrade =>
    simp only [run, bind_eq_ok] at h
    obtain ⟨⟨_, _⟩, hupgrade, h⟩ := h
    cases h
    exact .single (upgrade_step hupgrade)

/-- An invariant that every step preserves is preserved by every committed call. -/
theorem Call.run_invariant {I : DownloadRows → Prop}
    (hstep : ∀ {actor rows rows'}, I rows → Step compat actor rows rows' → I rows') {call : Call}
    (h : call.run compat rows = .ok rows') (hI : I rows) : I rows' :=
  invariant_run hstep (run_steps h) hI

/-- Some call commits and leaves `rows'`. -/
def Commits (compat : Bool) (rows rows' : DownloadRows) : Prop :=
  ∃ call : Call, call.run compat rows = .ok rows'

abbrev Reaches (compat : Bool) : DownloadRows → DownloadRows → Prop := ReflTransGen (Commits compat)

theorem Reaches.invariant {I : DownloadRows → Prop}
    (hstep : ∀ {actor rows rows'}, I rows → Step compat actor rows rows' → I rows')
    (h : Reaches compat rows rows') (hI : I rows) : I rows' :=
  invariant_run (fun hs ⟨_, hcall⟩ => Call.run_invariant hstep hcall hs) h hI

end FetchNow
