import FetchNow.Downloads.Constraints
import FetchNow.Downloads.Fencing

/-! A user cancel is never overtaken. -/
namespace FetchNow

open Transactions

variable {rows rows' rows₀ before : DownloadRows} {quota quota' : Option QuotaRows} {actor : Actor}
  {seen : MediaDownloadJob} {now : Timestamp} {clock : Clock} {compat : Bool}

/-- Before it ends a job has no artifact, and its entry is not settled. -/
def Unsettled (rows : DownloadRows) : Prop :=
  rows.job.Pending →
    rows.job.artifactId = none ∧ ∀ quota ∈ rows.quota, quota.entry.state = .reserved

theorem unsettled_of_ended (h : ¬ rows.job.Pending) : Unsettled rows :=
  fun hpending => absurd hpending h

theorem LedgerFrame.unsettled (h : LedgerFrame now rows rows') (hI : Unsettled rows) :
    Unsettled rows' := by
  cases h with
  | unchanged => exact hI
  | moved _ hready => exact unsettled_of_ended (by simp [hready])

theorem Step.unsettled (hI : Unsettled rows) (h : Step compat actor rows rows') :
    Unsettled rows' := by
  cases h with
  | idle => exact hI
  | claim hclaimable => exact fun _ => hI (.inl hclaimable.1)
  | renew hfenced => exact fun _ => hI (.inr hfenced.1)
  | stage hfenced => exact fun _ => hI (.inr hfenced.1)
  | percent hfenced => exact fun _ => hI (.inr hfenced.1)
  | retry hfenced => exact fun _ => hI (.inr hfenced.1)
  | release hfenced => exact fun _ => hI (.inr hfenced.1)
  | requestCancel => exact hI
  | reclaim hreclaimable => exact fun _ => hI (.inr hreclaimable.1)
  | ready | fail | cancel | cancelQueued | reclaimCancel | reclaimExhausted | expire =>
    rintro (hstate | hstate) <;> cases hstate
  | settle hstate => exact unsettled_of_ended (by rcases hstate with hs | hs <;> simp [hs])
  | charge _ hready => exact unsettled_of_ended (by simp [hready])
  | ledger hframe => exact hframe.unsettled hI
  | prune =>
    exact fun hpending => ⟨(hI hpending).1,
      fun _ hquota => (hI hpending).2 _ (mem_deleteTerminalEntry hquota)⟩
  | promote hready => exact unsettled_of_ended (by simp [hready])

/-- The job has been cancelled, or its holder will see that it must be. -/
structure Cancelled (rows : DownloadRows) : Prop where
  state : rows.job.publicState = .downloading ∧ rows.job.cancelRequestedAt.isSome ∨
    rows.job.publicState = .expired
  unpublished : rows.job.artifactId = none
  uncharged : ∀ quota ∈ rows.quota, quota.entry.state ≠ .consumed

/-- Whoever needs an uncancelled job that is not over finds none. -/
theorem Cancelled.not_open (h : Cancelled rows)
    (hstate : rows.job.publicState = .downloading ∨ rows.job.publicState = .queued)
    (hopen : Uncancelled rows.job) : False := by
  rcases h.state with ⟨_, hrequested⟩ | hexpired
  · rw [Uncancelled] at hopen
    simp [hopen] at hrequested
  · rcases hstate with hstate | hstate <;> simp [hexpired] at hstate

theorem QuotaRelease.uncharged (h : QuotaRelease quota quota')
    (hI : ∀ q ∈ quota, q.entry.state ≠ .consumed) : ∀ q ∈ quota', q.entry.state ≠ .consumed := by
  cases h with
  | none => exact hI
  | settled => exact hI
  | @released _ _ expired _ =>
    rintro q ⟨⟩
    cases expired <;> simp [FreeDownloadQuotaEntry.released]

theorem QuotaExpiry.uncharged (h : QuotaExpiry quota quota')
    (hI : ∀ q ∈ quota, q.entry.state ≠ .consumed) : ∀ q ∈ quota', q.entry.state ≠ .consumed := by
  cases h with
  | kept => exact hI
  | expired =>
    rintro q ⟨⟩
    simp [FreeDownloadQuotaEntry.released]

theorem Cancelled.ready_ne (h : Cancelled rows) : rows.job.publicState ≠ .ready := by
  rcases h.state with ⟨hstate, _⟩ | hstate <;> simp [hstate]

theorem LedgerFrame.cancelled (h : LedgerFrame now rows rows') (hI : Cancelled rows) :
    Cancelled rows' := by
  cases h with
  | unchanged => exact hI
  | moved _ hready => exact absurd hready hI.ready_ne

theorem Step.cancelled (hI : Cancelled rows) (h : Step compat actor rows rows') :
    Cancelled rows' := by
  cases h with
  | idle => exact hI
  | claim hclaimable =>
    obtain ⟨hqueued, _, _, _, hopen⟩ := hclaimable
    exact (hI.not_open (.inr hqueued) hopen).elim
  | renew => exact ⟨hI.state, hI.unpublished, hI.uncharged⟩
  | stage hfenced hopen => exact (hI.not_open (.inl hfenced.1) hopen).elim
  | percent hfenced hopen => exact (hI.not_open (.inl hfenced.1) hopen).elim
  | ready hfenced _ hopen => exact (hI.not_open (.inl hfenced.1) hopen).elim
  | fail hfenced _ hopen => exact (hI.not_open (.inl hfenced.1) hopen).elim
  | cancel _ _ hrelease => exact ⟨.inr rfl, rfl, hrelease.uncharged hI.uncharged⟩
  | retry hfenced _ hopen => exact (hI.not_open (.inl hfenced.1) hopen).elim
  | release hfenced _ hopen => exact (hI.not_open (.inl hfenced.1) hopen).elim
  | cancelQueued _ hrelease => exact ⟨.inr rfl, hI.unpublished, hrelease.uncharged hI.uncharged⟩
  | requestCancel =>
    exact ⟨hI.state.imp_left fun h => ⟨h.1, rfl⟩, hI.unpublished, hI.uncharged⟩
  | reclaimCancel _ _ hrelease => exact ⟨.inr rfl, rfl, hrelease.uncharged hI.uncharged⟩
  | reclaimExhausted hreclaimable hopen =>
    exact (hI.not_open (.inl hreclaimable.1) hopen).elim
  | reclaim hreclaimable hopen => exact (hI.not_open (.inl hreclaimable.1) hopen).elim
  | expire _ hexpiry => exact ⟨.inr rfl, rfl, hexpiry.uncharged hI.uncharged⟩
  | settle _ hrelease => exact ⟨hI.state, hI.unpublished, hrelease.uncharged hI.uncharged⟩
  | charge _ hready => exact absurd hready hI.ready_ne
  | ledger hframe => exact hframe.cancelled hI
  | prune =>
    exact ⟨hI.state, hI.unpublished, fun _ hq => hI.uncharged _ (mem_deleteTerminalEntry hq)⟩
  | promote hready => exact absurd hready hI.ready_ne

/-- A cancel of a pending job takes effect, whatever pending row its session has read before. -/
theorem requestCancel_cancelled (hI : Unsettled rows) (hpending : rows.job.Pending)
    (hseen : seen.Checked) (hbefore : seen.Pending)
    (hkept : seen.cancelRequestedAt.isSome → Cancelled rows)
    (h : requestCancel seen now clock rows = .ok rows') :
    Cancelled rows' ∧ rows'.job.cancelRequestedAt.isSome := by
  obtain ⟨hunpublished, hreserved⟩ := hI hpending
  have huncharged : ∀ quota ∈ rows.quota, quota.entry.state ≠ .consumed :=
    fun quota hquota => by simp [hreserved quota hquota]
  have hstored : isStoredCancelled seen.publicState seen.progressStage
      seen.cancelRequestedAt = false := by
    rcases hbefore with hstate | hstate <;> simp [isStoredCancelled, hstate]
  simp only [requestCancel, hstored, Bool.false_eq_true, if_false] at h
  rcases hbefore with hqueued | hdownloading
  · simp only [hqueued, bind_eq_ok, flushJob_eq_ok, overwritten_cancelledQueued hseen hqueued] at h
    obtain ⟨_, _, _, ⟨_, rfl⟩, quota, hrelease, h⟩ := h
    cases h
    exact ⟨⟨.inr rfl, hunpublished, (releaseQuotaAfterJobLock_spec hrelease).uncharged huncharged⟩,
      rfl⟩
  · simp only [hdownloading] at h
    split at h
    · rename_i hrequested
      cases h
      have hcancelled := hkept hrequested
      rcases hcancelled.state with ⟨_, hrequested⟩ | hexpired
      · exact ⟨hcancelled, hrequested⟩
      · rcases hpending with hstate | hstate <;> simp [hexpired] at hstate
    · rename_i hopen
      have hopen := Option.not_isSome_iff_eq_none.mp hopen
      simp only [bind_eq_ok, flushJob_eq_ok, overwritten_cancelRequested hopen] at h
      obtain ⟨_, ⟨hchecked, rfl⟩, h⟩ := h
      cases h
      refine ⟨⟨.inl ⟨?_, rfl⟩, hunpublished, huncharged⟩, rfl⟩
      rcases hpending with hqueued | hdownloading
      · exact absurd (hchecked.uncancelled hqueued) (by simp [cancelStamped])
      · exact hdownloading

/-- No worker claims a cancelled job. -/
theorem Cancelled.claimNext {workerId : String} {lease : Timestamp} {job : MediaDownloadJob}
    {applied : Bool} (h : Cancelled rows)
    (hclaim : claimNext workerId lease now clock rows.job = .ok (job, applied)) :
    applied = false ∧ job = rows.job := by
  simp only [FetchNow.claimNext, bind_eq_ok] at hclaim
  obtain ⟨_, _, hclaim⟩ := hclaim
  split at hclaim
  · rename_i hclaimable
    obtain ⟨hqueued, _, _, _, hopen⟩ := hclaimable
    exact (h.not_open (.inr hqueued) hopen).elim
  · cases hclaim
    exact ⟨rfl, rfl⟩

theorem requestCancel_ready (hready : seen.publicState = .ready) :
    requestCancel seen now clock rows = .ok rows := by
  simp [requestCancel, isStoredCancelled, hready]

/-- A published row keeps its artifact, so it cannot become a cancelled one. -/
theorem cancelStored_refused {updatedAt : Timestamp} {completedAt : Option Timestamp}
    (h : rows.job.Checked) (hready : rows.job.publicState = .ready) :
    ¬ (cancelStored now updatedAt completedAt rows.job).Checked := by
  intro hchecked
  have hresult := hchecked.resultState
  have hpublished := h.resultState
  simp_all [MediaDownloadJob.CkResultState, cancelStored]

theorem cancelStamped_refused {updatedAt : Timestamp} (hready : rows.job.publicState = .ready) :
    ¬ (cancelStamped now updatedAt rows.job).Checked := by
  intro hchecked
  have hcancel := hchecked.cancelRequested
  simp_all [MediaDownloadJob.CkCancelRequested, cancelStamped]

/-- A cancel that read the job before it was published is refused or changes nothing. -/
theorem requestCancel_over_ready (hrow : rows.job.Checked) (hready : rows.job.publicState = .ready)
    (hseen : seen.Checked) : requestCancel seen now clock rows = .ok rows ∨
      ∃ violated, requestCancel seen now clock rows = .error (.integrityError violated) := by
  simp only [requestCancel]
  split
  · exact .inl rfl
  split
  · exact .inl rfl
  · exact .inl rfl
  · exact .inl rfl
  · rename_i hqueued
    rw [overwritten_cancelledQueued hseen hqueued]
    obtain ⟨violated, hflush⟩ := flushJob_refused (cancelStored_refused hrow hready)
    exact .inr ⟨violated, by rw [hflush]; rfl⟩
  · split
    · exact .inl rfl
    · rename_i hopen
      rw [overwritten_cancelRequested (Option.not_isSome_iff_eq_none.mp hopen)]
      obtain ⟨violated, hflush⟩ := flushJob_refused (cancelStamped_refused hready)
      exact .inr ⟨violated, by rw [hflush]; rfl⟩
  · rename_i hcancelled
    exact absurd hcancelled hseen.publicState

theorem Reaches.unsettled (hrun : Reaches compat rows₀ rows) (hqueued : Enqueued rows₀) :
    Unsettled rows :=
  hrun.invariant (fun hI hstep => hstep.unsettled hI)
    fun _ => ⟨hqueued.fresh.unpublished, hqueued.fresh.reserved⟩

/-- What a cancel means for every state from then on. -/
structure CancelFinal (rows : DownloadRows) : Prop where
  state : rows.job.publicState = .downloading ∨ rows.job.publicState = .expired
  unpublished : rows.job.artifactId = none
  uncharged : ∀ quota ∈ rows.quota, quota.entry.state ≠ .consumed
  unclaimed : ∀ workerId lease now clock job applied,
    claimNext workerId lease now clock rows.job = .ok (job, applied) →
      applied = false ∧ job = rows.job

theorem Cancelled.final (h : Cancelled rows) : CancelFinal rows where
  state := h.state.imp_left And.left
  unpublished := h.unpublished
  uncharged := h.uncharged
  unclaimed _ _ _ _ _ _ hclaim := h.claimNext hclaim

theorem Reaches.pending (hrun : Reaches compat before rows) (hpending : rows.job.Pending) :
    before.job.Pending := by
  by_contra hended
  exact hrun.invariant (I := fun rows => ¬ rows.job.Pending)
    (fun h hstep hpending => h (hstep.pending hpending)) hended hpending

/-- Once a pending job is cancelled it is downloading until it expires, unpublished, uncharged and
unclaimed; a cancel that comes after publication changes nothing, and one that read the job before
publication and writes after it is refused. `before` is the state that the cancel has read. -/
theorem user_cancel_final (hqueued : Enqueued rows₀) (hbefore : Reaches compat rows₀ before)
    (hrun : Reaches compat before rows) :
    (∀ now clock rows', rows.job.Pending → requestCancel before.job now clock rows = .ok rows' →
      rows'.job.cancelRequestedAt.isSome ∧
        ∀ later, Reaches compat rows' later → CancelFinal later) ∧
      (rows.job.publicState = .ready → ∀ now clock,
        (before.job.publicState = .ready → requestCancel before.job now clock rows = .ok rows) ∧
          (requestCancel before.job now clock rows = .ok rows ∨
            ∃ violated, requestCancel before.job now clock rows =
              .error (.integrityError violated))) := by
  have hseen := (hbefore.legal hqueued).toChecked
  refine ⟨fun now clock rows' hpending hcancel => ?_, fun hready now clock => ?_⟩
  · have hbeforePending := hrun.pending hpending
    have hkept : before.job.cancelRequestedAt.isSome → Cancelled rows := by
      intro hrequested
      have hdownloading : before.job.publicState = .downloading := by
        rcases hbeforePending with hstate | hstate
        · simp [hseen.uncancelled hstate] at hrequested
        · exact hstate
      obtain ⟨hunpublished, hreserved⟩ := hbefore.unsettled hqueued hbeforePending
      exact hrun.invariant (fun hI hstep => hstep.cancelled hI)
        ⟨.inl ⟨hdownloading, hrequested⟩, hunpublished, fun q hq => by simp [hreserved q hq]⟩
    obtain ⟨hcancelled, hrequested⟩ :=
      requestCancel_cancelled (Reaches.unsettled (hbefore.trans hrun) hqueued) hpending hseen
        hbeforePending hkept hcancel
    refine ⟨hrequested, fun later hlater => ?_⟩
    exact (hlater.invariant (fun hI hstep => hstep.cancelled hI) hcancelled).final
  · have hrow := (Reaches.legal (hbefore.trans hrun) hqueued).toChecked
    exact ⟨requestCancel_ready, requestCancel_over_ready hrow hready hseen⟩

/-- The sample job whose user has asked for a cancel while it was downloading. -/
def sampleCancelled : DownloadRows :=
  { sampleClaimed with job := cancelRequestedJob 6 sampleClaimed.job }

/-- A cancel that read the job as it was queued does not touch it once it is published; one that
read it as it was claimed is final. -/
theorem user_cancel_final_sample :
    (∀ later, Reaches false sampleCancelled later → CancelFinal later) ∧
      (requestCancel sampleRows.job 11 (fun _ => 11) sampleReady = .ok sampleReady ∨
        ∃ violated, requestCancel sampleRows.job 11 (fun _ => 11) sampleReady =
          .error (.integrityError violated)) := by
  have hclaimed : Reaches false sampleRows sampleClaimed := .single (sampleClaimed_commits false)
  have hfinal := (user_cancel_final (.reserved sampleRows_created) hclaimed .refl).1 6 (fun _ => 6)
    sampleCancelled (.inr rfl) (by decide)
  have hready := (user_cancel_final (.reserved sampleRows_created) .refl
    (hclaimed.tail sampleReady_commits)).2 rfl 11 fun _ => 11
  exact ⟨hfinal.2, hready.2⟩

end FetchNow
