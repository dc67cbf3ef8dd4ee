import FetchNow.Downloads.Calls
import FetchNow.Downloads.Service

/-! A job and its quota entry stay coherent while both exist (compatibility mode off). -/
namespace FetchNow

open Transactions

variable {rows rows' : DownloadRows} {quota quota' : Option QuotaRows} {actor : Actor}
  {now : Timestamp} {compat : Bool}

/-- The tier under which the job was authorized, if its snapshot decodes. -/
def HasTier (tier : Tier) (job : MediaDownloadJob) : Prop :=
  ∃ policy, decodeEffectivePolicySnapshot job.selectedFormatSnapshot = .ok (some policy) ∧
    policy.tier = tier

/-- The entry is in one of the states that go with the state and the tier of its job. -/
structure Coherent (rows : DownloadRows) : Prop where
  pending : rows.job.Pending → ∀ quota ∈ rows.quota, quota.entry.state = .reserved
  settled : rows.job.publicState = .failed ∨ rows.job.publicState = .cancelled ∨
    rows.job.publicState = .expired → ∀ quota ∈ rows.quota, quota.entry.state ≠ .reserved
  free : rows.job.publicState = .ready → HasTier .free rows.job →
    ∀ quota ∈ rows.quota, quota.entry.state = .reserved ∨ quota.entry.state = .consumed
  premium : rows.job.publicState = .ready → HasTier .premium rows.job →
    ∀ quota ∈ rows.quota, quota.entry.state = .released ∨ quota.entry.state = .consumed

theorem HasTier.unique {tier tier' : Tier} {job : MediaDownloadJob} (h : HasTier tier job)
    (h' : HasTier tier' job) : tier = tier' := by
  obtain ⟨policy, hpolicy, rfl⟩ := h
  obtain ⟨policy', hpolicy', rfl⟩ := h'
  rw [hpolicy] at hpolicy'
  cases hpolicy'
  rfl

/-! ## Terminal entries -/

/-- An entry that is there afterwards was there before, in the same state if it was settled. -/
def KeepsTerminal (quota quota' : Option QuotaRows) : Prop :=
  ∀ q' ∈ quota', ∃ q ∈ quota, q'.entry.id = q.entry.id ∧
    (q.entry.state.terminal = true → q'.entry.state = q.entry.state)

theorem KeepsTerminal.refl (quota : Option QuotaRows) : KeepsTerminal quota quota :=
  fun q hq => ⟨q, hq, rfl, fun _ => rfl⟩

theorem KeepsTerminal.trans {quota'' : Option QuotaRows} (h : KeepsTerminal quota quota')
    (h' : KeepsTerminal quota' quota'') : KeepsTerminal quota quota'' := by
  intro q'' hq''
  obtain ⟨q', hq', hid', hstate'⟩ := h' q'' hq''
  obtain ⟨q, hq, hid, hstate⟩ := h q' hq'
  refine ⟨q, hq, hid'.trans hid, fun hterminal => ?_⟩
  have hkept := hstate hterminal
  exact (hstate' (by rwa [hkept])).trans hkept

/-- Writing a reserved entry is no move out of a terminal state. -/
theorem KeepsTerminal.of_reserved {q q' : QuotaRows} (hid : q'.entry.id = q.entry.id)
    (h : q.entry.state = .reserved) : KeepsTerminal (some q) (some q') := by
  rintro q' ⟨⟩
  exact ⟨q, rfl, hid, by simp [h, QuotaEntryState.terminal]⟩

theorem KeepsTerminal.of_entry {q q' : QuotaRows} (h : q'.entry = q.entry) :
    KeepsTerminal (some q) (some q') := by
  rintro q' ⟨⟩
  exact ⟨q, rfl, by rw [h], fun _ => by rw [h]⟩

theorem QuotaRelease.keepsTerminal (h : QuotaRelease quota quota') :
    KeepsTerminal quota quota' := by
  cases h with
  | none => exact .refl _
  | settled => exact .refl _
  | released hstate => exact .of_reserved rfl hstate

theorem QuotaExpiry.keepsTerminal (h : QuotaExpiry quota quota') :
    KeepsTerminal quota quota' := by
  cases h with
  | kept => exact .refl _
  | expired hstate => exact .of_reserved rfl hstate

theorem QuotaCharge.keepsTerminal (h : QuotaCharge compat quota quota') :
    KeepsTerminal quota quota' := by
  cases h with
  | off => exact .refl _
  | none => exact .refl _
  | consumed hstate => exact .of_reserved rfl hstate

theorem QuotaPromotion.keepsTerminal {client : Uuid}
    (h : QuotaPromotion client now quota quota') : KeepsTerminal quota quota' := by
  cases h with
  | none => exact .refl _
  | charged => exact .of_entry rfl
  | consumed _ hstate => exact .of_reserved rfl hstate
  | released _ hstate => exact .of_reserved rfl hstate

/-- A ledger call leaves a settled entry as it is. -/
theorem EntryMove.cases_terminal {expiresAt : Timestamp} {entry entry' : FreeDownloadQuotaEntry}
    (h : EntryMove expiresAt now entry entry') :
    entry' = entry ∨ (entry.state = .reserved ∧ entry'.id = entry.id ∧
      (entry'.state = .reserved ∨ entry'.state = .consumed)) := by
  cases h with
  | kept => exact .inl rfl
  | extended hstate => exact .inr ⟨hstate, rfl, .inl hstate⟩
  | consumed hstate => exact .inr ⟨hstate, rfl, .inr rfl⟩

theorem LedgerFrame.keepsTerminal (h : LedgerFrame now rows rows') :
    KeepsTerminal rows.quota rows'.quota := by
  cases h with
  | unchanged => exact .refl _
  | moved hquota _ hmove =>
    rw [hquota]
    rcases hmove.cases_terminal with hkept | ⟨hstate, hid, _⟩
    · exact .of_entry hkept
    · exact .of_reserved hid hstate

theorem mem_deleteTerminalEntry {cutoff : Timestamp} {q : QuotaRows}
    (h : q ∈ (deleteTerminalEntry cutoff rows).quota) : q ∈ rows.quota :=
  (Option.filter_eq_some_iff.mp h).1

/-- No write leaves a terminal state of the entry. -/
theorem Step.keepsTerminal (h : Step compat actor rows rows') :
    KeepsTerminal rows.quota rows'.quota := by
  cases h with
  | ready _ _ _ _ hcharge => exact hcharge.keepsTerminal
  | fail _ _ _ hrelease => exact hrelease.keepsTerminal
  | cancel _ _ hrelease => exact hrelease.keepsTerminal
  | cancelQueued _ hrelease => exact hrelease.keepsTerminal
  | reclaimCancel _ _ hrelease => exact hrelease.keepsTerminal
  | reclaimExhausted _ _ _ hrelease => exact hrelease.keepsTerminal
  | expire _ hexpiry => exact hexpiry.keepsTerminal
  | settle _ hrelease => exact hrelease.keepsTerminal
  | charge _ _ hquota hstate => exact hquota ▸ .of_reserved rfl hstate
  | ledger hframe => exact hframe.keepsTerminal
  | prune => exact fun q hq => ⟨q, mem_deleteTerminalEntry hq, rfl, fun _ => rfl⟩
  | promote _ _ _ _ hpromotion => exact hpromotion.keepsTerminal
  | idle | claim | renew | stage | percent | retry | release | requestCancel | reclaim =>
    exact .refl _

/-! ## Coherence -/

/-- The snapshot of a job always decodes, and promotion comes after publication. -/
structure CoherentFree (rows : DownloadRows) : Prop extends Coherent rows where
  decodes : ∃ tier, HasTier tier rows.job
  tier : rows.job.Pending → HasTier .free rows.job

theorem QuotaRelease.not_reserved (h : QuotaRelease quota quota') {q : QuotaRows}
    (hq : q ∈ quota') : q.entry.state ≠ .reserved := by
  cases h with
  | none => cases hq
  | settled hstate =>
    cases hq
    rcases hstate with hstate | hstate <;> simp [hstate]
  | @released _ _ expired _ =>
    cases hq
    cases expired <;> simp [FreeDownloadQuotaEntry.released]

theorem QuotaExpiry.not_reserved (h : QuotaExpiry quota quota') {q : QuotaRows}
    (hq : q ∈ quota') : q.entry.state ≠ .reserved := by
  cases h with
  | kept hkept => exact hkept q hq
  | expired =>
    cases hq
    simp [FreeDownloadQuotaEntry.released]

/-- Nothing is charged at publication when the compatibility mode is off. -/
theorem QuotaCharge.off_eq (h : QuotaCharge false quota quota') : quota' = quota := by
  cases h
  rfl

/-- An unpublished job with its reservation is coherent. -/
theorem CoherentFree.of_pending (hpending : rows.job.Pending)
    (hentry : ∀ quota ∈ rows.quota, quota.entry.state = .reserved)
    (htier : HasTier .free rows.job) : CoherentFree rows := by
  refine ⟨⟨fun _ => hentry, ?_, ?_, ?_⟩, ⟨_, htier⟩, fun _ => htier⟩ <;>
    rcases hpending with hstate | hstate <;> simp [hstate]

/-- A job that has ended without an artifact is coherent once its reservation is settled. -/
theorem CoherentFree.of_settled
    (hstate : rows.job.publicState = .failed ∨ rows.job.publicState = .expired)
    (hentry : ∀ quota ∈ rows.quota, quota.entry.state ≠ .reserved)
    (htier : ∃ tier, HasTier tier rows.job) : CoherentFree rows := by
  refine ⟨⟨?_, fun _ => hentry, ?_, ?_⟩, htier, ?_⟩ <;>
    rcases hstate with hstate | hstate <;> simp [hstate]

/-- A published Free job. -/
theorem CoherentFree.of_free (hready : rows.job.publicState = .ready)
    (htier : HasTier .free rows.job)
    (hentry : ∀ quota ∈ rows.quota, quota.entry.state = .reserved ∨ quota.entry.state = .consumed) :
    CoherentFree rows := by
  refine ⟨⟨by simp [hready], by simp [hready], fun _ _ => hentry, fun _ hpremium => ?_⟩,
    ⟨_, htier⟩, by simp [hready]⟩
  cases htier.unique hpremium

/-- A published job that was promoted. -/
theorem CoherentFree.of_premium (hready : rows.job.publicState = .ready)
    (htier : HasTier .premium rows.job)
    (hentry : ∀ quota ∈ rows.quota, quota.entry.state = .released ∨ quota.entry.state = .consumed) :
    CoherentFree rows := by
  refine ⟨⟨by simp [hready], by simp [hready], fun _ hfree => ?_, fun _ _ => hentry⟩,
    ⟨_, htier⟩, by simp [hready]⟩
  cases htier.unique hfree

/-- A write that keeps a pending job pending. -/
theorem CoherentFree.keep (h : CoherentFree rows) {job : MediaDownloadJob}
    (hpending : rows.job.Pending) (hpending' : job.Pending)
    (hsnapshot : job.selectedFormatSnapshot = rows.job.selectedFormatSnapshot) :
    CoherentFree { rows with job } := by
  refine .of_pending hpending' (h.pending hpending) ?_
  rw [HasTier, hsnapshot]
  exact h.tier hpending

theorem LedgerFrame.coherent (h : LedgerFrame now rows rows') (hcoh : CoherentFree rows) :
    CoherentFree rows' := by
  cases h with
  | unchanged => exact hcoh
  | @moved q q' hquota hready hmove =>
    have hmoved := hmove.cases_terminal
    refine ⟨⟨by simp [hready], by simp [hready], ?_, ?_⟩, hcoh.decodes, by simp [hready]⟩
    · rintro - hfree q ⟨⟩
      have hbefore := hcoh.free hready hfree _ hquota
      rcases hmoved with hkept | ⟨_, _, hstate⟩
      · rwa [hkept]
      · exact hstate
    · rintro - hpremium q ⟨⟩
      have hbefore := hcoh.premium hready hpremium _ hquota
      rcases hmoved with hkept | ⟨hreserved, _⟩
      · rwa [hkept]
      · simp [hreserved] at hbefore

theorem coherent_prune {cutoff : Timestamp} (h : CoherentFree rows) :
    CoherentFree (deleteTerminalEntry cutoff rows) where
  pending hstate _ hq := h.pending hstate _ (mem_deleteTerminalEntry hq)
  settled hstate _ hq := h.settled hstate _ (mem_deleteTerminalEntry hq)
  free hstate hfree _ hq := h.free hstate hfree _ (mem_deleteTerminalEntry hq)
  premium hstate hpremium _ hq := h.premium hstate hpremium _ (mem_deleteTerminalEntry hq)
  decodes := h.decodes
  tier := h.tier

theorem QuotaPromotion.settled {client : Uuid} (h : QuotaPromotion client now quota quota')
    {q : QuotaRows} (hq : q ∈ quota') :
    q.entry.state = .released ∨ q.entry.state = .consumed := by
  cases h with
  | none => cases hq
  | charged _ hstate =>
    cases hq
    exact .inr hstate
  | consumed =>
    cases hq
    exact .inr rfl
  | released =>
    cases hq
    exact .inl rfl

theorem Step.coherent (hcoh : CoherentFree rows) (h : Step false actor rows rows') :
    CoherentFree rows' := by
  have htier := hcoh.decodes
  cases h with
  | idle => exact hcoh
  | claim hclaimable => exact hcoh.keep (.inl hclaimable.1) (.inr rfl) rfl
  | renew hfenced => exact hcoh.keep (.inr hfenced.1) (.inr hfenced.1) rfl
  | stage hfenced => exact hcoh.keep (.inr hfenced.1) (.inr hfenced.1) rfl
  | percent hfenced => exact hcoh.keep (.inr hfenced.1) (.inr hfenced.1) rfl
  | ready hfenced _ _ _ hcharge =>
    have hpending : rows.job.Pending := .inr hfenced.1
    obtain rfl := hcharge.off_eq
    exact .of_free rfl (hcoh.tier hpending) fun q hq => .inl (hcoh.pending hpending q hq)
  | fail _ _ _ hrelease => exact .of_settled (.inl rfl) (fun _ => hrelease.not_reserved) htier
  | cancel _ _ hrelease => exact .of_settled (.inr rfl) (fun _ => hrelease.not_reserved) htier
  | retry hfenced => exact hcoh.keep (.inr hfenced.1) (.inl rfl) rfl
  | release hfenced => exact hcoh.keep (.inr hfenced.1) (.inl rfl) rfl
  | cancelQueued _ hrelease => exact .of_settled (.inr rfl) (fun _ => hrelease.not_reserved) htier
  | requestCancel =>
    exact ⟨⟨hcoh.pending, hcoh.settled, hcoh.free, hcoh.premium⟩, hcoh.decodes, hcoh.tier⟩
  | reclaimCancel _ _ hrelease =>
    exact .of_settled (.inr rfl) (fun _ => hrelease.not_reserved) htier
  | reclaimExhausted _ _ _ hrelease =>
    exact .of_settled (.inl rfl) (fun _ => hrelease.not_reserved) htier
  | reclaim hreclaimable => exact hcoh.keep (.inr hreclaimable.1) (.inl rfl) rfl
  | expire _ hexpiry => exact .of_settled (.inr rfl) (fun _ => hexpiry.not_reserved) htier
  | settle hstate hrelease => exact .of_settled hstate (fun _ => hrelease.not_reserved) htier
  | charge hmode => cases hmode
  | ledger hframe => exact hframe.coherent hcoh
  | prune => exact coherent_prune hcoh
  | promote hready _ _ hpremium hpromotion =>
    exact .of_premium hready ⟨_, rfl, hpremium⟩ fun _ => hpromotion.settled

theorem Created.coherent (h : Created rows) : CoherentFree rows := by
  obtain ⟨hfresh, policy, hpolicy, hfree⟩ := h.fresh
  refine .of_pending (.inl hfresh.queued) hfresh.reserved ⟨policy, ?_, hfree⟩
  simp [decodeEffectivePolicySnapshot, hpolicy]

/-! ## Runs -/

theorem Reaches.keepsTerminal (h : Reaches compat rows rows') :
    KeepsTerminal rows.quota rows'.quota :=
  h.invariant (I := fun later => KeepsTerminal rows.quota later.quota)
    (fun hkept hstep => hkept.trans hstep.keepsTerminal) (.refl _)

theorem Reaches.coherent {rows₀ : DownloadRows} (hrun : Reaches false rows₀ rows)
    (hcreated : Created rows₀) : CoherentFree rows :=
  hrun.invariant (fun hcoh hstep => hstep.coherent hcoh) hcreated.coherent

/-- In every reachable state the entry goes with its job, whose snapshot is Free or Premium, and
from there on the entry never leaves a terminal state. -/
theorem job_quota_coherent {rows₀ : DownloadRows} (hcreated : Created rows₀)
    (hrun : Reaches false rows₀ rows) :
    Coherent rows ∧ (∃ tier, HasTier tier rows.job) ∧
      ∀ rows', Reaches false rows rows' → KeepsTerminal rows.quota rows'.quota :=
  have hcoh := hrun.coherent hcreated
  ⟨hcoh.toCoherent, hcoh.decodes, fun _ h => h.keepsTerminal⟩

/-- The sample job claimed at time 5 under a lease of 20. -/
def sampleClaimed : DownloadRows :=
  { sampleRows with job := claimedJob "w" 20 5 sampleRows.job }

/-- The sample job published at time 10. -/
def sampleReady : DownloadRows :=
  { sampleClaimed with job := readyJob ⟨7, 8, "video/mp4", "mp4"⟩ (fun _ => 10) sampleClaimed.job }

theorem sampleClaimed_commits (compat : Bool) : Commits compat sampleRows sampleClaimed :=
  ⟨.claimNext "w" 20 5 fun _ => 5, by cases compat <;> decide +kernel⟩

theorem sampleReady_commits : Commits false sampleClaimed sampleReady :=
  ⟨.worker "w" 1 (.completeReady ⟨7, 8, "video/mp4", "mp4"⟩ fun _ => 10), by decide +kernel⟩

theorem job_quota_coherent_sampleReady :
    Coherent sampleReady ∧ (∃ tier, HasTier tier sampleReady.job) ∧
      ∀ rows', Reaches false sampleReady rows' → KeepsTerminal sampleReady.quota rows'.quota :=
  job_quota_coherent sampleRows_created
    (.tail (.single (sampleClaimed_commits false)) sampleReady_commits)

end FetchNow
