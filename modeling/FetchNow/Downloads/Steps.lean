import FetchNow.Downloads.Promote
import FetchNow.Quota.Calls
import FetchNow.Theory.Leases

/-!
# Steps on one download job

What a committed call has done to the rows of one job. Every invariant of the job row and of its
quota entry is proved against `Step`, never against the functions themselves.
-/
namespace FetchNow

open Transactions

variable {rows rows' : DownloadRows} {job job' : MediaDownloadJob} {quota quota' : Option QuotaRows}
  {now lease : Timestamp} {clock : Clock} {owner workerId : String} {fence : Nat}
  {fresh : Nat → Uuid} {applied expired : Bool}

/-! ## Effects on the quota entry -/

def FreeDownloadQuotaEntry.released (entry : FreeDownloadQuotaEntry) (now : Timestamp)
    (expired : Bool) : FreeDownloadQuotaEntry :=
  { entry with
    state := if expired then .expired else .released, consumedAt := none, releasedAt := some now }

/-- A release of the reservation; an entry settled without a charge is left as it is. -/
inductive QuotaRelease : Option QuotaRows → Option QuotaRows → Prop
  | none : QuotaRelease none none
  | settled {quota : QuotaRows} : quota.entry.state = .released ∨ quota.entry.state = .expired →
      QuotaRelease (some quota) (some quota)
  | released {quota : QuotaRows} {now : Timestamp} {expired : Bool} :
      quota.entry.state = .reserved →
      QuotaRelease (some quota) (some { quota with entry := quota.entry.released now expired })

/-- Expiry releases a reservation and leaves every settled entry, charged or not. -/
inductive QuotaExpiry : Option QuotaRows → Option QuotaRows → Prop
  | kept {quota : Option QuotaRows} : (∀ q ∈ quota, q.entry.state ≠ .reserved) →
      QuotaExpiry quota quota
  | expired {quota : QuotaRows} {now : Timestamp} : quota.entry.state = .reserved →
      QuotaExpiry (some quota) (some { quota with entry := quota.entry.released now true })

/-- The optional charge of `complete_ready`. -/
inductive QuotaCharge : Bool → Option QuotaRows → Option QuotaRows → Prop
  | off {quota : Option QuotaRows} : QuotaCharge false quota quota
  | none : QuotaCharge true none none
  | consumed {quota : QuotaRows} {now : Timestamp} : quota.entry.state = .reserved →
      QuotaCharge true (some quota) (some { quota with entry := quota.entry.consumed now })

theorem releaseQuotaAfterJobLock_spec
    (h : releaseQuotaAfterJobLock now expired quota = .ok quota') : QuotaRelease quota quota' := by
  cases quota with
  | none =>
    cases h
    exact .none
  | some quota =>
    simp only [releaseQuotaAfterJobLock, bind_eq_ok, flushEntry_eq_ok] at h
    obtain ⟨entry, hrelease, _, ⟨_, _, rfl⟩, h⟩ := h
    cases h
    rcases releaseLocked_cases hrelease with ⟨hstate, rfl⟩ | ⟨hstate, rfl⟩
    · exact .released hstate
    · exact .settled hstate

theorem consumeQuotaAfterJobLock_spec (h : consumeQuotaAfterJobLock now quota = .ok quota') :
    QuotaCharge true quota quota' := by
  cases quota with
  | none =>
    cases h
    exact .none
  | some quota =>
    simp only [consumeQuotaAfterJobLock, bind_eq_ok, flushEntry_eq_ok, consumeLocked_eq_ok] at h
    obtain ⟨entry, ⟨hstate, rfl⟩, _, ⟨_, _, rfl⟩, h⟩ := h
    cases h
    exact .consumed hstate

/-! ## The step relation -/

/-- On whose behalf a call runs: a worker that claims, the holder of a fence, or neither. -/
abbrev Actor := Leases.Actor String Nat

/-- The states from which `_apply_expired_job_fields` may leave. -/
def Expirable (job : MediaDownloadJob) : Prop :=
  isStoredCancelled job.publicState job.progressStage job.cancelRequestedAt = true ∨
    MediaDownloadJobState.expired ∈ job.publicState.allowed

/-- What an upgrade does to the entry of the former Free job. -/
inductive QuotaPromotion (client : Uuid) (now : Timestamp) :
    Option QuotaRows → Option QuotaRows → Prop
  | none : QuotaPromotion client now none none
  | charged {quota : QuotaRows} {ranges : List FreeDownloadDeliveryRange} :
      quota.entry.anonymousClientId = client → quota.entry.state = .consumed →
      QuotaPromotion client now (some quota) (some { quota with ranges })
  | consumed {quota : QuotaRows} {ranges : List FreeDownloadDeliveryRange} :
      quota.entry.anonymousClientId = client → quota.entry.state = .reserved →
      QuotaPromotion client now (some quota) (some ⟨quota.entry.consumed now, ranges⟩)
  | released {quota : QuotaRows} {ranges : List FreeDownloadDeliveryRange} :
      quota.entry.anonymousClientId = client → quota.entry.state = .reserved →
      QuotaPromotion client now (some quota) (some ⟨quota.entry.released now false, ranges⟩)

/-- The columns that `_apply_stored_cancel` changes in a queued object, over a row that may have
changed since. -/
def cancelStored (now updatedAt : Timestamp) (completedAt : Option Timestamp)
    (job : MediaDownloadJob) : MediaDownloadJob :=
  { job with
    publicState := .expired, progressStage := .cancelled, cancelRequestedAt := some now, updatedAt,
    completedAt }

/-- The columns that a cancel changes in a downloading object. -/
def cancelStamped (now updatedAt : Timestamp) (job : MediaDownloadJob) : MediaDownloadJob :=
  { job with cancelRequestedAt := some now, updatedAt }

/-- One write of the rows of a job, with its guard or with what the flush has checked. -/
inductive Step (compatibilityMode : Bool) : Actor → DownloadRows → DownloadRows → Prop
  | idle {actor : Actor} {rows : DownloadRows} : Step compatibilityMode actor rows rows
  | claim {workerId : String} {lease now : Timestamp} {clock : Clock} {rows : DownloadRows} :
      Claimable clock rows.job →
      Step compatibilityMode (.claimer workerId) rows
        { rows with job := claimedJob workerId lease now rows.job }
  | renew {owner : String} {fence : Nat} {lease : Timestamp} {clock : Clock}
      {rows : DownloadRows} : Fenced owner fence rows.job → LeaseLive clock rows.job →
      Step compatibilityMode (.holder owner fence) rows
        { rows with job := renewedJob lease clock rows.job }
  | stage {owner : String} {fence : Nat} {target : DownloadProgressStage} {now : Timestamp}
      {rows : DownloadRows} : Fenced owner fence rows.job → Uncancelled rows.job →
      target.terminal = false →
      rows.job.progressStage = target ∨ target ∈ rows.job.progressStage.allowed →
      (stagedJob target now rows.job).Checked →
      Step compatibilityMode (.holder owner fence) rows
        { rows with job := stagedJob target now rows.job }
  | percent {owner : String} {fence : Nat} {percent : Int} {now : Timestamp} {clock : Clock}
      {rows : DownloadRows} : Fenced owner fence rows.job → Uncancelled rows.job →
      LeaseLive clock rows.job → (percentJob percent now rows.job).Checked →
      Step compatibilityMode (.holder owner fence) rows
        { rows with job := percentJob percent now rows.job }
  | ready {owner : String} {fence : Nat} {artifact : Artifact} {clock : Clock}
      {rows : DownloadRows} {quota : Option QuotaRows} : Fenced owner fence rows.job →
      LeaseLive clock rows.job → Uncancelled rows.job → 0 < artifact.bytes →
      QuotaCharge compatibilityMode rows.quota quota →
      Step compatibilityMode (.holder owner fence) rows
        { rows with job := readyJob artifact clock rows.job, quota }
  | fail {owner : String} {fence : Nat} {code : DownloadErrorCode} {clock : Clock}
      {rows : DownloadRows} {quota : Option QuotaRows} : Fenced owner fence rows.job →
      LeaseLive clock rows.job → Uncancelled rows.job → QuotaRelease rows.quota quota →
      Step compatibilityMode (.holder owner fence) rows
        { rows with job := failedJob code clock rows.job, quota }
  | cancel {owner : String} {fence : Nat} {clock : Clock} {rows : DownloadRows}
      {quota : Option QuotaRows} : Fenced owner fence rows.job →
      rows.job.cancelRequestedAt.isSome → QuotaRelease rows.quota quota →
      Step compatibilityMode (.holder owner fence) rows
        { rows with job := cancelledJob clock rows.job, quota }
  | retry {owner : String} {fence : Nat} {now backoff : Timestamp} {clock : Clock}
      {rows : DownloadRows} : Fenced owner fence rows.job → LeaseLive clock rows.job →
      Uncancelled rows.job →
      Step compatibilityMode (.holder owner fence) rows
        { rows with job := retriedJob now backoff clock rows.job }
  | release {owner : String} {fence : Nat} {now : Timestamp} {clock : Clock}
      {rows : DownloadRows} : Fenced owner fence rows.job → LeaseLive clock rows.job →
      Uncancelled rows.job →
      Step compatibilityMode (.holder owner fence) rows
        { rows with job := releasedJob now clock rows.job }
  | cancelQueued {now updatedAt : Timestamp} {completedAt : Option Timestamp}
      {rows : DownloadRows} {quota : Option QuotaRows} :
      (cancelStored now updatedAt completedAt rows.job).Checked → QuotaRelease rows.quota quota →
      Step compatibilityMode .system rows
        { rows with job := cancelStored now updatedAt completedAt rows.job, quota }
  | requestCancel {now updatedAt : Timestamp} {rows : DownloadRows} :
      (cancelStamped now updatedAt rows.job).Checked →
      Step compatibilityMode .system rows
        { rows with job := cancelStamped now updatedAt rows.job }
  | reclaimCancel {now : Timestamp} {clock : Clock} {rows : DownloadRows}
      {quota : Option QuotaRows} : Reclaimable clock rows.job →
      rows.job.cancelRequestedAt.isSome → QuotaRelease rows.quota quota →
      Step compatibilityMode .system rows { rows with job := reclaimedCancel now rows.job, quota }
  | reclaimExhausted {now : Timestamp} {clock : Clock} {rows : DownloadRows}
      {quota : Option QuotaRows} : Reclaimable clock rows.job → Uncancelled rows.job →
      rows.job.maxAttempts ≤ rows.job.attemptCount → QuotaRelease rows.quota quota →
      Step compatibilityMode .system rows { rows with job := exhaustedJob now rows.job, quota }
  | reclaim {now : Timestamp} {clock : Clock} {rows : DownloadRows} :
      Reclaimable clock rows.job → Uncancelled rows.job →
      rows.job.attemptCount < rows.job.maxAttempts →
      Step compatibilityMode .system rows { rows with job := reclaimedJob now rows.job }
  | expire {now : Timestamp} {rows : DownloadRows} {quota : Option QuotaRows}
      {grants : List MediaDeliveryGrant} : Expirable rows.job → QuotaExpiry rows.quota quota →
      Step compatibilityMode .system rows { job := expiredJob now rows.job, quota, grants }
  | settle {rows : DownloadRows} {quota : Option QuotaRows} :
      rows.job.publicState = .failed ∨ rows.job.publicState = .expired →
      QuotaRelease rows.quota quota → Step compatibilityMode .system rows { rows with quota }
  | charge {now : Timestamp} {rows : DownloadRows} {quota : QuotaRows} :
      compatibilityMode = true → rows.job.publicState = .ready →
      rows.quota = some quota → quota.entry.state = .reserved →
      Step compatibilityMode .system rows
        { rows with quota := some { quota with entry := quota.entry.consumed now } }
  | ledger {now : Timestamp} {rows rows' : DownloadRows} : LedgerFrame now rows rows' →
      Step compatibilityMode .system rows rows'
  | prune {cutoff : Timestamp} {rows : DownloadRows} :
      Step compatibilityMode .system rows (deleteTerminalEntry cutoff rows)
  | promote {client : Uuid} {now : Timestamp} {policy premium : EffectiveDownloadPolicy}
      {rows : DownloadRows} {quota : Option QuotaRows} {grants : List MediaDeliveryGrant} :
      rows.job.publicState = .ready →
      decodeEffectivePolicySnapshot rows.job.selectedFormatSnapshot = .ok (some policy) →
      policy.tier ≠ .premium → premium.tier = .premium →
      QuotaPromotion client now rows.quota quota →
      Step compatibilityMode .system rows
        { job :=
            { rows.job with
              selectedFormatSnapshot :=
                ⟨rows.job.selectedFormatSnapshot.format, .stored premium (some client)⟩,
              updatedAt := now },
          quota, grants }

/-! ## Calls -/

/-- The calls of the holder of a lease. -/
inductive WorkerCall where
  | renewLease (lease : Timestamp) (clock : Clock)
  | leaseStatus (lease : Timestamp) (clock : Clock)
  | setProgressStage (target : DownloadProgressStage) (now : Timestamp)
  | setProgressPercent (percent : Int) (now : Timestamp) (clock : Clock)
  | completeReady (artifact : Artifact) (clock : Clock)
  | failPermanent (code : DownloadErrorCode) (clock : Clock)
  | failRetry (seen : Option MediaDownloadJob) (now backoff : Timestamp)
      (code : DownloadErrorCode) (clock : Clock)
  | releaseToQueued (now : Timestamp) (clock : Clock)
  | completeCancelled (clock : Clock)

/-- The executor passes the compatibility setting to `complete_ready`. -/
def WorkerCall.run (compatibilityMode : Bool) (owner : String) (fence : Nat) (call : WorkerCall)
    (rows : DownloadRows) : Except Raised (DownloadRows × Bool) :=
  match call with
  | renewLease lease clock => rows.onJob (FetchNow.renewLease owner fence lease clock)
  | leaseStatus lease clock => do
    let (job, status) ← FetchNow.leaseStatus owner fence lease clock rows.job
    .ok ({ rows with job }, status = .owned)
  | setProgressStage target now => rows.onJob (FetchNow.setProgressStage owner fence target now)
  | setProgressPercent percent now clock =>
    rows.onJob (FetchNow.setProgressPercent owner fence percent now clock)
  | completeReady artifact clock =>
    FetchNow.completeReady owner fence artifact clock compatibilityMode rows
  | failPermanent code clock => FetchNow.failPermanent owner fence code clock rows
  | failRetry seen now backoff code clock =>
    FetchNow.failRetry seen owner fence now backoff code clock rows
  | releaseToQueued now clock => rows.onJob (FetchNow.releaseToQueued owner fence now clock)
  | completeCancelled clock => FetchNow.completeCancelled owner fence clock rows

/-- A row as the database has had it at some time. -/
abbrev StoredJob := { job : MediaDownloadJob // job.Checked }

/-- Everything that touches the rows of one job after its creation. -/
inductive Call where
  | claimNext (workerId : String) (lease now : Timestamp) (clock : Clock)
  | worker (owner : String) (fence : Nat) (call : WorkerCall)
  | requestCancel (seen : StoredJob) (now : Timestamp) (clock : Clock)
  | reclaimExpiredLeases (now : Timestamp) (clock : Clock)
  | expireDueJobs (fresh : Nat → Uuid) (now : Timestamp) (clock : Clock)
  | reconcileInvalid (now : Timestamp)
  | reconcileReserved (fresh : Nat → Uuid) (now : Timestamp)
  | deleteTerminalEntry (cutoff : Timestamp)
  | begin (authorization : MediaDownloadJob) (tier : Tier) (start stop : Nat)
      (revalidated : Except DownloadError Uuid) (newId : Uuid) (fresh : Nat → Uuid)
      (clock : Clock)
  | checkpoint (attemptId : Uuid) (observedEnd : Nat) (clock : Clock)
  | finalize (attemptId : Uuid) (observedEnd : Nat) (fresh : Nat → Uuid) (clock : Clock)
  | upgrade (settings : QuotaSettings) (client : Uuid) (active authorized : Bool)
      (capability : PremiumCapability) (clock : Clock)

def Call.run (compatibilityMode : Bool) (call : Call) (rows : DownloadRows) :
    Except Raised DownloadRows :=
  match call with
  | claimNext workerId lease now clock => do
    let (rows, _) ← rows.onJob (FetchNow.claimNext workerId lease now clock)
    .ok rows
  | worker owner fence call => do
    let (rows, _) ← call.run compatibilityMode owner fence rows
    .ok rows
  | requestCancel seen now clock => FetchNow.requestCancel seen now clock rows
  | reclaimExpiredLeases now clock => FetchNow.reclaimExpiredLeases now clock rows
  | expireDueJobs fresh now clock => do
    let (rows, _) ← FetchNow.expireDueJobs fresh now clock rows
    .ok rows
  | reconcileInvalid now =>
    savepoint Raised.isQuotaInvariantError (FetchNow.reconcileInvalid now) rows
  | reconcileReserved fresh now => FetchNow.reconcileReserved compatibilityMode fresh now rows
  | deleteTerminalEntry cutoff => .ok (FetchNow.deleteTerminalEntry cutoff rows)
  | begin authorization tier start stop revalidated newId fresh clock => do
    let (rows, _) ←
      FetchNow.begin authorization tier start stop revalidated newId fresh clock rows
    .ok rows
  | checkpoint attemptId observedEnd clock => do
    let (rows, _) ← FetchNow.checkpoint attemptId observedEnd clock rows
    .ok rows
  | finalize attemptId observedEnd fresh clock => do
    let (rows, _) ← FetchNow.finalize attemptId observedEnd fresh clock rows
    .ok rows
  | upgrade settings client active authorized capability clock => do
    let (rows, _) ← FetchNow.upgrade settings client active authorized capability clock rows
    .ok rows

def Call.actor : Call → Actor
  | claimNext workerId _ _ _ => .claimer workerId
  | worker owner fence _ => .holder owner fence
  | _ => .system

end FetchNow
