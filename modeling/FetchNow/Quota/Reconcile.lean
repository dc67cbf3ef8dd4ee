import FetchNow.Downloads.Repository
import FetchNow.Quota.Policy

/-! The loop bodies of `QuotaReconciler.run`, on the rows of one job. -/
namespace FetchNow

open Transactions

/-- The body of the loop over settled entries of ready jobs. -/
def reconcileInvalid (now : Timestamp) (rows : DownloadRows) : Except Raised DownloadRows :=
  match rows.quota with
  | none => .ok rows
  | some quota =>
    let state := quota.entry.state
    if rows.job.publicState ≠ .ready ∨ ¬ (state = .released ∨ state = .expired) then .ok rows
    else if state = .released ∧
        isCoherentPromotedPremiumJob rows.job (some quota.entry.anonymousClientId) = true then
      .ok rows
    else do
      let quarantined ← quarantineReadyTerminalQuotaLocked now quota rows
      .ok ((quarantined.map (·.1)).getD rows)

/-- Expiry of a job that is still queued or downloading, inlined in `QuotaReconciler.run`. -/
def reconcileExpiredFields (now : Timestamp) (job : MediaDownloadJob) : MediaDownloadJob :=
  { job with
    publicState := .expired, progressStage := .expired, progressPercent := none,
    leaseOwner := none, leaseExpiresAt := none, cancelRequestedAt := none, artifactId := none,
    artifactBytes := none, artifactContentType := none, artifactContainer := none,
    publicErrorCode := none, updatedAt := now, completedAt := some (job.completedAt.getD now),
    fenceToken := job.fenceToken + 1 }

/-- Release the entry and store the job that goes with it. -/
def settleReserved (now : Timestamp) (expired : Bool) (quota : QuotaRows) (job : MediaDownloadJob)
    (rows : DownloadRows) : Except Raised DownloadRows := do
  let entry ← releaseLocked quota.entry now expired
  let job ← flushJob job
  let entry ← flushEntry entry
  .ok { rows with job, quota := some { quota with entry } }

/-- The body of the loop over reserved entries. -/
def reconcileReserved (compatibilityMode : Bool) (fresh : Nat → Uuid) (now : Timestamp)
    (rows : DownloadRows) : Except Raised DownloadRows :=
  match rows.quota with
  | none => .ok rows
  | some quota =>
    if quota.entry.state ≠ .reserved then .ok rows
    else
      match rows.job.publicState with
      | .ready =>
        match rows.job.completedAt with
        | none => .error (.quotaInvariantError "ready job lacks completion timestamp")
        | some completedAt =>
          if compatibilityMode = true then do
            let entry ← consumeLocked quota.entry completedAt
            let entry ← flushEntry entry
            .ok { rows with quota := some { quota with entry } }
          else do
            let (quota, _) ← reconcileLocked fresh now rows.job quota
            .ok { rows with quota := some quota }
      | .failed => settleReserved now false quota rows.job rows
      | .expired => settleReserved now true quota rows.job rows
      | .queued | .downloading =>
        if quota.entry.reservationExpiresAt ≤ now ∧ rows.job.expiresAt ≤ now then
          settleReserved now true quota (reconcileExpiredFields now rows.job) rows
        else .ok rows
      | .cancelled => .ok rows

/-- The predicate of `delete_terminal_entries_before`. -/
def TerminalBefore (cutoff : Timestamp) (entry : FreeDownloadQuotaEntry) : Prop :=
  (entry.state = .consumed ∧ ∃ t ∈ entry.consumedAt, t ≤ cutoff) ∨
    ((entry.state = .released ∨ entry.state = .expired) ∧ ∃ t ∈ entry.releasedAt, t ≤ cutoff)

instance (cutoff : Timestamp) (entry : FreeDownloadQuotaEntry) :
    Decidable (TerminalBefore cutoff entry) := inferInstanceAs (Decidable (_ ∨ _))

/-- Retention deletes the entry with its ledger; the job row stays. -/
def deleteTerminalEntry (cutoff : Timestamp) (rows : DownloadRows) : DownloadRows :=
  { rows with quota := rows.quota.filter fun quota => ¬ TerminalBefore cutoff quota.entry }

end FetchNow
