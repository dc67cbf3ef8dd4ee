import FetchNow.Quota.Reconcile

/-! `DownloadPremiumUpgradeService`: promotion of a ready Free artifact to the Premium policy. -/
namespace FetchNow

open Transactions

def promoteError (code : DownloadErrorCode) (reason : String) : Raised :=
  .downloadError code reason

/-- `_apply_quota_rule`: a complete delivery is charged, an incomplete one refunded. -/
def applyQuotaRule (completeCoverage : Bool) (now : Timestamp) (entry : FreeDownloadQuotaEntry) :
    Except Raised FreeDownloadQuotaEntry :=
  match entry.state with
  | .consumed => .ok entry
  | .released | .expired => .error (promoteError .quotaStateIncoherent "FREE_TERMINAL_QUOTA")
  | .reserved =>
    if completeCoverage = true then consumeLocked entry now else releaseLocked entry now false

/-- The quota side of `upgrade`: settle the reservation of the former Free job. -/
def upgradeQuota (settings : QuotaSettings) (client : Uuid) (now : Timestamp)
    (rows : DownloadRows) : Except Raised (Option QuotaRows) :=
  match rows.quota with
  | none => do
    require (settings.freeDownloadQuotaEnabled = false)
      (promoteError .quotaStateIncoherent "QUOTA_ENTRY_MISSING")
    .ok none
  | some quota => do
    require (quota.entry.anonymousClientId = client)
      (promoteError .downloadJobNotFound "QUOTA_IDENTITY_MISMATCH")
    let ranges ← closeStale (fun _ => true) now (lockRanges quota.ranges)
    require (¬ ranges.any (·.live now)) (promoteError .deliveryInProgress "ACTIVE_DELIVERY_LEASE")
    require (∀ row ∈ ranges, GenerationMatches rows.job row)
      (promoteError .quotaStateIncoherent "LEDGER_GENERATION_MISMATCH")
    let complete := closedIntervals (lockRanges ranges) = [(0, rows.job.artifactBytes.getD 0)]
    let entry ← applyQuotaRule complete now quota.entry
    let entry ← flushEntry entry
    .ok (some { entry, ranges })

/-- `active` and `authorized` are the outcomes of the identity and bearer checks; the flag of the
result is `PromoteResult.created`. -/
def upgrade (settings : QuotaSettings) (client : Uuid) (active authorized : Bool)
    (capability : PremiumCapability) (clock : Clock) (rows : DownloadRows) :
    Except Raised (DownloadRows × Bool) := do
  let now := clock 0
  let job := rows.job
  require (active = true) (promoteError .downloadJobNotFound "IDENTITY_INACTIVE")
  require (authorized = true) (promoteError .downloadJobNotFound "UNAUTHORIZED")
  require (now < job.expiresAt) (promoteError .downloadExpired "JOB_EXPIRED")
  require (job.publicState = .ready) (promoteError .downloadNotReady "NOT_READY")
  require (job.artifactId.isSome ∧ (∃ n ∈ job.artifactBytes, 0 < n) ∧ 1 ≤ job.fenceToken)
    (promoteError .downloadNotReady "ARTIFACT_INCOHERENT")
  let format := stripEffectivePolicySnapshot job.selectedFormatSnapshot
  let mediaKind ← (decodeSelectedFormatSnapshot format job.target.formatOptionId).mapError
    fun _ => promoteError .formatUnavailable "FORMAT_SNAPSHOT_INVALID"
  require (mediaKind = .normalVideo)
    (promoteError .mediaCapabilityUnavailable "MEDIA_KIND_INELIGIBLE")
  let stored ← decodeEffectivePolicySnapshot job.selectedFormatSnapshot
  match stored with
  | none => .error (promoteError .formatUnavailable "POLICY_SNAPSHOT_MISSING")
  | some policy => do
    let identity ← decodeAuthorizedIdentityId job.selectedFormatSnapshot
    if policy.tier = .premium then do
      require (identity = some client)
        (promoteError .downloadJobNotFound "PREMIUM_IDENTITY_MISMATCH")
      .ok (rows, false)
    else do
      require (capability.isPremium = true ∧ ∃ t ∈ capability.premiumExpiresAt, now < t)
        (promoteError .mediaCapabilityRequiresPremium "PREMIUM_INACTIVE")
      let quota ← upgradeQuota settings client now rows
      let premiumPolicy ← effectiveDownloadPolicy settings (some capability)
      let snapshot ← attachEffectivePolicySnapshot format premiumPolicy (some client)
      let job ← flushJob { job with selectedFormatSnapshot := snapshot, updatedAt := now }
      .ok ({ job, quota, grants := revokeActiveGrants now rows.grants }, true)

end FetchNow
