import FetchNow.Downloads.Calls
import FetchNow.Downloads.Service
import FetchNow.Jobs.Models

/-!
# Browser delivery grants

`BrowserGrantService.issue` and the writes to `media_delivery_grants`. Apart from issuance and
cleanup, a transaction only revokes grants.
-/
namespace FetchNow

open Transactions

variable {rows rows' : DownloadRows} {grants grants' grants'' : List MediaDeliveryGrant}
  {grant grant' : MediaDeliveryGrant} {now t : Timestamp} {clock : Clock} {compat : Bool}

/-! ## Revocation -/

/-- `ck_media_delivery_grants_expires_after_created` and
`ck_media_delivery_grants_revoked_after_created`. -/
structure MediaDeliveryGrant.Checked (grant : MediaDeliveryGrant) : Prop where
  expires : grant.createdAt < grant.expiresAt
  revoked : ∀ t ∈ grant.revokedAt, grant.createdAt ≤ t

/-- The grant is as it was, or has been revoked no earlier than it was created. -/
def MediaDeliveryGrant.RevokedTo (grant grant' : MediaDeliveryGrant) : Prop :=
  grant' = grant ∨ ∃ t, grant.createdAt ≤ t ∧ grant' = { grant with revokedAt := some t }

/-- Some grants have been revoked. -/
abbrev Revokes : List MediaDeliveryGrant → List MediaDeliveryGrant → Prop :=
  List.Forall₂ MediaDeliveryGrant.RevokedTo

theorem Revokes.refl (grants : List MediaDeliveryGrant) : Revokes grants grants :=
  List.forall₂_same.mpr fun _ _ => .inl rfl

theorem MediaDeliveryGrant.RevokedTo.id_eq (h : grant.RevokedTo grant') :
    grant'.id = grant.id := by
  rcases h with rfl | ⟨t, -, rfl⟩ <;> rfl

theorem MediaDeliveryGrant.RevokedTo.active (h : grant.RevokedTo grant')
    (hactive : grant'.active now = true) : grant.active now = true := by
  rcases h with rfl | ⟨t, -, rfl⟩
  · exact hactive
  · simp [MediaDeliveryGrant.active] at hactive

theorem MediaDeliveryGrant.RevokedTo.checked (h : grant.RevokedTo grant') (hgrant : grant.Checked) :
    grant'.Checked := by
  rcases h with rfl | ⟨t, ht, rfl⟩
  · exact hgrant
  · exact ⟨hgrant.expires, by simpa using ht⟩

/-- A grant that lapsed or was revoked stays so. -/
theorem MediaDeliveryGrant.active_mono (h : now ≤ t) (hactive : grant.active t = true) :
    grant.active now = true := by
  simp only [MediaDeliveryGrant.active, Bool.and_eq_true, decide_eq_true_eq] at hactive ⊢
  exact ⟨hactive.1, lt_of_le_of_lt h hactive.2⟩

theorem MediaDeliveryGrant.not_active_mono (h : t ≤ now) (hinactive : grant.active t = false) :
    grant.active now = false := by
  by_contra hactive
  rw [MediaDeliveryGrant.active_mono h (by simpa using hactive)] at hinactive
  cases hinactive

/-- The grants that are neither revoked nor expired. -/
def activeCount (now : Timestamp) (grants : List MediaDeliveryGrant) : ℕ :=
  grants.countP (·.active now)

theorem activeCount_mono (h : now ≤ t) : activeCount t grants ≤ activeCount now grants :=
  List.countP_mono_left fun _ _ => MediaDeliveryGrant.active_mono h

theorem Revokes.activeCount_le (h : Revokes grants grants') :
    activeCount now grants' ≤ activeCount now grants := by
  induction h with
  | nil => exact le_rfl
  | @cons grant grant' grants grants' hfirst _ ih =>
    simp only [activeCount, List.countP_cons] at ih ⊢
    have hone : (if grant'.active now = true then 1 else 0) ≤
        if grant.active now = true then 1 else 0 := by
      by_cases hactive : grant'.active now = true
      · rw [if_pos hactive, if_pos (hfirst.active hactive)]
      · rw [if_neg hactive]
        exact Nat.zero_le _
    omega

/-- Every grant after a revocation was there before. -/
theorem Revokes.mem (h : Revokes grants grants') (hgrant : grant' ∈ grants') :
    ∃ grant ∈ grants, grant.RevokedTo grant' := by
  induction h with
  | nil => exact absurd hgrant List.not_mem_nil
  | @cons first first' rest rest' hfirst _ ih =>
    rcases List.mem_cons.mp hgrant with rfl | hgrant
    · exact ⟨first, List.mem_cons_self, hfirst⟩
    · obtain ⟨grant, hmem, hrevoked⟩ := ih hgrant
      exact ⟨grant, List.mem_cons_of_mem _ hmem, hrevoked⟩

def MediaDeliveryGrant.revoke (now : Timestamp) (grant : MediaDeliveryGrant) :
    MediaDeliveryGrant :=
  { grant with revokedAt := some (if now ≥ grant.createdAt then now else grant.createdAt) }

/-- `revoke_grants` on the chosen rows of a job. -/
def revokeGrants (now : Timestamp) (chosen : MediaDeliveryGrant → Bool)
    (grants : List MediaDeliveryGrant) : List MediaDeliveryGrant :=
  grants.map fun grant => if chosen grant then grant.revoke now else grant

theorem MediaDeliveryGrant.revoke_revokedTo (now : Timestamp) (grant : MediaDeliveryGrant) :
    grant.RevokedTo (grant.revoke now) := by
  refine .inr ⟨_, ?_, rfl⟩
  split
  · assumption
  · exact le_rfl

theorem revokeGrants_revokes (now : Timestamp) (chosen : MediaDeliveryGrant → Bool)
    (grants : List MediaDeliveryGrant) : Revokes grants (revokeGrants now chosen grants) := by
  refine List.forall₂_map_right_iff.mpr (List.forall₂_same.mpr fun grant _ => ?_)
  by_cases hchosen : chosen grant = true
  · rw [if_pos hchosen]
    exact grant.revoke_revokedTo now
  · rw [if_neg hchosen]
    exact .inl rfl

theorem revokeActiveGrants_revokes (now : Timestamp) (grants : List MediaDeliveryGrant) :
    Revokes grants (revokeActiveGrants now grants) :=
  revokeGrants_revokes now (·.active now) grants

/-- Whatever clock the caller read, no grant is active afterwards. -/
theorem not_active_revokeActiveGrants (h : grant ∈ revokeActiveGrants now grants) :
    grant.active now = false := by
  obtain ⟨before, -, rfl⟩ := List.mem_map.mp h
  by_cases hactive : before.active now = true
  · rw [if_pos hactive]
    rfl
  · rw [if_neg hactive]
    simpa using hactive

/-! ## Calls on a download job -/

section Calls

variable {owner : String} {fence : Nat} {code : DownloadErrorCode} {applied : Bool}
  {quota : QuotaRows} {artifactIds : List Uuid} {fresh : Nat → Uuid}

theorem onJob_grants {write : MediaDownloadJob → Except Raised (MediaDownloadJob × Bool)}
    (h : rows.onJob write = .ok (rows', applied)) : rows'.grants = rows.grants := by
  obtain ⟨_, _, rfl⟩ := onJob_eq_ok.mp h
  rfl

/-- An update of the job row that is followed by a write of the entry. -/
theorem settleUpdate_grants {guard : Prop} [Decidable guard]
    {write : MediaDownloadJob → MediaDownloadJob} {settled : Except Raised (Option QuotaRows)}
    (h : (do
      let (job, applied) ← updateJob guard write rows.job
      if applied = true then do
        let quota ← settled
        .ok ({ rows with job, quota }, applied)
      else .ok ({ rows with job }, applied)) = .ok (rows', applied)) :
    rows'.grants = rows.grants := by
  obtain ⟨⟨job, updated⟩, hupdate, h⟩ := bind_eq_ok.mp h
  dsimp only at h
  split at h
  · obtain ⟨_, _, h⟩ := bind_eq_ok.mp h
    cases h
    rfl
  · cases h
    rfl

theorem completeReady_grants {artifact : Artifact}
    (h : completeReady owner fence artifact clock compat rows = .ok (rows', applied)) :
    rows'.grants = rows.grants := by
  rcases completeReady_cases h with ⟨_, _, _, _, _, _, _, rfl⟩ | ⟨_, rfl⟩ <;> rfl

theorem failPermanent_grants
    (h : failPermanent owner fence code clock rows = .ok (rows', applied)) :
    rows'.grants = rows.grants := by
  obtain ⟨_, _, h⟩ := bind_eq_ok.mp h
  exact settleUpdate_grants h

theorem completeCancelled_grants
    (h : completeCancelled owner fence clock rows = .ok (rows', applied)) :
    rows'.grants = rows.grants := by
  obtain ⟨_, _, h⟩ := bind_eq_ok.mp h
  exact settleUpdate_grants h

theorem failRetry_grants {seen : Option MediaDownloadJob} {backoff : Timestamp}
    (h : failRetry seen owner fence now backoff code clock rows = .ok (rows', applied)) :
    rows'.grants = rows.grants := by
  unfold failRetry at h
  split at h
  · cases h
    rfl
  split at h
  · cases h
    rfl
  split at h
  · exact completeCancelled_grants h
  split at h
  · exact failPermanent_grants h
  obtain ⟨_, _, h⟩ := bind_eq_ok.mp h
  exact onJob_grants h

theorem WorkerCall.run_grants {call : WorkerCall}
    (h : call.run compat owner fence rows = .ok (rows', applied)) :
    rows'.grants = rows.grants := by
  cases call with
  | leaseStatus =>
    obtain ⟨⟨job, _⟩, _, h⟩ := bind_eq_ok.mp h
    cases h
    rfl
  | completeReady => exact completeReady_grants h
  | failPermanent => exact failPermanent_grants h
  | failRetry => exact failRetry_grants h
  | completeCancelled => exact completeCancelled_grants h
  | renewLease | setProgressStage | setProgressPercent | releaseToQueued => exact onJob_grants h

theorem requestCancel_grants {seen : MediaDownloadJob}
    (h : requestCancel seen now clock rows = .ok rows') :
    rows'.grants = rows.grants := by
  simp only [requestCancel] at h
  split at h
  · cases h
    rfl
  split at h
  case h_4 =>
    obtain ⟨_, _, _, _, _, _, h⟩ := by simpa only [bind_eq_ok] using h
    cases h
    rfl
  case h_5 =>
    split at h
    · cases h
      rfl
    · obtain ⟨_, _, h⟩ := bind_eq_ok.mp h
      cases h
      rfl
  all_goals
    cases h
    try rfl

theorem reclaimExpiredLeases_grants (h : reclaimExpiredLeases now clock rows = .ok rows') :
    rows'.grants = rows.grants := by
  simp only [reclaimExpiredLeases] at h
  split at h
  · split at h
    · simp only [bind_eq_ok] at h
      obtain ⟨_, _, _, _, _, _, h⟩ := h
      cases h
      rfl
    split at h
    · simp only [bind_eq_ok] at h
      obtain ⟨_, _, _, _, _, _, h⟩ := h
      cases h
      rfl
    · simp only [bind_eq_ok] at h
      obtain ⟨_, _, _, _, h⟩ := h
      cases h
      rfl
  · cases h
    rfl

theorem expireJob_revokes (h : expireJob now clock rows = .ok (rows', artifactIds)) :
    Revokes rows.grants rows'.grants := by
  have hgrants : Revokes rows.grants
      (if rows.job.publicState = .ready then revokeActiveGrants now rows.grants
        else rows.grants) := by
    split
    · exact revokeActiveGrants_revokes now rows.grants
    · exact .refl _
  simp only [expireJob] at h
  obtain ⟨⟨job, ids⟩, _, h⟩ := bind_eq_ok.mp h
  dsimp only at h
  split at h
  · cases h
    exact hgrants
  split at h
  · simp only [bind_eq_ok] at h
    obtain ⟨_, _, _, _, h⟩ := h
    cases h
    exact hgrants
  · cases h
    exact hgrants

theorem quarantine_revokes {quarantined : Option (DownloadRows × List Uuid)}
    (h : quarantineReadyTerminalQuotaLocked now quota rows = .ok quarantined) :
    ∀ result ∈ quarantined, Revokes rows.grants result.1.grants := by
  unfold quarantineReadyTerminalQuotaLocked at h
  split at h
  · cases h
    exact fun _ h => absurd h (Option.not_mem_none _)
  · obtain ⟨⟨job, ids⟩, _, h⟩ := bind_eq_ok.mp h
    cases h
    rintro result ⟨⟩
    exact revokeActiveGrants_revokes now rows.grants

theorem expireDueJob_revokes (h : expireDueJob fresh now clock rows = .ok (rows', artifactIds)) :
    Revokes rows.grants rows'.grants := by
  simp only [expireDueJob] at h
  split at h
  · cases h
    exact .refl _
  split at h
  · exact expireJob_revokes h
  split at h
  · split at h
    · cases h
      exact .refl _
    · exact expireJob_revokes h
  split at h
  · obtain ⟨quarantined, hquarantine, h⟩ := bind_eq_ok.mp h
    cases quarantined with
    | none =>
      cases h
      exact .refl _
    | some result =>
      cases h
      exact quarantine_revokes hquarantine _ rfl
  split at h
  · obtain ⟨⟨quota', result⟩, _, h⟩ := bind_eq_ok.mp h
    dsimp only at h
    split at h
    · cases h
      exact .refl _
    · exact @expireJob_revokes { rows with quota := some quota' } _ _ _ _ h
  · exact expireJob_revokes h

theorem reconcileInvalid_revokes (h : reconcileInvalid now rows = .ok rows') :
    Revokes rows.grants rows'.grants := by
  simp only [reconcileInvalid] at h
  split at h
  · cases h
    exact .refl _
  split at h
  · cases h
    exact .refl _
  split at h
  · cases h
    exact .refl _
  obtain ⟨quarantined, hquarantine, h⟩ := bind_eq_ok.mp h
  cases quarantined with
  | none =>
    cases h
    exact .refl _
  | some result =>
    cases h
    exact quarantine_revokes hquarantine _ rfl

theorem settleReserved_grants {expired : Bool} {job : MediaDownloadJob}
    (h : settleReserved now expired quota job rows = .ok rows') : rows'.grants = rows.grants := by
  simp only [settleReserved, bind_eq_ok] at h
  obtain ⟨_, _, _, _, _, _, h⟩ := h
  cases h
  rfl

theorem reconcileReserved_grants (h : reconcileReserved compat fresh now rows = .ok rows') :
    rows'.grants = rows.grants := by
  simp only [reconcileReserved] at h
  split at h
  · cases h
    rfl
  split at h
  · cases h
    rfl
  split at h
  · split at h
    · cases h
    split at h
    · simp only [bind_eq_ok] at h
      obtain ⟨_, _, _, _, h⟩ := h
      cases h
      rfl
    · obtain ⟨⟨quota', result⟩, _, h⟩ := bind_eq_ok.mp h
      cases h
      rfl
  · exact settleReserved_grants h
  · exact settleReserved_grants h
  · split at h
    · exact settleReserved_grants h
    · cases h
      rfl
  · split at h
    · exact settleReserved_grants h
    · cases h
      rfl
  · cases h
    rfl

theorem LedgerFrame.grants_eq (h : LedgerFrame now rows rows') : rows'.grants = rows.grants := by
  cases h <;> rfl

/-- A promotion revokes every grant that is active by the clock it read before its locks; a repeated
one writes nothing. -/
theorem upgrade_cases {settings : QuotaSettings} {client : Uuid} {active authorized created : Bool}
    {capability : PremiumCapability}
    (h : upgrade settings client active authorized capability clock rows = .ok (rows', created)) :
    (created = true ∧ rows'.grants = revokeActiveGrants (clock 0) rows.grants) ∨
      (created = false ∧ rows' = rows) := by
  simp only [upgrade, bind_eq_ok] at h
  obtain ⟨_, _, _, _, _, _, _, _, _, _, _, _, _, _, stored, _, h⟩ := h
  split at h
  · cases h
  obtain ⟨_, _, h⟩ := bind_eq_ok.mp h
  split at h
  · obtain ⟨_, _, h⟩ := bind_eq_ok.mp h
    cases h
    exact .inr ⟨rfl, rfl⟩
  · simp only [bind_eq_ok] at h
    obtain ⟨_, _, _, _, _, _, _, _, _, _, h⟩ := h
    cases h
    exact .inl ⟨rfl, rfl⟩

theorem Enqueued.grants_eq_nil (h : Enqueued rows) : rows.grants = [] := by
  cases h with
  | reserved hcreated =>
    obtain ⟨request, now, ttl, parentExpiresAt, entryId, client, reservedAt, policy, _, h⟩ :=
      hcreated
    simp only [create, bind_eq_ok] at h
    obtain ⟨⟨_, _⟩, _, _, _, _, _, _, _, h⟩ := h
    cases h
    rfl
  | unreserved => rfl

/-- A call on a download job does not touch its grants, except to revoke them. -/
theorem Call.run_revokes {call : Call} (h : call.run compat rows = .ok rows') :
    Revokes rows.grants rows'.grants := by
  have hkept {rows' : DownloadRows} (h : rows'.grants = rows.grants) :
      Revokes rows.grants rows'.grants := by
    rw [h]
    exact .refl _
  cases call with
  | requestCancel => exact hkept (requestCancel_grants h)
  | reclaimExpiredLeases => exact hkept (reclaimExpiredLeases_grants h)
  | reconcileReserved => exact hkept (reconcileReserved_grants h)
  | deleteTerminalEntry =>
    cases h
    exact hkept rfl
  | reconcileInvalid =>
    rcases savepoint_eq_ok h with h | rfl
    · exact reconcileInvalid_revokes h
    · exact .refl _
  | expireDueJobs =>
    obtain ⟨⟨_, _⟩, hexpire, h⟩ := bind_eq_ok.mp h
    cases h
    rcases savepoint_eq_ok hexpire with hexpire | hexpire
    · obtain ⟨⟨_, _⟩, hjob, hresult⟩ := bind_eq_ok.mp hexpire
      cases hresult
      exact expireDueJob_revokes hjob
    · cases hexpire
      exact .refl _
  | upgrade =>
    obtain ⟨⟨_, _⟩, hupgrade, h⟩ := bind_eq_ok.mp h
    cases h
    rcases upgrade_cases hupgrade with ⟨_, hgrants⟩ | ⟨_, rfl⟩
    · rw [hgrants]
      exact revokeActiveGrants_revokes _ _
    · exact .refl _
  | claimNext =>
    obtain ⟨⟨_, _⟩, hwrite, h⟩ := bind_eq_ok.mp h
    cases h
    exact hkept (onJob_grants hwrite)
  | worker =>
    obtain ⟨⟨_, _⟩, hworker, h⟩ := bind_eq_ok.mp h
    cases h
    exact hkept (WorkerCall.run_grants hworker)
  | begin =>
    obtain ⟨⟨_, _⟩, hbegin, h⟩ := bind_eq_ok.mp h
    cases h
    exact hkept (begin_spec hbegin).frame.grants_eq
  | checkpoint =>
    obtain ⟨⟨_, _⟩, hcheckpoint, h⟩ := bind_eq_ok.mp h
    cases h
    exact hkept (checkpoint_spec hcheckpoint).frame.grants_eq
  | finalize =>
    obtain ⟨⟨_, _⟩, hfinalize, h⟩ := bind_eq_ok.mp h
    cases h
    exact hkept (finalize_spec hfinalize).frame.grants_eq

end Calls

/-! ## Issuance -/

/-- The settings of browser delivery, with the range that they are validated against. -/
structure GrantSettings where
  mediaDownloadsEnabled : Bool
  mediaDeliveryEnabled : Bool
  mediaBrowserDeliveryEnabled : Bool
  mediaBrowserGrantTtlSeconds : ℕ
  mediaBrowserGrantMaxActive : ℕ
  ttl : 30 ≤ mediaBrowserGrantTtlSeconds ∧ mediaBrowserGrantTtlSeconds ≤ 3600
  maxActive : 1 ≤ mediaBrowserGrantMaxActive ∧ mediaBrowserGrantMaxActive ≤ 16

/-- The columns of `media_jobs` that grants are checked against. -/
structure ParentJob where
  publicState : Jobs.MediaJobState
  credentialHash : List UInt8
  expiresAt : Timestamp
  deriving DecidableEq

/-- The artifact pointer of a published job is complete. -/
def PointerComplete (job : MediaDownloadJob) : Prop :=
  job.artifactId.isSome ∧ job.artifactBytes.isSome ∧ job.artifactContainer.isSome ∧
    job.artifactContentType.isSome ∧ job.completedAt.isSome ∧ job.publicErrorCode = none

instance (job : MediaDownloadJob) : Decidable (PointerComplete job) :=
  inferInstanceAs (Decidable (_ ∧ _))

/-- Neither the parent nor the job has expired, by their states and by the clock. -/
def Unexpired (now : Timestamp) (parent : ParentJob) (job : MediaDownloadJob) : Prop :=
  parent.publicState ≠ .expired ∧ now < parent.expiresAt ∧ job.publicState ≠ .expired ∧
    now < job.expiresAt

instance (parent : ParentJob) (job : MediaDownloadJob) : Decidable (Unexpired now parent job) :=
  inferInstanceAs (Decidable (_ ∧ _))

/-- `list_active_for_job`; rows created at the same time come in any order. -/
structure ListsActive (now : Timestamp) (grants active : List MediaDeliveryGrant) : Prop where
  perm : active.Perm (grants.filter (·.active now))
  sorted : active.Pairwise fun a b => a.createdAt ≤ b.createdAt

/-- `insert_grant`. -/
def insertGrant (newId artifactId : Uuid) (fenceToken : ℕ) (createdAt expiresAt : Timestamp) :
    Except Raised MediaDeliveryGrant := do
  require (createdAt < expiresAt) (internalError "GRANT_TTL_INVALID")
  .ok { id := newId, artifactId, fenceToken, createdAt, expiresAt, revokedAt := none }

/-- `BrowserGrantService.issue`, from the hash of the bearer token on. `active` is what
`list_active_for_job` returned, and `now` was read under the lock of the job. -/
def issue (settings : GrantSettings) (credentialHash : Except Raised (List UInt8))
    (parent : Option ParentJob) (now : Timestamp) (active : List MediaDeliveryGrant)
    (newId : Uuid) (locked : Option DownloadRows) :
    Except Raised (DownloadRows × MediaDeliveryGrant) := do
  let credentialHash ← credentialHash
  require (settings.mediaBrowserDeliveryEnabled = true)
    (.downloadError .deliveryDisabled "BROWSER_DELIVERY_DISABLED")
  require (settings.mediaDownloadsEnabled = true)
    (.downloadError .downloadsDisabled "DOWNLOADS_DISABLED")
  match locked, parent with
  | none, _ => .error (.downloadError .downloadJobNotFound "MISSING")
  | some _, none => .error (.downloadError .downloadJobNotFound "UNAUTHORIZED")
  | some rows, some parent => do
    let job := rows.job
    require (parent.credentialHash = credentialHash)
      (.downloadError .downloadJobNotFound "UNAUTHORIZED")
    require (Unexpired now parent job) (.downloadError .downloadExpired "TTL_ELAPSED")
    require (job.publicState = .ready) (.downloadError .downloadNotReady "NOT_READY")
    require (PointerComplete job)
      (.downloadError .downloadStorageUnavailable "READY_POINTER_INCOMPLETE")
    let grantExpires := min (now + seconds settings.mediaBrowserGrantTtlSeconds) job.expiresAt
    require (now < grantExpires) (.downloadError .downloadExpired "GRANT_TTL_ELAPSED")
    let overflow := active.length - (settings.mediaBrowserGrantMaxActive - 1)
    let evicted := (active.take overflow).map (·.id)
    let grants := revokeGrants now (fun grant => evicted.contains grant.id) rows.grants
    let grant ← insertGrant newId (job.artifactId.getD 0) job.fenceToken now grantExpires
    .ok ({ rows with grants := grants ++ [grant] }, grant)

section Issue

variable {settings : GrantSettings} {credentialHash : Except Raised (List UInt8)}
  {parent : Option ParentJob} {active : List MediaDeliveryGrant} {newId : Uuid}
  {locked : Option DownloadRows}

/-- What an issued grant is: the job was ready with its artifact, and room was made for it. -/
structure Issues (settings : GrantSettings) (now : Timestamp) (active : List MediaDeliveryGrant)
    (newId : Uuid) (rows rows' : DownloadRows) (grant : MediaDeliveryGrant) : Prop where
  ready : rows.job.publicState = .ready
  artifact : rows.job.artifactId = some grant.artifactId
  fence : rows.job.fenceToken = grant.fenceToken
  id : grant.id = newId
  created : grant.createdAt = now
  expires : now < grant.expiresAt
  unrevoked : grant.revokedAt = none
  written : rows' = { rows with
    grants := revokeGrants now
      (fun grant => ((active.take (active.length - (settings.mediaBrowserGrantMaxActive - 1))).map
        (·.id)).contains grant.id) rows.grants ++ [grant] }

theorem issue_spec
    (h : issue settings credentialHash parent now active newId locked = .ok (rows', grant)) :
    ∃ rows, locked = some rows ∧ Issues settings now active newId rows rows' grant := by
  simp only [issue, bind_eq_ok] at h
  obtain ⟨_, _, _, _, _, _, h⟩ := h
  split at h
  · cases h
  · cases h
  rename_i rows parent
  simp only [bind_eq_ok, require_eq_ok, insertGrant] at h
  obtain ⟨_, _, _, _, _, hready, _, hpointer, _, hexpires, _, ⟨_, _, hgrant⟩, h⟩ := h
  cases hgrant
  cases h
  obtain ⟨artifactId, hartifact⟩ := Option.isSome_iff_exists.mp hpointer.1
  exact ⟨rows, rfl, hready, by simp [hartifact], rfl, rfl, rfl, hexpires, rfl, rfl⟩

theorem Issues.isActive (h : Issues settings now active newId rows rows' grant) :
    grant.active now = true := by
  simp [MediaDeliveryGrant.active, h.unrevoked, h.expires]

theorem Issues.checked (h : Issues settings now active newId rows rows' grant) : grant.Checked where
  expires := by
    rw [h.created]
    exact h.expires
  revoked := by
    rw [h.unrevoked]
    exact fun _ ht => absurd ht (Option.not_mem_none _)

/-- The grants of the job are the new one and those it had, some of them revoked. -/
theorem Issues.mem {other : MediaDeliveryGrant}
    (h : Issues settings now active newId rows rows' grant) (hother : other ∈ rows'.grants) :
    other = grant ∨ ∃ before ∈ rows.grants, before.RevokedTo other := by
  rw [h.written] at hother
  rcases List.mem_append.mp hother with hother | hother
  · exact .inr ((revokeGrants_revokes _ _ _).mem hother)
  · exact .inl (List.mem_singleton.mp hother)

theorem Issues.mem_self (h : Issues settings now active newId rows rows' grant) :
    grant ∈ rows'.grants := by
  rw [h.written]
  exact List.mem_append_right _ List.mem_cons_self

/-- What is active after the eviction was active before and was not evicted. -/
theorem activeCount_revokeGrants (hactive : ListsActive now grants active) (n : ℕ) :
    activeCount now
        (revokeGrants now (fun grant => ((active.take n).map (·.id)).contains grant.id) grants) ≤
      active.length - n := by
  set chosen : MediaDeliveryGrant → Bool :=
    fun grant => ((active.take n).map (·.id)).contains grant.id with hchosen
  have hkept : activeCount now (revokeGrants now chosen grants) =
      (grants.filter (·.active now)).countP (fun grant => !chosen grant) := by
    rw [activeCount, revokeGrants, List.countP_map, List.countP_filter]
    apply List.countP_congr
    intro grant _
    by_cases hc : chosen grant = true
    · simp [hc, MediaDeliveryGrant.active, MediaDeliveryGrant.revoke]
    · simp [hc]
  have htaken : (active.take n).countP (fun grant => !chosen grant) = 0 := by
    rw [List.countP_eq_zero]
    intro grant hgrant
    have hmem : chosen grant = true := by
      rw [hchosen]
      exact List.contains_iff_mem.mpr (List.mem_map_of_mem hgrant)
    simp [hmem]
  rw [hkept, ← hactive.perm.countP_eq, ← List.take_append_drop n active, List.countP_append,
    htaken, Nat.zero_add]
  refine (List.countP_le_length).trans ?_
  simp

/-- After an issue the job has at most as many active grants as the settings allow. -/
theorem Issues.activeCount_le (hactive : ListsActive now rows.grants active)
    (h : Issues settings now active newId rows rows' grant) :
    activeCount now rows'.grants ≤ settings.mediaBrowserGrantMaxActive := by
  have hroom := activeCount_revokeGrants hactive
    (active.length - (settings.mediaBrowserGrantMaxActive - 1))
  have hone : activeCount now [grant] ≤ 1 := List.countP_le_length
  have hmax := settings.maxActive
  rw [h.written]
  simp only [activeCount, List.countP_append] at hroom hone ⊢
  omega

end Issue

end FetchNow
