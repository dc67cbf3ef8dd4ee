import FetchNow.Downloads.Coherence
import FetchNow.Downloads.Grants
import Mathlib.Logic.Function.Basic

/-!
# Browser grants under concurrency

Issuance, promotion, expiry and cleanup commit whole transactions. `authorize_browser_grant` takes
no lock: each of its reads sees what is committed at that moment.
-/
namespace FetchNow.Delivery

open Transactions

/-- The columns of a grant that no statement updates; identifiers are never used again. -/
structure IssuedGrant where
  id : Uuid
  downloadJobId : Uuid
  tokenHash : List UInt8
  deriving DecidableEq, Repr

/-- A call of `authorize_browser_grant`, by what it has read so far. -/
inductive AuthorizeCall where
  | entered (grantId : Uuid) (tokenHash : List UInt8)
  | granted (jobId : Uuid) (grant : MediaDeliveryGrant)
  | timed (jobId : Uuid) (grant : MediaDeliveryGrant) (now : Timestamp)
  | located (jobId : Uuid) (grant : MediaDeliveryGrant) (now : Timestamp) (job : MediaDownloadJob)
  | authorized (jobId : Uuid) (grant : MediaDeliveryGrant) (now : Timestamp)
      (job : MediaDownloadJob) (parent : ParentJob)
  | rejected (raised : Raised)
  deriving DecidableEq

/-- The database and the calls in flight. `now` is its clock. -/
structure GrantWorld where
  now : Timestamp
  jobs : Uuid → Option DownloadRows
  parents : Uuid → Option ParentJob
  issued : List IssuedGrant
  calls : List AuthorizeCall

/-- No grant has been issued yet and nobody has asked. -/
def GrantWorld.initial (now : Timestamp) (parents : Uuid → Option ParentJob) : GrantWorld :=
  ⟨now, fun _ => none, parents, [], []⟩

variable {settings : GrantSettings} {compat : Bool} {w w' w₀ : GrantWorld} {i : ℕ}
  {call call' : AuthorizeCall} {jobId grantId : Uuid} {grant : MediaDeliveryGrant}
  {rows rows' : DownloadRows} {now t : Timestamp} {job : MediaDownloadJob} {parent : ParentJob}

/-! ## Reading -/

/-- `get_by_id`: the row of a grant with the job that it belongs to. -/
def GrantWorld.getGrant (w : GrantWorld) (grantId : Uuid) :
    Option (IssuedGrant × MediaDeliveryGrant) := do
  let entry ← w.issued.find? (·.id = grantId)
  let rows ← w.jobs entry.downloadJobId
  let grant ← rows.grants.find? (·.id = grantId)
  some (entry, grant)

/-- The rows of `media_delivery_grants`. -/
def GrantWorld.table (w : GrantWorld) : List MediaDeliveryGrant :=
  w.issued.filterMap fun entry => (w.getGrant entry.id).map (·.2)

def grantHashesMatch (left right : List UInt8) : Bool :=
  left.length = 32 && right.length = 32 && left = right

/-- `_assert_ready_pointer` and the comparison with the grant. -/
def authorizeJob (grant : MediaDeliveryGrant) (now : Timestamp) (job : MediaDownloadJob)
    (parent : Option ParentJob) : Except Raised ParentJob :=
  match parent with
  | none => .error (.downloadError .downloadJobNotFound "GRANT_PARENT_MISSING")
  | some parent => do
    require (Unexpired now parent job) (.downloadError .downloadExpired "TTL_ELAPSED")
    require (job.publicState = .ready) (.downloadError .downloadNotReady "NOT_READY")
    require (PointerComplete job)
      (.downloadError .downloadStorageUnavailable "READY_POINTER_INCOMPLETE")
    require (∃ bytes ∈ job.artifactBytes, 0 < bytes)
      (.downloadError .downloadStorageUnavailable "READY_POINTER_EMPTY")
    require (job.artifactId = some grant.artifactId ∧ job.fenceToken = grant.fenceToken)
      (.downloadError .downloadJobNotFound "GRANT_ARTIFACT_MISMATCH")
    let _ ← (decodeEffectivePolicySnapshot job.selectedFormatSnapshot).mapError fun _ =>
      .downloadError .downloadStorageUnavailable "POLICY_SNAPSHOT_INVALID"
    .ok parent

/-- The checks before any database work; `tokenHash` is absent for a malformed token. -/
def authorizeBrowserGrant (settings : GrantSettings) (grantId : Uuid)
    (tokenHash : Option (List UInt8)) : AuthorizeCall :=
  match tokenHash with
  | none => .rejected (.downloadError .downloadJobNotFound "GRANT_TOKEN_SHAPE")
  | some tokenHash =>
    if settings.mediaDeliveryEnabled = false then
      .rejected (.downloadError .deliveryDisabled "DELIVERY_DISABLED")
    else if settings.mediaBrowserDeliveryEnabled = false then
      .rejected (.downloadError .deliveryDisabled "BROWSER_DELIVERY_DISABLED")
    else .entered grantId tokenHash

/-- The next read of a call, and the checks that follow it. -/
def AuthorizeCall.read (w : GrantWorld) : AuthorizeCall → Option AuthorizeCall
  | .entered grantId tokenHash =>
    match w.getGrant grantId with
    | none => some (.rejected (.downloadError .downloadJobNotFound "GRANT_UNAUTHORIZED"))
    | some (entry, grant) =>
      if grantHashesMatch entry.tokenHash tokenHash then some (.granted entry.downloadJobId grant)
      else some (.rejected (.downloadError .downloadJobNotFound "GRANT_UNAUTHORIZED"))
  | .granted jobId grant =>
    if grant.active w.now then some (.timed jobId grant w.now)
    else some (.rejected (.downloadError .downloadExpired "GRANT_EXPIRED"))
  | .timed jobId grant now =>
    match w.jobs jobId with
    | none => some (.rejected (.downloadError .downloadJobNotFound "GRANT_JOB_MISSING"))
    | some rows => some (.located jobId grant now rows.job)
  | .located jobId grant now job =>
    match authorizeJob grant now job (w.parents job.target.mediaJobId) with
    | .ok parent => some (.authorized jobId grant now job parent)
    | .error raised => some (.rejected raised)
  | .authorized .. | .rejected _ => none

/-! ## The system -/

/-- `delete_expired_batch`: `locked` are the rows that another transaction has locked. -/
def deleteExpiredBatch (now : Timestamp) (limit : ℕ) (locked : Uuid → Bool) (w : GrantWorld) :
    GrantWorld :=
  let due := w.table.filter fun grant => !grant.active now && !locked grant.id
  let ids := ((due.mergeSort fun a b => a.expiresAt ≤ b.expiresAt).take limit).map (·.id)
  { w with jobs := fun jobId => (w.jobs jobId).map fun rows =>
      { rows with grants := rows.grants.filter fun grant => !ids.contains grant.id } }

inductive GrantLabel where
  | clock
  | parent (parentId : Uuid)
  | enqueue (jobId : Uuid)
  | call (jobId : Uuid) (call : Call)
  | issue (jobId grantId : Uuid) (now : Timestamp)
  | cleanup (now : Timestamp)
  | enter
  | read (i : ℕ)

/-- One committed transaction, one read of an authorization, or time passing. -/
inductive GrantStep (settings : GrantSettings) (compat : Bool) :
    GrantLabel → GrantWorld → GrantWorld → Prop
  | clock {w : GrantWorld} {now : Timestamp} (hnow : w.now ≤ now) :
      GrantStep settings compat .clock w { w with now }
  | parent {w : GrantWorld} (parentId : Uuid) (parent : ParentJob) :
      GrantStep settings compat (.parent parentId) w
        { w with parents := Function.update w.parents parentId (some parent) }
  | enqueue {w : GrantWorld} {jobId : Uuid} {rows : DownloadRows} (hnew : w.jobs jobId = none)
      (hrows : Enqueued rows) (hid : rows.job.id = jobId) :
      GrantStep settings compat (.enqueue jobId) w
        { w with jobs := Function.update w.jobs jobId (some rows) }
  -- A promotion reads its clock before it waits for its locks.
  | call {w : GrantWorld} {jobId : Uuid} {call : Call} {rows rows' : DownloadRows}
      (hjob : w.jobs jobId = some rows) (hrun : call.run compat rows = .ok rows')
      (hclock : ∀ {settings client active authorized capability clock},
        call = .upgrade settings client active authorized capability clock → clock 0 ≤ w.now) :
      GrantStep settings compat (.call jobId call) w
        { w with jobs := Function.update w.jobs jobId (some rows') }
  | issue {w : GrantWorld} {jobId newId : Uuid} {credentialHash : Except Raised (List UInt8)}
      {parent : Option ParentJob} {now : Timestamp} {active : List MediaDeliveryGrant}
      {rows rows' : DownloadRows} {grant : MediaDeliveryGrant} {tokenHash : List UInt8}
      (hnow : now ≤ w.now) (hjob : w.jobs jobId = some rows)
      (hactive : ListsActive now rows.grants active) (hfresh : ∀ entry ∈ w.issued, entry.id ≠ newId)
      (hparent : parent = w.parents rows.job.target.mediaJobId)
      (hissue : issue settings credentialHash parent now active newId (some rows) =
        .ok (rows', grant)) :
      GrantStep settings compat (.issue jobId newId now) w
        { w with
          jobs := Function.update w.jobs jobId (some rows')
          issued := ⟨newId, jobId, tokenHash⟩ :: w.issued }
  | cleanup {w : GrantWorld} {now : Timestamp} {limit : ℕ} {locked : Uuid → Bool}
      (hnow : now ≤ w.now) :
      GrantStep settings compat (.cleanup now) w (deleteExpiredBatch now limit locked w)
  | enter {w : GrantWorld} {grantId : Uuid} {tokenHash : Option (List UInt8)} :
      GrantStep settings compat .enter w
        { w with calls := w.calls ++ [authorizeBrowserGrant settings grantId tokenHash] }
  | read {w : GrantWorld} {i : ℕ} {call call' : AuthorizeCall} (hi : w.calls[i]? = some call)
      (hread : call.read w = some call') :
      GrantStep settings compat (.read i) w { w with calls := w.calls.set i call' }

/-! ## What a step does to the grants of a job -/

/-- The step is a promotion that takes effect. -/
def Promotes (jobId : Uuid) (label : GrantLabel) (w : GrantWorld) : Prop :=
  ∃ settings client active authorized capability clock rows rows',
    label = .call jobId (.upgrade settings client active authorized capability clock) ∧
      w.jobs jobId = some rows ∧
        upgrade settings client active authorized capability clock rows = .ok (rows', true)

variable {label : GrantLabel}

/-- The grants of a job after a step, by where they come from. -/
inductive GrantsChange (settings : GrantSettings) (label : GrantLabel) (w w' : GrantWorld)
    (jobId : Uuid) (rows' : DownloadRows) : Prop
  | created (hgrants : rows'.grants = [])
  | revoked {rows : DownloadRows} (hjob : w.jobs jobId = some rows)
      (hrevokes : Revokes rows.grants rows'.grants)
  | pruned {rows : DownloadRows} (hjob : w.jobs jobId = some rows)
      (hgrants : rows'.grants.Sublist rows.grants)
  | issued {rows : DownloadRows} {newId : Uuid} {now : Timestamp}
      {active : List MediaDeliveryGrant} {grant : MediaDeliveryGrant}
      (hlabel : label = .issue jobId newId now) (hnow : now ≤ w.now)
      (hjob : w.jobs jobId = some rows) (hactive : ListsActive now rows.grants active)
      (hfresh : ∀ entry ∈ w.issued, entry.id ≠ newId)
      (hlisted : ∃ entry ∈ w'.issued, entry.id = newId ∧ entry.downloadJobId = jobId)
      (hissues : Issues settings now active newId rows rows' grant)

theorem grantsChange_of_eq (h : w'.jobs = w.jobs) (hjob : w'.jobs jobId = some rows') :
    GrantsChange settings label w w' jobId rows' :=
  .revoked (h ▸ hjob) (.refl _)

theorem step_now_le (hstep : GrantStep settings compat label w w') : w.now ≤ w'.now := by
  cases hstep with
  | clock hnow => exact hnow
  | parent | enqueue | call | issue | cleanup | enter | read => exact le_rfl

theorem step_issued (hstep : GrantStep settings compat label w w') : w.issued ⊆ w'.issued := by
  cases hstep with
  | issue => exact List.subset_cons_self _ _
  | clock | parent | enqueue | call | cleanup | enter | read => exact List.Subset.refl _

theorem step_grants (hstep : GrantStep settings compat label w w')
    (hjob : w'.jobs jobId = some rows') : GrantsChange settings label w w' jobId rows' := by
  cases hstep with
  | clock => exact grantsChange_of_eq rfl hjob
  | parent => exact grantsChange_of_eq rfl hjob
  | enter => exact grantsChange_of_eq rfl hjob
  | read => exact grantsChange_of_eq rfl hjob
  | @enqueue _ newJob rows hnew hrows =>
    by_cases hid : jobId = newJob
    · subst hid
      obtain rfl : rows = rows' := by simpa using hjob
      exact .created hrows.grants_eq_nil
    · exact .revoked (by simpa [hid] using hjob) (.refl _)
  | @call _ target _ before after hbefore hrun hclock =>
    by_cases hid : jobId = target
    · subst hid
      obtain rfl : after = rows' := by simpa using hjob
      exact .revoked hbefore (Call.run_revokes hrun)
    · exact .revoked (by simpa [hid] using hjob) (.refl _)
  | @issue _ target newId _ _ now active before after grant _ hnow hbefore hactive hfresh _ hissue =>
    by_cases hid : jobId = target
    · subst hid
      obtain rfl : after = rows' := by simpa using hjob
      obtain ⟨_, hsome, hissues⟩ := issue_spec hissue
      cases hsome
      exact .issued rfl hnow hbefore hactive hfresh ⟨_, List.mem_cons_self, rfl, rfl⟩ hissues
    · exact .revoked (by simpa [hid] using hjob) (.refl _)
  | cleanup =>
    obtain ⟨rows, hrows, rfl⟩ := Option.map_eq_some_iff.mp hjob
    exact .pruned hrows List.filter_sublist

/-- After a promotion no grant of the job is active any more. -/
theorem promoted_inactive (hstep : GrantStep settings compat label w w')
    (hpromotes : Promotes jobId label w) (hjob : w'.jobs jobId = some rows')
    (hgrant : grant ∈ rows'.grants) : grant.active w'.now = false := by
  obtain ⟨_, _, _, _, _, clock, rows, rows'', rfl, hrows, hupgrade⟩ := hpromotes
  cases hstep with
  | call hbefore hrun hclock =>
    obtain rfl := Option.some.inj (hrows.symm.trans hbefore)
    obtain ⟨⟨_, _⟩, hrun, hresult⟩ := bind_eq_ok.mp hrun
    rw [hupgrade] at hrun
    cases hrun
    cases hresult
    obtain rfl : rows'' = rows' := by simpa using hjob
    have hgrants : rows''.grants = revokeActiveGrants (clock 0) rows.grants := by
      rcases upgrade_cases hupgrade with ⟨_, hgrants⟩ | ⟨hnot, _⟩
      · exact hgrants
      · cases hnot
    have hinactive := not_active_revokeActiveGrants (hgrants ▸ hgrant)
    by_contra hactive
    rw [Bool.not_eq_false] at hactive
    rw [MediaDeliveryGrant.active_mono (hclock rfl) hactive] at hinactive
    cases hinactive

/-! ## Invariants of the table -/

section Runs

variable {log newer older : List (Commit GrantLabel GrantWorld)}
  {commit : Commit GrantLabel GrantWorld}

/-- A premium upgrade of the job committed when the grant had already been issued. -/
def Superseded (log : List (Commit GrantLabel GrantWorld)) (jobId grantId : Uuid) : Prop :=
  ∃ commit ∈ log, Promotes jobId commit.actor commit.before ∧
    ∃ entry ∈ commit.before.issued, entry.id = grantId ∧ entry.downloadJobId = jobId

/-- The grant was issued while the job was ready with this artifact and fence. -/
def IssuedFor (log : List (Commit GrantLabel GrantWorld)) (jobId : Uuid)
    (grant : MediaDeliveryGrant) : Prop :=
  ∃ commit ∈ log, ∃ now rows, commit.actor = .issue jobId grant.id now ∧
    commit.before.jobs jobId = some rows ∧ rows.job.publicState = .ready ∧
      rows.job.artifactId = some grant.artifactId ∧ rows.job.fenceToken = grant.fenceToken

/-- What holds of a grant of a job in every reachable world. -/
structure GrantSound (log : List (Commit GrantLabel GrantWorld)) (w : GrantWorld) (jobId : Uuid)
    (grant : MediaDeliveryGrant) : Prop where
  listed : ∃ entry ∈ w.issued, entry.id = grant.id ∧ entry.downloadJobId = jobId
  checked : grant.Checked
  settled : Superseded log jobId grant.id → grant.active w.now = false
  issuedFor : IssuedFor log jobId grant

theorem superseded_cons : Superseded (commit :: log) jobId grantId ↔
    (Promotes jobId commit.actor commit.before ∧
      ∃ entry ∈ commit.before.issued, entry.id = grantId ∧ entry.downloadJobId = jobId) ∨
    Superseded log jobId grantId := by
  simp [Superseded]

theorem IssuedFor.cons (h : IssuedFor log jobId grant) : IssuedFor (commit :: log) jobId grant := by
  obtain ⟨issued, hmem, hissued⟩ := h
  exact ⟨issued, List.mem_cons_of_mem _ hmem, hissued⟩

theorem IssuedFor.of_revokedTo {grant' : MediaDeliveryGrant} (h : IssuedFor log jobId grant)
    (hrevoked : grant.RevokedTo grant') : IssuedFor log jobId grant' := by
  rcases hrevoked with rfl | ⟨t, -, rfl⟩ <;> exact h

/-- A grant that was sound stays so when it is kept or revoked. -/
theorem GrantSound.step {grant' : MediaDeliveryGrant} (h : GrantSound log w jobId grant)
    (hstep : GrantStep settings compat label w w') (hjob : w'.jobs jobId = some rows')
    (hgrant : grant' ∈ rows'.grants) (hrevoked : grant.RevokedTo grant') :
    GrantSound (⟨label, w, w'⟩ :: log) w' jobId grant' where
  listed := by
    obtain ⟨entry, hentry, hid, hjobId⟩ := h.listed
    exact ⟨entry, step_issued hstep hentry, hid.trans hrevoked.id_eq.symm, hjobId⟩
  checked := hrevoked.checked h.checked
  settled hsuperseded := by
    rcases superseded_cons.1 hsuperseded with ⟨hpromotes, -⟩ | hsuperseded
    · exact promoted_inactive hstep hpromotes hjob hgrant
    · have hinactive := h.settled (hrevoked.id_eq ▸ hsuperseded)
      apply MediaDeliveryGrant.not_active_mono (step_now_le hstep)
      by_contra hactive
      rw [hrevoked.active (by simpa using hactive)] at hinactive
      cases hinactive
  issuedFor := (h.issuedFor.of_revokedTo hrevoked).cons

/-- Grants that were issued before, as the log has it, are listed. -/
theorem issued_run (hrun : Run (GrantStep settings compat) w₀ log w) :
    ∀ commit ∈ log, commit.before.issued ⊆ w.issued := by
  induction hrun with
  | start => exact fun _ h => absurd h List.not_mem_nil
  | commit _ hstep ih =>
    intro commit hcommit
    rcases List.mem_cons.mp hcommit with rfl | hcommit
    · exact step_issued hstep
    · exact fun entry hentry => step_issued hstep (ih commit hcommit hentry)

/-- A new grant is sound. -/
theorem GrantSound.of_issues {newId : Uuid} {active : List MediaDeliveryGrant}
    (hpast : ∀ commit ∈ log, commit.before.issued ⊆ w.issued)
    (hfresh : ∀ entry ∈ w.issued, entry.id ≠ newId)
    (hlisted : ∃ entry ∈ w'.issued, entry.id = newId ∧ entry.downloadJobId = jobId)
    (hjob : w.jobs jobId = some rows) (hissues : Issues settings now active newId rows rows' grant) :
    GrantSound (⟨.issue jobId newId now, w, w'⟩ :: log) w' jobId grant where
  listed := hissues.id ▸ hlisted
  checked := hissues.checked
  settled hsuperseded := by
    rcases superseded_cons.1 hsuperseded with ⟨⟨_, _, _, _, _, _, _, _, hlabel, _⟩, _⟩ |
      ⟨commit, hcommit, _, entry, hentry, hid, _⟩
    · cases hlabel
    · exact absurd (hid.trans hissues.id) (hfresh entry (hpast commit hcommit hentry))
  issuedFor := ⟨_, List.mem_cons_self, now, rows, by rw [hissues.id], hjob, hissues.ready,
    hissues.artifact, hissues.fence⟩

theorem sound_run {parents : Uuid → Option ParentJob}
    (hrun : Run (GrantStep settings compat) (.initial t parents) log w)
    (hjob : w.jobs jobId = some rows) (hgrant : grant ∈ rows.grants) :
    GrantSound log w jobId grant := by
  induction hrun generalizing rows grant with
  | start => cases hjob
  | commit hrun hstep ih =>
    cases step_grants hstep hjob with
    | created hgrants =>
      rw [hgrants] at hgrant
      exact absurd hgrant List.not_mem_nil
    | revoked hbefore hrevokes =>
      obtain ⟨before, hmem, hrevoked⟩ := hrevokes.mem hgrant
      exact (ih hbefore hmem).step hstep hjob hgrant hrevoked
    | pruned hbefore hgrants =>
      exact (ih hbefore (hgrants.subset hgrant)).step hstep hjob hgrant (.inl rfl)
    | issued hlabel hnow hbefore hactive hfresh hlisted hissues =>
      subst hlabel
      rcases hissues.mem hgrant with rfl | ⟨before, hmem, hrevoked⟩
      · exact .of_issues (issued_run hrun) hfresh hlisted hbefore hissues
      · exact (ih hbefore hmem).step hstep hjob hgrant hrevoked

/-- A job never has more active grants than the settings allow. -/
theorem activeCount_run {parents : Uuid → Option ParentJob}
    (hrun : Run (GrantStep settings compat) (.initial t parents) log w)
    (hjob : w.jobs jobId = some rows) :
    activeCount w.now rows.grants ≤ settings.mediaBrowserGrantMaxActive := by
  induction hrun generalizing rows with
  | start => cases hjob
  | commit hrun hstep ih =>
    cases step_grants hstep hjob with
    | created hgrants =>
      rw [hgrants]
      exact Nat.zero_le _
    | revoked hbefore hrevokes =>
      exact ((activeCount_mono (step_now_le hstep)).trans hrevokes.activeCount_le).trans
        (ih hbefore)
    | pruned hbefore hgrants =>
      exact ((activeCount_mono (step_now_le hstep)).trans hgrants.countP_le).trans (ih hbefore)
    | issued hlabel hnow hbefore hactive hfresh hlisted hissues =>
      have hlater := hnow.trans (step_now_le hstep)
      exact (activeCount_mono hlater).trans (hissues.activeCount_le hactive)

/-! ## Authorization -/

/-- The job row that the call read, at or after its reading of the clock. -/
def Located (log : List (Commit GrantLabel GrantWorld)) (i : ℕ) (jobId : Uuid) (now : Timestamp)
    (job : MediaDownloadJob) : Prop :=
  ∃ commit ∈ log, commit.actor = .read i ∧ now ≤ commit.before.now ∧
    ∃ rows, commit.before.jobs jobId = some rows ∧ rows.job = job

/-- What an authorization rests on: the job was ready, with the artifact and fence that the grant was
issued for, and nothing had expired by the clock that the call read. -/
structure Authorizes (log : List (Commit GrantLabel GrantWorld)) (i : ℕ) (jobId : Uuid)
    (grant : MediaDeliveryGrant) (now : Timestamp) (job : MediaDownloadJob) (parent : ParentJob) :
    Prop where
  issuedFor : IssuedFor log jobId grant
  located : Located log i jobId now job
  ready : job.publicState = .ready
  artifact : job.artifactId = some grant.artifactId
  fence : job.fenceToken = grant.fenceToken
  unrevoked : grant.revokedAt = none
  unexpired : now < grant.expiresAt ∧ now < job.expiresAt ∧ now < parent.expiresAt

/-- What holds of a call by what it has read. -/
def CallSound (log : List (Commit GrantLabel GrantWorld)) (w : GrantWorld) (i : ℕ) :
    AuthorizeCall → Prop
  | .entered .. | .rejected _ => True
  | .granted jobId grant => IssuedFor log jobId grant
  | .timed jobId grant now => IssuedFor log jobId grant ∧ grant.active now = true ∧ now ≤ w.now
  | .located jobId grant now job =>
    IssuedFor log jobId grant ∧ grant.active now = true ∧ Located log i jobId now job
  | .authorized jobId grant now job parent => Authorizes log i jobId grant now job parent

theorem Located.cons (h : Located log i jobId now job) : Located (commit :: log) i jobId now job := by
  obtain ⟨located, hmem, hlocated⟩ := h
  exact ⟨located, List.mem_cons_of_mem _ hmem, hlocated⟩

theorem CallSound.mono (h : CallSound log w i call) (hnow : w.now ≤ w'.now) :
    CallSound (commit :: log) w' i call := by
  cases call with
  | entered | rejected => trivial
  | granted => exact IssuedFor.cons h
  | timed => exact ⟨h.1.cons, h.2.1, h.2.2.trans hnow⟩
  | located => exact ⟨h.1.cons, h.2.1, h.2.2.cons⟩
  | authorized =>
    exact ⟨h.issuedFor.cons, h.located.cons, h.ready, h.artifact, h.fence, h.unrevoked, h.unexpired⟩

theorem getGrant_eq_some {entry : IssuedGrant} (h : w.getGrant grantId = some (entry, grant)) :
    entry ∈ w.issued ∧ entry.id = grantId ∧ grant.id = grantId ∧
      ∃ rows, w.jobs entry.downloadJobId = some rows ∧ grant ∈ rows.grants := by
  simp only [GrantWorld.getGrant, Option.bind_eq_bind, Option.bind_eq_some_iff,
    Option.some.injEq] at h
  obtain ⟨entry', hentry, rows, hrows, grant', hgrant, hpair⟩ := h
  cases hpair
  exact ⟨List.mem_of_find?_eq_some hentry, by simpa using List.find?_some hentry,
    by simpa using List.find?_some hgrant, rows, hrows, List.mem_of_find?_eq_some hgrant⟩

theorem authorizeJob_eq_ok {parents : Option ParentJob}
    (h : authorizeJob grant now job parents = .ok parent) :
    Unexpired now parent job ∧ job.publicState = .ready ∧
      job.artifactId = some grant.artifactId ∧ job.fenceToken = grant.fenceToken := by
  unfold authorizeJob at h
  split at h
  · cases h
  simp only [bind_eq_ok, require_eq_ok] at h
  obtain ⟨_, hunexpired, _, hready, _, _, _, _, _, hmatch, _, _, hparent⟩ := h
  cases hparent
  exact ⟨hunexpired, hready, hmatch.1, hmatch.2⟩

theorem active_iff : grant.active now = true ↔ grant.revokedAt = none ∧ now < grant.expiresAt := by
  simp [MediaDeliveryGrant.active]

/-- One read of a call. -/
theorem CallSound.read {parents : Uuid → Option ParentJob}
    (hrun : Run (GrantStep settings compat) (.initial t parents) log w)
    (h : CallSound log w i call) (hread : call.read w = some call') (hnow : w'.now = w.now) :
    CallSound (⟨.read i, w, w'⟩ :: log) w' i call' := by
  cases call with
  | entered gid tokenHash =>
    simp only [AuthorizeCall.read] at hread
    split at hread
    · cases hread
      trivial
    rename_i entry grant hgrant
    split at hread
    · cases hread
      obtain ⟨_, _, _, rows, hrows, hmem⟩ := getGrant_eq_some hgrant
      exact (sound_run hrun hrows hmem).issuedFor.cons
    · cases hread
      trivial
  | granted jobId grant =>
    simp only [AuthorizeCall.read] at hread
    split at hread
    · rename_i hactive
      cases hread
      exact ⟨IssuedFor.cons h, hactive, hnow.ge⟩
    · cases hread
      trivial
  | timed jobId grant now =>
    simp only [AuthorizeCall.read] at hread
    split at hread
    · cases hread
      trivial
    · rename_i rows hrows
      cases hread
      exact ⟨h.1.cons, h.2.1, _, List.mem_cons_self, rfl, h.2.2, rows, hrows, rfl⟩
  | located jobId grant now job =>
    simp only [AuthorizeCall.read] at hread
    split at hread
    · rename_i parent hparent
      cases hread
      obtain ⟨hissued, hactive, hlocated⟩ := h
      obtain ⟨⟨_, hparentExpires, _, hjobExpires⟩, hready, hartifact, hfence⟩ :=
        authorizeJob_eq_ok hparent
      obtain ⟨hunrevoked, hexpires⟩ := active_iff.1 hactive
      exact ⟨hissued.cons, hlocated.cons, hready, hartifact, hfence, hunrevoked, hexpires,
        hjobExpires, hparentExpires⟩
    · cases hread
      trivial
  | authorized => cases hread
  | rejected => cases hread

/-- The calls after a step: only one of them can have moved, by a read. -/
theorem step_calls (hstep : GrantStep settings compat label w w')
    (hcall : w'.calls[i]? = some call') :
    w.calls[i]? = some call' ∨
      (∃ gid tokenHash, call' = authorizeBrowserGrant settings gid tokenHash) ∨
        ∃ call, label = .read i ∧ w'.now = w.now ∧ w.calls[i]? = some call ∧
          call.read w = some call' := by
  cases hstep with
  | clock | parent | enqueue | call | issue | cleanup => exact .inl hcall
  | @enter _ gid tokenHash =>
    rcases Nat.lt_or_ge i w.calls.length with hi | hi
    · exact .inl (by rwa [List.getElem?_append_left hi] at hcall)
    · rw [List.getElem?_append_right hi] at hcall
      have hnew := List.mem_singleton.mp (List.mem_of_getElem? hcall)
      exact .inr (.inl ⟨gid, tokenHash, hnew⟩)
  | @read _ k before after hk hread =>
    by_cases hik : i = k
    · subst hik
      obtain ⟨hlt, -⟩ := List.getElem?_eq_some_iff.mp hk
      rw [List.getElem?_set_self hlt] at hcall
      cases hcall
      exact .inr (.inr ⟨before, rfl, rfl, hk, hread⟩)
    · exact .inl (by rwa [List.getElem?_set_ne (Ne.symm hik)] at hcall)

theorem callSound_entered {gid : Uuid} {tokenHash : Option (List UInt8)} :
    CallSound log w i (authorizeBrowserGrant settings gid tokenHash) := by
  unfold authorizeBrowserGrant
  split
  · trivial
  · split
    · trivial
    · split <;> trivial

theorem callSound_run {parents : Uuid → Option ParentJob}
    (hrun : Run (GrantStep settings compat) (.initial t parents) log w)
    (hcall : w.calls[i]? = some call) : CallSound log w i call := by
  induction hrun generalizing call with
  | start => cases hcall
  | commit hrun hstep ih =>
    rcases step_calls hstep hcall with hbefore | ⟨_, _, rfl⟩ | ⟨before, rfl, hnow, hbefore, hread⟩
    · exact (ih hbefore).mono (step_now_le hstep)
    · exact callSound_entered
    · exact (ih hbefore).read hrun hread hnow

/-! ## The claims on grants -/

/-- Grants are bounded, authorize only what they were issued for, and keep their time constraints. -/
structure GrantsBounded (settings : GrantSettings) (log : List (Commit GrantLabel GrantWorld))
    (w : GrantWorld) : Prop where
  bounded : ∀ jobId rows, w.jobs jobId = some rows →
    activeCount w.now rows.grants ≤ settings.mediaBrowserGrantMaxActive
  issued : ∀ commit ∈ log, ∀ jobId grantId now, commit.actor = .issue jobId grantId now →
    ∃ rows grant, commit.after.jobs jobId = some rows ∧ grant ∈ rows.grants ∧
      grant.id = grantId ∧ grant.active now = true
  checked : ∀ jobId rows, w.jobs jobId = some rows → ∀ grant ∈ rows.grants, grant.Checked
  authorizes : ∀ i jobId grant now job parent,
    w.calls[i]? = some (.authorized jobId grant now job parent) →
      Authorizes log i jobId grant now job parent

/-- No call authorizes a grant after a premium upgrade of its job has committed. -/
def NeverAuthorizesAfter (log : List (Commit GrantLabel GrantWorld)) : Prop :=
  ∀ newer older commit i jobId grant now job parent, log = newer ++ commit :: older →
    commit.actor = .read i →
      commit.after.calls[i]? = some (.authorized jobId grant now job parent) →
        ¬ Superseded older jobId grant.id

/-- No call authorizes a grant that it reads after a premium upgrade of its job has committed. -/
def NeverReadAfter (log : List (Commit GrantLabel GrantWorld)) (w : GrantWorld) : Prop :=
  ∀ newer older commit i jobId grantId tokenHash, log = newer ++ commit :: older →
    commit.actor = .read i → commit.before.calls[i]? = some (.entered grantId tokenHash) →
      Superseded older jobId grantId →
        ∀ jobId grant now job parent,
          w.calls[i]? ≠ some (.authorized jobId grant now job parent)

theorem issued_active (hstep : GrantStep settings compat (.issue jobId grantId now) w w') :
    ∃ rows grant, w'.jobs jobId = some rows ∧ grant ∈ rows.grants ∧ grant.id = grantId ∧
      grant.active now = true := by
  cases hstep with
  | issue hnow hjob hactive hfresh hparent hissue =>
    obtain ⟨_, hsome, hissues⟩ := issue_spec hissue
    exact ⟨_, _, Function.update_self _ _ _, hissues.mem_self, hissues.id, hissues.isActive⟩

theorem grantsBounded_run {parents : Uuid → Option ParentJob}
    (hrun : Run (GrantStep settings compat) (.initial t parents) log w) :
    GrantsBounded settings log w where
  bounded _ _ hjob := activeCount_run hrun hjob
  issued commit hcommit jobId grantId now hactor := by
    obtain ⟨newer, older, rfl⟩ := List.append_of_mem hcommit
    obtain ⟨-, hstep⟩ := hrun.before rfl
    exact issued_active (hactor ▸ hstep)
  checked _ _ hjob _ hgrant := (sound_run hrun hjob hgrant).checked
  authorizes _ _ _ _ _ _ hcall := callSound_run hrun hcall

/-- Every grant belongs to one job. -/
theorem ids_run {parents : Uuid → Option ParentJob}
    (hrun : Run (GrantStep settings compat) (.initial t parents) log w) :
    (w.issued.map (·.id)).Nodup := by
  induction hrun with
  | start => exact .nil
  | commit _ hstep ih =>
    cases hstep with
    | issue _ _ _ hfresh =>
      refine List.nodup_cons.mpr ⟨fun hmem => ?_, ih⟩
      obtain ⟨entry, hentry, hid⟩ := List.mem_map.mp hmem
      exact hfresh entry hentry hid
    | clock | parent | enqueue | call | cleanup | enter | read => exact ih

/-- The call has been turned away, or is about to be. -/
def Fails (i : ℕ) (w : GrantWorld) : Prop :=
  (∃ raised, w.calls[i]? = some (.rejected raised)) ∨
    ∃ jobId grant, w.calls[i]? = some (.granted jobId grant) ∧ grant.active w.now = false

theorem fails_step (h : Fails i w) (hstep : GrantStep settings compat label w w') : Fails i w' := by
  have hlt : i < w.calls.length := by
    rcases h with ⟨_, hcall⟩ | ⟨_, _, hcall, _⟩ <;> exact (List.getElem?_eq_some_iff.mp hcall).1
  have hnow := step_now_le hstep
  have hsame (hcalls : w'.calls[i]? = w.calls[i]?) : Fails i w' := by
    rcases h with ⟨raised, hcall⟩ | ⟨jobId, grant, hcall, hinactive⟩
    · exact .inl ⟨raised, hcalls.trans hcall⟩
    · exact .inr ⟨jobId, grant, hcalls.trans hcall, MediaDeliveryGrant.not_active_mono hnow hinactive⟩
  cases hstep with
  | clock | parent | enqueue | call | issue | cleanup => exact hsame rfl
  | enter => exact hsame (List.getElem?_append_left hlt)
  | @read _ k before after hk hread =>
    by_cases hik : i = k
    · subst hik
      rcases h with ⟨raised, hcall⟩ | ⟨jobId, grant, hcall, hinactive⟩
      · cases hk.symm.trans hcall
        cases hread
      · cases hk.symm.trans hcall
        simp only [AuthorizeCall.read, hinactive, Bool.false_eq_true, if_false,
          Option.some.injEq] at hread
        subst hread
        exact .inl ⟨_, List.getElem?_set_self hlt⟩
    · exact hsame (List.getElem?_set_ne (Ne.symm hik))

/-- A call that reads a superseded grant fails. -/
theorem fails_of_superseded {parents : Uuid → Option ParentJob} {tokenHash : List UInt8}
    (hrun : Run (GrantStep settings compat) (.initial t parents) log w)
    (hstep : GrantStep settings compat (.read i) w w')
    (hcall : w.calls[i]? = some (.entered grantId tokenHash))
    (hsuperseded : Superseded log jobId grantId) : Fails i w' := by
  cases hstep with
  | read hi hread =>
    cases hi.symm.trans hcall
    have hlt := (List.getElem?_eq_some_iff.mp hcall).1
    simp only [AuthorizeCall.read] at hread
    split at hread
    · cases hread
      exact .inl ⟨_, List.getElem?_set_self hlt⟩
    rename_i entry grant hgrant
    split at hread
    · cases hread
      obtain ⟨hentry, hid, hgrantId, rows, hrows, hmem⟩ := getGrant_eq_some hgrant
      obtain ⟨commit, hcommit, _, entry', hentry', hid', hjobId⟩ := id hsuperseded
      have hlisted := issued_run hrun commit hcommit hentry'
      have hsame : entry' = entry :=
        List.inj_on_of_nodup_map (ids_run hrun) hlisted hentry (hid'.trans hid.symm)
      subst hsame
      refine .inr ⟨_, grant, List.getElem?_set_self hlt, ?_⟩
      exact (sound_run hrun hrows hmem).settled (by rwa [hgrantId, hjobId])
    · cases hread
      exact .inl ⟨_, List.getElem?_set_self hlt⟩

theorem neverReadAfter_run {parents : Uuid → Option ParentJob}
    (hrun : Run (GrantStep settings compat) (.initial t parents) log w) : NeverReadAfter log w := by
  intro newer older commit i jobId grantId tokenHash hlog hactor hcall hsuperseded
  obtain ⟨holder, hstep⟩ := hrun.before hlog
  have hfails := fails_of_superseded holder (hactor ▸ hstep) hcall hsuperseded
  intro _ _ _ _ _ hauthorized
  rcases (hrun.later (I := Fails i) fails_step hlog hfails).1 with ⟨_, h⟩ | ⟨_, _, h, _⟩
  · cases h.symm.trans hauthorized
  · cases h.symm.trans hauthorized

/-- Browser grants are bounded, and a call that reads its grant after a premium upgrade of the job
has committed does not authorize it. -/
theorem browser_grants_bounded {parents : Uuid → Option ParentJob}
    (hrun : Run (GrantStep settings compat) (.initial t parents) log w) :
    GrantsBounded settings log w ∧ NeverReadAfter log w :=
  ⟨grantsBounded_run hrun, neverReadAfter_run hrun⟩

end Runs

/-! ## An authorization that straddles a promotion -/

def sampleSettings : GrantSettings where
  mediaDownloadsEnabled := true
  mediaDeliveryEnabled := true
  mediaBrowserDeliveryEnabled := true
  mediaBrowserGrantTtlSeconds := 300
  mediaBrowserGrantMaxActive := 4
  ttl := by decide
  maxActive := by decide

def sampleParent : ParentJob := ⟨.inspected, [], 1000⟩

def sampleParents (id : Uuid) : Option ParentJob := if id = 2 then some sampleParent else none

/-- The hash of the only token. -/
def sampleToken : List UInt8 := List.replicate 32 0

/-- The grant that is issued at time 20. -/
def sampleGrant : MediaDeliveryGrant := ⟨30, 7, 1, 20, 100, none⟩

def sampleGranted : DownloadRows := { sampleReady with grants := [sampleGrant] }

def samplePromotion : Call :=
  .upgrade ⟨true, 1, 60, false, 0, false, 0⟩ 4 true true ⟨true, some 1000, none⟩ fun _ => 20

/-- The job after its promotion at time 20. -/
def samplePromoted : DownloadRows :=
  match samplePromotion.run false sampleGranted with
  | .ok rows => rows
  | .error _ => sampleGranted

theorem samplePromotion_run : upgrade ⟨true, 1, 60, false, 0, false, 0⟩ 4 true true
    ⟨true, some 1000, none⟩ (fun _ => 20) sampleGranted = .ok (samplePromoted, true) := by
  decide

/-- The world of the only job at time 20. -/
def sampleWorld (rows : DownloadRows) (issued : List IssuedGrant) (calls : List AuthorizeCall) :
    GrantWorld :=
  ⟨20, Function.update (fun _ => none) 1 (some rows), sampleParents, issued, calls⟩

variable {issued : List IssuedGrant} {calls : List AuthorizeCall} {c : Call}

theorem sample_call (hrun : c.run false rows = .ok rows')
    (hclock : ∀ {settings client active authorized capability clock},
      c = .upgrade settings client active authorized capability clock → clock 0 ≤ 20) :
    GrantStep sampleSettings false (.call 1 c) (sampleWorld rows issued calls)
      (sampleWorld rows' issued calls) := by
  have hjob : (sampleWorld rows issued calls).jobs 1 = some rows := rfl
  have hstep : GrantStep sampleSettings false (.call 1 c) (sampleWorld rows issued calls) _ :=
    .call hjob hrun hclock
  simpa only [sampleWorld, Function.update_idem] using hstep

theorem sample_read {call : AuthorizeCall} (call' : AuthorizeCall)
    (hread : call.read (sampleWorld rows issued [call]) = some call') :
    GrantStep sampleSettings false (.read 0) (sampleWorld rows issued [call])
      (sampleWorld rows issued [call']) :=
  .read rfl hread

theorem sample_issue : GrantStep sampleSettings false (.issue 1 30 20)
    (sampleWorld sampleReady [] []) (sampleWorld sampleGranted [⟨30, 1, sampleToken⟩] []) := by
  have hissue : issue sampleSettings (.ok []) (some sampleParent) 20 [] 30 (some sampleReady) =
      .ok (sampleGranted, sampleGrant) := by decide
  have hjob : (sampleWorld sampleReady [] []).jobs 1 = some sampleReady := rfl
  have hstep := @GrantStep.issue sampleSettings false _ 1 30 _ _ 20 [] _ _ _ sampleToken le_rfl hjob
    ⟨.nil, .nil⟩ (fun _ h => absurd h List.not_mem_nil) rfl hissue
  simpa only [sampleWorld, Function.update_idem] using hstep

/-- A job is published, and a grant issued and read; then the job is promoted, and the call goes on
with its row. -/
theorem sample_promoted : ∃ log,
    Run (GrantStep sampleSettings false) (.initial 20 sampleParents) log
      (sampleWorld samplePromoted [⟨30, 1, sampleToken⟩]
        [.located 1 sampleGrant 20 samplePromoted.job]) ∧
    Superseded log 1 30 := by
  have hqueued : Run (GrantStep sampleSettings false) (.initial 20 sampleParents) _
      (sampleWorld sampleRows [] []) :=
    .commit .start (.enqueue rfl (.reserved sampleRows_created) rfl)
  have hclaimed := hqueued.commit (@sample_call sampleRows sampleClaimed [] []
    (.claimNext "w" 20 5 fun _ => 5) (by decide) nofun)
  have hready := hclaimed.commit (@sample_call sampleClaimed sampleReady [] []
    (.worker "w" 1 (.completeReady ⟨7, 8, "video/mp4", "mp4"⟩ fun _ => 10)) (by decide)
    nofun)
  have hissued := hready.commit sample_issue
  have hentered : Run (GrantStep sampleSettings false) (.initial 20 sampleParents) _
      (sampleWorld sampleGranted [⟨30, 1, sampleToken⟩] [.entered 30 sampleToken]) :=
    hissued.commit (@GrantStep.enter sampleSettings false _ 30 (some sampleToken))
  have hread := hentered.commit (sample_read (.granted 1 sampleGrant) (by decide))
  have hrun : samplePromotion.run false sampleGranted = .ok samplePromoted := by decide
  have hpromoted := hread.commit (sample_call hrun (by rintro _ _ _ _ _ _ ⟨⟩; exact le_rfl))
  have htimed := hpromoted.commit
    (sample_read (.timed 1 sampleGrant 20) (by decide))
  have hlocated := htimed.commit
    (sample_read (.located 1 sampleGrant 20 samplePromoted.job) (by decide))
  refine ⟨_, hlocated, _, .tail _ (.tail _ (.head _)), ?_, _, .head _, rfl, rfl⟩
  exact ⟨_, _, _, _, _, _, _, _, rfl, rfl, samplePromotion_run⟩

/-- The grant is authorized although the promotion has committed. -/
theorem sample_authorized : GrantStep sampleSettings false (.read 0)
    (sampleWorld samplePromoted [⟨30, 1, sampleToken⟩]
      [.located 1 sampleGrant 20 samplePromoted.job])
    (sampleWorld samplePromoted [⟨30, 1, sampleToken⟩]
      [.authorized 1 sampleGrant 20 samplePromoted.job sampleParent]) :=
  sample_read _ (by decide)

theorem browser_grants_bounded_sample : ∃ log,
    Run (GrantStep sampleSettings false) (.initial 20 sampleParents) log
      (sampleWorld samplePromoted [⟨30, 1, sampleToken⟩]
        [.authorized 1 sampleGrant 20 samplePromoted.job sampleParent]) ∧
    GrantsBounded sampleSettings log (sampleWorld samplePromoted [⟨30, 1, sampleToken⟩]
      [.authorized 1 sampleGrant 20 samplePromoted.job sampleParent]) ∧
    NeverReadAfter log (sampleWorld samplePromoted [⟨30, 1, sampleToken⟩]
      [.authorized 1 sampleGrant 20 samplePromoted.job sampleParent]) := by
  obtain ⟨log, hrun, -⟩ := sample_promoted
  exact ⟨_, hrun.commit sample_authorized, browser_grants_bounded (hrun.commit sample_authorized)⟩

/-- A call that read its grant before the promotion authorizes it afterwards. -/
theorem grant_outlives_promotion : ¬ ∀ (settings : GrantSettings) (compat : Bool) (t : Timestamp)
    (parents : Uuid → Option ParentJob) (log : List (Commit GrantLabel GrantWorld))
    (w : GrantWorld), Run (GrantStep settings compat) (.initial t parents) log w →
      GrantsBounded settings log w ∧ NeverAuthorizesAfter log := by
  intro h
  obtain ⟨log, hrun, hsuperseded⟩ := sample_promoted
  have hnever := (h _ _ _ _ _ _ (hrun.commit sample_authorized)).2
  exact hnever [] log _ 0 1 sampleGrant 20 samplePromoted.job sampleParent rfl rfl rfl hsuperseded

end FetchNow.Delivery
