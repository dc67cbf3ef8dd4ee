import FetchNow.Release.Recover

/-!
# What the release commands leave alone

Invariants of the parts that the commands are made of.
-/
namespace FetchNow.Release

open Faults Faults.Prog

variable {releases : Releases} {root root' : DeployRoot} {id rev : String}
  {I : DeployRoot → Prop}

theorem modifyDeployment_eq_ok {f : Deployment → Except ReleaseError Deployment} :
    root.modifyDeployment id f = .ok root' ↔ ∃ j j', root.deployments.lookup id = some j ∧
      f j = .ok j' ∧ root' = { root with deployments := root.deployments.insert id j' } := by
  simp only [DeployRoot.modifyDeployment, modify]
  cases hlookup : root.deployments.lookup id with
  | none => simp [Except.map]
  | some j =>
    cases hf : f j with
    | error e => simp [hf, Except.map]
    | ok j' => simp [hf, Except.map, eq_comm]

/-- A condition that does not read the containers. -/
def Filed (I : DeployRoot → Prop) : Prop :=
  ∀ root containers, I root → I { root with containers }

theorem preserves_activateAppTier {dep : String} (hI : Filed I) :
    Preserves I (activateAppTier dep rev) :=
  .update fun s t hs ht => by cases ht; exact hI s _ hs

theorem preserves_activateGateway {dep : String} (hI : Filed I) :
    Preserves I (activateGateway dep rev) :=
  .update fun s t hs ht => by cases ht; exact hI s _ hs

theorem preserves_runStorageInit {release : PreparedRelease} :
    Preserves I (runStorageInit release) :=
  .when fun _ => .check

theorem preserves_loadAndResolve : Preserves I (loadAndResolveCurrentState releases) := by
  refine .bind .read fun parsed => ?_
  match parsed with
  | none => exact .pure
  | some (.v1 parsed) =>
    exact .bind (.bind .check fun _ => .bind .require fun _ => .pure) fun _ => .pure
  | some (.v2 parsed) =>
    exact .bind (.bind .check fun _ => .bind .check fun _ => .bind .require fun _ => .pure)
      fun _ => .pure

/-- What a parsed state resolves to, if it does. -/
def resolve (releases : Releases) : ParsedCurrentState → ResolvedCurrentState
  | .v1 parsed =>
    let heads := (releases parsed.revision).heads
    ⟨⟨parsed.revision, parsed.releaseManifestSha256, parsed.imageIds, parsed.deploymentId⟩,
      ⟨sorted heads, parsed.revision, none, none, [parsed.revision]⟩, parsed.updatedAtUtc, true⟩
  | .v2 parsed => ⟨parsed.application, parsed.database, parsed.updatedAtUtc, false⟩

theorem wp_loadAndResolve {A : Op → DeployRoot → Fault ReleaseError → Prop}
    {Q : Post DeployRoot ReleaseError (Option ResolvedCurrentState)}
    (hret : ∀ parsed, parseCurrent root = .ok parsed →
      Q.returned (parsed.map (resolve releases)) root)
    (hraise : ∀ e, Q.raised e root) (hstop : Q.stopped root) :
    (loadAndResolveCurrentState releases).wp A Q root := by
  refine wp_bind.mpr (wp_read (fun parsed hparsed => ?_) hraise hstop)
  have hreturned := hret parsed hparsed
  match parsed with
  | none => exact wp_pure.mpr hreturned
  | some (.v1 parsed) =>
    exact wp_bind.mpr (wp_bind.mpr (wp_check (wp_bind.mpr (wp_require
      (fun _ => wp_pure.mpr (wp_pure.mpr hreturned)) fun _ => hraise _)) hraise hstop))
  | some (.v2 parsed) =>
    exact wp_bind.mpr (wp_bind.mpr (wp_check (wp_bind.mpr (wp_check (wp_bind.mpr (wp_require
      (fun _ => wp_pure.mpr (wp_pure.mpr hreturned)) fun _ => hraise _)) hraise hstop)) hraise
      hstop))

theorem preserves_compatible {database : DatabaseState} {heads : Heads} :
    Preserves I (assertApplicationCompatibleWithDatabase rev heads database) :=
  .bind .ofExcept fun _ => .require

theorem preserves_removeContainers {cs : List Container} (hI : Filed I) :
    Preserves I (removeContainers cs) := by
  induction cs with
  | nil => exact .pure
  | cons c cs ih =>
    exact .bind (.update fun s t hs ht => by cases ht; exact hI s _ hs) fun _ => ih

theorem preserves_removeOwned {owned : List Container} (hI : Filed I) :
    Preserves I (removeOwnedBootstrapContainers id rev owned) :=
  .bind .read fun _ => .bind .require fun _ => .bind (preserves_removeContainers hI) fun _ => .pure

theorem preserves_restorePrevious {prev : String} (hI : Filed I) :
    Preserves I (restorePrevious releases id prev) :=
  .bind .check fun _ => .bind .check fun _ => .bind .check fun _ =>
    .bind preserves_loadAndResolve fun _ => .bind .ofOption fun _ => .bind .check fun _ =>
    .bind .read fun _ => .bind .require fun _ => .bind .read fun _ =>
    .bind preserves_compatible fun _ => .bind .check fun _ =>
    .bind preserves_runStorageInit fun _ => .bind (preserves_activateAppTier hI) fun _ =>
    .bind .check fun _ => .bind (preserves_activateGateway hI) fun _ => .check

/-! ## Journals -/

/-- A condition that does not depend on what is added to a journal after its plan. -/
structure Logged (id : String) (I : DeployRoot → Prop) : Prop where
  filed : Filed I
  entry : ∀ root j j', I root → root.deployments.lookup id = some j → j'.plan = j.plan →
    I { root with deployments := root.deployments.insert id j' }

/-- A condition that does not depend on the plan either. -/
structure Planned (id : String) (plan : PlanDocument) (I : DeployRoot → Prop) : Prop where
  logged : Logged id I
  create : ∀ root, I root → root.deployments.lookup id = none →
    I { root with deployments := root.deployments.insert id .empty }
  plan : ∀ root j, I root → root.deployments.lookup id = some j →
    I { root with deployments := root.deployments.insert id { j with plan := some plan } }

variable {plan : PlanDocument} {status : Status}

theorem Logged.modify {f : Deployment → Except ReleaseError Deployment} (hI : Logged id I)
    (hf : ∀ j j', f j = .ok j' → j'.plan = j.plan) (hs : I root)
    (hmodify : root.modifyDeployment id f = .ok root') : I root' := by
  obtain ⟨j, j', hlookup, hj, rfl⟩ := modifyDeployment_eq_ok.mp hmodify
  exact hI.entry root j j' hs hlookup (hf j j' hj)

theorem Logged.appendEventBy {legal : Status → List Status} (hI : Logged id I) :
    Preserves I (appendEventBy legal id status) := by
  refine .update fun s t hs ht => hI.modify (fun j j' hj => ?_) hs ht
  split at hj
  · obtain rfl : { j with events := status :: j.events } = j' := by simpa using hj
    rfl
  · cases hj

theorem Logged.writeResult {audit : Bool} (hI : Logged id I) :
    Preserves I (writeResult id status audit) := by
  refine .bind .require fun _ => .update fun s t hs ht => hI.modify (fun j j' hj => ?_) hs ht
  obtain ⟨_, _, hj⟩ := Transactions.bind_eq_ok.mp hj
  split at hj
  · split at hj
    · cases hj
    · obtain ⟨_, _, hj⟩ := Transactions.bind_eq_ok.mp hj
      injection hj with hj
      exact hj ▸ rfl
  · injection hj with hj
    exact hj ▸ rfl

theorem Planned.writePlan (hI : Planned id plan I) : Preserves I (writePlan id plan) := by
  refine .bind (.update fun s t hs ht => ?_) fun _ => .update fun s t hs ht => ?_
  · split at ht
    · next hlookup =>
      obtain rfl : { s with deployments := s.deployments.insert id .empty } = t := by
        simpa using ht
      exact hI.create s hs hlookup
    · split at ht
      · cases ht
      · obtain rfl : s = t := by simpa using ht
        exact hs
  · obtain ⟨j, j', hlookup, hj, rfl⟩ := modifyDeployment_eq_ok.mp ht
    obtain rfl : { j with plan := some plan } = j' := by simpa using hj
    exact hI.plan s j hs hlookup

theorem Logged.performRollback {prev : String} (hI : Logged id I) :
    Preserves I (performRollback releases id prev) :=
  .bind hI.appendEventBy fun _ => .tryCatch
    (.bind (preserves_restorePrevious hI.filed) fun _ => .bind hI.appendEventBy fun _ =>
      .bind hI.writeResult fun _ => .pure)
    fun _ => .bind (.tryCatch (.bind hI.appendEventBy fun _ => hI.writeResult) fun _ => .pure)
      fun _ => .pure

theorem Logged.bootstrapCleanup (hI : Logged id I) :
    Preserves I (bootstrapCleanup id rev plan) :=
  .tryCatch
    (.bind hI.appendEventBy fun _ => .bind .read fun _ =>
      .bind (preserves_removeOwned hI.filed) fun _ => .bind .require fun _ =>
      .bind (.bind .ofExcept fun _ => .bind hI.appendEventBy fun _ =>
        .bind hI.appendEventBy fun _ => hI.writeResult) fun _ => .pure)
    fun _ => .ite (fun _ => .pure) fun _ => .throw

theorem Logged.afterMutation {inp : RolloutInput} (hI : Logged inp.deploymentId.val I) :
    Preserves I (afterMutation releases inp rev plan) := by
  refine .ite (fun _ => hI.bootstrapCleanup) fun _ => ?_
  split
  · exact hI.performRollback
  · exact .throw

theorem Logged.beforeMutation (hI : Logged id I) : Preserves I (beforeMutation id) :=
  .bind hI.appendEventBy fun _ => .bind hI.writeResult fun _ => .pure

theorem Logged.beginActivation (hI : Logged id I) :
    Preserves I (beginActivation releases id rev) :=
  .bind .check fun _ => .bind (.when fun _ => .bind hI.appendEventBy fun _ => .check) fun _ =>
    hI.appendEventBy

theorem Logged.activateTarget (hI : Logged id I) : Preserves I (activateTarget id rev) :=
  .bind (preserves_activateAppTier hI.filed) fun _ => .bind .check fun _ =>
    .bind hI.appendEventBy fun _ => .bind hI.appendEventBy fun _ =>
    .bind (preserves_activateGateway hI.filed) fun _ => .bind hI.appendEventBy fun _ => .check

/-- The rollout keeps what its commit keeps. -/
theorem Planned.rolloutTransaction {inp : RolloutInput} {current : Option ResolvedCurrentState}
    {dbHeads targetHeads : Heads}
    (hI : Planned inp.deploymentId.val (rolloutPlan releases inp rev current dbHeads) I)
    (hcommit : Preserves I (commitTarget releases inp rev current dbHeads targetHeads)) :
    Preserves I (rolloutTransaction releases inp rev current dbHeads targetHeads) := by
  refine .bind hI.writePlan fun _ => .bind hI.logged.appendEventBy fun _ => .bind .check fun _ =>
    .bind (.attempt hI.logged.beginActivation) fun begun => ?_
  cases begun with
  | error e => exact hI.logged.beforeMutation
  | ok _ =>
    exact .tryCatch (.bind hI.logged.activateTarget fun _ => hcommit) fun _ =>
      hI.logged.afterMutation

/-- A condition that does not read `current.json`. -/
def Placed (I : DeployRoot → Prop) : Prop :=
  ∀ root current, I root → I { root with current }

theorem Placed.writeCurrentState {state : CurrentStateV2} (hI : Placed I) :
    Preserves I (writeCurrentState state) :=
  .bind .ofExcept fun _ => .update fun s t hs ht => by cases ht; exact hI s _ hs

theorem Placed.commitTarget {inp : RolloutInput} {current : Option ResolvedCurrentState}
    {dbHeads targetHeads : Heads} (hI : Placed I) (hlogged : Logged inp.deploymentId.val I) :
    Preserves I (commitTarget releases inp rev current dbHeads targetHeads) :=
  .bind .ofExcept fun _ => .bind .ofExcept fun _ => .bind hI.writeCurrentState fun _ =>
    .bind hlogged.appendEventBy fun _ => .bind hlogged.writeResult fun _ => .pure

/-! ## Recovery -/

/-- A condition that does not depend on the recoveries of a journal. -/
structure Noted (id : String) (I : DeployRoot → Prop) : Prop where
  filed : Filed I
  note : ∀ root j j', I root → root.deployments.lookup id = some j → j'.plan = j.plan →
    j'.events = j.events → j'.result = j.result →
    I { root with deployments := root.deployments.insert id j' }

theorem Logged.noted (hI : Logged id I) : Noted id I where
  filed := hI.filed
  note := fun root j j' hs hlookup hplan _ _ => hI.entry root j j' hs hlookup hplan

variable {inp : RecoverInput}

theorem Noted.modify {f : Deployment → Except ReleaseError Deployment} (hI : Noted id I)
    (hf : ∀ j j', f j = .ok j' → j'.plan = j.plan ∧ j'.events = j.events ∧ j'.result = j.result)
    (hs : I root) (hmodify : root.modifyDeployment id f = .ok root') : I root' := by
  obtain ⟨j, j', hlookup, hj, rfl⟩ := modifyDeployment_eq_ok.mp hmodify
  obtain ⟨hplan, hevents, hresult⟩ := hf j j' hj
  exact hI.note root j j' hs hlookup hplan hevents hresult

theorem Noted.modifyRecovery {recoveryId : String}
    {f : RecoveryJournal → Except ReleaseError RecoveryJournal} (hI : Noted id I) (hs : I root)
    (hmodify : root.modifyRecovery id recoveryId f = .ok root') : I root' := by
  refine hI.modify (fun j j' hj => ?_) hs hmodify
  cases hrecoveries : Release.modify j.recoveries recoveryId f with
  | error e => simp [hrecoveries, Except.map] at hj
  | ok recoveries =>
    obtain rfl : { j with recoveries } = j' := by simpa [hrecoveries, Except.map] using hj
    exact ⟨rfl, rfl, rfl⟩

theorem Noted.writeRecoveryPlan {plan : RecoveryPlanDocument} (hI : Noted id I) :
    Preserves I (writeRecoveryPlan id plan) := by
  refine .bind (.update fun s t hs ht => hI.modify (fun j j' hj => ?_) hs ht) fun _ =>
    .update fun s t hs ht => hI.modifyRecovery hs ht
  split at hj
  · obtain rfl : _ = j' := by simpa using hj
    exact ⟨rfl, rfl, rfl⟩
  · split at hj
    · cases hj
    · obtain rfl : j = j' := by simpa using hj
      exact ⟨rfl, rfl, rfl⟩

theorem Noted.writeResolution {recoveryId rev : String} {outcome : RecoverAction}
    (hI : Noted id I) : Preserves I (writeResolution id recoveryId rev outcome) := by
  refine .update fun s t hs ht => hI.modify (fun j j' hj => ?_) hs ht
  split at hj
  · dsimp only at hj
    split at hj
    · cases hj
    · obtain rfl : _ = j' := by simpa using hj
      exact ⟨rfl, rfl, rfl⟩
  · cases hj

theorem preserves_rollbackGate {prev : String} : Preserves I (rollbackGate releases prev) :=
  .bind .read fun _ => .bind .check fun _ => .bind .read fun _ =>
    .bind preserves_loadAndResolve fun _ => .bind .ofOption fun _ => .bind .require fun _ =>
    .bind preserves_compatible fun _ => .pure

theorem preserves_reactivatePrevious {prev : String} (hI : Filed I) :
    Preserves I (reactivatePrevious releases plan prev) :=
  .bind .check fun _ => .bind .check fun _ => .bind .check fun _ =>
    .bind preserves_rollbackGate fun _ => .bind .check fun _ =>
    .bind preserves_runStorageInit fun _ => .bind (preserves_activateAppTier hI) fun _ =>
    .bind .check fun _ => .bind (preserves_activateGateway hI) fun _ => .check

theorem preserves_acceptTargetGates : Preserves I (acceptTargetGates releases plan) := by
  refine .bind .check fun _ => .bind .require fun _ => .bind .check fun _ => .bind .check fun _ =>
    .bind .read fun _ => .bind .require fun _ => .bind .read fun _ =>
    .bind preserves_loadAndResolve fun current => .bind ?_ fun _ => .bind .check fun _ =>
    .bind .check fun _ => .pure
  cases current with
  | none => exact .bind .require fun _ => .bind .require fun _ => .ofExcept
  | some current => exact .bind .require fun _ => .bind preserves_compatible fun _ => .ofExcept

theorem Placed.executeRecovery (hI : Placed I) (hfiled : Filed I) :
    Preserves I (executeRecovery releases inp plan) := by
  unfold Release.executeRecovery
  cases inp.action with
  | acceptTarget =>
    exact .bind preserves_acceptTargetGates fun _ => .bind .ofExcept fun _ =>
      .bind hI.writeCurrentState fun _ => .pure
  | rollback =>
    exact .bind .ofOption fun _ => .bind (preserves_reactivatePrevious hfiled) fun _ =>
      .bind preserves_rollbackGate fun _ =>
      .bind (.when fun _ => .bind .ofExcept fun _ => hI.writeCurrentState) fun _ => .pure

theorem Noted.recoverFailedRollback (hI : Noted inp.deploymentId I) (hplaced : Placed I) :
    Preserves I (recoverFailedRollback releases inp plan) :=
  .bind hI.writeRecoveryPlan fun _ => .bind (.update fun _ _ => hI.modifyRecovery) fun _ =>
    .tryCatch
      (.bind (.update fun _ _ => hI.modifyRecovery) fun _ =>
        .bind (hplaced.executeRecovery hI.filed) fun _ =>
        .bind (.update fun _ _ => hI.modifyRecovery) fun _ =>
        .bind (.bind .require fun _ => .update fun _ _ => hI.modifyRecovery) fun _ =>
        .bind hI.writeResolution fun _ => .pure)
      fun _ => .bind
        (.tryCatch
          (.bind (.update fun _ _ => hI.modifyRecovery) fun _ =>
            .bind .require fun _ => .update fun _ _ => hI.modifyRecovery)
          fun _ => .ite (fun _ => .pure) fun _ => .throw)
        fun _ => .throw

theorem Logged.recoverInterrupted (hI : Logged inp.deploymentId I) (hplaced : Placed I) :
    Preserves I (recoverInterrupted releases inp plan) :=
  .bind .read fun _ =>
    .bind (.when fun _ => .tryCatch hI.appendEventBy fun _ => .ite (fun _ => .pure) fun _ => .throw)
      fun _ => .bind (hplaced.executeRecovery hI.filed) fun _ => .bind hI.appendEventBy fun _ =>
      .bind hI.writeResult fun _ => .pure

end FetchNow.Release
