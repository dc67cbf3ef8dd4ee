import FetchNow.Release.Rollout

/-!
# Recovery of a deployment

`recover_deployment`: an explicit end for a deployment that is unresolved, either on its target or
on the release before it. A deployment with the result `rollback_failed` keeps it, and is recovered
in a journal of its own.
-/
namespace FetchNow.Release

open Faults

structure RecoverInput where
  projectName : String
  deploymentId : String
  action : RecoverAction
  /- what `new_recovery_id` and `utc_now` answer -/
  recoveryId : JournalId
  now : UtcTime

structure RecoverResult where
  ok : Bool
  recoveryId : Option String
  deriving DecidableEq, Repr

variable (releases : Releases)

/-! ## Recovery journals -/

def DeployRoot.modifyRecovery (root : DeployRoot) (id recoveryId : String)
    (f : RecoveryJournal → Except ReleaseError RecoveryJournal) :
    Except ReleaseError DeployRoot :=
  root.modifyDeployment id fun j =>
    (modify j.recoveries recoveryId f).map fun recoveries => { j with recoveries }

def writeRecoveryPlan (id : String) (plan : RecoveryPlanDocument) : ReleaseM Unit := do
  update .journalDirectory fun root => root.modifyDeployment id fun j =>
    match j.recoveries.lookup plan.recoveryId with
    | none => .ok { j with recoveries := j.recoveries.insert plan.recoveryId ⟨none, [], none⟩ }
    | some recovery => if recovery.plan.isSome then .error .journalError else .ok j
  update .writeRecoveryPlan fun root =>
    root.modifyRecovery id plan.recoveryId fun recovery => .ok { recovery with plan := some plan }

def appendRecoveryEvent (id recoveryId : String) (status : Status) : ReleaseM Unit :=
  update (.appendRecoveryEvent status) fun root => root.modifyRecovery id recoveryId fun recovery =>
    if legalNext recoveryLegalTransitions .planned recovery.events status then
      .ok { recovery with events := status :: recovery.events }
    else
      .error .journalError

def writeRecoveryResult (id recoveryId : String) (status : Status) : ReleaseM Unit := do
  Prog.require (status ∈ terminalResultStatuses) .journalError
  update (.writeRecoveryResult status) fun root =>
    root.modifyRecovery id recoveryId fun recovery =>
      if recovery.result.isSome then
        .error .journalError
      else
        .ok { recovery with result := some ⟨recoveryId, status⟩ }

/-- The digests of both results are taken of what is on disk. -/
def writeResolution (id recoveryId finalRevision : String) (outcome : RecoverAction) :
    ReleaseM Unit :=
  update .writeResolution fun root => root.modifyDeployment id fun j =>
    match j.result, j.recoveries.lookup recoveryId >>= RecoveryJournal.result with
    | some result, some recoveryResult =>
      let resolution : ResolutionDocument :=
        ⟨id, result, recoveryId, recoveryResult, finalRevision, outcome⟩
      if j.resolution.isSome ∨ validResolution j resolution = false then
        .error .journalError
      else
        .ok { j with resolution := some resolution }
    | _, _ => .error .osError

/-! ## The two actions -/

/-- The database state that accepting the target publishes. -/
def acceptedDatabase (plan : PlanDocument) (current : Option ResolvedCurrentState)
    (dbHeads targetHeads : Heads) : ReleaseM DatabaseState :=
  match current with
  | none => do
    Prog.require plan.bootstrap .recoverError
    assertHeadsEqual dbHeads targetHeads
    ofExcept (buildBootstrapDatabaseState dbHeads plan.targetRevision)
  | some current => do
    assertLiveMatchesSavedDatabaseHeads dbHeads current.database.heads
    assertApplicationCompatibleWithDatabase plan.targetRevision targetHeads current.database
    ofExcept (nextDatabaseStateAfterAppCommit current.database plan.targetRevision targetHeads)

/-- What accepting the target asks for before it publishes the state. -/
def acceptTargetGates (plan : PlanDocument) : ReleaseM DatabaseState := do
  check .preparedRelease
  Prog.require ((releases plan.targetRevision).manifestSha256 = plan.releaseManifestSha256)
    .recoverError
  check .releaseImages
  check .manifest
  let dbHeads ← databaseHeadsViaPostgres
  assertHeadsEqual dbHeads plan.databaseHeads.toFinset
  let targetHeads ← targetHeadsFromReleaseSource releases plan.targetRevision
  let current ← loadAndResolveCurrentState releases
  let database ← acceptedDatabase plan current dbHeads targetHeads
  check .imagesOverride
  check .stabilizeFullHealth
  pure database

def executeAcceptTarget (inp : RecoverInput) (plan : PlanDocument) : ReleaseM String := do
  let database ← acceptTargetGates releases plan
  let application : ApplicationState :=
    ⟨plan.targetRevision, plan.releaseManifestSha256, plan.targetImageIds, plan.deploymentId⟩
  let state ← ofExcept (buildCommittedCurrentState application database inp.now.val)
  writeCurrentState state
  pure plan.targetRevision

/-- The loaded state, once the live heads and the previous release agree with it. -/
def rollbackGate (previousRevision : String) : ReleaseM ResolvedCurrentState := do
  let prevHeads ← targetHeadsFromReleaseSource releases previousRevision
  check .manifest
  let liveHeads ← databaseHeadsViaPostgres
  let loaded ← loadAndResolveCurrentState releases
  let current ← ofOption loaded .recoverError
  assertLiveMatchesSavedDatabaseHeads liveHeads current.database.heads
  assertApplicationCompatibleWithDatabase previousRevision prevHeads current.database
  pure current

/-- Bring the containers of the previous release back. -/
def reactivatePrevious (plan : PlanDocument) (previousRevision : String) : ReleaseM Unit := do
  check .preparedRelease
  check .releaseImages
  check .releaseImages
  let _ ← rollbackGate releases previousRevision
  check .imagesOverride
  runStorageInit (releases previousRevision)
  activateAppTier plan.deploymentId previousRevision
  check .waitServicesHealthy
  activateGateway plan.deploymentId previousRevision
  check .stabilizeFullHealth

def executeRollback (inp : RecoverInput) (plan : PlanDocument) : ReleaseM String := do
  let (previousRevision, previousImageIds) ← ofOption
    (if plan.bootstrap then none
      else plan.previousRevision.bind fun rev => plan.previousImageIds.map (rev, ·)) .recoverError
  reactivatePrevious releases plan previousRevision
  let current ← rollbackGate releases previousRevision
  Prog.when (current.revision ≠ previousRevision) do
    let application : ApplicationState :=
      ⟨previousRevision, (releases previousRevision).manifestSha256, previousImageIds,
        plan.deploymentId⟩
    let state ← ofExcept (buildCommittedCurrentState application current.database inp.now.val)
    writeCurrentState state
  pure previousRevision

def executeRecovery (inp : RecoverInput) (plan : PlanDocument) : ReleaseM String :=
  match inp.action with
  | .acceptTarget => executeAcceptTarget releases inp plan
  | .rollback => executeRollback releases inp plan

/-- The status that an action ends with. -/
def RecoverAction.status : RecoverAction → Status
  | acceptTarget => .committed
  | rollback => .rolledBack

/-! ## The command -/

/-- Recovery after `rollback_failed`, in a journal of its own. -/
def recoverFailedRollback (inp : RecoverInput) (plan : PlanDocument) : ReleaseM RecoverResult := do
  let id := inp.deploymentId
  let recoveryId := inp.recoveryId.val
  writeRecoveryPlan id ⟨recoveryId, plan.deploymentId, inp.action⟩
  appendRecoveryEvent id recoveryId .planned
  tryCatch
    (do
      appendRecoveryEvent id recoveryId .stabilizing
      let finalRevision ← executeRecovery releases inp plan
      appendRecoveryEvent id recoveryId inp.action.status
      writeRecoveryResult id recoveryId inp.action.status
      writeResolution id recoveryId finalRevision inp.action
      pure ⟨true, some recoveryId⟩)
    fun _ => do
      tryCatch
        (do
          appendRecoveryEvent id recoveryId .failed
          writeRecoveryResult id recoveryId .failed)
        fun e => if e = .journalError then pure () else throw e
      throw .recoverError

/-- Recovery of a deployment without a result, in its own journal. -/
def recoverInterrupted (inp : RecoverInput) (plan : PlanDocument) : ReleaseM RecoverResult := do
  let id := inp.deploymentId
  let phase ← latestEventStatus id
  Prog.when (phase ≠ some .stabilizing) (tryCatch (appendEvent id .stabilizing) fun e =>
    if e = .journalError then pure () else throw e)
  let _ ← executeRecovery releases inp plan
  appendEvent id inp.action.status
  writeResult id inp.action.status false
  pure ⟨true, none⟩

/-- What runs under the lock, for the deployment that is on disk. -/
def recoverLocked (inp : RecoverInput) : ReleaseM RecoverResult := do
  let found ← read .loadJournal fun root => .ok (root.deployments.lookup inp.deploymentId)
  let j ← ofOption found .recoverError
  match resolvedBy j with
  | some resolution => pure ⟨true, some resolution.recoveryId⟩
  | none => do
    let plan ← loadPlan inp.deploymentId
    Prog.require (plan.projectName = inp.projectName) .recoverError
    match j.result with
    | none => recoverInterrupted releases inp plan
    | some result =>
      if result.status = .rollbackFailed then
        catching (fun _ => true) ⟨false, some inp.recoveryId.val⟩
          (recoverFailedRollback releases inp plan)
      else
        throw .recoverError

def recoverDeployment (inp : RecoverInput) : ReleaseM RecoverResult :=
  catching (fun _ => true) ⟨false, none⟩ do
    check .projectIdentity
    check .deployRoot
    check .rolloutLock
    requireResolved DeployRoot.unresolvedMigrations .recoverError
    Prog.require (fullmatch deploymentIdRe inp.deploymentId = true) .journalError
    recoverLocked releases inp

end FetchNow.Release
