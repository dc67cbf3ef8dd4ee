import FetchNow.Release.DeployRoot

/-!
# Rollouts

`rollout_release`: gates under the lock, a published plan, activation of the target, publication
of `current.json`, and one handler for whatever fails in between.
-/
namespace FetchNow.Release

open Faults

structure RolloutInput where
  projectName : String
  expectedRevision : String
  bootstrap : Bool
  /- what `new_deployment_id` and `utc_now` answer -/
  deploymentId : JournalId
  now : UtcTime

structure RolloutResult where
  ok : Bool
  alreadyActive : Bool
  deploymentId : Option String
  status : Option Status
  deriving DecidableEq, Repr

/-- What the outermost `except` of a rollout names. -/
def rolloutCatches (e : ReleaseError) : Bool :=
  e.isValueError || e ∈ [.rolloutError, .dbHeadsError, .imageIdentityError, .activateError,
    .bootstrapCleanupError, .stabilizeError, .rolloutLockError, .compatibilityError,
    .databaseDriftError, .osError]

/-- The result of a rollout that did not commit. -/
def RolloutResult.ended (id : String) (status : Option Status) : RolloutResult :=
  ⟨false, false, some id, status⟩

variable (releases : Releases)

def runStorageInit (release : PreparedRelease) : ReleaseM Unit :=
  Prog.when release.includesStorageInit (check .storageInit)

/-- What is checked before the containers of the previous release are touched, and then done to
them. -/
def restorePrevious (id previousRevision : String) : ReleaseM Unit := do
  check .preparedRelease
  check .manifest
  check .releaseImages
  let loaded ← loadAndResolveCurrentState releases
  let current ← ofOption loaded .rolloutError
  check .manifest
  let liveHeads ← databaseHeadsViaPostgres
  assertLiveMatchesSavedDatabaseHeads liveHeads current.database.heads
  let prevHeads ← targetHeadsFromReleaseSource releases previousRevision
  assertApplicationCompatibleWithDatabase previousRevision prevHeads current.database
  check .imagesOverride
  runStorageInit (releases previousRevision)
  activateAppTier id previousRevision
  check .waitServicesHealthy
  activateGateway id previousRevision
  check .stabilizeFullHealth

def performRollback (id previousRevision : String) : ReleaseM RolloutResult := do
  appendEvent id .rollbackStarted
  tryCatch
    (do
      restorePrevious releases id previousRevision
      appendEvent id .rolledBack
      writeResult id .rolledBack false
      pure (.ended id (some .rolledBack)))
    fun _ => do
      tryCatch
        (do
          appendEvent id .rollbackFailed
          writeResult id .rollbackFailed false)
        fun _ => pure ()
      pure (.ended id (some .rollbackFailed))

def verifyAlreadyActive (rev : String) (current : ResolvedCurrentState) :
    ReleaseM RolloutResult := do
  check .manifest
  Prog.require ((releases rev).manifestSha256 = current.application.releaseManifestSha256)
    .rolloutError
  check .preparedRelease
  let liveHeads ← databaseHeadsViaPostgres
  assertLiveMatchesSavedDatabaseHeads liveHeads current.database.heads
  let appHeads ← targetHeadsFromReleaseSource releases rev
  assertLiveMatchesSavedDatabaseHeads liveHeads current.database.heads
  assertApplicationCompatibleWithDatabase rev appHeads current.database
  check .imagesOverride
  check .stabilizeFullHealth
  pure ⟨true, true, some current.deploymentId, some .committed⟩

/-- Up to the first event after which containers change. -/
def beginActivation (id rev : String) : ReleaseM Unit := do
  check .manifest
  Prog.when (releases rev).includesStorageInit do
    appendEvent id .initializingStorage
    check .storageInit
  appendEvent id .activatingApp

/-- From the first change of a container to a stable target. -/
def activateTarget (id rev : String) : ReleaseM Unit := do
  activateAppTier id rev
  check .waitServicesHealthy
  appendEvent id .appHealthy
  appendEvent id .activatingGateway
  activateGateway id rev
  appendEvent id .stabilizing
  check .stabilizeFullHealth

/-- The database state that is published with the target. -/
def committedDatabase (current : Option ResolvedCurrentState) (rev : String)
    (dbHeads targetHeads : Heads) : Except ReleaseError DatabaseState :=
  match current with
  | none => buildBootstrapDatabaseState dbHeads rev
  | some current => nextDatabaseStateAfterAppCommit current.database rev targetHeads

/-- `current.json`, then the event, then the result. -/
def commitTarget (inp : RolloutInput) (rev : String) (current : Option ResolvedCurrentState)
    (dbHeads targetHeads : Heads) : ReleaseM RolloutResult := do
  let id := inp.deploymentId.val
  let application : ApplicationState :=
    ⟨rev, (releases rev).manifestSha256, (releases rev).imageIds, id⟩
  let database ← ofExcept (committedDatabase current rev dbHeads targetHeads)
  let state ← ofExcept (buildCommittedCurrentState application database inp.now.val)
  writeCurrentState state
  appendEvent id .committed
  writeResult id .committed false
  pure ⟨true, false, some id, some .committed⟩

def bootstrapCleanup (id rev : String) (plan : PlanDocument) : ReleaseM RolloutResult :=
  tryCatch
    (do
      appendBootstrapFailureEvent id .bootstrapCleanupStarted
      let owned ← discoverOwnedBootstrapContainers id rev
      let removed ← removeOwnedBootstrapContainers id rev owned
      Prog.require (removed ≠ []) .bootstrapCleanupError
      publishBootstrapFailedAfterCleanup id plan true
      pure (.ended id (some .failed)))
    fun e => if e = .bootstrapCleanupError then pure (.ended id none) else throw e

/-- The handler, once containers may have changed. -/
def afterMutation (inp : RolloutInput) (rev : String) (plan : PlanDocument) :
    ReleaseM RolloutResult :=
  let id := inp.deploymentId.val
  if inp.bootstrap then
    bootstrapCleanup id rev plan
  else
    match plan.previousRevision, plan.previousImageIds with
    | some previousRevision, some _ => performRollback releases id previousRevision
    | _, _ => throw .rolloutError

/-- The handler, before any container changed. -/
def beforeMutation (id : String) : ReleaseM RolloutResult := do
  appendEvent id .failed
  writeResult id .failed false
  pure (.ended id (some .failed))

def rolloutPlan (inp : RolloutInput) (rev : String) (current : Option ResolvedCurrentState)
    (dbHeads : Heads) : PlanDocument where
  deploymentId := inp.deploymentId.val
  targetRevision := rev
  previousRevision := current.map ResolvedCurrentState.revision
  bootstrap := inp.bootstrap && current.isNone
  targetImageIds := (releases rev).imageIds
  previousImageIds := current.map (·.application.imageIds)
  releaseManifestSha256 := (releases rev).manifestSha256
  databaseHeads := sorted dbHeads
  projectName := inp.projectName

/-- From the published plan on. -/
def rolloutTransaction (inp : RolloutInput) (rev : String) (current : Option ResolvedCurrentState)
    (dbHeads targetHeads : Heads) : ReleaseM RolloutResult := do
  let id := inp.deploymentId.val
  let plan := rolloutPlan releases inp rev current dbHeads
  writePlan id plan
  appendEvent id .planned
  check .imagesOverride
  match ← attempt (beginActivation releases id rev) with
  | .error _ => beforeMutation id
  | .ok () =>
    tryCatch
      (do
        activateTarget id rev
        commitTarget releases inp rev current dbHeads targetHeads)
      fun _ => afterMutation releases inp rev plan

/-- `_app_containers_present`. -/
def DeployRoot.appContainersPresent (root : DeployRoot) : Bool := !root.containers.isEmpty

/-- `_postgres_healthy`. -/
def DeployRoot.postgresHealthy (root : DeployRoot) : Bool :=
  root.postgres.present && root.postgres.healthy

def bootstrapGates (current : Option ResolvedCurrentState) : ReleaseM Unit := do
  Prog.require current.isNone .rolloutError
  let present ← read .composePs fun root => .ok root.appContainersPresent
  Prog.require (present = false) .rolloutError
  let healthy ← read .composePs fun root => .ok root.postgresHealthy
  Prog.require (healthy = true) .rolloutError

/-- Whether the heads of the database and of the target allow the rollout. -/
def rolloutHeadGates (inp : RolloutInput) (rev : String) (current : Option ResolvedCurrentState)
    (dbHeads targetHeads : Heads) : ReleaseM Unit :=
  match inp.bootstrap, current with
  | false, some current => do
    assertLiveMatchesSavedDatabaseHeads dbHeads current.database.heads
    assertApplicationCompatibleWithDatabase rev targetHeads current.database
  | _, _ => assertHeadsEqual dbHeads targetHeads

/-- The rollout of a revision that is not active. -/
def rolloutTarget (inp : RolloutInput) (rev : String) (current : Option ResolvedCurrentState) :
    ReleaseM RolloutResult := do
  check .manifest
  check .releaseImages
  check .manifest
  Prog.when inp.bootstrap (bootstrapGates current)
  let targetHeads ← targetHeadsFromReleaseSource releases rev
  let dbHeads ← databaseHeadsViaPostgres
  rolloutHeadGates inp rev current dbHeads targetHeads
  Prog.when current.isSome do
    check .manifest
    check .releaseImages
  catching rolloutCatches (.ended inp.deploymentId.val none)
    (rolloutTransaction releases inp rev current dbHeads targetHeads)

/-- What runs under the lock. -/
def rolloutLocked (inp : RolloutInput) (rev : String) : ReleaseM RolloutResult := do
  requireResolved DeployRoot.unresolvedDeployments .rolloutError
  requireResolved DeployRoot.unresolvedMigrations .rolloutError
  requireResolved DeployRoot.unresolvedBootstraps .rolloutError
  let current ← loadAndResolveCurrentState releases
  match current.filter (·.revision = rev) with
  | some active => verifyAlreadyActive releases rev active
  | none => rolloutTarget releases inp rev current

def rolloutRelease (inp : RolloutInput) : ReleaseM RolloutResult :=
  catching rolloutCatches ⟨false, false, none, none⟩ do
    check .projectIdentity
    let rev ← ofExcept (validateFullSha inp.expectedRevision)
    check .deployRoot
    check .preparedRelease
    let current ← loadAndResolveCurrentState releases
    Prog.require (current.isSome ∨ inp.bootstrap) .rolloutError
    Prog.when current.isSome (check .preparedRelease)
    check .rolloutLock
    rolloutLocked releases inp rev

/-! ## A sample root -/

def sampleRevision (c : Char) : String := String.ofList (List.replicate 40 c)

def sampleHash (c : Char) : String := String.ofList (List.replicate 64 c)

def sampleImageIds : ImageIds :=
  let image := "sha256:" ++ sampleHash 'd'
  ⟨image, image, image, image⟩

def sampleReleases : Releases := fun _ => {
  heads := {"0001_initial"}
  manifestSha256 := sampleHash 'e'
  imageIds := sampleImageIds
  includesStorageInit := false
  composeOverlay := "compose.production.yaml"
  sourceContractVersion := 1
  migrationsGraphSha256 := sampleHash 'f'
  compatibilityContractSha256 := sampleHash 'f'
  heads_alembic := by decide +kernel
  manifest_hash := by decide +kernel
  imageIds_wellFormed := by decide +kernel
  contract_hash := by decide +kernel }

def sampleCurrent : CurrentStateV2 :=
  ⟨⟨sampleRevision 'a', sampleHash 'e', sampleImageIds, "00000000-0000-4000-8000-000000000001"⟩,
    ⟨["0001_initial"], sampleRevision 'a', none, none, [sampleRevision 'a']⟩,
    "2026-01-01T00:00:00Z"⟩

/-- One committed release, and nothing unresolved. -/
def sampleRoot : DeployRoot where
  current := some ⟨.indented, .obj sampleCurrent.toDict⟩
  deployments := ∅
  migrations := ∅
  bootstraps := ∅
  containers := []
  postgres := ⟨true, true, true, true, .heads {"0001_initial"}, true, [], []⟩

def sampleInput : RolloutInput where
  projectName := "fetchnow"
  expectedRevision := sampleRevision 'b'
  bootstrap := false
  deploymentId := ⟨"00000000-0000-4000-8000-000000000002", by decide +kernel⟩
  now := ⟨"2026-01-02T00:00:00Z", by decide +kernel⟩

end FetchNow.Release
