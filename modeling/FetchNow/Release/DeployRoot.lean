import FetchNow.Theory.Faults
import FetchNow.Release.Journals

/-!
# The deploy root

The durable state that the release commands share, and the operations they perform on it. Each
operation may raise or be the last one of its process, before or after its effect. What a command
asks of Docker, of prepared releases or of the host, and does not read back, is an operation
without an effect.
-/
namespace FetchNow.Release

open Faults

/-- `RUNTIME_APPLICATION_SERVICES`. -/
inductive Service where
  | api
  | worker
  | delivery
  | web
  | gateway
  deriving DecidableEq, Repr

def appServicesBeforeGateway : List Service := [.api, .worker, .delivery, .web]

/-- A container of the application, with the labels of its transaction. -/
structure Container where
  service : Service
  deploymentId : String
  releaseRevision : String
  deriving DecidableEq, Repr

/-- What `SELECT version_num FROM alembic_version` answers. -/
inductive AlembicProbe where
  | missingTable
  | emptyTable
  | queryFailed
  | heads (heads : Heads)
  deriving DecidableEq

/-- The `postgres` service, its volumes and its catalog. -/
structure Postgres where
  present : Bool
  healthy : Bool
  volumes : Bool
  pgdata : Bool
  alembic : AlembicProbe
  catalogReadable : Bool
  relations : List String
  extraSchemas : List String
  deriving DecidableEq

structure DeployRoot where
  current : Option Text
  deployments : Dir Deployment
  migrations : Dir Migration
  bootstraps : Dir Bootstrap
  containers : List Container
  postgres : Postgres

/-- A prepared release. It is immutable. -/
structure PreparedRelease where
  heads : Heads
  manifestSha256 : String
  imageIds : ImageIds
  includesStorageInit : Bool
  composeOverlay : String
  sourceContractVersion : Nat
  migrationsGraphSha256 : String
  compatibilityContractSha256 : String
  heads_alembic : ∀ head ∈ heads, isAlembicRev head = true
  manifest_hash : fullmatch manifestHashRe manifestSha256 = true
  imageIds_wellFormed : imageIds.WellFormed
  contract_hash : fullmatch manifestHashRe compatibilityContractSha256 = true

/-- The prepared releases of the deploy root, by revision. -/
abbrev Releases := String → PreparedRelease

/-- What `str(uuid4())` makes. -/
abbrev JournalId := { id : String // fullmatch deploymentIdRe id = true }

/-- What `utc_now` makes. -/
abbrev UtcTime := { text : String // fullmatch utcRe text = true }

/-- The operations of the release commands. -/
inductive Op where
  /- checks of the host, of Docker and of prepared releases -/
  | projectIdentity
  | deployRoot
  | rolloutLock
  | preparedRelease
  | manifest
  | releaseImages
  | targetHeads
  | imagesOverride
  | composePs
  | waitServicesHealthy
  | stabilizeFullHealth
  | databaseHeads
  /- `current.json` -/
  | loadCurrentState
  | writeCurrentState
  /- containers -/
  | storageInit
  | activateAppTier
  | activateGateway
  | discoverContainers
  | removeContainer
  /- journals -/
  | loadJournal
  | journalDirectory
  | writePlan
  | appendEvent (status : Status)
  | writeResult (status : Status)
  | writeRecoveryPlan
  | appendRecoveryEvent (status : Status)
  | writeRecoveryResult (status : Status)
  | writeResolution
  deriving DecidableEq, Repr

/-- A release command, or a part of one. -/
abbrev ReleaseM (α : Type) := Prog Op DeployRoot ReleaseError α

export Faults.Prog (check read update ofExcept ofOption attempt catching)

/-! ## `current.json` -/

def writeCurrentState (state : CurrentStateV2) : ReleaseM Unit := do
  let _ ← ofExcept (parseCurrentStateV2 state.toDict)
  update .writeCurrentState fun root =>
    .ok { root with current := some ⟨.indented, .obj state.toDict⟩ }

def parseCurrent (root : DeployRoot) : Except ReleaseError (Option ParsedCurrentState) :=
  match root.current with
  | none => .ok none
  | some text => (parseCurrentStateDocument text.document).map some

def resolveCurrentState (releases : Releases) : ParsedCurrentState → ReleaseM ResolvedCurrentState
  | .v1 parsed => do
    check .preparedRelease
    let heads := (releases parsed.revision).heads
    Prog.require (heads ≠ ∅) .currentStateError
    pure { application := ⟨parsed.revision, parsed.releaseManifestSha256, parsed.imageIds,
             parsed.deploymentId⟩
           database := ⟨sorted heads, parsed.revision, none, none, [parsed.revision]⟩
           updatedAtUtc := parsed.updatedAtUtc
           legacyV1 := true }
  | .v2 parsed => do
    check .preparedRelease
    check .preparedRelease
    let heads := (releases parsed.database.schemaReleaseRevision).heads
    Prog.require (heads = parsed.database.heads.toFinset) .currentStateError
    pure { application := parsed.application
           database := parsed.database
           updatedAtUtc := parsed.updatedAtUtc
           legacyV1 := false }

def loadAndResolveCurrentState (releases : Releases) : ReleaseM (Option ResolvedCurrentState) := do
  match ← read .loadCurrentState parseCurrent with
  | none => pure none
  | some parsed => some <$> resolveCurrentState releases parsed

/-! ## The database -/

def databaseHeadsViaPostgres : ReleaseM Heads :=
  read .databaseHeads fun root => match root.postgres.alembic with
    | .heads heads => if heads = ∅ then .error .dbHeadsError else .ok heads
    | _ => .error .dbHeadsError

def targetHeadsFromReleaseSource (releases : Releases) (revision : String) : ReleaseM Heads :=
  read .targetHeads fun _ => .ok (releases revision).heads

def assertHeadsEqual (databaseHeads targetHeads : Heads) : ReleaseM Unit :=
  Prog.require (databaseHeads = targetHeads) .dbHeadsError

def assertLiveMatchesSavedDatabaseHeads (liveHeads : Heads) (savedHeads : List String) :
    ReleaseM Unit :=
  Prog.require (liveHeads = savedHeads.toFinset) .databaseDriftError

/-- `application_compatible_with_database`, up to the reason it gives. -/
def applicationCompatibleWithDatabase (targetRevision : String) (targetSourceHeads : Heads)
    (database : DatabaseState) : Except ReleaseError Bool := do
  let target ← validateFullSha targetRevision
  pure (decide (targetSourceHeads = database.heads.toFinset) ||
    decide (target ∈ database.compatibleApplicationRevisions))

def assertApplicationCompatibleWithDatabase (targetRevision : String) (targetSourceHeads : Heads)
    (database : DatabaseState) : ReleaseM Unit := do
  let allowed ← ofExcept
    (applicationCompatibleWithDatabase targetRevision targetSourceHeads database)
  Prog.require (allowed = true) .compatibilityError

/-! ## Containers -/

/-- Recreate services under the labels of a transaction. -/
def recreate (services : List Service) (deploymentId releaseRevision : String)
    (containers : List Container) : List Container :=
  containers.filter (fun c => c.service ∉ services) ++
    services.map fun service => ⟨service, deploymentId, releaseRevision⟩

def activateAppTier (deploymentId releaseRevision : String) : ReleaseM Unit :=
  update .activateAppTier fun root => .ok { root with
    containers := recreate appServicesBeforeGateway deploymentId releaseRevision root.containers }

def activateGateway (deploymentId releaseRevision : String) : ReleaseM Unit :=
  update .activateGateway fun root => .ok { root with
    containers := recreate [.gateway] deploymentId releaseRevision root.containers }

def discoverOwnedBootstrapContainers (deploymentId releaseRevision : String) :
    ReleaseM (List Container) :=
  read .discoverContainers fun root => .ok (root.containers.filter fun c =>
    c.deploymentId = deploymentId ∧ c.releaseRevision = releaseRevision)

/-- `docker rm -f` on each of them, in order. -/
def removeContainers : List Container → ReleaseM Unit
  | [] => pure ()
  | c :: cs => do
    update .removeContainer fun root =>
      .ok { root with containers := root.containers.filter (· ≠ c) }
    removeContainers cs

def removeOwnedBootstrapContainers (deploymentId releaseRevision : String)
    (expected : List Container) : ReleaseM (List Container) := do
  let discovered ← discoverOwnedBootstrapContainers deploymentId releaseRevision
  Prog.require (discovered.toFinset = expected.toFinset) .bootstrapCleanupError
  removeContainers discovered
  pure discovered

/-! ## Deployment journals -/

/-- Change a journal that is there. -/
def modify {J : Type} (dir : Dir J) (id : String) (f : J → Except ReleaseError J) :
    Except ReleaseError (Dir J) :=
  match dir.lookup id with
  | none => .error .osError
  | some j => (f j).map fun j => dir.insert id j

def DeployRoot.modifyDeployment (root : DeployRoot) (id : String)
    (f : Deployment → Except ReleaseError Deployment) : Except ReleaseError DeployRoot :=
  (modify root.deployments id f).map fun deployments => { root with deployments }

/-- The directories of a journal, with nothing in them. -/
def Deployment.empty : Deployment := ⟨none, [], none, ∅, none⟩

def writePlan (id : String) (plan : PlanDocument) : ReleaseM Unit := do
  update .journalDirectory fun root => match root.deployments.lookup id with
    | none => .ok { root with deployments := root.deployments.insert id .empty }
    | some j => if j.plan.isSome then .error .journalError else .ok root
  update .writePlan fun root =>
    root.modifyDeployment id fun j => .ok { j with plan := some plan }

/-- `validate_full_sha` inside the parser of a plan. -/
def parsePlanRevision (value : String) : Except ReleaseError String :=
  (validateFullSha value).mapError fun _ => .journalError

/-- `parse_plan`, of a plan that has every key. -/
def parsePlan (plan : PlanDocument) : Except ReleaseError PlanDocument := do
  let targetRevision ← parsePlanRevision plan.targetRevision
  let previousRevision ← plan.previousRevision.mapM parsePlanRevision
  Transactions.require plan.targetImageIds.WellFormed .journalError
  Transactions.require (∀ ids ∈ plan.previousImageIds, ids.WellFormed) .journalError
  Transactions.require (fullmatch deploymentIdRe plan.deploymentId) .journalError
  Transactions.require (fullmatch manifestHashRe plan.releaseManifestSha256) .journalError
  Transactions.require (plan.bootstrap = previousRevision.isNone) .journalError
  Transactions.require (plan.databaseHeads ≠ []) .journalError
  pure { plan with targetRevision, previousRevision }

def loadPlan (id : String) : ReleaseM PlanDocument :=
  read .loadJournal fun root => match root.deployments.lookup id with
    | none => .error .journalIOError
    | some j => match j.plan with
      | none => .error .journalIOError
      | some plan => parsePlan plan

/-- `append_event` with the transitions it is given. -/
def appendEventBy (legal : Status → List Status) (id : String) (status : Status) :
    ReleaseM Unit :=
  update (.appendEvent status) fun root => root.modifyDeployment id fun j =>
    if legalNext legal .planned j.events status then
      .ok { j with events := status :: j.events }
    else
      .error .journalError

def appendEvent : String → Status → ReleaseM Unit := appendEventBy legalTransitions

def appendBootstrapFailureEvent : String → Status → ReleaseM Unit :=
  appendEventBy bootstrapFailureTransitions

def validateBootstrapFailedResult (plan : PlanDocument) (cleanupAudit : Bool) :
    Except ReleaseError Unit := do
  Transactions.require plan.bootstrap .journalError
  Transactions.require (plan.previousRevision = none ∧ plan.previousImageIds = none) .journalError
  Transactions.require cleanupAudit .journalError

def writeResult (id : String) (status : Status) (cleanupAudit : Bool) : ReleaseM Unit := do
  Prog.require (status ∈ terminalResultStatuses) .journalError
  update (.writeResult status) fun root => root.modifyDeployment id fun j => do
    Transactions.require j.result.isNone .journalError
    if status = .failed ∧ .bootstrapCleanupStarted ∈ j.events then
      match j.plan with
      | none => throw .journalError
      | some plan => validateBootstrapFailedResult plan cleanupAudit
    pure { j with result := some ⟨id, status, cleanupAudit⟩ }

def publishBootstrapFailedAfterCleanup (id : String) (plan : PlanDocument) (cleanupAudit : Bool) :
    ReleaseM Unit := do
  ofExcept (validateBootstrapFailedResult plan cleanupAudit)
  appendBootstrapFailureEvent id .bootstrapCleaned
  appendBootstrapFailureEvent id .failed
  writeResult id .failed cleanupAudit

def latestEventStatus (id : String) : ReleaseM (Option Status) :=
  read .loadJournal fun root => .ok (root.deployments.lookup id >>= fun j => j.events.head?)

/-- Refuse to go on while a journal of a kind is unresolved. -/
def requireResolved (find : DeployRoot → List String) (e : ReleaseError) : ReleaseM Unit := do
  let unresolved ← read .loadJournal fun root => .ok (find root)
  Prog.require (unresolved = []) e

def DeployRoot.unresolvedDeployments (root : DeployRoot) : List String :=
  findUnresolvedDeployments root.deployments

def DeployRoot.unresolvedMigrations (root : DeployRoot) : List String :=
  findUnresolvedMigrations root.migrations

def DeployRoot.unresolvedBootstraps (root : DeployRoot) : List String :=
  findUnresolvedBootstraps root.bootstraps

end FetchNow.Release
