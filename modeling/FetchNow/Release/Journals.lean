import FetchNow.Release.CurrentState
import Mathlib.Data.List.AList

/-!
# Journals

Each release transaction keeps a journal in a directory of its own: an immutable plan, a sequence
of events, and a result that is written once. Events are listed with the latest first.
-/
namespace FetchNow.Release

/-- A directory of journals, by identifier. -/
abbrev Dir (J : Type) := AList fun _ : String => J

/-- The journals that still block, by identifier. -/
def findUnresolved {J : Type} (blocks : J → Bool) (dir : Dir J) : List String :=
  (dir.entries.filter fun entry => blocks entry.2).map Sigma.fst

theorem mem_findUnresolved {J : Type} {blocks : J → Bool} {dir : Dir J} {id : String} :
    id ∈ findUnresolved blocks dir ↔ ∃ j, dir.lookup id = some j ∧ blocks j = true := by
  simp only [findUnresolved, List.mem_map, List.mem_filter, Sigma.exists, exists_and_right,
    exists_eq_right]
  exact exists_congr fun j => and_congr_left fun _ => AList.mem_lookup_iff.symm

theorem findUnresolved_eq_nil {J : Type} {blocks : J → Bool} {dir : Dir J} :
    findUnresolved blocks dir = [] ↔ ∀ id j, dir.lookup id = some j → blocks j = false := by
  simp only [List.eq_nil_iff_forall_not_mem, mem_findUnresolved, not_exists, not_and,
    Bool.not_eq_true]

/-- Whether an event may follow the events so far. -/
def legalNext {S : Type} [DecidableEq S] (transitions : S → List S) (first : S)
    (events : List S) (status : S) : Bool :=
  match events.head? with
  | some previous => status ∈ transitions previous
  | none => status = first

/-! ## Deployments -/

/-- The statuses of `c3_constants`. -/
inductive Status where
  | planned
  | initializingStorage
  | activatingApp
  | appHealthy
  | activatingGateway
  | stabilizing
  | committed
  | failed
  | rollbackStarted
  | rolledBack
  | rollbackFailed
  | bootstrapCleanupStarted
  | bootstrapCleaned
  deriving DecidableEq, Repr

def terminalResultStatuses : List Status := [.committed, .failed, .rolledBack, .rollbackFailed]

def legalTransitions : Status → List Status
  | .planned => [.initializingStorage, .activatingApp, .failed]
  | .initializingStorage => [.activatingApp, .failed]
  | .activatingApp => [.appHealthy, .rollbackStarted]
  | .appHealthy => [.activatingGateway, .rollbackStarted]
  | .activatingGateway => [.stabilizing, .rollbackStarted]
  | .stabilizing => [.committed, .rollbackStarted]
  | .rollbackStarted => [.rolledBack, .rollbackFailed]
  | _ => []

def recoveryLegalTransitions : Status → List Status
  | .planned => [.stabilizing, .committed, .rolledBack, .failed]
  | .stabilizing => [.committed, .rolledBack, .failed]
  | _ => []

def recoverySuccessStatuses : List Status := [.committed, .rolledBack]

def bootstrapFailureTransitions : Status → List Status
  | .activatingApp | .appHealthy | .activatingGateway | .stabilizing => [.bootstrapCleanupStarted]
  | .bootstrapCleanupStarted => [.bootstrapCleaned]
  | .bootstrapCleaned => [.failed]
  | _ => []

structure PlanDocument where
  deploymentId : String
  targetRevision : String
  previousRevision : Option String
  bootstrap : Bool
  targetImageIds : ImageIds
  previousImageIds : Option ImageIds
  releaseManifestSha256 : String
  databaseHeads : List String
  projectName : String
  deriving DecidableEq, Repr

/-- `result.json`. Of its messages only the audit of a bootstrap cleanup is ever looked for. -/
structure ResultDocument where
  deploymentId : String
  status : Status
  cleanupAudit : Bool
  deriving DecidableEq, Repr

inductive RecoverAction where
  | acceptTarget
  | rollback
  deriving DecidableEq, Repr

structure RecoveryPlanDocument where
  recoveryId : String
  deploymentId : String
  action : RecoverAction
  deriving DecidableEq, Repr

structure RecoveryResultDocument where
  recoveryId : String
  status : Status
  deriving DecidableEq, Repr

structure RecoveryJournal where
  plan : Option RecoveryPlanDocument
  events : List Status
  result : Option RecoveryResultDocument
  deriving DecidableEq, Repr

/-- `resolution.json`; its two digests stand for the results they were taken of. -/
structure ResolutionDocument where
  deploymentId : String
  deploymentResult : ResultDocument
  recoveryId : String
  recoveryResult : RecoveryResultDocument
  finalActiveRevision : String
  outcome : RecoverAction
  deriving DecidableEq, Repr

structure Deployment where
  plan : Option PlanDocument
  events : List Status
  result : Option ResultDocument
  recoveries : Dir RecoveryJournal
  resolution : Option ResolutionDocument

/-- `validate_resolution`. -/
def validResolution (j : Deployment) (resolution : ResolutionDocument) : Bool :=
  match j.result, j.recoveries.lookup resolution.recoveryId with
  | some result, some recovery => match recovery.result, recovery.plan with
    | some recoveryResult, some plan =>
      result = resolution.deploymentResult && recoveryResult = resolution.recoveryResult &&
        plan.recoveryId = resolution.recoveryId && plan.deploymentId = resolution.deploymentId &&
        recoveryResult.status ∈ recoverySuccessStatuses
    | _, _ => false
  | _, _ => false

/-- The resolution of a deployment, if it has a valid one. -/
def resolvedBy (j : Deployment) : Option ResolutionDocument :=
  j.resolution.filter fun resolution => validResolution j resolution

def deploymentBlocksRollout (j : Deployment) : Bool :=
  match j.result with
  | none => true
  | some result => match result.status with
    | .committed | .rolledBack | .failed => false
    | .rollbackFailed => (resolvedBy j).isNone
    | _ => true

def findUnresolvedDeployments : Dir Deployment → List String :=
  findUnresolved deploymentBlocksRollout

/-! ## Migrations -/

/-- The statuses of `c3b2b2_constants`. -/
inductive MigrationStatus where
  | planned
  | backupStarted
  | backupVerified
  | holdAcquired
  | preMigrationRevalidated
  | started
  | commandCompleted
  | targetHeadsVerified
  | applicationStabilized
  | stateCommitted
  | committed
  | failed
  | requiresRecovery
  deriving DecidableEq, Repr

structure MigrationResultDocument where
  migrationId : String
  status : MigrationStatus
  failurePhase : Option MigrationStatus
  deriving DecidableEq, Repr

inductive MigrationRecoverAction where
  | acceptSource
  | acceptTarget
  | releaseHold
  deriving DecidableEq, Repr

structure MigrationResolution where
  action : MigrationRecoverAction
  outcome : MigrationStatus
  recoveryId : String
  deriving DecidableEq, Repr

/-- The journal of a migration, as far as other transactions look at it. -/
structure Migration where
  result : Option MigrationResultDocument
  resolution : Option MigrationResolution

def migrationBlocksMutation (j : Migration) : Bool :=
  match j.result with
  | none => true
  | some result => match result.status with
    | .committed | .failed => false
    | .requiresRecovery => j.resolution.isNone
    | _ => true

def findUnresolvedMigrations : Dir Migration → List String :=
  findUnresolved migrationBlocksMutation

/-! ## Bootstraps of the database -/

/-- The statuses of `c3b3_constants`. -/
inductive BootstrapStatus where
  | planned
  | postgresStarted
  | freshnessVerified
  | schemaStarted
  | schemaCompleted
  | targetHeadsVerified
  | committed
  | failed
  | requiresRecovery
  deriving DecidableEq, Repr

structure BootstrapResultDocument where
  bootstrapId : String
  status : BootstrapStatus
  alreadyInitialized : Bool
  targetRevision : String
  verifiedDbHeads : List String
  currentJsonWritten : Bool
  deriving DecidableEq, Repr

/-- The journal of a bootstrap, as far as other transactions look at it. -/
structure Bootstrap where
  result : Option BootstrapResultDocument
  deriving DecidableEq, Repr

def bootstrapBlocksMutation (j : Bootstrap) : Bool :=
  match j.result with
  | none => true
  | some result => match result.status with
    | .committed | .failed => false
    | _ => true

def findUnresolvedBootstraps : Dir Bootstrap → List String :=
  findUnresolved bootstrapBlocksMutation

end FetchNow.Release
