import FetchNow.PgBackup.AlembicGraph
import FetchNow.Text.Json
import FetchNow.Theory.Texts

/-!
# Verification attestations

What a verification attests, the JSON document it is kept in, and the file names of a backup's
attestations. A document is what `json.loads` makes of its text.
-/
namespace FetchNow.Attestation

open Transactions Texts PgBackup

inductive Json where
  | null
  | bool (value : Bool)
  | int (value : ℤ)
  | float (value : PyFloat)
  | str (value : String)
  | arr (items : List Json)
  | obj (fields : List (String × Json))

/-- A `dict` of JSON values; no key repeats. -/
abbrev Object := List (String × Json)

inductive Failure where
  | attestationError (message : String)
  | alembicGraphError (e : GraphError)
  | valueError (message : String)
  | pathSafetyError (message : String)

/-- The tables of the interpreter, and `str` of a JSON value that is no string. -/
structure Library where
  tables : Unicode
  repr : Json → String

/-! ## Attestations -/

structure SemanticCheckResult where
  name : String
  ok : Bool
  detail : String
  deriving DecidableEq, Repr

structure Cleanup where
  ok : Bool
  droppedDatabase : Option String
  deriving DecidableEq, Repr

/-- Three fields are taken over as they are read. -/
structure VerificationAttestation where
  backupId : String
  backupSha256 : String
  verifiedAtUtc : String
  postgresVersion : String
  pgRestoreVersion : String
  temporaryDatabase : Json
  restoreDurationSeconds : Json
  semanticChecks : List SemanticCheckResult
  cleanup : Cleanup
  result : String
  failureReason : Json
  toolVersion : String

structure VerificationAttestationV2 extends VerificationAttestation where
  expectedAlembicHeads : List String
  staticAlembicHeads : List String
  migrationsGraphSha256 : String
  verifiedRestoredHeads : Option (List String)

inductive ParsedAttestation where
  | v1 (attestation : VerificationAttestation)
  | v2 (attestation : VerificationAttestationV2)

/-- The fields that both versions have. -/
def ParsedAttestation.common : ParsedAttestation → VerificationAttestation
  | v1 attestation => attestation
  | v2 attestation => attestation.toVerificationAttestation

def ofOption : Option String → Json
  | none => .null
  | some value => .str value

def ofHeads (heads : List String) : Json := .arr (heads.map .str)

def SemanticCheckResult.asdict (c : SemanticCheckResult) : Json :=
  .obj [("name", .str c.name), ("ok", .bool c.ok), ("detail", .str c.detail)]

def Cleanup.asdict (c : Cleanup) : Json :=
  .obj [("ok", .bool c.ok), ("dropped_database", ofOption c.droppedDatabase)]

def VerificationAttestation.fields (a : VerificationAttestation) : Object :=
  [("backup_id", .str a.backupId), ("backup_sha256", .str a.backupSha256),
    ("verified_at_utc", .str a.verifiedAtUtc), ("postgres_version", .str a.postgresVersion),
    ("pg_restore_version", .str a.pgRestoreVersion), ("temporary_database", a.temporaryDatabase),
    ("restore_duration_seconds", a.restoreDurationSeconds),
    ("semantic_checks", .arr (a.semanticChecks.map SemanticCheckResult.asdict)),
    ("cleanup", a.cleanup.asdict), ("result", .str a.result), ("failure_reason", a.failureReason),
    ("tool_version", .str a.toolVersion)]

/-- `to_json`, up to the order of the keys. -/
def ParsedAttestation.toJson : ParsedAttestation → Object
  | v1 a => ("schema_version", .int 1) :: a.fields
  | v2 a => ("schema_version", .int 2) :: ("expected_alembic_heads", ofHeads a.expectedAlembicHeads) ::
    ("static_alembic_heads", ofHeads a.staticAlembicHeads) ::
    ("migrations_graph_sha256", .str a.migrationsGraphSha256) ::
    ("verified_restored_heads", (a.verifiedRestoredHeads.map ofHeads).getD .null) :: a.fields

/-! ## Parsing -/

def parseUtc (value : Json) (field : String) : Except Failure String :=
  match value with
  | .str text =>
    if text.toList.getLast? = some 'Z' then .ok text
    else .error (.attestationError s!"{field} must be canonical UTC ending with Z")
  | _ => .error (.attestationError s!"{field} must be canonical UTC ending with Z")

/-- A text that `_parse_sha256` takes. -/
def IsSha256 (lib : Library) (text : String) : Prop :=
  text.length = 64 ∧ (Text.int lib.tables 16 (codePoints text)).isSome ∧
    Text.lower (codePoints text) = codePoints text

instance (lib : Library) (text : String) : Decidable (IsSha256 lib text) :=
  inferInstanceAs (Decidable (_ ∧ _ ∧ _))

def parseSha256 (lib : Library) (value : Json) (field : String) : Except Failure String :=
  match value with
  | .str text =>
    if text.length ≠ 64 then
      .error (.attestationError s!"{field} must be a 64-character hex SHA-256")
    else if (Text.int lib.tables 16 (codePoints text)).isNone then
      .error (.attestationError s!"{field} must be lowercase hex")
    else if codePoints text ≠ Text.lower (codePoints text) then
      .error (.attestationError s!"{field} must be lowercase hex")
    else .ok text
  | _ => .error (.attestationError s!"{field} must be a 64-character hex SHA-256")

/-- The loop of `_parse_head_list`. -/
def readHeads (field : String) : List String → List Json → Except Failure (List String)
  | heads, [] => .ok heads
  | heads, .str item :: rest => do
    let rev ← (validateRevisionId s!"{field} entry" (PgBackup.strip item)).mapError .alembicGraphError
    require (rev ∉ heads) (.attestationError s!"{field} contains duplicate revision")
    readHeads field (heads ++ [rev]) rest
  | _, _ => .error (.attestationError s!"{field} entries must be strings")

def asText : Json → Option String
  | .str text => some text
  | _ => none

def parseHeadList (raw : Json) (field : String) : Except Failure (List String) :=
  match raw with
  | .arr [] => .error (.attestationError s!"{field} must be a non-empty JSON array")
  | .arr raw => do
    let heads ← readHeads field [] raw
    let sorted := heads.insertionSort (· ≤ ·)
    require (sorted = raw.filterMap asText)
      (.attestationError s!"{field} must be sorted unique revision IDs")
    .ok sorted
  | _ => .error (.attestationError s!"{field} must be a non-empty JSON array")

def parseOptionalHeadList (raw : Json) (field : String) : Except Failure (Option (List String)) :=
  match raw with
  | .null => .ok none
  | raw => (parseHeadList raw field).map some

/-- The value of a key, `None` where it is absent. -/
def get (raw : Object) (key : String) : Json := (raw.lookup key).getD .null

def parseSemanticCheck : Json → Except Failure SemanticCheckResult
  | .obj item =>
    if item.any fun field => field.1 ∉ ["name", "ok", "detail"] then
      .error (.attestationError "semantic_checks entry has unknown fields")
    else
      match get item "name", get item "ok", get item "detail" with
      | .str name, .bool ok, .str detail => .ok ⟨name, ok, detail⟩
      | .str _, .bool _, _ => .error (.attestationError "semantic_checks.detail must be a string")
      | .str _, _, _ => .error (.attestationError "semantic_checks.ok must be a boolean")
      | _, _, _ => .error (.attestationError "semantic_checks.name must be a string")
  | _ => .error (.attestationError "semantic_checks entries must be objects")

def parseSemanticChecks : Json → Except Failure (List SemanticCheckResult)
  | .arr items => items.mapM parseSemanticCheck
  | _ => .error (.attestationError "semantic_checks must be a JSON array")

def parseCleanup : Json → Except Failure Cleanup
  | .obj raw =>
    if raw.any fun field => field.1 ∉ ["ok", "dropped_database"] then
      .error (.attestationError "cleanup has unknown fields")
    else
      match get raw "ok", get raw "dropped_database" with
      | .bool ok, .null => .ok ⟨ok, none⟩
      | .bool ok, .str dropped => .ok ⟨ok, some dropped⟩
      | .bool _, _ => .error (.attestationError "cleanup.dropped_database must be a string or null")
      | _, _ => .error (.attestationError "cleanup.ok must be a boolean")
  | _ => .error (.attestationError "cleanup must be a JSON object")

def commonKeys : List String :=
  ["schema_version", "backup_id", "backup_sha256", "verified_at_utc", "postgres_version",
    "pg_restore_version", "temporary_database", "restore_duration_seconds", "semantic_checks",
    "cleanup", "result", "failure_reason", "tool_version"]

def v2Keys : List String :=
  ["expected_alembic_heads", "static_alembic_heads", "migrations_graph_sha256",
    "verified_restored_heads"]

/-- No unknown and no missing fields. -/
def checkKeys (version : String) (allowed : List String) (raw : Object) : Except Failure Unit := do
  require (raw.all fun field => field.1 ∈ allowed)
    (.attestationError s!"{version} attestation has unknown fields")
  require (allowed.all fun key => (raw.lookup key).isSome)
    (.attestationError s!"{version} attestation missing fields")

def parseResult (value : Json) : Except Failure String :=
  match value with
  | .str result =>
    if result = "passed" ∨ result = "failed" then .ok result
    else .error (.attestationError "result must be passed|failed")
  | _ => .error (.attestationError "result must be passed|failed")

section Parse

variable (lib : Library) (raw : Object)

def text (value : Json) : String :=
  match value with
  | .str value => value
  | value => lib.repr value

/-- The constructor call, whose arguments are checked as they are passed. -/
def parseFields (semanticChecks : Except Failure (List SemanticCheckResult))
    (cleanup : Except Failure Cleanup) (result : String) :
    Except Failure VerificationAttestation := do
  let backupSha256 ← parseSha256 lib (get raw "backup_sha256") "backup_sha256"
  let verifiedAtUtc ← parseUtc (get raw "verified_at_utc") "verified_at_utc"
  let semanticChecks ← semanticChecks
  let cleanup ← cleanup
  return { backupId := text lib (get raw "backup_id"), backupSha256, verifiedAtUtc
           postgresVersion := text lib (get raw "postgres_version")
           pgRestoreVersion := text lib (get raw "pg_restore_version")
           temporaryDatabase := get raw "temporary_database"
           restoreDurationSeconds := get raw "restore_duration_seconds"
           semanticChecks, cleanup, result
           failureReason := get raw "failure_reason"
           toolVersion := text lib (get raw "tool_version") }

def parseAttestationV1 : Except Failure VerificationAttestation := do
  checkKeys "v1" commonKeys raw
  let result ← parseResult (get raw "result")
  parseFields lib raw (parseSemanticChecks (get raw "semantic_checks"))
    (parseCleanup (get raw "cleanup")) result

/-- What a passed attestation has to say. -/
def checkPassed (expected static : List String) (restored : Option (List String))
    (cleanup : Cleanup) (semanticChecks : List SemanticCheckResult) : Except Failure Unit := do
  require (restored ≠ none)
    (.attestationError "passed v2 attestation requires verified_restored_heads")
  require (expected.toFinset = static.toFinset ∧ restored.map List.toFinset = some expected.toFinset)
    (.attestationError
      "passed v2 attestation requires expected, static, and restored head equality")
  require (cleanup.ok = true) (.attestationError "passed v2 attestation requires cleanup.ok true")
  require (semanticChecks.all (·.ok))
    (.attestationError "passed v2 attestation requires all semantic_checks ok")

def parseAttestationV2 : Except Failure VerificationAttestationV2 := do
  checkKeys "v2" (commonKeys ++ v2Keys) raw
  let result ← parseResult (get raw "result")
  let expected ← parseHeadList (get raw "expected_alembic_heads") "expected_alembic_heads"
  let static ← parseHeadList (get raw "static_alembic_heads") "static_alembic_heads"
  let restored ← parseOptionalHeadList (get raw "verified_restored_heads") "verified_restored_heads"
  let graphSha ← parseSha256 lib (get raw "migrations_graph_sha256") "migrations_graph_sha256"
  let cleanup ← parseCleanup (get raw "cleanup")
  let semanticChecks ← parseSemanticChecks (get raw "semantic_checks")
  if result = "passed" then checkPassed expected static restored cleanup semanticChecks else .ok ()
  let attestation ← parseFields lib raw (.ok semanticChecks) (.ok cleanup) result
  return { attestation with
           expectedAlembicHeads := expected, staticAlembicHeads := static
           migrationsGraphSha256 := graphSha, verifiedRestoredHeads := restored }

/-- `parse_attestation_document`. -/
def parseAttestationDocument : Except Failure ParsedAttestation :=
  match raw.lookup "schema_version" with
  | none => .error (.attestationError "attestation missing schema_version")
  | some (.int 1) => (parseAttestationV1 lib raw).map .v1
  | some (.int 2) => (parseAttestationV2 lib raw).map .v2
  | some (.int _) => .error (.attestationError "unsupported attestation schema version")
  | some _ => .error (.attestationError "schema_version must be an exact integer")

end Parse

/-! ## Building -/

/-- What a UTC clock shows, with a year of four digits. -/
structure Moment where
  year : ℕ
  month : ℕ
  day : ℕ
  hour : ℕ
  minute : ℕ
  second : ℕ
  year_lt : year < 10000
  month_lt : month < 100
  day_lt : day < 100
  hour_lt : hour < 100
  minute_lt : minute < 100
  second_lt : second < 100

/-- The order of moments. -/
def Moment.number (m : Moment) : ℕ :=
  ((((m.year * 100 + m.month) * 100 + m.day) * 100 + m.hour) * 100 + m.minute) * 100 + m.second

/-- `strftime("%Y-%m-%dT%H:%M:%SZ")`. -/
def Moment.strftime (m : Moment) : List Char :=
  writeDigits 10 4 m.year ++ '-' :: (writeDigits 10 2 m.month ++ '-' :: (writeDigits 10 2 m.day ++
    'T' :: (writeDigits 10 2 m.hour ++ ':' :: (writeDigits 10 2 m.minute ++
      ':' :: (writeDigits 10 2 m.second ++ ['Z'])))))

/-- The arguments of `build_attestation`. -/
structure Arguments where
  backupId : String
  backupSha256 : String
  postgresVersion : String
  pgRestoreVersion : String
  temporaryDatabase : Option String
  restoreDurationSeconds : Option PyFloat
  semanticChecks : List SemanticCheckResult
  cleanupOk : Bool
  droppedDatabase : Option String
  result : String
  failureReason : Option String
  toolVersion : String

structure ArgumentsV2 extends Arguments where
  expectedAlembicHeads : List String
  staticAlembicHeads : List String
  migrationsGraphSha256 : String
  verifiedRestoredHeads : Option (List String)

def Arguments.attestation (args : Arguments) (now : Moment) : VerificationAttestation where
  backupId := args.backupId
  backupSha256 := args.backupSha256
  verifiedAtUtc := String.ofList now.strftime
  postgresVersion := args.postgresVersion
  pgRestoreVersion := args.pgRestoreVersion
  temporaryDatabase := ofOption args.temporaryDatabase
  restoreDurationSeconds := (args.restoreDurationSeconds.map Json.float).getD .null
  semanticChecks := args.semanticChecks
  cleanup := ⟨args.cleanupOk, args.droppedDatabase⟩
  result := args.result
  failureReason := ofOption args.failureReason
  toolVersion := args.toolVersion

def buildAttestation (now : Moment) (args : Arguments) :
    Except Failure VerificationAttestation := do
  require (args.result = "passed" ∨ args.result = "failed")
    (.valueError "result must be passed|failed")
  require (args.result = "passed" → args.cleanupOk = true)
    (.valueError "passed attestation requires successful cleanup")
  require (args.result = "passed" → args.semanticChecks.all (·.ok))
    (.valueError "passed attestation requires all semantic checks ok")
  require (args.result = "passed" → args.temporaryDatabase ≠ none)
    (.valueError "passed attestation requires temporary database name")
  return args.attestation now

/-- `tuple(sorted(frozenset(heads)))`. -/
def sortedHeads (heads : List String) : List String := heads.dedup.insertionSort (· ≤ ·)

def buildAttestationV2 (now : Moment) (args : ArgumentsV2) :
    Except Failure VerificationAttestationV2 := do
  require (args.result = "passed" ∨ args.result = "failed")
    (.valueError "result must be passed|failed")
  let expected := sortedHeads args.expectedAlembicHeads
  let static := sortedHeads args.staticAlembicHeads
  let restored := args.verifiedRestoredHeads.map sortedHeads
  require (expected ≠ [] ∧ static ≠ [])
    (.valueError "v2 attestation requires non-empty expected and static heads")
  require (args.migrationsGraphSha256.length = 64)
    (.valueError "migrations_graph_sha256 must be a 64-character hex SHA-256")
  require (args.result = "passed" → restored ≠ none)
    (.valueError "passed v2 attestation requires verified_restored_heads")
  require (args.result = "passed" → expected = static ∧ some expected = restored)
    (.valueError "passed v2 attestation requires expected, static, and restored head equality")
  require (args.result = "passed" → args.cleanupOk = true)
    (.valueError "passed v2 attestation requires successful cleanup")
  require (args.result = "passed" → args.semanticChecks.all (·.ok))
    (.valueError "passed v2 attestation requires all semantic checks ok")
  require (args.result = "passed" → args.temporaryDatabase ≠ none)
    (.valueError "passed v2 attestation requires temporary database name")
  return { args.toArguments.attestation now with
           expectedAlembicHeads := expected, staticAlembicHeads := static
           migrationsGraphSha256 := args.migrationsGraphSha256, verifiedRestoredHeads := restored }

/-! ## Files -/

/-- The files of `verifications/`, by name. -/
abbrev Directory := List (String × Object)

def Directory.names (dir : Directory) : List String := dir.map Prod.fst

/-- `is_safe_relative_filename`. -/
def isSafeRelativeFilename (name : String) : Bool :=
  name ∉ ["", ".", ".."] && name.toList.all (· ∉ ['/', '\\', '\x00']) && name.toList.head? != some '.'

/-- `verified_at_utc.replace(":", "").replace("-", "")`. -/
def stampOf (verifiedAtUtc : String) : List Char :=
  (verifiedAtUtc.toList.filter (· ≠ ':')).filter (· ≠ '-')

def fileName (stamp : List Char) (result suffix : String) : String :=
  "verify_" ++ String.ofList stamp ++ "_" ++ result ++ suffix ++ ".json"

/-- The suffix of the n-th file of its name. -/
def counter (n : ℕ) : String := if n ≤ 1 then "" else s!"_{n}"

/-- `write_attestation`: the name that is written, and what the directory then holds. -/
def writeAttestation (dir : Directory) (attestation : ParsedAttestation) :
    Except Failure (String × Directory) := do
  let a := attestation.common
  let name (n : ℕ) : String := fileName (stampOf a.verifiedAtUtc) a.result (counter n)
  require (isSafeRelativeFilename (name 1)) (.pathSafetyError "unsafe attestation name")
  let n := if name 1 ∈ dir.names then (List.range' 2 9999).find? (name · ∉ dir.names) else some 1
  match n with
  | none => .error (.pathSafetyError "could not allocate unique attestation filename")
  | some n => .ok (name n, dir ++ [(name n, attestation.toJson)])

/-- `glob("verify_*.json")`. -/
def isAttestationName (name : String) : Bool :=
  "verify_".toList.isPrefixOf name.toList && ".json".toList.isSuffixOf (name.toList.drop 7)

/-- `files[-1]`. -/
def latestFile (dir : Directory) : Option (String × Object) :=
  ((dir.filter fun file => isAttestationName file.1).insertionSort fun a b => a.1 ≤ b.1).getLast?

/-- `latest_attestation`. -/
def latestAttestation (dir : Directory) : Option Object := (latestFile dir).map Prod.snd

end FetchNow.Attestation
