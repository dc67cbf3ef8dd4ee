import FetchNow.Release.Documents

/-!
# The current state

`current.json` records the active application and the state of the database. Documents are
parsed strictly; what the tools write themselves parses back to what they wrote.
-/
namespace FetchNow.Release

open Transactions

structure ImageIds where
  api : String
  worker : String
  web : String
  gateway : String
  deriving DecidableEq, Repr

structure ApplicationState where
  revision : String
  releaseManifestSha256 : String
  imageIds : ImageIds
  deploymentId : String
  deriving DecidableEq, Repr

structure DatabaseState where
  heads : List String
  schemaReleaseRevision : String
  lastMigrationId : Option String
  compatibilityContractSha256 : Option String
  compatibleApplicationRevisions : List String
  deriving DecidableEq, Repr

structure LegacyCurrentStateV1 where
  revision : String
  releaseManifestSha256 : String
  imageIds : ImageIds
  updatedAtUtc : String
  deploymentId : String
  deriving DecidableEq, Repr

structure CurrentStateV2 where
  application : ApplicationState
  database : DatabaseState
  updatedAtUtc : String
  deriving DecidableEq, Repr

/-- What a parsed `current.json` is. -/
inductive ParsedCurrentState where
  | v1 (state : LegacyCurrentStateV1)
  | v2 (state : CurrentStateV2)
  deriving DecidableEq, Repr

structure ResolvedCurrentState where
  application : ApplicationState
  database : DatabaseState
  updatedAtUtc : String
  legacyV1 : Bool
  deriving DecidableEq, Repr

variable {ids : ImageIds} {a : ApplicationState} {d d' : DatabaseState} {c : CurrentStateV2}
  {raw : List (String × Json)} {out : List String} {parse : Json → Except ReleaseError String}

def ResolvedCurrentState.revision (r : ResolvedCurrentState) : String := r.application.revision

def ResolvedCurrentState.deploymentId (r : ResolvedCurrentState) : String :=
  r.application.deploymentId

/-! ## Documents -/

def ImageIds.toDict (ids : ImageIds) : List (String × Json) :=
  [("api", .str ids.api), ("worker", .str ids.worker), ("web", .str ids.web),
    ("gateway", .str ids.gateway)]

def ApplicationState.toDict (a : ApplicationState) : List (String × Json) :=
  [("revision", .str a.revision), ("release_manifest_sha256", .str a.releaseManifestSha256),
    ("image_ids", .obj a.imageIds.toDict), ("deployment_id", .str a.deploymentId)]

/-- A string or `null`. -/
def optionalJson : Option String → Json
  | none => .null
  | some s => .str s

def DatabaseState.toDict (d : DatabaseState) : List (String × Json) :=
  [("heads", .list (d.heads.map .str)), ("schema_release_revision", .str d.schemaReleaseRevision),
    ("last_migration_id", optionalJson d.lastMigrationId),
    ("compatibility_contract_sha256", optionalJson d.compatibilityContractSha256),
    ("compatible_application_revisions", .list (d.compatibleApplicationRevisions.map .str))]

def CurrentStateV2.toDict (c : CurrentStateV2) : List (String × Json) :=
  [("schema_version", .int 2), ("application", .obj c.application.toDict),
    ("database", .obj c.database.toDict), ("updated_at_utc", .str c.updatedAtUtc)]

/-! ## Parsing -/

def requireExactKeys (raw : List (String × Json)) (expected : List String) :
    Except ReleaseError Unit :=
  require (keys raw = expected.toFinset) .currentStateError

/-- A string that matches a pattern. -/
def parseMatch (pattern : List CharClass) : Json → Except ReleaseError String
  | .str s => if fullmatch pattern s then .ok s else .error .currentStateError
  | _ => .error .currentStateError

def parseSha : Json → Except ReleaseError String
  | .str s => match validateFullSha s with
    | .ok rev => .ok rev
    | .error _ => .error .currentStateError
  | _ => .error .currentStateError

def parseManifestHash : Json → Except ReleaseError String := parseMatch manifestHashRe

def parseDeploymentId : Json → Except ReleaseError String := parseMatch deploymentIdRe

def parseUtc : Json → Except ReleaseError String := parseMatch utcRe

def parseAlembicHead : Json → Except ReleaseError String
  | .str s => if isAlembicRev s then .ok s else .error .currentStateError
  | _ => .error .currentStateError

/-- The list of `_parse_sorted_unique_heads` and `_parse_sorted_unique_revisions`. -/
def parseSortedUnique (parse : Json → Except ReleaseError String) :
    Json → Except ReleaseError (List String)
  | .list items => do
    require (items ≠ []) .currentStateError
    let out ← items.mapM parse
    require out.Nodup .currentStateError
    require (out.Pairwise (· ≤ ·)) .currentStateError
    pure out
  | _ => .error .currentStateError

def parseSortedUniqueHeads : Json → Except ReleaseError (List String) :=
  parseSortedUnique parseAlembicHead

def parseSortedUniqueRevisions : Json → Except ReleaseError (List String) :=
  parseSortedUnique parseSha

/-- `_parse_optional_uuid` and `_parse_optional_contract_hash`. -/
def parseOptional (pattern : List CharClass) : Json → Except ReleaseError (Option String)
  | .null => .ok none
  | value => (parseMatch pattern value).map some

def validateImageIdMap (raw : List (String × Json)) : Except ReleaseError ImageIds := do
  requireExactKeys raw ["api", "worker", "web", "gateway"]
  let api ← parseMatch imageIdRe (item raw "api")
  let worker ← parseMatch imageIdRe (item raw "worker")
  let web ← parseMatch imageIdRe (item raw "web")
  let gateway ← parseMatch imageIdRe (item raw "gateway")
  require (api = worker) .currentStateError
  pure ⟨api, worker, web, gateway⟩

def parseImageIds : Json → Except ReleaseError ImageIds
  | .obj members => validateImageIdMap members
  | _ => .error .currentStateError

def parseApplicationState (raw : List (String × Json)) : Except ReleaseError ApplicationState := do
  requireExactKeys raw ["revision", "release_manifest_sha256", "image_ids", "deployment_id"]
  let revision ← parseSha (item raw "revision")
  let manifest ← parseManifestHash (item raw "release_manifest_sha256")
  let imageIds ← parseImageIds (item raw "image_ids")
  let deployment ← parseDeploymentId (item raw "deployment_id")
  pure ⟨revision, manifest, imageIds, deployment⟩

def parseDatabaseState (raw : List (String × Json)) : Except ReleaseError DatabaseState := do
  requireExactKeys raw ["heads", "schema_release_revision", "last_migration_id",
    "compatibility_contract_sha256", "compatible_application_revisions"]
  let heads ← parseSortedUniqueHeads (item raw "heads")
  let schemaRelease ← parseSha (item raw "schema_release_revision")
  let lastMigrationId ← parseOptional deploymentIdRe (item raw "last_migration_id")
  let contractHash ← parseOptional manifestHashRe (item raw "compatibility_contract_sha256")
  require (lastMigrationId.isNone = contractHash.isNone) .currentStateError
  let compatible ← parseSortedUniqueRevisions (item raw "compatible_application_revisions")
  require (schemaRelease ∈ compatible) .currentStateError
  pure ⟨heads, schemaRelease, lastMigrationId, contractHash, compatible⟩

def parseLegacyCurrentStateV1 (raw : List (String × Json)) :
    Except ReleaseError LegacyCurrentStateV1 := do
  requireExactKeys raw ["schema_version", "revision", "release_manifest_sha256", "image_ids",
    "updated_at_utc", "deployment_id"]
  let revision ← parseSha (item raw "revision")
  let manifest ← parseManifestHash (item raw "release_manifest_sha256")
  let imageIds ← match item raw "image_ids" with
    | .obj members => validateImageIdMap members
    | _ => .error .otherError
  let updatedAt ← parseUtc (item raw "updated_at_utc")
  let deployment ← parseDeploymentId (item raw "deployment_id")
  pure ⟨revision, manifest, imageIds, updatedAt, deployment⟩

def parseCurrentStateV2 (raw : List (String × Json)) : Except ReleaseError CurrentStateV2 := do
  requireExactKeys raw ["schema_version", "application", "database", "updated_at_utc"]
  match item raw "schema_version", item raw "application", item raw "database" with
  | .int 2, .obj application, .obj database => do
    let application ← parseApplicationState application
    let database ← parseDatabaseState database
    require (application.revision ∈ database.compatibleApplicationRevisions) .currentStateError
    let updatedAt ← parseUtc (item raw "updated_at_utc")
    pure ⟨application, database, updatedAt⟩
  | _, _, _ => .error .currentStateError

def parseCurrentStateDocument : Json → Except ReleaseError ParsedCurrentState
  | .obj raw => match raw.lookup "schema_version" with
    | some (.int 1) => (parseLegacyCurrentStateV1 raw).map .v1
    | some (.int 2) => (parseCurrentStateV2 raw).map .v2
    | _ => .error .currentStateError
  | _ => .error .journalIOError

/-! ## Well-formed states -/

structure ImageIds.WellFormed (ids : ImageIds) : Prop where
  api : fullmatch imageIdRe ids.api = true
  web : fullmatch imageIdRe ids.web = true
  gateway : fullmatch imageIdRe ids.gateway = true
  worker : ids.worker = ids.api

instance (ids : ImageIds) : Decidable ids.WellFormed :=
  decidable_of_iff (fullmatch imageIdRe ids.api = true ∧ fullmatch imageIdRe ids.web = true ∧
      fullmatch imageIdRe ids.gateway = true ∧ ids.worker = ids.api)
    ⟨fun ⟨hapi, hweb, hgateway, hworker⟩ => ⟨hapi, hweb, hgateway, hworker⟩,
      fun ⟨hapi, hweb, hgateway, hworker⟩ => ⟨hapi, hweb, hgateway, hworker⟩⟩

structure ApplicationState.WellFormed (a : ApplicationState) : Prop where
  revision : IsRevision a.revision
  manifest : fullmatch manifestHashRe a.releaseManifestSha256 = true
  imageIds : a.imageIds.WellFormed
  deployment : fullmatch deploymentIdRe a.deploymentId = true

/-- A list that `parse` leaves alone. -/
structure SortedUnique (parse : Json → Except ReleaseError String) (out : List String) :
    Prop where
  ne : out ≠ []
  fixed : ∀ x ∈ out, parse (.str x) = .ok x
  nodup : out.Nodup
  pairwise : out.Pairwise (· ≤ ·)

structure DatabaseState.WellFormed (d : DatabaseState) : Prop where
  heads : SortedUnique parseAlembicHead d.heads
  schema : IsRevision d.schemaReleaseRevision
  migration : ∀ id ∈ d.lastMigrationId, fullmatch deploymentIdRe id = true
  contract : ∀ hash ∈ d.compatibilityContractSha256, fullmatch manifestHashRe hash = true
  together : d.lastMigrationId.isNone = d.compatibilityContractSha256.isNone
  envelope : SortedUnique parseSha d.compatibleApplicationRevisions
  schema_mem : d.schemaReleaseRevision ∈ d.compatibleApplicationRevisions

structure CurrentStateV2.WellFormed (c : CurrentStateV2) : Prop where
  application : c.application.WellFormed
  database : c.database.WellFormed
  revision_mem : c.application.revision ∈ c.database.compatibleApplicationRevisions
  updatedAt : fullmatch utcRe c.updatedAtUtc = true

/-! ## What is written parses back -/

theorem parseMatch_eq_ok {pattern : List CharClass} {value : Json} {s : String} :
    parseMatch pattern value = .ok s ↔ value = .str s ∧ fullmatch pattern s = true := by
  cases value with
  | str t =>
    by_cases h : fullmatch pattern t
    · simp only [parseMatch, h, if_true, Except.ok.injEq, Json.str.injEq]
      exact ⟨fun heq => ⟨heq, heq ▸ h⟩, fun heq => heq.1⟩
    · simp only [parseMatch, if_neg h, reduceCtorEq, false_iff, Json.str.injEq, not_and]
      rintro rfl
      exact h
  | _ => simp [parseMatch]

theorem parseSha_eq_ok {value : Json} {s : String} (h : parseSha value = .ok s) :
    IsRevision s := by
  cases value with
  | str t =>
    simp only [parseSha] at h
    cases ht : validateFullSha t with
    | ok rev =>
      simp only [ht, Except.ok.injEq] at h
      exact h ▸ isRevision_of_validateFullSha ht
    | error e => simp [ht] at h
  | _ => simp [parseSha] at h

theorem parseSha_of_isRevision {rev : String} (h : IsRevision rev) :
    parseSha (.str rev) = .ok rev := by
  simp only [parseSha, validateFullSha_of_isRevision h]

theorem parseAlembicHead_eq_ok {value : Json} {s : String} :
    parseAlembicHead value = .ok s ↔ value = .str s ∧ isAlembicRev s = true := by
  cases value with
  | str t =>
    by_cases h : isAlembicRev t
    · simp only [parseAlembicHead, h, if_true, Except.ok.injEq, Json.str.injEq]
      exact ⟨fun heq => ⟨heq, heq ▸ h⟩, fun heq => heq.1⟩
    · simp only [parseAlembicHead, if_neg h, reduceCtorEq, false_iff, Json.str.injEq, not_and]
      rintro rfl
      exact h
  | _ => simp [parseAlembicHead]

/-- What the parser of a list accepts is a list that it leaves alone, if each element is. -/
theorem sortedUnique_of_parse {value : Json}
    (hparse : ∀ v s, parse v = .ok s → parse (.str s) = .ok s)
    (h : parseSortedUnique parse value = .ok out) : SortedUnique parse out := by
  cases value with
  | list items =>
    simp only [parseSortedUnique, bind_eq_ok, require_eq_ok] at h
    obtain ⟨_, hne, bs, hmap, _, hnodup, _, hpairwise, hout⟩ := h
    obtain rfl : bs = out := by simpa [pure, Except.pure] using hout
    have hall := forall₂_of_mapM hmap
    refine ⟨?_, fun x hx => ?_, hnodup, hpairwise⟩
    · rintro rfl
      cases hall
      exact hne rfl
    · obtain ⟨i, hi, rfl⟩ := List.getElem_of_mem hx
      have hlength := hall.length_eq
      exact hparse _ _ (List.forall₂_iff_get.mp hall |>.2 i (by omega) hi)
  | _ => simp [parseSortedUnique] at h

theorem fullmatch_of_parseOptional {pattern : List CharClass} {value : Json} {o : Option String}
    (h : parseOptional pattern value = .ok o) : ∀ s ∈ o, fullmatch pattern s = true := by
  rintro s rfl
  cases value with
  | null => simp [parseOptional] at h
  | str t =>
    simp only [parseOptional] at h
    cases hmatch : parseMatch pattern (.str t) with
    | ok u =>
      simp only [hmatch, Except.map, Except.ok.injEq, Option.some.injEq] at h
      exact h ▸ (parseMatch_eq_ok.mp hmatch).2
    | error e => simp [hmatch, Except.map] at h
  | _ => simp [parseOptional, parseMatch, Except.map] at h

theorem wellFormed_of_validateImageIdMap (h : validateImageIdMap raw = .ok ids) :
    ids.WellFormed := by
  simp only [validateImageIdMap, bind_eq_ok, requireExactKeys, require_eq_ok, parseMatch_eq_ok,
    pure, Except.pure, Except.ok.injEq] at h
  obtain ⟨_, _, api, ⟨_, hapi⟩, worker, ⟨_, _⟩, web, ⟨_, hweb⟩, gateway, ⟨_, hgateway⟩, _, heq,
    rfl⟩ := h
  exact ⟨hapi, hweb, hgateway, heq.symm⟩

theorem wellFormed_of_parseApplicationState (h : parseApplicationState raw = .ok a) :
    a.WellFormed := by
  simp only [parseApplicationState, bind_eq_ok, requireExactKeys, require_eq_ok,
    parseManifestHash, parseDeploymentId, parseMatch_eq_ok, pure, Except.pure,
    Except.ok.injEq] at h
  obtain ⟨_, _, rev, hrev, manifest, ⟨_, hmanifest⟩, imageIds, hids, dep, ⟨_, hdep⟩, rfl⟩ := h
  refine ⟨parseSha_eq_ok hrev, hmanifest, ?_, hdep⟩
  cases himage : item raw "image_ids" with
  | obj members =>
    rw [himage] at hids
    exact wellFormed_of_validateImageIdMap hids
  | _ => simp [himage, parseImageIds] at hids

theorem eq_of_validateImageIdMap_toDict {ids' : ImageIds}
    (h : validateImageIdMap ids.toDict = .ok ids') : ids' = ids := by
  have hitems : item ids.toDict "api" = .str ids.api ∧ item ids.toDict "worker" = .str ids.worker ∧
      item ids.toDict "web" = .str ids.web ∧ item ids.toDict "gateway" = .str ids.gateway := by
    simp [ImageIds.toDict]
  obtain ⟨hapi, hworker, hweb, hgateway⟩ := hitems
  simp only [validateImageIdMap, bind_eq_ok, hapi, hworker, hweb, hgateway, parseMatch_eq_ok,
    Json.str.injEq, Except.ok.injEq, pure, Except.pure] at h
  obtain ⟨_, _, _, ⟨rfl, _⟩, _, ⟨rfl, _⟩, _, ⟨rfl, _⟩, _, ⟨rfl, _⟩, _, _, rfl⟩ := h
  rfl

/-- Parsing what was written can at most strip blanks around the revision. -/
theorem eq_of_parseApplicationState_toDict {a' : ApplicationState} (hrev : IsRevision a.revision)
    (h : parseApplicationState a.toDict = .ok a') : a' = a := by
  have hitems : item a.toDict "revision" = .str a.revision ∧
      item a.toDict "release_manifest_sha256" = .str a.releaseManifestSha256 ∧
      item a.toDict "image_ids" = .obj a.imageIds.toDict ∧
      item a.toDict "deployment_id" = .str a.deploymentId := by
    simp [ApplicationState.toDict]
  obtain ⟨hrevision, hmanifest, himages, hdeployment⟩ := hitems
  simp only [parseApplicationState, bind_eq_ok, hrevision, hmanifest, himages, hdeployment,
    parseSha_of_isRevision hrev, parseManifestHash, parseDeploymentId, parseMatch_eq_ok,
    Json.str.injEq, Except.ok.injEq, pure, Except.pure] at h
  obtain ⟨_, _, _, rfl, _, ⟨rfl, _⟩, images, himages, _, ⟨rfl, _⟩, rfl⟩ := h
  rw [eq_of_validateImageIdMap_toDict himages]

theorem wellFormed_of_parseDatabaseState (h : parseDatabaseState raw = .ok d) :
    d.WellFormed := by
  simp only [parseDatabaseState, bind_eq_ok, requireExactKeys, require_eq_ok, pure, Except.pure,
    Except.ok.injEq] at h
  obtain ⟨_, _, heads, hheads, schema, hschema, migration, hmigration, contract, hcontract, _,
    htogether, compatible, hcompatible, _, hmem, rfl⟩ := h
  have hhead : ∀ v s, parseAlembicHead v = .ok s → parseAlembicHead (.str s) = .ok s :=
    fun v s hs => parseAlembicHead_eq_ok.mpr ⟨rfl, (parseAlembicHead_eq_ok.mp hs).2⟩
  have hsha : ∀ v s, parseSha v = .ok s → parseSha (.str s) = .ok s :=
    fun v s hs => parseSha_of_isRevision (parseSha_eq_ok hs)
  exact ⟨sortedUnique_of_parse hhead hheads, parseSha_eq_ok hschema,
    fullmatch_of_parseOptional hmigration, fullmatch_of_parseOptional hcontract, htogether,
    sortedUnique_of_parse hsha hcompatible, hmem⟩

/-- What is accepted is well formed. -/
theorem wellFormed_of_parseCurrentStateV2 (h : parseCurrentStateV2 raw = .ok c) :
    c.WellFormed := by
  simp only [parseCurrentStateV2, bind_eq_ok, requireExactKeys, require_eq_ok] at h
  obtain ⟨_, _, h⟩ := h
  split at h
  · simp only [bind_eq_ok, require_eq_ok, parseUtc, parseMatch_eq_ok, pure, Except.pure,
      Except.ok.injEq] at h
    obtain ⟨application, happ, database, hdb, _, hmem, updatedAt, ⟨_, hutc⟩, rfl⟩ := h
    exact ⟨wellFormed_of_parseApplicationState happ, wellFormed_of_parseDatabaseState hdb, hmem,
      hutc⟩
  · cases h

theorem application_of_parseCurrentStateV2_toDict {c' : CurrentStateV2}
    (hrev : IsRevision c.application.revision) (h : parseCurrentStateV2 c.toDict = .ok c') :
    c'.application = c.application := by
  have hitems : item c.toDict "schema_version" = .int 2 ∧
      item c.toDict "application" = .obj c.application.toDict ∧
      item c.toDict "database" = .obj c.database.toDict := by
    simp [CurrentStateV2.toDict]
  obtain ⟨hschema, happ, hdb⟩ := hitems
  simp only [parseCurrentStateV2, bind_eq_ok, hschema, happ, hdb, pure, Except.pure,
    Except.ok.injEq] at h
  obtain ⟨_, _, application, happlication, _, _, _, _, _, _, rfl⟩ := h
  exact eq_of_parseApplicationState_toDict hrev happlication

/-! ## Next states -/

def buildBootstrapDatabaseState (heads : Heads) (schemaReleaseRevision : String) :
    Except ReleaseError DatabaseState := do
  let rev ← validateFullSha schemaReleaseRevision
  require (sorted heads ≠ []) .currentStateError
  pure ⟨sorted heads, rev, none, none, [rev]⟩

def nextDatabaseStateAfterAppCommit (previous : DatabaseState) (targetRevision : String)
    (targetSourceHeads : Heads) : Except ReleaseError DatabaseState := do
  let target ← validateFullSha targetRevision
  if targetSourceHeads = previous.heads.toFinset then
    let envelope := insert target previous.compatibleApplicationRevisions.toFinset
    pure { previous with compatibleApplicationRevisions := sorted envelope }
  else if target ∈ previous.compatibleApplicationRevisions then
    pure previous
  else
    throw .currentStateError

def buildCommittedCurrentState (application : ApplicationState) (database : DatabaseState)
    (updatedAtUtc : String) : Except ReleaseError CurrentStateV2 := do
  require (application.revision ∈ database.compatibleApplicationRevisions) .currentStateError
  let updatedAt ← parseUtc (.str updatedAtUtc)
  pure ⟨application, database, updatedAt⟩

end FetchNow.Release
