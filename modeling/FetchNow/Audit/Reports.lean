import FetchNow.Audit.Exceptions
import Mathlib.Data.Char
import Mathlib.Data.List.Dedup
import Mathlib.Data.List.Lex
import Mathlib.Data.List.Sort

/-!
# Reports of the scanners

What `pip-audit` and `npm audit` found.
-/
namespace FetchNow.Audit

open Transactions

abbrev Fields := List (Str × Json)

variable {lib : Library} {name version package : Str}
  {findings : List Finding} {expected seen : List (Str × Str)} {fields : Fields}

/-- `sorted(set(..))`. -/
def sortedSet (names : List Str) : List Str := names.dedup.insertionSort (· ≤ ·)

theorem mem_sortedSet {names : List Str} : name ∈ sortedSet names ↔ name ∈ names := by
  rw [sortedSet, List.mem_insertionSort, List.mem_dedup]

/-! ## `pip-audit` -/

/-- The id and the aliases of an advisory object. -/
def advisoryIds (vuln : Json) : List Str :=
  match vuln with
  | .obj fields =>
    (Json.asStr (Json.get fields "id")).toList ++
      ((Json.asArr (Json.get fields "aliases")).getD []).filterMap fun item => Json.asStr (some item)
  | _ => []

/-- An element of `vulns`: its id and its other aliases. -/
def parseVuln (vuln : Json) : Except Failure (Str × List Str) := do
  let fields ← jsonOr .jsonMalformed (Json.asObj (some vuln))
  let vid ← jsonOr .jsonIncomplete (Json.asNonemptyStr (Json.get fields "id"))
  let _ ← jsonOr .jsonIncomplete (Json.asArr (Json.get fields "fix_versions"))
  let aliasesRaw ← jsonOr .jsonMalformed (Json.asArrOrNull (Json.get fields "aliases"))
  .ok (vid, aliasesRaw.filterMap fun item =>
    (Json.asNonemptyStr (some item)).filter (· ≠ vid))

def pipFinding (scope name version vid : Str) (aliases : List Str) : Finding where
  ecosystem := .pypi
  section_ := scope
  package := name
  version := some version
  advisoryId := vid
  aliases := aliases
  severity := none

/-- The findings of one package; an id that was seen is skipped. -/
def collectVulns (scope name version : Str) : List Json → List Str → Except Failure (List Finding)
  | [], _ => .ok []
  | vuln :: vulns, seenVuln => do
    let (vid, aliases) ← parseVuln vuln
    if vid ∈ seenVuln then collectVulns scope name version vulns seenVuln
    else do
      let rest ← collectVulns scope name version vulns (vid :: seenVuln)
      .ok (pipFinding scope name version vid aliases :: rest)

/-- The finding is about this version of the package, with ids of the advisory object. -/
structure FindingFor (ecosystem : Ecosystem) (scope package version : Str) (ids : List Str)
    (finding : Finding) : Prop where
  sameEcosystem : finding.ecosystem = ecosystem
  sameSection : finding.section_ = scope
  samePackage : finding.package = package
  sameVersion : finding.version = some version
  knownIds : ∀ id ∈ finding.matchIds, id ∈ ids

def advisoryId (vuln : Json) : Option Str :=
  match vuln with
  | .obj fields => Json.asStr (Json.get fields "id")
  | _ => none

theorem parseVuln_spec {vuln : Json} {vid : Str} {aliases : List Str}
    (h : parseVuln vuln = .ok (vid, aliases)) :
    advisoryId vuln = some vid ∧ ∀ id ∈ vid :: aliases, id ∈ advisoryIds vuln := by
  simp only [parseVuln, bind_eq_ok, jsonOr_eq_ok, Json.asObj_eq_some,
    Json.asNonemptyStr_eq_some] at h
  obtain ⟨fields, hobj, _, ⟨hid, _⟩, _, _, aliasesRaw, haliases, h⟩ := h
  cases hobj
  cases h
  have hidStr : Json.asStr (Json.get fields "id") = some vid := Json.asStr_eq_some.mpr hid
  refine ⟨hidStr, fun id hmem => ?_⟩
  rcases List.mem_cons.mp hmem with rfl | hmem
  · simp [advisoryIds, hidStr]
  · obtain ⟨item, hitem, halias⟩ := List.mem_filterMap.mp hmem
    obtain ⟨hstr, -⟩ := Option.filter_eq_some_iff.mp halias
    have hraw : Json.asArr (Json.get fields "aliases") = some aliasesRaw := by
      unfold Json.asArrOrNull at haliases
      split at haliases
      · cases haliases
        exact absurd hitem List.not_mem_nil
      · cases haliases
        exact absurd hitem List.not_mem_nil
      · exact haliases
    apply List.mem_append_right
    rw [hraw]
    exact List.mem_filterMap.mpr
      ⟨item, hitem, Json.asStr_eq_some.mpr (Json.asNonemptyStr_eq_some.mp hstr).1⟩

/-- Every advisory object has a finding, of its own or of an object with its id. -/
theorem collectVulns_spec {scope : Str} {vulns : List Json} {seenVuln : List Str}
    (h : collectVulns scope name version vulns seenVuln = .ok findings) :
    ∀ vuln ∈ vulns, ∃ vid, advisoryId vuln = some vid ∧ (vid ∈ seenVuln ∨
      ∃ same ∈ vulns, advisoryId same = some vid ∧ ∃ finding ∈ findings,
        FindingFor .pypi scope name version (advisoryIds same) finding) := by
  induction vulns generalizing seenVuln findings with
  | nil => exact fun _ h => absurd h List.not_mem_nil
  | cons head vulns ih =>
    simp only [collectVulns] at h
    obtain ⟨⟨headId, aliases⟩, hparse, h⟩ := bind_eq_ok.mp h
    obtain ⟨hheadId, hids⟩ := parseVuln_spec hparse
    split at h
    · rename_i hseen
      intro vuln hvuln
      rcases List.mem_cons.mp hvuln with rfl | hvuln
      · exact ⟨headId, hheadId, .inl hseen⟩
      · obtain ⟨vid, hvid, hcase⟩ := ih h vuln hvuln
        refine ⟨vid, hvid, hcase.imp_right ?_⟩
        rintro ⟨same, hsame, hrest⟩
        exact ⟨same, List.mem_cons_of_mem _ hsame, hrest⟩
    · obtain ⟨rest, hrest, h⟩ := bind_eq_ok.mp h
      cases h
      have hhead : ∃ same ∈ head :: vulns, advisoryId same = some headId ∧
          ∃ finding ∈ pipFinding scope name version headId aliases :: rest,
            FindingFor .pypi scope name version (advisoryIds same) finding :=
        ⟨head, List.mem_cons_self, hheadId, _, List.mem_cons_self, rfl, rfl, rfl, rfl, hids⟩
      intro vuln hvuln
      rcases List.mem_cons.mp hvuln with rfl | hvuln
      · exact ⟨headId, hheadId, .inr hhead⟩
      · obtain ⟨vid, hvid, hseen | hfound⟩ := ih hrest vuln hvuln
        · rcases List.mem_cons.mp hseen with rfl | hseen
          · exact ⟨vid, hvid, .inr hhead⟩
          · exact ⟨vid, hvid, .inl hseen⟩
        · obtain ⟨same, hsame, hid, finding, hfinding, hfor⟩ := hfound
          exact ⟨vid, hvid, .inr ⟨same, List.mem_cons_of_mem _ hsame, hid, finding,
            List.mem_cons_of_mem _ hfinding, hfor⟩⟩

structure PipState where
  findings : List Finding
  seen : List (Str × Str)
  skipped : ℕ

def readDependency (lib : Library) (scope : Str) (s : PipState) (item : Json) :
    Except Failure PipState := do
  let fields ← jsonOr .jsonMalformed (Json.asObj (some item))
  let name ← jsonOr .jsonIncomplete (Json.asNonemptyStr (Json.get fields "name"))
  let key := lib.canonicalizeName name
  if (Json.get fields "skip_reason").isSome then do
    let _ ← jsonOr .jsonIncomplete (Json.asNonemptyStr (Json.get fields "skip_reason"))
    .ok { s with skipped := s.skipped + 1 }
  else do
    let vulnsRaw ← jsonOr .jsonIncomplete (Json.get fields "vulns")
    let version ← jsonOr .jsonIncomplete (Json.asNonemptyStr (Json.get fields "version"))
    require (key ∉ s.seen.map Prod.fst) (.code .inventoryIncomplete)
    let vulns ← jsonOr .jsonMalformed (Json.asArr (some vulnsRaw))
    let findings ← collectVulns scope name version vulns []
    .ok { s with findings := s.findings ++ findings, seen := s.seen ++ [(key, version)] }

def readDependencies (lib : Library) (scope : Str) : List Json → PipState → Except Failure PipState
  | [], s => .ok s
  | item :: items, s => do
    let s ← readDependency lib scope s item
    readDependencies lib scope items s

/-- Nothing is missing, unexpected or of another version. -/
def sameInventory (expected seen : List (Str × Str)) : Prop :=
  (∀ pin ∈ expected, pin.1 ∈ seen.map Prod.fst) ∧ (∀ pin ∈ seen, pin.1 ∈ expected.map Prod.fst) ∧
    ∀ pin ∈ expected, ∀ found ∈ seen, pin.1 = found.1 → pin.2 = found.2

instance (expected seen : List (Str × Str)) : Decidable (sameInventory expected seen) :=
  inferInstanceAs (Decidable (_ ∧ _ ∧ _))

/-- Findings, and the error code if the report is no good. -/
structure Report where
  findings : List Finding
  parseError : Option Failure

def Report.failed (failure : Failure) : Report := { findings := [], parseError := some failure }

def pipDependencies (payload : Json) : Except Failure (List Json) := do
  let fields ← jsonOr .jsonMalformed (Json.asObj (some payload))
  let deps ← jsonOr .jsonIncomplete (Json.get fields "dependencies")
  let fixes ← jsonOr .jsonIncomplete (Json.get fields "fixes")
  let deps ← jsonOr .jsonMalformed (Json.asArr (some deps))
  let _ ← jsonOr .jsonMalformed (Json.asArr (some fixes))
  .ok deps

def parsePipAuditJson (lib : Library) (payload : Json) (expected : List (Str × Str)) (scope : Str) :
    Report :=
  match (do
    let deps ← pipDependencies payload
    readDependencies lib scope deps { findings := [], seen := [], skipped := 0 }) with
  | .error failure => .failed failure
  | .ok s =>
    { findings := s.findings
      parseError :=
        if s.skipped ≠ 0 ∨ ¬ sameInventory expected s.seen then some (.code .inventoryIncomplete)
        else none }

/-- What an entry of `dependencies` that was read says. -/
structure Reads (scope : Str) (item : Json) (name version : Str) (new : List Finding) : Prop where
  parts : ∃ fields vulns, item = .obj fields ∧ Json.get fields "name" = some (.str name) ∧
    Json.get fields "version" = some (.str version) ∧
    Json.get fields "vulns" = some (.arr vulns) ∧ collectVulns scope name version vulns [] = .ok new

theorem readDependency_cases {scope : Str} {s s' : PipState} {item : Json}
    (h : readDependency lib scope s item = .ok s') :
    s' = { s with skipped := s.skipped + 1 } ∨
    ∃ name version new, Reads scope item name version new ∧
      s' = { s with findings := s.findings ++ new,
                    seen := s.seen ++ [(lib.canonicalizeName name, version)] } := by
  simp only [readDependency, bind_eq_ok, jsonOr_eq_ok, Json.asObj_eq_some,
    Json.asNonemptyStr_eq_some] at h
  obtain ⟨fields, hobj, name, ⟨hname, _⟩, h⟩ := h
  cases hobj
  split at h
  · obtain ⟨_, _, h⟩ := bind_eq_ok.mp h
    cases h
    exact .inl rfl
  · simp only [bind_eq_ok, jsonOr_eq_ok, Json.asArr_eq_some, Json.asNonemptyStr_eq_some,
      require_eq_ok] at h
    obtain ⟨_, hvulns, version, ⟨hversion, _⟩, _, _, vulns, harr, new, hnew, h⟩ := h
    cases harr
    cases h
    exact .inr ⟨name, version, new, ⟨fields, vulns, rfl, hname, hversion, hvulns, hnew⟩, rfl⟩

/-- The entry scans this version of the package of this canonical name. -/
def Scanned (lib : Library) (item : Json) (name version : Str) : Prop :=
  ∃ fields raw, item = .obj fields ∧ Json.get fields "name" = some (.str raw) ∧
    Json.get fields "version" = some (.str version) ∧ lib.canonicalizeName raw = name

theorem Reads.scanned {scope found foundVersion : Str} {item : Json} {new : List Finding}
    (h : Reads scope item found foundVersion new) :
    Scanned lib item name version ↔ (name, version) = (lib.canonicalizeName found, foundVersion) := by
  obtain ⟨fields, vulns, rfl, hname, hversion, -⟩ := h.parts
  simp [Scanned, hname, hversion, eq_comm, and_comm]

theorem readDependencies_skipped {scope : Str} {items : List Json} {s s' : PipState}
    (h : readDependencies lib scope items s = .ok s') : s.skipped ≤ s'.skipped := by
  induction items generalizing s with
  | nil =>
    cases h
    exact le_rfl
  | cons item items ih =>
    obtain ⟨t, hitem, h⟩ := bind_eq_ok.mp h
    have hrest := ih h
    rcases readDependency_cases hitem with rfl | ⟨_, _, _, _, rfl⟩
    · exact (Nat.le_succ _).trans hrest
    · exact hrest

/-- If nothing was skipped, every entry was read and what was seen is what was scanned. -/
theorem readDependencies_spec {scope : Str} {items : List Json} {s s' : PipState}
    (h : readDependencies lib scope items s = .ok s') (hskipped : s'.skipped = 0) :
    (∀ name version, (name, version) ∈ s'.seen ↔ (name, version) ∈ s.seen ∨
        ∃ item ∈ items, Scanned lib item name version) ∧
      (∀ finding ∈ s.findings, finding ∈ s'.findings) ∧
      ∀ item ∈ items, ∃ found foundVersion new, Reads scope item found foundVersion new ∧
        ∀ finding ∈ new, finding ∈ s'.findings := by
  induction items generalizing s with
  | nil =>
    cases h
    simp
  | cons item items ih =>
    obtain ⟨t, hitem, h⟩ := bind_eq_ok.mp h
    obtain ⟨hseen, hkept, hread⟩ := ih h
    rcases readDependency_cases hitem with rfl | ⟨found, foundVersion, new, hreads, rfl⟩
    · have hle := readDependencies_skipped h
      simp only [hskipped] at hle
      omega
    · refine ⟨fun name version => ?_,
        fun finding hf => hkept finding (List.mem_append_left _ hf), fun other hother => ?_⟩
      · rw [hseen, List.mem_append, List.mem_singleton, List.exists_mem_cons_iff, hreads.scanned,
          or_assoc]
      · rcases List.mem_cons.mp hother with rfl | hother
        · exact ⟨found, foundVersion, new, hreads,
            fun finding hf => hkept finding (List.mem_append_right _ hf)⟩
        · exact hread other hother

theorem sameInventory_mem (h : sameInventory expected seen) :
    (name, version) ∈ seen ↔ (name, version) ∈ expected := by
  obtain ⟨hmissing, hunexpected, hversions⟩ := h
  constructor
  · intro hmem
    obtain ⟨pin, hpin, hname⟩ := List.mem_map.mp (hunexpected _ hmem)
    have hversion := hversions pin hpin _ hmem hname
    have heq : pin = (name, version) := Prod.ext hname hversion
    exact heq ▸ hpin
  · intro hmem
    obtain ⟨found, hfound, hname⟩ := List.mem_map.mp (hmissing _ hmem)
    have hversion := hversions _ hmem found hfound hname.symm
    have heq : found = (name, version) := Prod.ext hname hversion.symm
    exact heq ▸ hfound

theorem pipDependencies_eq_ok {payload : Json} {deps : List Json}
    (h : pipDependencies payload = .ok deps) :
    ∃ fields, payload = .obj fields ∧ Json.get fields "dependencies" = some (.arr deps) := by
  simp only [pipDependencies, bind_eq_ok, jsonOr_eq_ok, Json.asObj_eq_some, Json.asArr_eq_some] at h
  obtain ⟨fields, hobj, _, hdeps, _, _, _, harr, _, _, h⟩ := h
  cases hobj
  cases harr
  cases h
  exact ⟨fields, rfl, hdeps⟩

/-- A report without an error: the inventory is the expected one, and every advisory object has a
finding, of its own or of an object with its id. -/
theorem parsePipAuditJson_spec {payload : Json} {scope : Str}
    (h : (parsePipAuditJson lib payload expected scope).parseError = none) :
    ∃ deps, pipDependencies payload = .ok deps ∧
      (∀ name version, (∃ item ∈ deps, Scanned lib item name version) ↔ (name, version) ∈ expected) ∧
      ∀ item ∈ deps, ∃ name version new, Reads scope item name version new ∧
        ∀ finding ∈ new, finding ∈ (parsePipAuditJson lib payload expected scope).findings := by
  unfold parsePipAuditJson at h ⊢
  split at h
  · cases h
  rename_i s hread
  obtain ⟨deps, hdeps, hread⟩ := bind_eq_ok.mp hread
  dsimp only at h
  split at h
  · cases h
  rename_i hgood
  rw [not_or, not_not, not_not] at hgood
  obtain ⟨hskipped, hsame⟩ := hgood
  obtain ⟨hseen, -, hreads⟩ := readDependencies_spec hread hskipped
  refine ⟨deps, hdeps, fun name version => ?_, hreads⟩
  rw [← sameInventory_mem hsame, hseen]
  simp

/-! ## `npm audit` -/

/-- What `re.I` lets stand for a letter. -/
def matchesLetter (upper c : Char) : Bool := c.toUpper = upper || (upper = 'S' && c.toNat = 0x17f)

/-- `[a-z0-9-]` under `re.I`. -/
def isGhsaChar (c : Char) : Bool :=
  c.isAlphanum || c = '-' || c.toNat ∈ [0x130, 0x131, 0x17f, 0x212a]

def ghsaAt : Str → Option Str
  | g :: h :: s :: a :: '-' :: rest =>
    let tail := rest.takeWhile isGhsaChar
    if matchesLetter 'G' g && matchesLetter 'H' h && matchesLetter 'S' s && matchesLetter 'A' a &&
        tail ≠ [] then some (g :: h :: s :: a :: '-' :: tail)
    else none
  | _ => none

/-- `re.search(r"GHSA-[a-z0-9-]+", url, re.I)`. -/
def ghsaSearch : Str → Option Str
  | [] => none
  | c :: cs => (ghsaAt (c :: cs)).or (ghsaSearch cs)

structure ViaAdvisory where
  advisory : Str
  aliases : List Str
  severity : Option Str
  deriving DecidableEq, Repr

/-- `_parse_npm_via_object`. -/
def parseNpmVia (item entry : Fields) : Except Failure ViaAdvisory := do
  let fromUrl := (Json.asStr (Json.get item "url")).bind ghsaSearch
  let fromSource := (Json.asIntText (Json.get item "source")).map ("NPM-".toList ++ ·)
  let fromTitle := Json.asNonemptyStr (Json.get item "title")
  let cve := Json.asNonemptyStr (Json.get item "cve")
  let advisory ← jsonOr .jsonIncomplete ((fromUrl.or fromSource).or fromTitle)
  .ok { advisory
        aliases := sortedSet ((cve.toList ++ fromSource.toList).filter (· ≠ advisory))
        severity := (Json.asStr (Json.get item "severity")).or
          (Json.asStr (Json.get entry "severity")) }

/-- One step of `_npm_via_target_reaches_advisory`, given what a further name reaches. -/
def reachesStep (vulns : Fields) (next : Str → Option Failure) (target : Str)
    (visiting : List Str) : Option Failure :=
  if target = [] then some (.code .jsonIncomplete)
  else if target ∈ visiting then some (.code .inventoryIncomplete)
  else
    match vulns.lookup target with
    | none => some (.code .inventoryIncomplete)
    | some entry =>
      match entry with
      | .obj entry =>
        match Json.get entry "via" with
        | none => some (.code .jsonIncomplete)
        | some (.arr via) =>
          if via = [] then some (.code .inventoryIncomplete)
          else via.findSome? fun item =>
            match item with
            | .str name => next name
            | .obj item =>
              match parseNpmVia item entry with
              | .ok _ => none
              | .error failure => some failure
            | _ => some (.code .jsonMalformed)
        | _ => some (.code .jsonMalformed)
      | _ => some (.code .jsonMalformed)

/-- `_npm_via_target_reaches_advisory`: absent if it does. The names of the report are fuel. -/
def viaTargetReachesAdvisory (vulns : Fields) : ℕ → Str → List Str → Option Failure
  | 0, target, visiting => reachesStep vulns (fun _ => none) target visiting
  | fuel + 1, target, visiting =>
    reachesStep vulns (fun name => viaTargetReachesAdvisory vulns fuel name (target :: visiting))
      target visiting

theorem reachesStep_congr {vulns : Fields} {next next' : Str → Option Failure} {target : Str}
    {visiting : List Str}
    (h : target ∉ visiting → target ∈ vulns.map Prod.fst → ∀ name, next name = next' name) :
    reachesStep vulns next target visiting = reachesStep vulns next' target visiting := by
  unfold reachesStep
  split
  · rfl
  split
  · rfl
  rename_i hfresh
  split
  · rfl
  rename_i entry hentry
  have hmem : target ∈ vulns.map Prod.fst := List.mem_map.mpr ⟨_, Json.mem_of_lookup hentry, rfl⟩
  have hnext : next = next' := funext (h hfresh hmem)
  rw [hnext]

/-- The names that are not visited yet. -/
def unvisited (vulns : Fields) (visiting : List Str) : ℕ :=
  ((vulns.map Prod.fst).dedup.filter (· ∉ visiting)).length

theorem unvisited_cons {vulns : Fields} {target : Str} {visiting : List Str}
    (hfresh : target ∉ visiting) (hmem : target ∈ vulns.map Prod.fst) :
    unvisited vulns (target :: visiting) < unvisited vulns visiting := by
  have hfilter : (vulns.map Prod.fst).dedup.filter (· ∉ target :: visiting) =
      ((vulns.map Prod.fst).dedup.filter (· ∉ visiting)).filter (· ≠ target) := by
    rw [List.filter_filter]
    apply List.filter_congr
    intro name _
    simp
  rw [unvisited, hfilter, unvisited, List.length_filter_lt_length_iff_exists]
  exact ⟨target, List.mem_filter.mpr ⟨List.mem_dedup.mpr hmem, by simpa using hfresh⟩, by simp⟩

/-- The fuel is not used up while names are left. -/
theorem viaTargetReachesAdvisory_fuel {vulns : Fields} {fuel : ℕ} {target : Str}
    {visiting : List Str} (hfuel : unvisited vulns visiting ≤ fuel) :
    viaTargetReachesAdvisory vulns (fuel + 1) target visiting =
      viaTargetReachesAdvisory vulns fuel target visiting := by
  induction fuel generalizing target visiting with
  | zero =>
    apply reachesStep_congr
    intro hfresh hmem
    have hless := unvisited_cons hfresh hmem
    omega
  | succ fuel ih =>
    apply reachesStep_congr
    intro hfresh hmem name
    have hless := unvisited_cons hfresh hmem
    exact ih (by omega)

/-- The installed version of a node. -/
def nodeVersion (packages : Fields) (node : Json) : Option Str := do
  let node ← Json.asNonemptyStr (some node)
  let alt := if startsWith "node_modules/" node then node else "node_modules/".toList ++ node
  let entry ← (Json.asObj (packages.lookup node)).or (Json.asObj (packages.lookup alt))
  Json.asNonemptyStr (Json.get entry "version")

/-- `resolve_npm_installed_versions`. -/
def resolveNpmInstalledVersions (lockData : Fields) (nodes : List Json) : Option (List Str) := do
  let packages ← Json.asObj (Json.get lockData "packages")
  let versions ← nodes.mapM (nodeVersion packages)
  if versions = [] then none else some (sortedSet versions)

/-- The findings of one element of `via`. -/
def viaFindings (vulns entry : Fields) (scope package : Str) (installed : List Str) :
    Json → Except Failure (List Finding)
  | .str name => do
    require (name ≠ []) (.code .jsonIncomplete)
    match viaTargetReachesAdvisory vulns vulns.length name [package] with
    | some failure => .error failure
    | none => .ok []
  | .obj item => do
    let via ← parseNpmVia item entry
    let finding (version : Option Str) : Finding :=
      { ecosystem := .npm, section_ := scope, package, version, advisoryId := via.advisory,
        aliases := via.aliases, severity := via.severity }
    .ok (if installed = [] then [finding none] else installed.map fun version => finding (some version))
  | _ => .error (.code .jsonMalformed)

def isObject : Json → Bool
  | .obj _ => true
  | _ => false

/-- The findings of one entry of `vulnerabilities` and the number of its advisory objects. -/
def readEntry (lockData vulns : Fields) (scope : Str) (metaTotal : ℕ) (package : Str)
    (entry : Json) : Except Failure (List Finding × ℕ) := do
  require (package ≠ []) (.code .jsonMalformed)
  let entry ← jsonOr .jsonMalformed (Json.asObj (some entry))
  let viaRaw ← jsonOr .jsonIncomplete (Json.get entry "via")
  let via ← jsonOr .jsonMalformed (Json.asArr (some viaRaw))
  require (¬ (0 < metaTotal ∧ via = [])) (.code .inventoryIncomplete)
  let nodes ← jsonOr .jsonMalformed (Json.asArrOrNull (Json.get entry "nodes"))
  let installed := if via.any isObject then (resolveNpmInstalledVersions lockData nodes).getD []
    else []
  let findings ← via.mapM (viaFindings vulns entry scope package installed)
  .ok (findings.flatten, via.countP isObject)

def readEntries (lockData vulns : Fields) (scope : Str) (metaTotal : ℕ) :
    Fields → Except Failure (List Finding × ℕ)
  | [] => .ok ([], 0)
  | (package, entry) :: entries => do
    let (findings, rows) ← readEntry lockData vulns scope metaTotal package entry
    let (restFindings, restRows) ← readEntries lockData vulns scope metaTotal entries
    .ok (findings ++ restFindings, rows + restRows)

def hasCounts (fields : Fields) (keys : List String) : Prop :=
  ∀ key ∈ keys, (Json.asNonnegInt (Json.get fields key)).isSome

instance (fields : Fields) (keys : List String) : Decidable (hasCounts fields keys) :=
  inferInstanceAs (Decidable (∀ _ ∈ _, _))

/-- The entries of a report and the total its metadata claims. -/
def npmVulnerabilities (payload : Json) : Except Failure (Fields × ℕ) := do
  let fields ← jsonOr .jsonMalformed (Json.asObj (some payload))
  require (Json.isTwo (Json.get fields "auditReportVersion")) (.code .jsonMalformed)
  let metadata ← jsonOr .jsonIncomplete (Json.asObj (Json.get fields "metadata"))
  let depMeta ← jsonOr .jsonIncomplete (Json.asObj (Json.get metadata "dependencies"))
  let vulnMeta ← jsonOr .jsonIncomplete (Json.asObj (Json.get metadata "vulnerabilities"))
  require (hasCounts depMeta ["prod", "dev", "optional", "total"]) (.code .jsonIncomplete)
  require (hasCounts vulnMeta ["info", "low", "moderate", "high", "critical", "total"])
    (.code .jsonIncomplete)
  let metaTotal ← jsonOr .jsonIncomplete (Json.asNonnegInt (Json.get vulnMeta "total"))
  let vulnsRaw ← jsonOr .jsonIncomplete (Json.get fields "vulnerabilities")
  let vulns ← jsonOr .jsonMalformed (Json.asObj (some vulnsRaw))
  require (¬ (0 < metaTotal ∧ vulns = [])) (.code .inventoryIncomplete)
  require (¬ (metaTotal = 0 ∧ vulns ≠ [])) (.code .inventoryIncomplete)
  .ok (vulns, metaTotal)

def parseNpmAuditJson (payload : Json) (lockData : Fields) (scope : Str) : Report :=
  match (do
    let (vulns, metaTotal) ← npmVulnerabilities payload
    let (findings, rows) ← readEntries lockData vulns scope metaTotal vulns
    .ok (findings, rows, metaTotal)) with
  | .error failure => .failed failure
  | .ok (findings, rows, metaTotal) =>
    { findings
      parseError :=
        if (0 < metaTotal ∧ rows = 0) ∨ (metaTotal = 0 ∧ findings ≠ []) then
          some (.code .inventoryIncomplete)
        else none }

/-! ### What the findings of an entry are -/

variable {lockData vulns entry entries item : Fields} {scope : Str} {metaTotal rows : ℕ}
  {installed : List Str} {via nodes : List Json}

def ViaAdvisory.ids (via : ViaAdvisory) : List Str := via.advisory :: via.aliases

theorem viaFindings_object {new : List Finding}
    (h : viaFindings vulns entry scope package installed (.obj item) = .ok new) :
    ∃ advisory, parseNpmVia item entry = .ok advisory ∧
      (installed = [] → ∃ finding ∈ new, finding.version = none) ∧
      ∀ version ∈ installed, ∃ finding ∈ new,
        FindingFor .npm scope package version advisory.ids finding := by
  simp only [viaFindings] at h
  obtain ⟨advisory, hadvisory, h⟩ := bind_eq_ok.mp h
  cases h
  refine ⟨advisory, hadvisory, fun hnone => ?_, fun version hversion => ?_⟩
  · rw [if_pos hnone]
    exact ⟨_, List.mem_singleton_self _, rfl⟩
  · rw [if_neg (List.ne_nil_of_mem hversion)]
    exact ⟨_, List.mem_map_of_mem hversion, rfl, rfl, rfl, rfl, fun _ h => h⟩

/-- An advisory object of an entry that was read has a finding for each installed version of the
nodes, or one without a version. -/
theorem readEntry_spec (h : readEntry lockData vulns scope metaTotal package (.obj entry) =
      .ok (findings, rows)) (hvia : Json.get entry "via" = some (.arr via))
    (hitem : .obj item ∈ via) :
    ∃ advisory nodes, parseNpmVia item entry = .ok advisory ∧
      Json.asArrOrNull (Json.get entry "nodes") = some nodes ∧
      ((∃ finding ∈ findings, finding.version = none) ∨
        ∃ installed, resolveNpmInstalledVersions lockData nodes = some installed ∧ installed ≠ [] ∧
          ∀ version ∈ installed, ∃ finding ∈ findings,
            FindingFor .npm scope package version advisory.ids finding) := by
  simp only [readEntry, bind_eq_ok, jsonOr_eq_ok, Json.asObj_eq_some, Json.asArr_eq_some] at h
  obtain ⟨_, _, _, hobj, _, hraw, _, harr, _, _, nodes, hnodes, all, hall, h⟩ := h
  cases hobj
  cases harr
  rw [hvia] at hraw
  cases hraw
  cases h
  have hany : via.any isObject = true := List.any_eq_true.mpr ⟨_, hitem, rfl⟩
  rw [if_pos hany] at hall
  obtain ⟨new, hnew, hfound⟩ := exists_of_mem_mapM hall hitem
  obtain ⟨advisory, hadvisory, hnone, hsome⟩ := viaFindings_object hfound
  refine ⟨advisory, nodes, hadvisory, hnodes, ?_⟩
  cases hresolve : resolveNpmInstalledVersions lockData nodes with
  | none =>
    rw [hresolve] at hnone
    obtain ⟨finding, hfinding, hversion⟩ := hnone rfl
    exact .inl ⟨finding, List.mem_flatten.mpr ⟨new, hnew, hfinding⟩, hversion⟩
  | some installed =>
    rw [hresolve] at hnone hsome
    by_cases hempty : installed = []
    · obtain ⟨finding, hfinding, hversion⟩ := hnone hempty
      exact .inl ⟨finding, List.mem_flatten.mpr ⟨new, hnew, hfinding⟩, hversion⟩
    · refine .inr ⟨installed, rfl, hempty, fun version hversion => ?_⟩
      obtain ⟨finding, hfinding, hfor⟩ := hsome version hversion
      exact ⟨finding, List.mem_flatten.mpr ⟨new, hnew, hfinding⟩, hfor⟩

theorem readEntries_mem {value : Json}
    (h : readEntries lockData vulns scope metaTotal entries = .ok (findings, rows))
    (hentry : (package, value) ∈ entries) :
    ∃ new newRows, readEntry lockData vulns scope metaTotal package value = .ok (new, newRows) ∧
      ∀ finding ∈ new, finding ∈ findings := by
  induction entries generalizing findings rows with
  | nil => exact absurd hentry List.not_mem_nil
  | cons head entries ih =>
    obtain ⟨headPackage, headValue⟩ := head
    simp only [readEntries] at h
    obtain ⟨⟨new, newRows⟩, hnew, h⟩ := bind_eq_ok.mp h
    obtain ⟨⟨rest, restRows⟩, hrest, h⟩ := bind_eq_ok.mp h
    cases h
    rcases List.mem_cons.mp hentry with heq | hentry
    · cases heq
      exact ⟨new, newRows, hnew, fun finding hf => List.mem_append_left _ hf⟩
    · obtain ⟨found, foundRows, hfound, hmem⟩ := ih hrest hentry
      exact ⟨found, foundRows, hfound, fun finding hf => List.mem_append_right _ (hmem finding hf)⟩

theorem exists_of_mem_mapM_some {f : Json → Option Str} {versions : List Str} {node : Json}
    (h : nodes.mapM f = some versions) (hnode : node ∈ nodes) :
    ∃ version ∈ versions, f node = some version := by
  induction nodes generalizing versions with
  | nil => exact absurd hnode List.not_mem_nil
  | cons head nodes ih =>
    rw [List.mapM_cons] at h
    obtain ⟨headVersion, hhead, h⟩ := Option.bind_eq_some_iff.mp h
    obtain ⟨rest, hrest, h⟩ := Option.bind_eq_some_iff.mp h
    cases h
    rcases List.mem_cons.mp hnode with rfl | hnode
    · exact ⟨headVersion, List.mem_cons_self, hhead⟩
    · obtain ⟨version, hversion, hf⟩ := ih hrest hnode
      exact ⟨version, List.mem_cons_of_mem _ hversion, hf⟩

/-- The versions that were resolved are those of the nodes. -/
theorem resolve_spec (h : resolveNpmInstalledVersions lockData nodes = some installed) :
    ∃ packages, Json.get lockData "packages" = some (.obj packages) ∧ nodes ≠ [] ∧
      ∀ node ∈ nodes, ∃ version, nodeVersion packages node = some version ∧
        version ∈ installed := by
  obtain ⟨packages, hpackages, h⟩ := Option.bind_eq_some_iff.mp h
  obtain ⟨versions, hversions, h⟩ := Option.bind_eq_some_iff.mp h
  split at h
  · cases h
  rename_i hsome
  cases h
  refine ⟨packages, Json.asObj_eq_some.mp hpackages, ?_, fun node hnode => ?_⟩
  · rintro rfl
    cases hversions
    exact hsome rfl
  · obtain ⟨version, hmem, hversion⟩ := exists_of_mem_mapM_some hversions hnode
    exact ⟨version, hversion, mem_sortedSet.mpr hmem⟩

theorem npmVulnerabilities_eq_ok {payload : Json} {total : ℕ}
    (h : npmVulnerabilities payload = .ok (vulns, total)) :
    ∃ fields, payload = .obj fields ∧ Json.get fields "vulnerabilities" = some (.obj vulns) := by
  simp only [npmVulnerabilities, bind_eq_ok, jsonOr_eq_ok, Json.asObj_eq_some] at h
  obtain ⟨fields, hobj, _, _, _, _, _, _, _, _, _, _, _, _, _, _, _, hraw, _, hvulns, _, _, _, _, h⟩ := h
  cases hobj
  cases hvulns
  cases h
  exact ⟨fields, rfl, hraw⟩

/-- A report without an error: every advisory object of every entry has its findings. -/
theorem parseNpmAuditJson_spec {payload : Json}
    (h : (parseNpmAuditJson payload lockData scope).parseError = none) :
    ∃ vulns total, npmVulnerabilities payload = .ok (vulns, total) ∧
      ∀ package entry via item, (package, .obj entry) ∈ vulns →
        Json.get entry "via" = some (.arr via) → .obj item ∈ via →
        ∃ advisory nodes, parseNpmVia item entry = .ok advisory ∧
          Json.asArrOrNull (Json.get entry "nodes") = some nodes ∧
          ((∃ finding ∈ (parseNpmAuditJson payload lockData scope).findings,
              finding.version = none) ∨
            ∃ installed, resolveNpmInstalledVersions lockData nodes = some installed ∧
              installed ≠ [] ∧ ∀ version ∈ installed,
                ∃ finding ∈ (parseNpmAuditJson payload lockData scope).findings,
                  FindingFor .npm scope package version advisory.ids finding) := by
  unfold parseNpmAuditJson at h ⊢
  split at h
  · cases h
  rename_i findings rows total hread
  obtain ⟨⟨vulns, metaTotal⟩, hvulns, hread⟩ := bind_eq_ok.mp hread
  obtain ⟨⟨found, foundRows⟩, hentries, hread⟩ := bind_eq_ok.mp hread
  cases hread
  refine ⟨vulns, total, hvulns, ?_⟩
  intro package entry via item hentry hvia hitem
  obtain ⟨new, newRows, hnew, hmem⟩ := readEntries_mem hentries hentry
  obtain ⟨advisory, nodes, hadvisory, hnodes, hcase⟩ := readEntry_spec hnew hvia hitem
  refine ⟨advisory, nodes, hadvisory, hnodes, hcase.imp ?_ ?_⟩
  · rintro ⟨finding, hfinding, hversion⟩
    exact ⟨finding, hmem finding hfinding, hversion⟩
  · rintro ⟨installed, hinstalled, hne, hall⟩
    refine ⟨installed, hinstalled, hne, fun version hversion => ?_⟩
    obtain ⟨finding, hfinding, hfor⟩ := hall version hversion
    exact ⟨finding, hmem finding hfinding, hfor⟩

end FetchNow.Audit
