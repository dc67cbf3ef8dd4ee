import FetchNow.Audit.Reports

/-!
# The dependency gate

`run_audit` with its three sections.
-/
namespace FetchNow.Audit

open Transactions

/-! ## Sections -/

structure SectionResult where
  name : Str
  status : Status
  findings : List Finding
  rawFindings : List Finding
  acceptedExceptions : List (Finding × ExceptionRule)
  errorCode : Option ErrorCode
  deriving DecidableEq, Repr

def failedSection (name : Str) (status : Status) (code : ErrorCode) : SectionResult where
  name := name
  status := status
  findings := []
  rawFindings := []
  acceptedExceptions := []
  errorCode := some code

/-- `_classify_bounded_failure`. -/
def classifyBoundedFailure : BoundedError → Status × ErrorCode
  | .timeout => (.timeout, .scannerTimeout)
  | .cancelled => (.cancelled, .scannerCancelled)
  | .outputLimit => (.incomplete, .scannerOutputLimit)
  | .other => (.scannerError, .boundedError)

def boundedSection (name : Str) (error : BoundedError) : SectionResult :=
  let (status, code) := classifyBoundedFailure error
  failedSection name status code

def parseErrorStatus : ErrorCode → Status
  | .jsonMalformed | .jsonIncomplete | .exportParseError => .malformed
  | .inventoryIncomplete | .exportSilentLoss => .incomplete
  | .exportEmpty => .sourceUnavailable
  | _ => .scannerError

def okExits : List Int := [0, 1]

/-- `_finalize_section_with_exceptions`, absent where an exception leaves. -/
def finalizeSection (lib : Library) (name : Str) (returncode : Int) (report : Report)
    (rules : List ExceptionRule) (today : Int) : Option SectionResult :=
  let failed (status : Status) (code : ErrorCode) : SectionResult :=
    { name, status, findings := report.findings, rawFindings := report.findings,
      acceptedExceptions := [], errorCode := some code }
  match report.parseError with
  | some .raised => none
  | some (.code code) => some (failed (parseErrorStatus code) code)
  | none =>
    if returncode ∉ okExits then some (failed .scannerError .scannerBadExit)
    else if returncode = 0 ∧ report.findings ≠ [] then
      some (failed .incomplete .scannerExitPayloadMismatch)
    else if returncode = 1 ∧ report.findings = [] then
      some (failed .incomplete .scannerExitPayloadMismatch)
    else
      let (remaining, accepted) := applyExceptions lib report.findings rules today
      some { name, status := if remaining = [] then .clean else .findings, findings := remaining,
             rawFindings := report.findings, acceptedExceptions := accepted, errorCode := none }

def outputLimitBytes : ℕ := 2 * 1024 * 1024

/-- What a section does with the output of its scanner. -/
def readScanner (lib : Library) (name : Str) (parse : Json → Report) (rules : List ExceptionRule)
    (today : Int) (result : BoundedResult) : Option SectionResult :=
  if result.stdoutBytes = 0 then some (failedSection name .scannerError .scannerEmptyOutput)
  else if outputLimitBytes < result.stdoutBytes then
    some (failedSection name .incomplete .scannerOutputLimit)
  else
    match result.payload with
    | none => some (failedSection name .malformed .jsonMalformed)
    | some payload =>
      finalizeSection lib name (result.returncode.getD 2) (parse payload) rules today

/-! ## npm -/

/-- The lock file, decoded if it can be, and what `npm audit` leaves. -/
structure NpmInputs where
  lockIsFile : Bool
  lock : Option Json
  audit : Ran

def runNpmSection (lib : Library) (inputs : NpmInputs) (rules : List ExceptionRule) (today : Int) :
    Option SectionResult :=
  let name := "npm".toList
  if !inputs.lockIsFile then some (failedSection name .sourceUnavailable .missingLock)
  else
    match Json.asObj inputs.lock with
    | none => some (failedSection name .malformed .jsonMalformed)
    | some lockData =>
      match inputs.audit with
      | .error error => some (boundedSection name error)
      | .ok result =>
        readScanner lib name (fun payload => parseNpmAuditJson payload lockData name) rules today
          result

/-! ## Python -/

/-- Whether `pip-audit` is there, and the versions that the probes read. -/
structure VersionProbe where
  pipAuditIsFile : Bool
  uv : Option Str
  pipAudit : Option Str

def uvRequiredVersion : Str := "0.12.19".toList

def pipAuditVersion : Str := "2.10.1".toList

/-- `verify_audit_tool_versions`: the error code, if any. -/
def verifyAuditToolVersions (probe : VersionProbe) : Option ErrorCode :=
  if !probe.pipAuditIsFile then some .toolMissing
  else if probe.uv = none then some .toolVersionUnreadable
  else if probe.uv ≠ some uvRequiredVersion then some .toolVersionMismatch
  else if probe.pipAudit = none then some .toolVersionUnreadable
  else if probe.pipAudit ≠ some pipAuditVersion then some .toolVersionMismatch
  else none

def versionStatus (code : ErrorCode) : Status :=
  if code = .toolMissing then .sourceUnavailable else .scannerError

structure PythonInputs where
  versions : VersionProbe
  lockIsFile : Bool
  lockCheck : Ran
  exported : Ran
  pipAudit : Ran

def filterErrorStatus : ErrorCode → Status
  | .exportEmpty => .sourceUnavailable
  | .exportSilentLoss => .incomplete
  | _ => .malformed

def runPythonSection (lib : Library) (target : Target) (inputs : PythonInputs)
    (rules : List ExceptionRule) (today : Int) : Option SectionResult :=
  let name := target.label
  match verifyAuditToolVersions inputs.versions with
  | some code => some (failedSection name (versionStatus code) code)
  | none =>
    if !inputs.lockIsFile then some (failedSection name .sourceUnavailable .missingLock)
    else
      match inputs.lockCheck with
      | .error error => some (boundedSection name error)
      | .ok check =>
        if check.returncode ≠ some 0 then some (failedSection name .sourceUnavailable .lockStale)
        else
          match inputs.exported with
          | .error error => some (boundedSection name error)
          | .ok exported =>
            if exported.returncode ≠ some 0 then
              some (failedSection name .sourceUnavailable .exportFailed)
            else if strip exported.stdoutText = [] then
              some (failedSection name .sourceUnavailable .exportEmpty)
            else
              match filterExportForTarget lib exported.stdoutText target with
              | .error .raised => none
              | .error (.code code) => some (failedSection name (filterErrorStatus code) code)
              | .ok expected =>
                match inputs.pipAudit with
                | .error error => some (boundedSection name error)
                | .ok result =>
                  readScanner lib name (fun payload => parsePipAuditJson lib payload expected name)
                    rules today result

/-! ## The gate -/

structure AuditInputs where
  exceptions : ExceptionsFile
  versions : VersionProbe
  npm : NpmInputs
  runtime : PythonInputs
  dev : PythonInputs

def requiredSections : List Str := ["npm".toList, "python-runtime".toList, "python-dev".toList]

def isTechnical (status : Status) : Bool := status ≠ .clean && status ≠ .findings

/-- The status of `build_report`. -/
def overallStatus (sections : List SectionResult) : Status :=
  if sections.map SectionResult.name ≠ requiredSections then .incomplete
  else
    match (sections.map SectionResult.status).find? isTechnical with
    | some status => status
    | none => if .findings ∈ sections.map SectionResult.status then .findings else .clean

def overallExitCode (status : Status) : ℕ := if status = .clean then 0 else 1

/-- `run_audit`: the sections and the exit code, absent where an exception leaves. -/
def runAudit (lib : Library) (inputs : AuditInputs) (today : Int) :
    Option (List SectionResult × ℕ) :=
  match loadExceptions lib inputs.exceptions with
  | .error .raised => none
  | .error (.code code) =>
    some (requiredSections.map fun name => failedSection name .malformed code, 1)
  | .ok rules =>
    match verifyAuditToolVersions inputs.versions with
    | some code =>
      some (requiredSections.map fun name => failedSection name (versionStatus code) code, 1)
    | none => do
      let npm ← runNpmSection lib inputs.npm rules today
      let runtime ← runPythonSection lib runtimeTarget inputs.runtime rules today
      let dev ← runPythonSection lib devTarget inputs.dev rules today
      some ([npm, runtime, dev], overallExitCode (overallStatus [npm, runtime, dev]))

/-! ## What a clean section says -/

variable {lib : Library} {rules : List ExceptionRule} {today : Int} {name : Str}
  {result : BoundedResult} {parse : Json → Report} {section_ : SectionResult}

/-- The scanner exited with 0 and found nothing, or with 1 and found something. -/
def ConsistentExit (result : BoundedResult) (section_ : SectionResult) : Prop :=
  (result.returncode = some 0 ∧ section_.rawFindings = []) ∨
    (result.returncode = some 1 ∧ section_.rawFindings ≠ [])

theorem finalizeSection_clean {returncode : Int} {report : Report}
    (h : finalizeSection lib name returncode report rules today = some section_)
    (hclean : section_.status = .clean) :
    section_.name = name ∧ section_.rawFindings = report.findings ∧ report.parseError = none ∧
      ((returncode = 0 ∧ report.findings = []) ∨ (returncode = 1 ∧ report.findings ≠ [])) ∧
      ∀ finding ∈ report.findings, ∃ rule ∈ rules, rule.covers lib finding today = true := by
  unfold finalizeSection at h
  split at h
  · cases h
  · rename_i code hcode
    cases h
    cases code <;> cases hclean
  rename_i hparse
  split at h
  · cases h
    cases hclean
  rename_i hexit
  split at h
  · cases h
    cases hclean
  rename_i hzero
  split at h
  · cases h
    cases hclean
  rename_i hone
  cases h
  dsimp only at hclean
  split at hclean
  case isFalse => cases hclean
  rename_i hremaining
  refine ⟨rfl, rfl, hparse, ?_, applyExceptions_nil hremaining⟩
  have hcodes : returncode = 0 ∨ returncode = 1 :=
    or_iff_not_imp_left.mpr (by simpa [okExits] using hexit)
  rcases hcodes with rfl | rfl
  · exact .inl ⟨rfl, by simpa using hzero⟩
  · exact .inr ⟨rfl, by simpa using hone⟩

theorem readScanner_clean (h : readScanner lib name parse rules today result = some section_)
    (hclean : section_.status = .clean) :
    ∃ payload, result.payload = some payload ∧ section_.name = name ∧
      (parse payload).parseError = none ∧ ConsistentExit result section_ ∧
      ∀ finding ∈ (parse payload).findings, ∃ rule ∈ rules, rule.covers lib finding today = true := by
  unfold readScanner at h
  split at h
  · cases h
    cases hclean
  split at h
  · cases h
    cases hclean
  split at h
  · cases h
    cases hclean
  rename_i payload hpayload
  obtain ⟨hname, hraw, herror, hexit, hcovered⟩ := finalizeSection_clean h hclean
  refine ⟨payload, hpayload, hname, herror, ?_, hcovered⟩
  have hcode {n : Int} (hn : result.returncode.getD 2 = n) (hne : n ≠ 2) :
      result.returncode = some n := by
    cases hreturn : result.returncode with
    | none =>
      rw [hreturn] at hn
      exact absurd hn.symm hne
    | some m => rw [hreturn] at hn; exact congrArg some hn
  rw [ConsistentExit, hraw]
  rcases hexit with ⟨hn, hfindings⟩ | ⟨hn, hfindings⟩
  · exact .inl ⟨hcode hn (by decide), hfindings⟩
  · exact .inr ⟨hcode hn (by decide), hfindings⟩

/-- Some rule excepts the advisory with these ids. -/
def Excepted (lib : Library) (rules : List ExceptionRule) (today : Int) (ecosystem : Ecosystem)
    (scope package version : Str) (ids : List Str) : Prop :=
  ∃ rule ∈ rules, Excepts lib today ecosystem scope package version ids rule

theorem excepted_of_covers {finding : Finding} {ecosystem : Ecosystem}
    {scope package version : Str} {ids : List Str}
    (hfor : FindingFor ecosystem scope package version ids finding)
    (hcovered : ∃ rule ∈ rules, rule.covers lib finding today = true) :
    Excepted lib rules today ecosystem scope package version ids := by
  obtain ⟨rule, hrule, hcovers⟩ := hcovered
  obtain ⟨found, hfound, hexcepts⟩ := covers_iff.mp hcovers
  obtain ⟨hecosystem, hsection, hpackage, hversion, hids⟩ := hfor
  rw [hversion] at hfound
  cases hfound
  rw [hecosystem, hsection, hpackage] at hexcepts
  obtain ⟨id, hid, hshared⟩ := hexcepts.sharedId
  exact ⟨rule, hrule, { hexcepts with sharedId := ⟨id, hids id hid, hshared⟩ }⟩

/-- Every advisory object of the payload of `npm audit` is excepted for each installed version of
the nodes of its entry. -/
def NpmExcepted (lib : Library) (rules : List ExceptionRule) (today : Int) (lockData : Fields)
    (payload : Json) : Prop :=
  ∃ fields vulns, payload = .obj fields ∧ Json.get fields "vulnerabilities" = some (.obj vulns) ∧
    ∀ package entry via item, (package, .obj entry) ∈ vulns →
      Json.get entry "via" = some (.arr via) → .obj item ∈ via →
      ∃ advisory nodes packages, parseNpmVia item entry = .ok advisory ∧
        Json.asArrOrNull (Json.get entry "nodes") = some nodes ∧ nodes ≠ [] ∧
        Json.get lockData "packages" = some (.obj packages) ∧
        ∀ node ∈ nodes, ∃ version, nodeVersion packages node = some version ∧
          Excepted lib rules today .npm "npm".toList package version advisory.ids

/-- Every advisory object of the payload of `pip-audit` is excepted, or one that stands for it. -/
def PipExcepted (lib : Library) (rules : List ExceptionRule) (today : Int) (scope : Str)
    (standsFor : Json → Json → Prop) (deps : List Json) : Prop :=
  ∀ fields vulns, .obj fields ∈ deps → Json.get fields "vulns" = some (.arr vulns) →
    ∀ vuln ∈ vulns, ∃ package version same, Json.get fields "name" = some (.str package) ∧
      Json.get fields "version" = some (.str version) ∧ same ∈ vulns ∧ standsFor same vuln ∧
      Excepted lib rules today .pypi scope package version (advisoryIds same)

structure NpmSound (lib : Library) (inputs : NpmInputs) (rules : List ExceptionRule) (today : Int)
    (section_ : SectionResult) : Prop where
  name : section_.name = "npm".toList
  report : ∃ lockData result payload, inputs.lock = some (.obj lockData) ∧
    inputs.audit = .ok result ∧ result.payload = some payload ∧ ConsistentExit result section_ ∧
    NpmExcepted lib rules today lockData payload

structure PythonSound (lib : Library) (target : Target) (inputs : PythonInputs)
    (rules : List ExceptionRule) (today : Int) (standsFor : Json → Json → Prop)
    (section_ : SectionResult) : Prop where
  name : section_.name = target.label
  report : ∃ exported result fields deps, inputs.exported = .ok exported ∧
    inputs.pipAudit = .ok result ∧ result.payload = some (.obj fields) ∧
    Json.get fields "dependencies" = some (.arr deps) ∧ ConsistentExit result section_ ∧
    -- What was scanned is what is pinned, and no line of the export is lost.
    (parseRequirementBlocks exported.stdoutText).1.map Block.head =
      (splitlines exported.stdoutText).filter isHead ∧
    (∀ name version, (∃ dep ∈ deps, Scanned lib dep name version) ↔
      ∃ block ∈ (parseRequirementBlocks exported.stdoutText).1,
        Pinned lib target block name version) ∧
    PipExcepted lib rules today target.label standsFor deps

/-- What exit code 0 promises. -/
structure AuditSound (lib : Library) (inputs : AuditInputs) (today : Int)
    (standsFor : Json → Json → Prop) (sections : List SectionResult) : Prop where
  sound : ∃ rules npm runtime dev, loadExceptions lib inputs.exceptions = .ok rules ∧
    sections = [npm, runtime, dev] ∧ NpmSound lib inputs.npm rules today npm ∧
    PythonSound lib runtimeTarget inputs.runtime rules today standsFor runtime ∧
    PythonSound lib devTarget inputs.dev rules today standsFor dev

theorem npmExcepted_of_report {payload : Json} {lockData : Fields}
    (hparse : (parseNpmAuditJson payload lockData "npm".toList).parseError = none)
    (hcovered : ∀ finding ∈ (parseNpmAuditJson payload lockData "npm".toList).findings,
      ∃ rule ∈ rules, rule.covers lib finding today = true) :
    NpmExcepted lib rules today lockData payload := by
  obtain ⟨vulns, total, hvulns, hobjects⟩ := parseNpmAuditJson_spec hparse
  obtain ⟨fields, rfl, hfields⟩ := npmVulnerabilities_eq_ok hvulns
  refine ⟨fields, vulns, rfl, hfields, ?_⟩
  intro package entry via item hentry hvia hitem
  obtain ⟨advisory, nodes, hadvisory, hnodes, hcase⟩ := hobjects package entry via item hentry hvia hitem
  rcases hcase with ⟨finding, hfinding, hversion⟩ | ⟨installed, hinstalled, _, hall⟩
  · -- A finding without a version is covered by no rule.
    obtain ⟨rule, _, hcovers⟩ := hcovered finding hfinding
    obtain ⟨version, hfound, -⟩ := covers_iff.mp hcovers
    rw [hversion] at hfound
    cases hfound
  · obtain ⟨packages, hpackages, hnonempty, hversions⟩ := resolve_spec hinstalled
    refine ⟨advisory, nodes, packages, hadvisory, hnodes, hnonempty, hpackages, fun node hnode => ?_⟩
    obtain ⟨version, hversion, hmem⟩ := hversions node hnode
    obtain ⟨finding, hfinding, hfor⟩ := hall version hmem
    exact ⟨version, hversion, excepted_of_covers hfor (hcovered finding hfinding)⟩

theorem pipExcepted_of_report {payload : Json} {expected : List (Str × Str)} {scope : Str}
    {deps : List Json}
    (hread : ∀ item ∈ deps, ∃ name version new, Reads scope item name version new ∧
      ∀ finding ∈ new, finding ∈ (parsePipAuditJson lib payload expected scope).findings)
    (hcovered : ∀ finding ∈ (parsePipAuditJson lib payload expected scope).findings,
      ∃ rule ∈ rules, rule.covers lib finding today = true) :
    PipExcepted lib rules today scope (fun same vuln => advisoryId same = advisoryId vuln) deps := by
  intro fields vulns hdep hvulns vuln hvuln
  obtain ⟨name, version, new, hreads, hmem⟩ := hread _ hdep
  obtain ⟨fields', vulns', hobj, hname, hversion, hvulns', hcollect⟩ := hreads.parts
  cases hobj
  rw [hvulns] at hvulns'
  cases hvulns'
  obtain ⟨vid, hvid, hseen | ⟨same, hsame, hid, finding, hfinding, hfor⟩⟩ :=
    collectVulns_spec hcollect vuln hvuln
  · exact absurd hseen List.not_mem_nil
  · exact ⟨name, version, same, hname, hversion, hsame, hid.trans hvid.symm,
      excepted_of_covers hfor (hcovered finding (hmem finding hfinding))⟩

variable {inputs : AuditInputs} {sections : List SectionResult} {target : Target}

theorem runNpmSection_clean {inputs : NpmInputs}
    (h : runNpmSection lib inputs rules today = some section_) (hclean : section_.status = .clean) :
    NpmSound lib inputs rules today section_ := by
  unfold runNpmSection at h
  split at h
  · cases h
    cases hclean
  split at h
  · cases h
    cases hclean
  rename_i lockData hlock
  split at h
  · rename_i error _
    cases h
    cases error <;> cases hclean
  rename_i result haudit
  obtain ⟨payload, hpayload, hname, herror, hexit, hcovered⟩ := readScanner_clean h hclean
  exact ⟨hname, lockData, result, payload, Json.asObj_eq_some.mp hlock, haudit, hpayload, hexit,
    npmExcepted_of_report herror hcovered⟩

theorem runPythonSection_clean {inputs : PythonInputs}
    (h : runPythonSection lib target inputs rules today = some section_)
    (hclean : section_.status = .clean) :
    PythonSound lib target inputs rules today (fun same vuln => advisoryId same = advisoryId vuln)
      section_ := by
  unfold runPythonSection at h
  split at h
  · rename_i code _
    cases h
    cases code <;> cases hclean
  split at h
  · cases h
    cases hclean
  split at h
  · rename_i error _
    cases h
    cases error <;> cases hclean
  split at h
  · cases h
    cases hclean
  split at h
  · rename_i error _
    cases h
    cases error <;> cases hclean
  rename_i exported hexported
  split at h
  · cases h
    cases hclean
  split at h
  · cases h
    cases hclean
  split at h
  · cases h
  · rename_i code _
    cases h
    cases code <;> cases hclean
  rename_i expected hexpected
  split at h
  · rename_i error _
    cases h
    cases error <;> cases hclean
  rename_i result haudit
  obtain ⟨payload, hpayload, hname, herror, hexit, hcovered⟩ := readScanner_clean h hclean
  obtain ⟨deps, hdeps, hinventory, hread⟩ := parsePipAuditJson_spec herror
  obtain ⟨fields, rfl, hfields⟩ := pipDependencies_eq_ok hdeps
  refine ⟨hname, exported, result, fields, deps, hexported, haudit, hpayload, hfields, hexit,
    parseRequirementBlocks_heads _, fun name version => ?_, pipExcepted_of_report hread hcovered⟩
  rw [hinventory, filterExportForTarget_spec hexpected]

theorem overallExitCode_zero {npm runtime dev : SectionResult}
    (h : overallExitCode (overallStatus [npm, runtime, dev]) = 0) :
    npm.status = .clean ∧ runtime.status = .clean ∧ dev.status = .clean := by
  have hclean : overallStatus [npm, runtime, dev] = .clean := by
    unfold overallExitCode at h
    split at h
    · assumption
    · cases h
  unfold overallStatus at hclean
  split at hclean
  · cases hclean
  split at hclean
  · rename_i status hfind
    have htechnical := List.find?_some hfind
    rw [hclean] at htechnical
    cases htechnical
  · rename_i hfind
    split at hclean
    · cases hclean
    · rename_i hfindings
      have hall : ∀ status ∈ [npm.status, runtime.status, dev.status], status = .clean := by
        intro status hstatus
        have htechnical := List.find?_eq_none.mp hfind status hstatus
        by_contra hne
        have hnot : status ≠ .findings := fun heq => hfindings (heq ▸ hstatus)
        simp [isTechnical, hne, hnot] at htechnical
      simpa using hall

/-- Exit code 0 promises that the gate found everything in order. An advisory object may be excepted
through an earlier object of its package with the same id. -/
theorem run_audit_sound (hrun : runAudit lib inputs today = some (sections, 0)) :
    AuditSound lib inputs today (fun same vuln => advisoryId same = advisoryId vuln) sections := by
  unfold runAudit at hrun
  split at hrun
  · cases hrun
  · cases hrun
  rename_i rules hrules
  split at hrun
  · cases hrun
  obtain ⟨npm, hnpm, hrun⟩ := Option.bind_eq_some_iff.mp hrun
  obtain ⟨runtime, hruntime, hrun⟩ := Option.bind_eq_some_iff.mp hrun
  obtain ⟨dev, hdev, hrun⟩ := Option.bind_eq_some_iff.mp hrun
  obtain ⟨rfl, hcode⟩ := Prod.mk.inj (Option.some.inj hrun)
  obtain ⟨hnpmClean, hruntimeClean, hdevClean⟩ := overallExitCode_zero hcode
  exact ⟨rules, npm, runtime, dev, hrules, rfl, runNpmSection_clean hnpm hnpmClean,
    runPythonSection_clean hruntime hruntimeClean, runPythonSection_clean hdev hdevClean⟩

section Sample

def sampleLibrary : Library where
  Marker := Unit
  canonicalizeName := id
  requirement text := if text = "a==1".toList then
      some { name := "a".toList, specifier := [("==".toList, "1".toList)], marker := none }
    else none
  evaluate _ _ := some true
  defaultEnvironment := []
  fromIsoFormat text := if text = "1970-01-11".toList then some 10 else none

def jsonStr (text : String) : Json := .str text.toList

def jsonObj (fields : List (String × Json)) : Json :=
  .obj (fields.map fun field => (field.1.toList, field.2))

mutual

/-- The text of a value without floats and without characters to escape. -/
def dumps : Json → Str
  | .null | .float _ => "null".toList
  | .bool value => (if value then "true" else "false").toList
  | .int value => (toString value).toList
  | .str value => '"' :: value ++ ['"']
  | .arr items => '[' :: dumpsItems items ++ [']']
  | .obj fields => '\x7b' :: dumpsFields fields ++ ['\x7d']

def dumpsItems : List Json → Str
  | [] => []
  | [item] => dumps item
  | item :: items => dumps item ++ ", ".toList ++ dumpsItems items

def dumpsFields : List (Str × Json) → Str
  | [] => []
  | [(key, value)] => '"' :: key ++ "\": ".toList ++ dumps value
  | (key, value) :: fields =>
    '"' :: key ++ "\": ".toList ++ dumps value ++ ", ".toList ++ dumpsFields fields

end

def sampleException (ecosystem scope advisory package version : String) : Json :=
  jsonObj [("ecosystem", jsonStr ecosystem), ("scope", jsonStr scope),
    ("advisory", jsonStr advisory), ("package", jsonStr package), ("reason", jsonStr "r"),
    ("owner", jsonStr "o"), ("review_deadline", jsonStr "1970-01-11"),
    ("versions", .arr [jsonStr version])]

def sampleExceptions : Json :=
  jsonObj [("exceptions", .arr [sampleException "pypi" "python-runtime" "CVE-1" "a" "1",
    sampleException "npm" "npm" "GHSA-1" "b" "2"])]

def sampleVersions : VersionProbe where
  pipAuditIsFile := true
  uv := some uvRequiredVersion
  pipAudit := some pipAuditVersion

def sampleText (returncode : Int) (text : Str) (payload : Option Json) : Ran :=
  .ok { returncode := some returncode, stdoutBytes := text.length, stdoutText := text, payload }

def sampleRan (returncode : Int) (payload : Json) : Ran :=
  sampleText returncode (dumps payload) (some payload)

def sampleLock : Json :=
  jsonObj [("packages", jsonObj [("", jsonObj []),
    ("node_modules/b", jsonObj [("version", jsonStr "2")])])]

def sampleVia : Json :=
  jsonObj [("source", .int 1), ("title", jsonStr "t"), ("severity", jsonStr "low"),
    ("url", jsonStr "https://github.com/advisories/GHSA-1")]

def sampleNpm : NpmInputs where
  lockIsFile := true
  lock := some sampleLock
  audit := sampleRan 1 <| jsonObj [("auditReportVersion", .int 2),
    ("vulnerabilities", jsonObj [("b", jsonObj [("severity", jsonStr "low"),
      ("via", .arr [sampleVia]), ("nodes", .arr [jsonStr "node_modules/b"])])]),
    ("metadata", jsonObj [
      ("vulnerabilities", jsonObj [("info", .int 0), ("low", .int 1), ("moderate", .int 0),
        ("high", .int 0), ("critical", .int 0), ("total", .int 1)]),
      ("dependencies", jsonObj [("prod", .int 1), ("dev", .int 0), ("optional", .int 0),
        ("total", .int 1)])])]

def sampleVuln (aliases : List Json) : Json :=
  jsonObj [("id", jsonStr "PYSEC-1"), ("fix_versions", .arr []), ("aliases", .arr aliases)]

def samplePython (returncode : Int) (vulns : List Json) : PythonInputs where
  versions := sampleVersions
  lockIsFile := true
  lockCheck := sampleText 0 [] none
  exported := sampleText 0 "a==1".toList none
  pipAudit := sampleRan returncode <| jsonObj [("dependencies", .arr [jsonObj
    [("name", jsonStr "a"), ("version", jsonStr "1"), ("vulns", .arr vulns)]]), ("fixes", .arr [])]

def sampleVulns : List Json := [sampleVuln [jsonStr "CVE-1"], sampleVuln []]

/-- The second object has the id of the first but not the alias that is excepted. -/
def sampleInputs : AuditInputs where
  exceptions := .decoded sampleExceptions
  versions := sampleVersions
  npm := sampleNpm
  runtime := samplePython 1 sampleVulns
  dev := samplePython 0 []

theorem runAudit_sample :
    ∃ sections, runAudit sampleLibrary sampleInputs 5 = some (sections, 0) := by
  have hcode : (runAudit sampleLibrary sampleInputs 5).map Prod.snd = some 0 := by decide +kernel
  obtain ⟨⟨sections, code⟩, hrun, rfl⟩ := Option.map_eq_some_iff.mp hcode
  exact ⟨sections, hrun⟩

end Sample

theorem run_audit_sound_sample : ∃ sections, AuditSound sampleLibrary sampleInputs 5
    (fun same vuln => advisoryId same = advisoryId vuln) sections :=
  ⟨_, run_audit_sound runAudit_sample.choose_spec⟩

/-- It does not promise that every object is excepted itself. -/
theorem run_audit_object_not_excepted : ¬ ∀ (lib : Library) (inputs : AuditInputs) (today : Int)
    (sections : List SectionResult), runAudit lib inputs today = some (sections, 0) →
      AuditSound lib inputs today (fun same vuln => same = vuln) sections := by
  intro hclaim
  obtain ⟨sections, hrun⟩ := runAudit_sample
  obtain ⟨rules, npm, runtime, dev, hrules, -, -, hpython, -⟩ := (hclaim _ _ _ _ hrun).sound
  obtain ⟨exported, result, fields, deps, -, haudit, hpayload, hdeps, -, -, -, hexcepted⟩ :=
    hpython.report
  cases haudit
  cases hpayload
  cases hdeps
  obtain ⟨package, version, same, -, -, -, rfl, rule, hrule, hexcepts⟩ :=
    hexcepted _ sampleVulns List.mem_cons_self rfl (sampleVuln [])
      (List.mem_cons_of_mem _ List.mem_cons_self)
  cases hrules
  rcases List.mem_cons.mp (List.mem_reverse.mp hrule) with rfl | hrule
  · exact absurd hexcepts.sameEcosystem (by decide)
  · obtain rfl := List.mem_singleton.mp hrule
    obtain ⟨id, hid, hmatch⟩ := hexcepts.sharedId
    obtain rfl := List.mem_singleton.mp hid
    exact absurd hmatch (by decide)

end FetchNow.Audit
