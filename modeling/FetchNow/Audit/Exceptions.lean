import FetchNow.Audit.Requirements

/-!
# Exceptions

Rules that accept a finding until a deadline.
-/
namespace FetchNow.Audit

open Transactions

inductive Ecosystem where
  | npm
  | pypi
  deriving DecidableEq, Repr

structure Finding where
  ecosystem : Ecosystem
  section_ : Str
  package : Str
  version : Option Str
  advisoryId : Str
  aliases : List Str
  severity : Option Str
  deriving DecidableEq, Repr

def Finding.matchIds (finding : Finding) : List Str := finding.advisoryId :: finding.aliases

structure ExceptionRule where
  ecosystem : Ecosystem
  scope : Str
  advisory : Str
  package : Str
  versions : List Str
  reason : Str
  owner : Str
  reviewDeadline : Int
  aliases : List Str
  deriving DecidableEq, Repr

def ExceptionRule.matchIds (rule : ExceptionRule) : List Str := rule.advisory :: rule.aliases

variable {lib : Library} {rules : List ExceptionRule} {rule : ExceptionRule} {finding : Finding}
  {findings remaining : List Finding} {accepted : List (Finding × ExceptionRule)} {today : Int}

/-! ## Covering -/

/-- Names of Python packages are compared in canonical form. -/
def samePackage (lib : Library) : Ecosystem → Str → Str → Prop
  | .pypi, a, b => lib.canonicalizeName a = lib.canonicalizeName b
  | .npm, a, b => a = b

instance (lib : Library) (ecosystem : Ecosystem) (a b : Str) :
    Decidable (samePackage lib ecosystem a b) :=
  match ecosystem with
  | .pypi => inferInstanceAs (Decidable (_ = _))
  | .npm => inferInstanceAs (Decidable (_ = _))

def ExceptionRule.isActive (rule : ExceptionRule) (today : Int) : Bool := today ≤ rule.reviewDeadline

def ExceptionRule.covers (lib : Library) (rule : ExceptionRule) (finding : Finding) (today : Int) :
    Bool :=
  if !rule.isActive today then false
  else if finding.ecosystem ≠ rule.ecosystem then false
  else if finding.section_ ≠ rule.scope then false
  else if ¬ samePackage lib finding.ecosystem finding.package rule.package then false
  else if rule.versions = [] then false
  else
    match finding.version with
    | none => false
    | some version => version ∈ rule.versions && finding.matchIds.any (· ∈ rule.matchIds)

/-- A rule excepts an advisory with one of these ids for exactly this installed package. -/
structure Excepts (lib : Library) (today : Int) (ecosystem : Ecosystem)
    (scope package version : Str) (ids : List Str) (rule : ExceptionRule) : Prop where
  sameEcosystem : rule.ecosystem = ecosystem
  sameScope : rule.scope = scope
  samePackage : samePackage lib ecosystem package rule.package
  exactVersion : version ∈ rule.versions
  sharedId : ∃ id ∈ ids, id ∈ rule.matchIds
  deadline : today ≤ rule.reviewDeadline

theorem covers_iff : rule.covers lib finding today = true ↔ ∃ version,
    finding.version = some version ∧ Excepts lib today finding.ecosystem finding.section_
      finding.package version finding.matchIds rule := by
  unfold ExceptionRule.covers
  constructor
  · intro h
    split at h
    · cases h
    rename_i hactive
    split at h
    · cases h
    rename_i hecosystem
    split at h
    · cases h
    rename_i hscope
    split at h
    · cases h
    rename_i hpackage
    split at h
    · cases h
    split at h
    · cases h
    · rename_i version hversion
      rw [Bool.and_eq_true, decide_eq_true_eq, List.any_eq_true] at h
      obtain ⟨hmem, id, hid, hrule⟩ := h
      exact ⟨version, hversion, (not_not.mp hecosystem).symm, (not_not.mp hscope).symm,
        not_not.mp hpackage, hmem, ⟨id, hid, by simpa using hrule⟩,
        by simpa [ExceptionRule.isActive] using hactive⟩
  · rintro ⟨version, hversion, hecosystem, hscope, hpackage, hmem, ⟨id, hid, hrule⟩, hdeadline⟩
    have hany : finding.matchIds.any (· ∈ rule.matchIds) = true :=
      List.any_eq_true.mpr ⟨id, hid, by simpa using hrule⟩
    rw [if_neg (by simpa [ExceptionRule.isActive] using hdeadline),
      if_neg (not_not.mpr hecosystem.symm), if_neg (not_not.mpr hscope.symm),
      if_neg (not_not.mpr hpackage), if_neg (List.ne_nil_of_mem hmem), hversion]
    simp [hmem, hany]

/-! ## Reading the rules -/

/-- `x in {..}` for a set of strings: lists and objects are not hashable. -/
def memberOf (names : List Str) : Option Json → Except Failure Str
  | some (.arr _) | some (.obj _) => .error .raised
  | some (.str value) => do
    require (value ∈ names) (.code .exceptionsMalformed)
    .ok value
  | _ => .error (.code .exceptionsMalformed)

/-- A string that is not blank, stripped. -/
def stripped : Option Json → Except Failure Str
  | some (.str value) => do
    require (strip value ≠ []) (.code .exceptionsMalformed)
    .ok (strip value)
  | _ => .error (.code .exceptionsMalformed)

def wildcards : List Char := ['*', '<', '>', '!']

/-- An exact version, stripped. -/
def exactVersion (item : Json) : Except Failure Str :=
  match item with
  | .str value => do
    require (strip value ≠ []) (.code .exceptionsMalformed)
    require (value.all (· ∉ wildcards)) (.code .exceptionsMalformed)
    require ((strip value).map Char.toLower ≠ "any".toList) (.code .exceptionsMalformed)
    require (',' ∉ value ∧ ' ' ∉ strip value) (.code .exceptionsMalformed)
    .ok (strip value)
  | _ => .error (.code .exceptionsMalformed)

def jsonOr (code : ErrorCode) : Option α → Except Failure α
  | some value => .ok value
  | none => .error (.code code)

theorem jsonOr_eq_ok {code : ErrorCode} {value : Option α} {a : α} :
    jsonOr code value = .ok a ↔ value = some a := by
  cases value <;> simp [jsonOr]

def parseRule (lib : Library) (item : Json) : Except Failure ExceptionRule := do
  let fields ← jsonOr .exceptionsMalformed (Json.asObj (some item))
  let ecosystem ← memberOf ["npm".toList, "pypi".toList] (Json.get fields "ecosystem")
  let scope ← memberOf ["npm".toList, "python-runtime".toList, "python-dev".toList]
    (Json.get fields "scope")
  let advisory ← stripped (Json.get fields "advisory")
  let package ← stripped (Json.get fields "package")
  let reason ← stripped (Json.get fields "reason")
  let owner ← stripped (Json.get fields "owner")
  let deadlineRaw ← jsonOr .exceptionsMalformed (Json.asStr (Json.get fields "review_deadline"))
  let reviewDeadline ← jsonOr .exceptionsMalformed (lib.fromIsoFormat deadlineRaw)
  let versionsRaw ← jsonOr .exceptionsMalformed (Json.asArr (Json.get fields "versions"))
  require (versionsRaw ≠ []) (.code .exceptionsMalformed)
  let versions ← versionsRaw.mapM exactVersion
  let aliasesRaw ← jsonOr .exceptionsMalformed (Json.asArrOrNull (Json.get fields "aliases"))
  let aliases ← aliasesRaw.mapM fun item => stripped (some item)
  require (¬ (scope = "npm".toList ∧ ecosystem ≠ "npm".toList)) (.code .exceptionsMalformed)
  require (¬ (startsWith "python-" scope ∧ ecosystem ≠ "pypi".toList)) (.code .exceptionsMalformed)
  .ok { ecosystem := if ecosystem = "npm".toList then .npm else .pypi, scope, advisory, package,
        versions, reason, owner, reviewDeadline, aliases }

/-- The file of exceptions, decoded if it is there and can be. -/
inductive ExceptionsFile where
  | missing
  | undecodable
  | decoded (value : Json)

def loadExceptions (lib : Library) : ExceptionsFile → Except Failure (List ExceptionRule)
  | .missing | .undecodable => .error (.code .exceptionsMalformed)
  | .decoded value => do
    let fields ← jsonOr .exceptionsMalformed (Json.asObj (some value))
    let items ← jsonOr .exceptionsMalformed (Json.asArr (Json.get fields "exceptions"))
    items.mapM (parseRule lib)

/-! ## Applying the rules -/

def applyExceptions (lib : Library) (findings : List Finding) (rules : List ExceptionRule)
    (today : Int) : List Finding × List (Finding × ExceptionRule) :=
  match findings with
  | [] => ([], [])
  | finding :: findings =>
    let (remaining, accepted) := applyExceptions lib findings rules today
    match rules.find? (·.covers lib finding today) with
    | none => (finding :: remaining, accepted)
    | some rule => (remaining, (finding, rule) :: accepted)

/-- If nothing remains, every finding is covered. -/
theorem applyExceptions_nil (h : (applyExceptions lib findings rules today).1 = []) :
    ∀ finding ∈ findings, ∃ rule ∈ rules, rule.covers lib finding today = true := by
  induction findings with
  | nil => exact fun _ h => absurd h List.not_mem_nil
  | cons finding findings ih =>
    simp only [applyExceptions] at h
    split at h
    · cases h
    · rename_i rule hfind
      have hcovers : rule.covers lib finding today = true := by
        simpa using List.find?_some hfind
      intro other hother
      rcases List.mem_cons.mp hother with rfl | hother
      · exact ⟨rule, List.mem_of_find?_eq_some hfind, hcovers⟩
      · exact ih h other hother

end FetchNow.Audit
