import FetchNow.Audit.Json
import Mathlib.Data.List.DropRight

/-!
# Exported requirements

The export of `uv`, read in blocks and filtered for a target.
-/
namespace FetchNow.Audit

open Transactions

/-! ## Lines -/

def isLineBreak (c : Char) : Bool :=
  let n := c.toNat
  (10 ≤ n && n ≤ 13) || (28 ≤ n && n ≤ 30) || n = 0x85 || n = 0x2028 || n = 0x2029

/-- `str.splitlines`. The line read so far is reversed. -/
def splitlinesFrom (line : Str) : Str → List Str
  | [] => if line = [] then [] else [line.reverse]
  | '\r' :: '\n' :: rest => line.reverse :: splitlinesFrom [] rest
  | c :: rest =>
    if isLineBreak c then line.reverse :: splitlinesFrom [] rest
    else splitlinesFrom (c :: line) rest

def splitlines (text : Str) : List Str := splitlinesFrom [] text

def startsWithSpace (line : Str) : Bool := line.head?.any isSpace

def startsWith (start : String) (line : Str) : Bool := start.toList.isPrefixOf line

/-- Blank lines and comments. -/
def isIgnored (line : Str) : Bool := strip line = [] || startsWith "#" (line.dropWhile isSpace)

def rstripBackslashes (line : Str) : Str := line.rdropWhile (· = '\\')

/-! ## Blocks -/

/-- `(raw_line0, hash_lines, joined_req)`, with the parts that are to be joined. -/
structure Block where
  head : Str
  hashLines : List Str
  joinedParts : List Str
  deriving DecidableEq, Repr

/-- `" ".join(p for p in joined_parts if p)`. -/
def Block.joined (block : Block) : Str :=
  ((block.joinedParts.filter (· ≠ [])).intersperse [' ']).flatten

def openBlock (line : Str) : Block :=
  let stripped := strip line
  { head := line
    hashLines := []
    joinedParts := if startsWith "--hash" stripped || startsWith "#" stripped then []
      else [strip (rstripBackslashes stripped)] }

/-- A continuation line. -/
def Block.extend (block : Block) (line : Str) : Block :=
  let stripped := strip line
  if startsWith "--hash" stripped then
    { block with hashLines := block.hashLines ++ [rstrip line] }
  else if startsWith "#" stripped then block
  else { block with joinedParts := block.joinedParts ++ [strip (rstripBackslashes stripped)] }

/-- The blocks that are complete, the one that goes on and the number of orphans. -/
structure BlockState where
  blocks : List Block
  current : Option Block
  orphans : ℕ

def BlockState.all (s : BlockState) : List Block := s.blocks ++ s.current.toList

/-- One line of `_parse_requirement_blocks`. -/
def readLine (s : BlockState) (line : Str) : BlockState :=
  match s.current, startsWithSpace line with
  | some block, true => { s with current := some (block.extend line) }
  | _, spaced =>
    let s := { s with blocks := s.all, current := none }
    if isIgnored line then s
    else if spaced then { s with orphans := s.orphans + 1 }
    else { s with current := some (openBlock line) }

def parseRequirementBlocks (text : Str) : List Block × ℕ :=
  let s := (splitlines text).foldl readLine { blocks := [], current := none, orphans := 0 }
  (s.all, s.orphans)

/-- A line that starts a requirement. -/
def isHead (line : Str) : Bool := !isIgnored line && !startsWithSpace line

theorem readLine_heads (s : BlockState) (line : Str) :
    (readLine s line).all.map Block.head = s.all.map Block.head ++ [line].filter isHead := by
  unfold readLine
  split
  · rename_i block hcurrent hspace
    have hhead : (block.extend line).head = block.head := by
      unfold Block.extend
      dsimp only
      split
      · rfl
      · split <;> rfl
    simp [BlockState.all, hcurrent, hhead, isHead, hspace]
  · dsimp only
    split
    · rename_i hignored
      simp [BlockState.all, isHead, hignored]
    · split
      · rename_i hignored hspace
        simp [BlockState.all, isHead, hspace]
      · rename_i hignored hspace
        simp [BlockState.all, isHead, hignored, hspace, openBlock]

/-- No line that starts a requirement is lost. -/
theorem parseRequirementBlocks_heads (text : Str) :
    (parseRequirementBlocks text).1.map Block.head = (splitlines text).filter isHead := by
  have hfold : ∀ (lines : List Str) (s : BlockState),
      (lines.foldl readLine s).all.map Block.head = s.all.map Block.head ++ lines.filter isHead := by
    intro lines
    induction lines with
    | nil => simp
    | cons line lines ih =>
      intro s
      rw [List.foldl_cons, ih, readLine_heads, List.append_assoc, ← List.filter_append,
        List.singleton_append]
  exact hfold _ _

/-! ## Filtering -/

structure Requirement (Marker : Type) where
  name : Str
  specifier : List (Str × Str)
  marker : Option Marker

abbrev Environment := List (String × String)

/-- `packaging`, and `date.fromisoformat`. A date is the number of its day; evaluating a marker may
raise. -/
structure Library where
  Marker : Type
  canonicalizeName : Str → Str
  requirement : Str → Option (Requirement Marker)
  evaluate : Marker → Environment → Option Bool
  defaultEnvironment : Environment
  fromIsoFormat : Str → Option Int

structure Target where
  label : Str
  sysPlatform : String
  platformSystem : String
  platformMachine : String
  platformPythonImplementation : String
  pythonVersion : String
  pythonFullVersion : String
  implementationName : String
  implementationVersion : String

def runtimeTarget : Target where
  label := "python-runtime".toList
  sysPlatform := "linux"
  platformSystem := "Linux"
  platformMachine := "x86_64"
  platformPythonImplementation := "CPython"
  pythonVersion := "3.14"
  pythonFullVersion := "3.14.6"
  implementationName := "cpython"
  implementationVersion := "3.14.6"

def devTarget : Target where
  label := "python-dev".toList
  sysPlatform := "linux"
  platformSystem := "Linux"
  platformMachine := "x86_64"
  platformPythonImplementation := "CPython"
  pythonVersion := "3.12"
  pythonFullVersion := "3.12.0"
  implementationName := "cpython"
  implementationVersion := "3.12.0"

/-- `_marker_environment`. The entries of the target come first. -/
def markerEnvironment (lib : Library) (target : Target) : Environment :=
  [("os_name", "posix"), ("sys_platform", target.sysPlatform),
    ("platform_system", target.platformSystem), ("platform_machine", target.platformMachine),
    ("platform_python_implementation", target.platformPythonImplementation),
    ("python_version", target.pythonVersion), ("python_full_version", target.pythonFullVersion),
    ("implementation_name", target.implementationName),
    ("implementation_version", target.implementationVersion)] ++ lib.defaultEnvironment

def localProjectNames : List Str := ["fetchnow".toList]

variable {lib : Library}

def isLocalProject (lib : Library) (name : Str) : Bool :=
  lib.canonicalizeName name ∈ localProjectNames.map lib.canonicalizeName

/-- What one block contributes: nothing, or a canonical name with its version. -/
def pinOf (lib : Library) (target : Target) (block : Block) : Except Failure (Option (Str × Str)) := do
  require (block.joined ≠ []) (.code .exportParseError)
  match lib.requirement block.joined with
  | none => .error (.code .exportParseError)
  | some req =>
    if isLocalProject lib req.name then .ok none
    else
      let holds := match req.marker with
        | none => some true
        | some marker => lib.evaluate marker (markerEnvironment lib target)
      match holds with
      | none => .error .raised
      | some false => .ok none
      | some true =>
        match req.specifier with
        | [(operator, version)] => do
          require (operator = "==".toList) (.code .exportParseError)
          .ok (some (lib.canonicalizeName req.name, version))
        | _ => .error (.code .exportParseError)

/-- The loop of `filter_export_for_target`: the expected versions and what the blocks were. -/
def collectPins (lib : Library) (target : Target) :
    List Block → List (Str × Str) → Except Failure (List (Str × Str))
  | [], expected => .ok expected
  | block :: blocks, expected => do
    let pin ← pinOf lib target block
    match pin with
    | none => collectPins lib target blocks expected
    | some (name, version) => do
      require (name ∉ expected.map Prod.fst) (.code .exportParseError)
      collectPins lib target blocks (expected ++ [(name, version)])

/-- `filter_export_for_target`: the expected inventory. Its last two checks cannot fail. -/
def filterExportForTarget (lib : Library) (exportText : Str) (target : Target) :
    Except Failure (List (Str × Str)) := do
  require (strip exportText ≠ []) (.code .exportEmpty)
  let (blocks, orphans) := parseRequirementBlocks exportText
  require (orphans = 0) (.code .exportParseError)
  require (blocks ≠ []) (.code .exportSilentLoss)
  collectPins lib target blocks []

/-! ## What the inventory is -/

variable {target : Target} {block : Block} {blocks : List Block} {name version exportText : Str}
  {expected result : List (Str × Str)}

/-- The block pins a version of a package that is not the local project, and its marker holds. -/
def Pinned (lib : Library) (target : Target) (block : Block) (name version : Str) : Prop :=
  ∃ req, lib.requirement block.joined = some req ∧ isLocalProject lib req.name = false ∧
    (∀ marker ∈ req.marker, lib.evaluate marker (markerEnvironment lib target) = some true) ∧
    req.specifier = [("==".toList, version)] ∧ lib.canonicalizeName req.name = name

theorem pinOf_spec {pin : Option (Str × Str)} (h : pinOf lib target block = .ok pin) :
    pin = some (name, version) ↔ Pinned lib target block name version := by
  simp only [pinOf, bind_eq_ok, require_eq_ok] at h
  obtain ⟨_, _, h⟩ := h
  split at h
  · cases h
  rename_i req hreq
  have hpinned : Pinned lib target block name version ↔ isLocalProject lib req.name = false ∧
      (∀ marker ∈ req.marker, lib.evaluate marker (markerEnvironment lib target) = some true) ∧
      req.specifier = [("==".toList, version)] ∧ lib.canonicalizeName req.name = name := by
    simp [Pinned, hreq]
  rw [hpinned]
  split at h
  · rename_i hlocal
    cases h
    simp [hlocal]
  rename_i hlocal
  rw [Bool.not_eq_true] at hlocal
  split at h
  · cases h
  · rename_i hdropped
    cases h
    cases hmarker : req.marker <;> simp_all
  · rename_i hholds
    have hmarker : ∀ marker ∈ req.marker,
        lib.evaluate marker (markerEnvironment lib target) = some true := by
      intro marker hmem
      rw [Option.mem_def] at hmem
      rwa [hmem] at hholds
    split at h
    · rename_i operator found hspecifier
      simp only [bind_eq_ok, require_eq_ok] at h
      obtain ⟨_, hoperator, h⟩ := h
      cases h
      subst hoperator
      have hmarker' : ∀ marker, req.marker = some marker →
          lib.evaluate marker (markerEnvironment lib target) = some true := hmarker
      simp only [Option.some.injEq, Prod.mk.injEq, hlocal, hspecifier, List.cons.injEq, and_true,
        true_and, Option.mem_def]
      exact ⟨fun h => ⟨hmarker', h.2, h.1⟩, fun h => ⟨h.2.2, h.2.1⟩⟩
    · cases h

theorem collectPins_spec (h : collectPins lib target blocks expected = .ok result) :
    (name, version) ∈ result ↔
      (name, version) ∈ expected ∨ ∃ block ∈ blocks, Pinned lib target block name version := by
  induction blocks generalizing expected with
  | nil =>
    cases h
    simp
  | cons block blocks ih =>
    simp only [collectPins] at h
    obtain ⟨pin, hpin, h⟩ := bind_eq_ok.mp h
    have hspec : pin = some (name, version) ↔ Pinned lib target block name version :=
      pinOf_spec hpin
    split at h
    · rw [ih h, List.exists_mem_cons_iff, ← hspec]
      simp
    · rename_i foundName foundVersion
      obtain ⟨_, _, h⟩ := bind_eq_ok.mp h
      rw [ih h, List.mem_append, List.mem_singleton, List.exists_mem_cons_iff, ← hspec, or_assoc]
      simp [eq_comm]

/-- The expected inventory is what the export pins for the target. -/
theorem filterExportForTarget_spec (h : filterExportForTarget lib exportText target = .ok expected) :
    (name, version) ∈ expected ↔
      ∃ block ∈ (parseRequirementBlocks exportText).1, Pinned lib target block name version := by
  simp only [filterExportForTarget, bind_eq_ok] at h
  obtain ⟨_, _, _, _, _, _, h⟩ := h
  simp [collectPins_spec h]

end FetchNow.Audit
