import FetchNow.Text.Unicode
import FetchNow.Theory.Reachability
import FetchNow.Theory.Transactions
import Mathlib.Data.Finset.Sort
import Mathlib.Data.List.AList
import Mathlib.Data.List.Sort
import Mathlib.Data.String.Basic

/-!
# Alembic revision graphs

The metadata a migration assigns, the graph that is built from all of them, and two operations on
accepted graphs: merging them and comparing two sets of heads.
-/
namespace FetchNow.PgBackup

open Transactions

/-! ## Metadata of one migration -/

/-- What is assigned: `None`, a string, a tuple or list, or anything else. -/
inductive Literal
  | none
  | text (value : String)
  | sequence (elts : List Literal)
  | other

/-- What the graph functions raise. -/
inductive GraphError
  | invalidRevision (field revision : String)
  | emptyString (field : String)
  | notString (field : String)
  | duplicateParent (field parent : String)
  | emptySequence (field : String)
  | notParents (field : String)
  | syntaxError (file : String)
  | missingRevision (file : String)
  | missingDownRevision (file : String)
  | duplicateRevision (revision : String)
  | selfReference (revision : String)
  | missingParent (revision source parent : String)
  | cycle (revision : String)
  | noHeads
  | mergeConflict (revision : String)
  | mergedNoHeads
  | unknownRevisions (revisions : List String)
  /-- `RuntimeError` of an empty directory. -/
  | noRevisions
  | fileNotFound
  | keyError (revision : String)
  | recursionError
  deriving DecidableEq

/-- `None`, or parents. -/
abbrev Parents := Option (List String)

def strip (s : String) : String :=
  let blank c := Text.isSpace (codePoint c)
  String.ofList ((s.toList.dropWhile blank).reverse.dropWhile blank).reverse

def isRevisionId (revision : String) : Bool :=
  !revision.toList.isEmpty && revision.toList.all fun c => c.isAlphanum || c == '_'

def validateRevisionId (field revision : String) : Except GraphError String :=
  if isRevisionId revision then .ok revision else .error (.invalidRevision field revision)

def literalString (field : String) : Literal → Except GraphError String
  | .text value => do
    let value := strip value
    require (value ≠ "") (.emptyString field)
    validateRevisionId field value
  | _ => .error (.notString field)

def literalParents (field : String) : List Literal → List String →
    Except GraphError (List String)
  | [], parents => .ok parents
  | elt :: elts, parents => do
    let parent ← literalString (field ++ " member") elt
    require (parent ∉ parents) (.duplicateParent field parent)
    literalParents field elts (parents ++ [parent])

def literalNoneOrParents (field : String) : Literal → Except GraphError Parents
  | .none => .ok none
  | .sequence elts => do
    let parents ← literalParents field elts []
    require (parents ≠ []) (.emptySequence field)
    return some (parents.insertionSort (· ≤ ·))
  | .text value => do
    let parent ← literalString field (.text value)
    return some [parent]
  | .other => .error (.notParents field)

/-- A file of the versions directory; the source has no assignments when it does not parse. -/
structure MigrationFile where
  name : String
  assignments : Option (List (String × Literal))

structure Metadata where
  revision : Option String := none
  downRevision : Option Parents := none
  hasDependsOn : Bool := false

def Metadata.assign (metadata : Metadata) (item : String × Literal) : Except GraphError Metadata :=
  if item.1 = "revision" then do
    let revision ← literalString "revision" item.2
    return { metadata with revision := some revision }
  else if item.1 = "down_revision" then do
    let parents ← literalNoneOrParents "down_revision" item.2
    return { metadata with downRevision := some parents }
  else if item.1 = "depends_on" then do
    let _ ← literalNoneOrParents "depends_on" item.2
    return { metadata with hasDependsOn := true }
  else .ok metadata

structure Migration where
  revision : String
  parents : Parents
  source : String

def parseMigrationMetadata (file : MigrationFile) : Except GraphError Migration :=
  match file.assignments with
  | none => .error (.syntaxError file.name)
  | some items => do
    let metadata ← items.foldlM Metadata.assign {}
    match metadata.revision, metadata.downRevision with
    | none, _ => .error (.missingRevision file.name)
    | some _, none => .error (.missingDownRevision file.name)
    | some revision, some parents => .ok ⟨revision, parents, file.name⟩

def looksLikeMigration (file : MigrationFile) : Bool :=
  match file.assignments with
  | none => true
  | some items => items.any fun item => ["revision", "down_revision", "depends_on"].contains item.1

/-! ## Graphs -/

/-- A `dict` of parents; a new key is put in front. -/
abbrev Revisions := AList fun _ : String => Parents

namespace Revisions

variable (revisions : Revisions)

/-- The items in the order of their insertion. -/
def items : List (String × Parents) := revisions.entries.reverse.map fun item => (item.1, item.2)

def keySet : Finset String := revisions.keys.toFinset

def parentsOf (revision : String) : List String := ((revisions.lookup revision).join).getD []

def pointed : List String := revisions.items.flatMap fun item => item.2.getD []

def heads : List String :=
  (revisions.keys.reverse.filter fun revision => !revisions.pointed.contains revision).insertionSort
    (· ≤ ·)

end Revisions

structure AlembicGraph where
  revisions : Revisions
  heads : List String

/-! ## Building -/

def collect : List MigrationFile → List Migration → Except GraphError (List Migration)
  | [], migrations => .ok migrations
  | file :: files, migrations =>
    if "__".toList.isPrefixOf file.name.toList then collect files migrations
    else match parseMigrationMetadata file with
      | .error e => if looksLikeMigration file then .error e else collect files migrations
      | .ok migration => do
        require (migration.revision ∉ migrations.map (·.revision))
          (.duplicateRevision migration.revision)
        collect files (migrations ++ [migration])

def revisionsOf (migrations : List Migration) : Revisions :=
  migrations.foldl (fun revisions m => revisions.insert m.revision m.parents) ∅

def checkParents (revisions : Revisions) (m : Migration) : List String → Except GraphError Unit
  | [] => .ok ()
  | parent :: parents => do
    require (parent ≠ m.revision) (.selfReference m.revision)
    require (parent ∈ revisions) (.missingParent m.revision m.source parent)
    checkParents revisions m parents

def checkAllParents (revisions : Revisions) : List Migration → Except GraphError Unit
  | [] => .ok ()
  | m :: migrations => do
    checkParents revisions m (m.parents.getD [])
    checkAllParents revisions migrations

structure Visits where
  visiting : List String := []
  visited : List String := []

/-- The depth is what the interpreter's recursion limit leaves. -/
def visit (revisions : Revisions) : ℕ → Visits → String → Except GraphError Visits
  | 0, _, _ => .error .recursionError
  | depth + 1, visits, revision => do
    require (revision ∉ visits.visiting) (.cycle revision)
    if revision ∈ visits.visited then return visits
    let visits ← (revisions.parentsOf revision).foldlM (visit revisions depth)
      { visits with visiting := revision :: visits.visiting }
    return ⟨visits.visiting.erase revision, revision :: visits.visited⟩

/-- The graph of a versions directory; its files are sorted by path. -/
def buildAlembicGraph (depth : ℕ) (dir : Option (List MigrationFile)) :
    Except GraphError AlembicGraph :=
  match dir with
  | none => .error .fileNotFound
  | some files => do
    let migrations ← collect files []
    let revisions := revisionsOf migrations
    require (revisions.keys ≠ []) .noRevisions
    checkAllParents revisions migrations
    let _ ← (migrations.map (·.revision)).foldlM (visit revisions depth) {}
    require (revisions.heads ≠ []) .noHeads
    return ⟨revisions, revisions.heads⟩

/-! ## Merging -/

def mergeRevision (revisions : Revisions) (item : String × Parents) :
    Except GraphError Revisions := do
  let existing := (revisions.lookup item.1).join
  require (¬ (existing ≠ none ∧ existing ≠ item.2)) (.mergeConflict item.1)
  return revisions.insert item.1 item.2

def mergeAlembicGraphs (graphs : List AlembicGraph) : Except GraphError AlembicGraph := do
  let revisions ← (graphs.flatMap (·.revisions.items)).foldlM mergeRevision ∅
  require (revisions.heads ≠ []) .mergedNoHeads
  return ⟨revisions, revisions.heads⟩

/-! ## Ancestors and transitions -/

theorem card_sdiff_insert_lt {keys result : Finset String} {revision : String}
    (hkey : revision ∈ keys) (hnew : revision ∉ result) :
    (keys \ insert revision result).card < (keys \ result).card := by
  apply Finset.card_lt_card
  apply Finset.ssubset_iff_subset_ne.mpr
  constructor
  · exact Finset.sdiff_subset_sdiff subset_rfl (Finset.subset_insert _ _)
  · intro heq
    have hmem : revision ∈ keys \ insert revision result := by
      rw [heq]
      exact Finset.mem_sdiff.mpr ⟨hkey, hnew⟩
    exact (Finset.mem_sdiff.mp hmem).2 (Finset.mem_insert_self _ _)

@[simp] theorem Revisions.mem_keySet {revisions : Revisions} {revision : String} :
    revision ∈ revisions.keySet ↔ revision ∈ revisions := by
  rw [keySet, List.mem_toFinset, ← AList.mem_keys]

namespace AlembicGraph

variable (graph : AlembicGraph)

/-- The loop of `ancestors`; the end of the stack is its first element. -/
def popAncestors (result : Finset String) (stack : List String) :
    Except GraphError (Finset String) :=
  match stack with
  | [] => .ok result
  | revision :: stack =>
    if revision ∈ result then popAncestors result stack
    else if revision ∈ graph.revisions then
      popAncestors (insert revision result) ((graph.revisions.parentsOf revision).reverse ++ stack)
    else .error (.keyError revision)
termination_by ((graph.revisions.keySet \ result).card, stack.length)
decreasing_by
  · exact Prod.Lex.right _ (Nat.lt_succ_self _)
  · exact Prod.Lex.left _ _ (card_sdiff_insert_lt (Revisions.mem_keySet.mpr ‹_›) ‹_›)

def ancestors (revisionIds : Finset String) : Except GraphError (Finset String) :=
  let unknown := revisionIds \ graph.revisions.keySet
  do
    require (unknown = ∅) (.unknownRevisions (unknown.sort (· ≤ ·)))
    graph.popAncestors ∅ (revisionIds.sort (· ≤ ·))

/-- Revisions applied on a valid forward upgrade path. -/
def includedRevisions (currentHeads targetHeads : Finset String) :
    Except GraphError (Finset String) :=
  if currentHeads = targetHeads then .ok ∅
  else do
    let currentAncestors ← graph.ancestors currentHeads
    let targetAncestors ← graph.ancestors targetHeads
    return (targetAncestors \ currentAncestors) \ currentHeads

end AlembicGraph

inductive Transition
  | equal
  | forward
  | downgrade
  | divergent
  deriving DecidableEq

def AlembicGraph.classifyTransition (graph : AlembicGraph)
    (currentHeads targetHeads : Finset String) : Except GraphError Transition :=
  if currentHeads = targetHeads then .ok .equal
  else do
    let currentAncestors ← graph.ancestors currentHeads
    let targetAncestors ← graph.ancestors targetHeads
    if targetAncestors ⊆ currentAncestors then return .downgrade
    if ¬ currentHeads ⊆ targetAncestors then return .divergent
    return .forward

end FetchNow.PgBackup
