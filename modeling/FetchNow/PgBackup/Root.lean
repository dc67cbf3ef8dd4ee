import FetchNow.Theory.Transactions
import Mathlib.Data.List.Sort
import Mathlib.Data.List.Nodup
import Mathlib.Data.String.Basic

/-!
# The backup root

Backups, their attestations and the retention holds, as the tools find them on disk. What a
document contains is modelled after parsing, together with the ways in which reading it can fail.
-/
namespace FetchNow.PgBackup

open Transactions

/-- Why a file cannot be read as text. -/
inductive ReadError where
  | osError
  | unicodeDecodeError
  deriving DecidableEq, Repr

/-- Exceptions of the backup tools. -/
inductive BackupError where
  | valueError (message : String)
  | pathSafetyError
  | readError (e : ReadError)
  | manifestError
  | retentionHoldError
  | attributeError
  | runtimeError
  deriving DecidableEq, Repr

/-- A JSON document of a known schema: absent, not readable as text, rejected, or parsed. -/
inductive Document (α : Type) where
  | missing
  | unreadable (e : ReadError)
  | malformed
  | parsed (value : α)
  deriving DecidableEq, Repr

/-- `ManifestV1`, as far as listing and pruning read it. -/
structure ManifestV1 where
  backupId : String
  sha256 : String
  deriving DecidableEq, Repr

/-- What a `verify_*.json` file contains. -/
inductive AttestationFile where
  | unreadable (e : ReadError)
  | invalidJson
  | object (result : Option String)
  /- `null`, `[]`, `0`, ... are taken for an absent attestation -/
  | falsy
  | other
  deriving DecidableEq, Repr

structure RetentionHoldAcquired where
  holdId : String
  backupId : String
  migrationId : String
  expectedAlembicHeads : List String
  migrationsGraphSha256 : String
  deriving DecidableEq, Repr

/-- A child of `holds/`. -/
inductive HoldEntry where
  | other
  | directory (acquired : Document RetentionHoldAcquired) (released : Bool)
  deriving DecidableEq, Repr

structure BackupDirectory where
  manifest : Document ManifestV1
  verifications : List (String × AttestationFile)
  holds : List (String × HoldEntry)
  deriving DecidableEq, Repr

/-- A child of the backup root; a symbolic link with the directory it leads to, if any. -/
inductive RootEntry where
  | file
  | symlink (target : Option BackupDirectory)
  | directory (content : BackupDirectory)
  deriving DecidableEq, Repr

structure RootChild where
  name : String
  entry : RootEntry
  deriving DecidableEq, Repr

/-! ## Paths -/

/-- `os.path.abspath` on the components of an absolute path. -/
def abspath (parts : List (List Char)) : List (List Char) :=
  parts.foldl (fun path part =>
    if part = [] ∨ part = ['.'] then path
    else if part = ['.', '.'] then path.dropLast
    else path ++ [part]) []

/-- Names that a directory can contain. -/
def IsEntryName (name : String) : Prop :=
  '/' ∉ name.toList ∧ name.toList ≠ [] ∧ name.toList ≠ ['.'] ∧ name.toList ≠ ['.', '.']

instance (name : String) : Decidable (IsEntryName name) := inferInstanceAs (Decidable (_ ∧ _))

structure BackupRoot where
  path : List (List Char)
  children : List RootChild
  resolved : abspath path = path
  names : (children.map (·.name)).Nodup
  entryNames : ∀ child ∈ children, IsEntryName child.name

namespace BackupRoot

variable (root : BackupRoot)

def child? (name : String) : Option RootEntry :=
  (root.children.find? (·.name = name)).map (·.entry)

/-- The components of `root / id`. -/
def joined (id : String) : List (List Char) :=
  let parts := id.toList.splitOn '/'
  if id.toList.head? = some '/' then abspath parts else abspath (root.path ++ parts)

/-- `assert_direct_child(root / id, root)`: the name of the child. -/
def assertDirectChild (id : String) : Except BackupError String :=
  match (root.joined id).getLast? with
  | none => .error .pathSafetyError
  | some name => do
    require ((root.joined id).dropLast = root.path) .pathSafetyError
    match root.child? (String.ofList name) with
    | some (.symlink _) => .error .pathSafetyError
    | _ => .ok (String.ofList name)

end BackupRoot

theorem abspath_append (path parts : List (List Char)) :
    abspath (path ++ parts) = parts.foldl (fun path part =>
      if part = [] ∨ part = ['.'] then path
      else if part = ['.', '.'] then path.dropLast
      else path ++ [part]) (abspath path) := by
  rw [abspath, List.foldl_append]
  rfl

namespace BackupRoot

variable {root : BackupRoot} {name : String} {entry : RootEntry}

theorem child?_eq_some :
    root.child? name = some entry ↔ ⟨name, entry⟩ ∈ root.children := by
  rw [child?, Option.map_eq_some_iff]
  constructor
  · rintro ⟨child, hfind, rfl⟩
    have hname := List.find?_some hfind
    obtain rfl : child.name = name := of_decide_eq_true hname
    exact List.mem_of_find?_eq_some hfind
  · intro hmem
    cases hfind : root.children.find? (·.name = name) with
    | none => simpa using List.find?_eq_none.mp hfind _ hmem
    | some child =>
      have hname := List.find?_some hfind
      have hsame := List.inj_on_of_nodup_map root.names (List.mem_of_find?_eq_some hfind) hmem
        (of_decide_eq_true hname)
      exact ⟨child, rfl, congrArg RootChild.entry hsame⟩

/-- The name of a child leads to this child. -/
theorem joined_name (h : IsEntryName name) : root.joined name = root.path ++ [name.toList] := by
  have hsplit : name.toList.splitOn '/' = [name.toList] :=
    List.splitOnP_eq_singleton fun c hc => by
      simpa using fun heq : c = '/' => h.1 (heq ▸ hc)
  have hhead : name.toList.head? ≠ some '/' := fun heq => h.1 (List.mem_of_mem_head? heq)
  simp only [joined]
  rw [if_neg hhead, hsplit, abspath_append, root.resolved]
  simp [h.2.1, h.2.2.1, h.2.2.2]

theorem assertDirectChild_name {content : BackupDirectory}
    (h : root.child? name = some (.directory content)) :
    root.assertDirectChild name = .ok name := by
  have hname := root.entryNames _ (child?_eq_some.mp h)
  simp [assertDirectChild, joined_name hname, h, require]

end BackupRoot

/-! ## Changes -/

namespace BackupRoot

variable (root : BackupRoot) (name : String) (entry : RootEntry)

def erase : BackupRoot where
  path := root.path
  children := root.children.filter (·.name ≠ name)
  resolved := root.resolved
  names := root.names.sublist (List.filter_sublist.map _)
  entryNames child hchild := root.entryNames child (List.mem_of_mem_filter hchild)

/-- Replace the child of a name, if there is one. -/
def set : BackupRoot where
  path := root.path
  children := root.children.map fun child => if child.name = name then ⟨name, entry⟩ else child
  resolved := root.resolved
  names := by
    have hnames : ((fun child : RootChild => child.name) ∘ fun child =>
        if child.name = name then ⟨name, entry⟩ else child) = RootChild.name := by
      funext child
      by_cases hname : child.name = name <;> simp [hname]
    rw [List.map_map, hnames]
    exact root.names
  entryNames := by
    intro child hchild
    obtain ⟨old, hold, rfl⟩ := List.mem_map.mp hchild
    by_cases hname : old.name = name
    · rw [if_pos hname, ← hname]
      exact root.entryNames old hold
    · rw [if_neg hname]
      exact root.entryNames old hold

variable {root name entry} {other : String}

@[simp] theorem child?_erase : (root.erase name).child? name = none := by
  refine Option.eq_none_iff_forall_ne_some.mpr fun entry h => ?_
  simpa [erase] using child?_eq_some.mp h

@[simp] theorem child?_erase_ne (h : other ≠ name) :
    (root.erase name).child? other = root.child? other := by
  ext entry
  rw [child?_eq_some, child?_eq_some]
  simp [erase, h]

@[simp] theorem child?_set (h : (root.child? name).isSome) :
    (root.set name entry).child? name = some entry := by
  obtain ⟨old, hold⟩ := Option.isSome_iff_exists.mp h
  refine child?_eq_some.mpr (List.mem_map.mpr ⟨_, child?_eq_some.mp hold, ?_⟩)
  rw [if_pos rfl]

@[simp] theorem child?_set_ne (h : other ≠ name) :
    (root.set name entry).child? other = root.child? other := by
  ext e
  rw [child?_eq_some, child?_eq_some]
  simp only [set, List.mem_map]
  constructor
  · rintro ⟨old, hold, heq⟩
    by_cases hname : old.name = name
    · rw [if_pos hname] at heq
      exact absurd (congrArg RootChild.name heq).symm h
    · rw [if_neg hname] at heq
      exact heq ▸ hold
  · exact fun hmem => ⟨_, hmem, if_neg h⟩

end BackupRoot

/-! ## Listing -/

inductive BackupStatus where
  | valid
  | invalid
  | incomplete
  | unknown
  deriving DecidableEq, Repr

structure BackupListItem where
  backupId : String
  name : String
  verifyResult : Option String
  status : BackupStatus
  deriving DecidableEq, Repr

/-- `latest_attestation`: the last file by name. -/
def BackupDirectory.latestAttestation (content : BackupDirectory) :
    Except BackupError (Option AttestationFile) :=
  match (content.verifications.insertionSort fun a b => a.1 ≤ b.1).getLast? with
  | none => .ok none
  | some (_, .unreadable e) => .error (.readError e)
  | some (_, file) => .ok (some file)

/-- `(att or {}).get("result")`. -/
def verifyResult : Option AttestationFile → Except BackupError (Option String)
  | some .invalidJson => .ok (some "invalid")
  | some (.object result) => .ok result
  | some .other => .error .attributeError
  | some .falsy | some (.unreadable _) | none => .ok none

def incompletePrefix : String := ".incomplete-"

/-- The item for one child of the root, if it is listed. -/
def listItem (child : RootChild) : Except BackupError (Option BackupListItem) :=
  if child.name ∈ [".", "..", ".lock"] then .ok none
  else
    match child.entry with
    | .symlink _ => .ok (some ⟨child.name, child.name, none, .unknown⟩)
    | entry =>
      if incompletePrefix.toList.isPrefixOf child.name.toList then
        .ok (some ⟨child.name, child.name, none, .incomplete⟩)
      else
        match entry with
        | .directory content =>
          match content.manifest with
          | .missing | .malformed => .ok (some ⟨child.name, child.name, none, .invalid⟩)
          | .unreadable e => .error (.readError e)
          | .parsed manifest => do
            let attestation ← content.latestAttestation
            let result ← verifyResult attestation
            .ok (some ⟨manifest.backupId, child.name, result, .valid⟩)
        | _ => .ok (some ⟨child.name, child.name, none, .unknown⟩)

def listBackups (root : BackupRoot) : Except BackupError (List BackupListItem) := do
  let items ← (root.children.insertionSort fun a b => a.name ≤ b.name).mapM listItem
  .ok (items.filterMap id)

/-! ## Retention holds -/

def isLowerHex (c : Char) : Bool := c.isDigit || ('a' ≤ c && c ≤ 'f')

/-- `_HOLD_ID_RE`. -/
def isHoldId (name : String) : Bool :=
  let groups := name.toList.splitOn '-'
  groups.map List.length = [8, 4, 4, 4, 12] && groups.all (·.all isLowerHex)

/-- The children of `holds/`. -/
def BackupRoot.holds (root : BackupRoot) : List (String × HoldEntry) :=
  match root.child? "holds" with
  | some (.directory content) | some (.symlink (some content)) => content.holds
  | _ => []

/-- The `acquired.json` of a hold directory that is not released. -/
def activeHold? : String × HoldEntry → Option (Document RetentionHoldAcquired)
  | (name, .directory acquired false) => if isHoldId name then some acquired else none
  | _ => none

def BackupRoot.activeHolds (root : BackupRoot) : List (Document RetentionHoldAcquired) :=
  (root.holds.insertionSort fun a b => a.1 ≤ b.1).filterMap activeHold?

/-- The first active hold that meets a condition. -/
def firstHold (p : RetentionHoldAcquired → Bool) :
    List (Document RetentionHoldAcquired) → Except BackupError (Option RetentionHoldAcquired)
  | [] => .ok none
  | .missing :: holds => firstHold p holds
  | .unreadable e :: _ => .error (.readError e)
  | .malformed :: _ => .error .retentionHoldError
  | .parsed hold :: holds => if p hold then .ok (some hold) else firstHold p holds

def activeHoldForBackup (root : BackupRoot) (backupId : String) :
    Except BackupError (Option RetentionHoldAcquired) :=
  firstHold (·.backupId = backupId) root.activeHolds

def activeHoldForMigration (root : BackupRoot) (migrationId : String) :
    Except BackupError (Option RetentionHoldAcquired) :=
  firstHold (·.migrationId = migrationId) root.activeHolds

section Holds

variable {p : RetentionHoldAcquired → Bool} {holds : List (Document RetentionHoldAcquired)}

/-- Looking for a hold finds none only if every active hold has been read. -/
theorem firstHold_eq_none :
    firstHold p holds = .ok none ↔ ∀ acquired ∈ holds,
      acquired = .missing ∨ ∃ hold, acquired = .parsed hold ∧ p hold = false := by
  induction holds with
  | nil => simp [firstHold]
  | cons acquired holds ih =>
    rw [List.forall_mem_cons, ← ih]
    cases acquired with
    | missing => simp [firstHold]
    | unreadable | malformed => simp [firstHold]
    | parsed hold => cases hp : p hold <;> simp [firstHold, hp]

/-- Looking for a hold does not raise if every active hold can be read. -/
theorem exists_firstHold (h : ∀ acquired ∈ holds,
    acquired ≠ .malformed ∧ ∀ e, acquired ≠ .unreadable e) :
    ∃ hold, firstHold p holds = .ok hold := by
  induction holds with
  | nil => exact ⟨none, rfl⟩
  | cons acquired holds ih =>
    obtain ⟨hhead, htail⟩ := List.forall_mem_cons.mp h
    cases acquired with
    | missing => exact ih htail
    | unreadable e => exact absurd rfl (hhead.2 e)
    | malformed => exact absurd rfl hhead.1
    | parsed hold =>
      cases hp : p hold with
      | true => exact ⟨some hold, if_pos hp⟩
      | false =>
        obtain ⟨found, hfound⟩ := ih htail
        exact ⟨found, by simp [firstHold, hp, hfound]⟩

theorem firstHold_eq_some {hold : RetentionHoldAcquired} (h : firstHold p holds = .ok (some hold)) :
    .parsed hold ∈ holds ∧ p hold = true := by
  induction holds with
  | nil => cases h
  | cons acquired holds ih =>
    cases acquired with
    | missing => exact (ih h).imp_left (List.mem_cons_of_mem _)
    | unreadable | malformed => cases h
    | parsed found =>
      rw [firstHold] at h
      split at h
      · rename_i hp
        cases h
        exact ⟨List.mem_cons_self, hp⟩
      · exact (ih h).imp_left (List.mem_cons_of_mem _)

/-- If every active hold can be read, only a malformed one makes the look raise. -/
theorem firstHold_eq_error {e : BackupError} (h : ∀ e, .unreadable e ∉ holds)
    (herror : firstHold p holds = .error e) : e = .retentionHoldError := by
  induction holds with
  | nil => cases herror
  | cons acquired holds ih =>
    have htail : ∀ e, .unreadable e ∉ holds := fun e hmem => h e (List.mem_cons_of_mem _ hmem)
    cases acquired with
    | missing => exact ih htail herror
    | unreadable e => exact absurd List.mem_cons_self (h e)
    | malformed =>
      cases herror
      rfl
    | parsed hold =>
      rw [firstHold] at herror
      split at herror
      · cases herror
      · exact ih htail herror

end Holds

end FetchNow.PgBackup
