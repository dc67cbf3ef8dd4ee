import FetchNow.Basic
import FetchNow.Text.Unicode
import FetchNow.Theory.Faults
import FetchNow.Theory.LinkedTrees
import Mathlib.Data.List.Infix

/-!
# Extraction of a source archive

`extract_archive`: a scan of all members before anything is written, and their extraction through
the same filter. A file system call may fail at any point, and the process may stop at any.
-/
namespace FetchNow.Archive

open Faults Faults.Prog LinkedTrees

/-! ## Paths -/

def slash : ℕ := codePoint '/'

def dot : ℕ := codePoint '.'

def backslash : ℕ := codePoint '\\'

/-- A component of a path that is neither empty nor a dot nor two. -/
abbrev Name := Str

abbrev FileSystem := LinkedTrees.Tree Name

/-- Where something stands, by the names on the way from the root; none of them is a link. -/
abbrev Location := List Name

/-- A path as the kernel walks it. -/
abbrev Walk := List (LinkedTrees.Step Name)

def stepOf (component : Name) : LinkedTrees.Step Name :=
  if component = [] ∨ component = [dot] then .stay
  else if component = [dot, dot] then .up
  else .down component

def steps (text : Str) : Walk := (text.splitOn slash).map stepOf

def Location.walk (location : Location) : Walk := location.map .down

/-- `Path(text)`; two components may stand in it. -/
structure PurePath where
  anchor : String
  parts : List Name
  deriving DecidableEq

def purePath (text : Str) : PurePath where
  anchor :=
    if [slash, slash].isPrefixOf text ∧ ¬[slash, slash, slash].isPrefixOf text then "//"
    else if [slash].isPrefixOf text then "/"
    else ""
  parts := (text.splitOn slash).filter fun part => part ≠ [] ∧ part ≠ [dot]

def PurePath.parent (path : PurePath) : PurePath := { path with parts := path.parts.dropLast }

/-! ## Members -/

/-- What the header of a member says; `type` is the byte of its type. What is not UTF-8 in a name is
read with surrogates. -/
structure TarInfo where
  name : Str
  type : Char
  linkname : Str
  mode : ℕ
  deriving DecidableEq

namespace TarInfo

variable (member : TarInfo)

def isreg : Bool := member.type ∈ ['0', '\x00', '7', 'S']

def isdir : Bool := member.type = '5'

def issym : Bool := member.type = '2'

def islnk : Bool := member.type = '1'

def isfifo : Bool := member.type = '6'

def isdev : Bool := member.type ∈ ['3', '4', '6']

end TarInfo

inductive ArchiveFailure where
  | archiveError (reason : String) (name : Str)
  | tarError
  | osError
  | extractError
  | keyError
  | runtimeError
  | attributeError
  | recursionError
  deriving DecidableEq

/-- Raise unless the condition holds. -/
def require (c : Prop) [Decidable c] (reason : String) (name : Str) :
    Except ArchiveFailure Unit :=
  if c then .ok () else .error (.archiveError reason name)

def startsWithDrive : Str → Bool
  | c :: next :: _ => next = codePoint ':' && (65 ≤ c && c ≤ 90 || 97 ≤ c && c ≤ 122)
  | _ => false

def isControl (c : ℕ) : Bool := c < 32 || c = 127

def rejectUnsafeName (kind : String) (name : Str) : Except ArchiveFailure Unit := do
  require (name ≠ [] ∧ name.getLast? ≠ some 0) s!"empty or NUL {kind} rejected" name
  require (name.all (!isControl ·)) s!"control characters in {kind} rejected" name
  require (name.head? ≠ some slash ∧ name.head? ≠ some backslash)
    "absolute archive path rejected" name
  require (¬startsWithDrive name ∧ ¬[slash, slash].isPrefixOf name ∧
    ¬[backslash, backslash].isPrefixOf name) "drive/UNC archive path rejected" name
  require ([dot, dot] ∉ (purePath name).parts) "path traversal rejected" name

/-- `tarfile` has no `SOCKTYPE`, and the type that is used instead is that of sparse files. -/
def isSpecialNode (member : TarInfo) : Bool := member.isdev || member.isfifo || member.type = 'S'

/-- The kind of a member, as it is kept for the collisions. -/
inductive MemberKind where
  | dir
  | symlink
  | hardlink
  | file
  | other
  deriving DecidableEq

def memberKind (member : TarInfo) : MemberKind :=
  if member.isdir then .dir
  else if member.issym then .symlink
  else if member.islnk then .hardlink
  else if member.isreg then .file
  else .other

/-! ## The filter -/

/-- How many links may be nested before they count as a loop, whether `os.link` follows a link, and
how deep calls may be nested. -/
structure Platform where
  maxLinks : ℕ
  linkFollowsSymlinks : Bool
  recursionLimit : ℕ

variable (p : Platform)

/-- `Path.resolve(strict=False)` -/
def pathResolve (fs : FileSystem) (path : Walk) : Except ArchiveFailure Location :=
  match fs.resolve p.maxLinks [] path with
  | some location => .ok location
  | none => .error .runtimeError

def safeExtractFilter (destination : Location) (fs : FileSystem) (member : TarInfo) :
    Except ArchiveFailure TarInfo := do
  rejectUnsafeName "member path" member.name
  require (¬isSpecialNode member) "device/FIFO/socket rejected" member.name
  require (member.mode &&& 0o170000 ≠ 0o160000) "gitlink/submodule mode rejected" member.name
  if member.issym ∨ member.islnk then
    rejectUnsafeName "link target" member.linkname
    require (member.linkname.head? ≠ some slash ∧ [dot, dot] ∉ (purePath member.linkname).parts)
      "unsafe link rejected" member.name
    let linkParent : Location := (destination ++ (purePath member.name).parts).dropLast
    let resolvedLink ← pathResolve p fs (linkParent.walk ++ steps member.linkname)
    let home ← pathResolve p fs destination.walk
    require (home.isPrefixOf resolvedLink) "link escape rejected" member.name
  return { member with mode := member.mode &&& 0o777 }

/-! ## The scan -/

/-- The paths of the members that were scanned, with their kinds. -/
abbrev Seen := List (PurePath × MemberKind)

def scanMember (destination : Location) (fs : FileSystem) (seen : Seen) (member : TarInfo) :
    Except ArchiveFailure (TarInfo × Seen) := do
  let norm := purePath member.name
  require (seen.lookup norm = none) "duplicate archive path" member.name
  require (norm.parent = ⟨"", []⟩ ∨ ∀ kind ∈ seen.lookup norm.parent, kind = .dir)
    "type collision" member.name
  let filtered ← safeExtractFilter p destination fs member
  let target ← pathResolve p fs (destination.walk ++ steps member.name)
  let home ← pathResolve p fs destination.walk
  require (home.isPrefixOf target) "extraction escape rejected" member.name
  return (filtered, (norm, memberKind member) :: seen)

/-- The members with the modes that the filter leaves them. -/
def scan (destination : Location) (fs : FileSystem) :
    Seen → List TarInfo → Except ArchiveFailure (List TarInfo)
  | _, [] => .ok []
  | seen, member :: members => do
    let (filtered, seen) ← scanMember p destination fs seen member
    let rest ← scan destination fs seen members
    return filtered :: rest

/-! ## File system calls -/

inductive Call where
  | stat
  | lstat
  | mkdir
  | open
  | unlink
  | symlink
  | link
  | filter
  deriving DecidableEq

abbrev ExtractM (α : Type) := Prog Call FileSystem ArchiveFailure α

def orOsError (result : Option FileSystem) : Except ArchiveFailure FileSystem :=
  match result with
  | some fs => .ok fs
  | none => .error .osError

/-- The directory that a path names an entry of, and the name; a path that ends in a dot names
none. -/
def locate (fs : FileSystem) (path : Walk) : Option (Location × Name) :=
  match path.getLast? with
  | some (.down name) => (fs.resolve p.maxLinks [] path.dropLast).map fun dir => (dir, name)
  | _ => none

def exists? (fs : FileSystem) (path : Walk) : Bool :=
  match fs.resolve p.maxLinks [] path with
  | some location => (fs.node location).isSome
  | none => false

def isdir (fs : FileSystem) (path : Walk) : Bool :=
  match fs.resolve p.maxLinks [] path with
  | some location => fs.node location = some .dir
  | none => false

def lexists (fs : FileSystem) (path : Walk) : Bool :=
  match locate p fs path with
  | some (dir, name) => (fs.node (dir ++ [name])).isSome
  | none => false

/-- A new entry where there is none. -/
def enter (path : Walk) (new : Node Name) (fs : FileSystem) : Option FileSystem := do
  let (dir, name) ← locate p fs path
  if fs.node (dir ++ [name]) = none then fs.put dir name (some new) else none

def mkdir (path : Walk) (fs : FileSystem) : Except ArchiveFailure FileSystem :=
  orOsError (enter p path .dir fs)

def symlink (target : Str) (path : Walk) (fs : FileSystem) :
    Except ArchiveFailure FileSystem :=
  orOsError (enter p path (.link ⟨target.head? = some slash, steps target⟩) fs)

def unlink (path : Walk) (fs : FileSystem) : Except ArchiveFailure FileSystem :=
  orOsError do
    let (dir, name) ← locate p fs path
    if (fs.node (dir ++ [name])).isSome then fs.put dir name none else none

/-- `open(path, "wb")`, which follows a link and leaves the entry of a file that exists as it is. -/
def openWrite (path : Walk) (fs : FileSystem) : Except ArchiveFailure FileSystem :=
  orOsError do
    let location ← fs.resolve p.maxLinks [] path
    match fs.node location, location.getLast? with
    | some (.file _), _ => some fs
    | none, some name => fs.put location.dropLast name (some (.file fs.next))
    | _, _ => none

/-- The entry that `os.link` makes another one of. -/
def linkSource (fs : FileSystem) (source : Walk) : Option Location :=
  if p.linkFollowsSymlinks then fs.resolve p.maxLinks [] source
  else (locate p fs source).map fun entry => entry.1 ++ [entry.2]

/-- `os.link(source, path)` -/
def link (source path : Walk) (fs : FileSystem) : Except ArchiveFailure FileSystem :=
  orOsError do
    let location ← linkSource p fs source
    match fs.node location with
    | some .dir => none
    | some node => enter p path node fs
    | none => none

/-! ## Extraction -/

section Extract

variable (destination : Location) (members : List TarInfo)

/-- `os.makedirs(exist_ok=True)` below a directory that exists. -/
def makedirs : Walk → Walk → ExtractM Unit
  | _, [] => pure ()
  | path, component :: rest => do
    let present ← read .stat fun fs => .ok (exists? p fs (path ++ [component]))
    when (¬present) (update .mkdir (mkdir p (path ++ [component])))
    makedirs (path ++ [component]) rest

/-- The components of the path at which `_find_link_target` looks for a member. -/
def linkTargetParts (member : TarInfo) : List Name :=
  let target := (purePath member.linkname).parts
  if member.issym then
    ((member.name.splitOn slash).dropLast.filter fun part => part ≠ [] ∧ part ≠ [dot]) ++ target
  else target

/-- `_find_link_target`: the last member of that name, before a hard link. No name has two dots. -/
def findLinkTarget (member : TarInfo) : Option TarInfo :=
  let candidates := if member.issym then members else members.takeWhile (· ≠ member)
  candidates.reverse.find? fun candidate =>
    (purePath candidate.name).parts = linkTargetParts member

/-- The attempt to make a link, which tells whether it was made. What a hard link leads to is an
attribute that only a member given to `extractall` has. -/
def tryLink (prepared : Bool) (member : TarInfo) (target : Walk) : ExtractM Bool :=
  if member.issym then do
    let present ← read .lstat fun fs => .ok (lexists p fs target)
    when present (update .unlink (unlink p target))
    update .symlink (symlink p member.linkname target)
    return true
  else do
    Prog.require prepared .attributeError
    let source := destination.walk ++ steps member.linkname
    let present ← read .stat fun fs => .ok (exists? p fs source)
    if present then
      update .link (link p source target)
      return true
    else
      return false

/-- `makelink_with_filter`, where a member that cannot be linked to is extracted in its place. -/
def makelink (extract : TarInfo → ExtractM Unit) (prepared : Bool) (member : TarInfo)
    (target : Walk) : ExtractM Unit := do
  let made ← attempt (tryLink p destination prepared member target)
  match made with
  | .ok true => pure ()
  | .ok false => referenced .keyError
  | .error .osError | .error .attributeError => referenced .extractError
  | .error e => throw e
where
  referenced (missing : ArchiveFailure) : ExtractM Unit := do
    let unfiltered ← ofOption (findLinkTarget members member) missing
    let filtered ← read .filter fun fs => safeExtractFilter p destination fs unfiltered
    extract filtered

def makedir (target : Walk) : ExtractM Unit := do
  let made ← attempt (update .mkdir (mkdir p target))
  match made with
  | .ok _ => pure ()
  | .error e =>
    let present ← read .stat fun fs => .ok (isdir p fs target)
    Prog.require present e

/-- `_extract_member`, to a path below the destination. No fifo and no device passes the filter. -/
def extractMember : ℕ → Bool → TarInfo → Walk → ExtractM Unit
  | 0, _, _, _ => throw .recursionError
  | limit + 1, prepared, member, path => do
    let target := destination.walk ++ path
    makedirs p destination.walk path.dropLast
    if member.isdir then makedir p target
    else if member.issym ∨ member.islnk then
      makelink p destination members (extractMember limit false · path) prepared member target
    else update .open (openWrite p target)

/-- `targetpath.rstrip("/")` -/
def targetSteps (name : Str) : Walk := steps (name.reverse.dropWhile (· = slash)).reverse

/-- One member in `extractall`, which goes on after an `ExtractError`. -/
def extractOne (member : TarInfo) : ExtractM Unit :=
  catching (· = .extractError) () do
    let filtered ← read .filter fun fs => safeExtractFilter p destination fs member
    extractMember p destination members p.recursionLimit true filtered (targetSteps filtered.name)

def extractall (members : List TarInfo) : ExtractM Unit :=
  members.forM (extractOne p destination members)

end Extract

/-- A directory on the way to the destination, or the destination, which may not be there yet. -/
def makeDirectory (location : Location) (last : Bool) (path : Location) (name : Name)
    (fs : FileSystem) : Except ArchiveFailure FileSystem :=
  match fs.node location with
  | none => orOsError (fs.put path name (some .dir))
  | some .dir => if last then .error .osError else .ok fs
  | some _ => .error .osError

/-- `destination.mkdir(parents=True)`, each directory at its location. -/
def makeLocation : Location → Location → ExtractM Unit
  | _, [] => pure ()
  | path, name :: rest => do
    update .mkdir (makeDirectory (path ++ [name]) rest.isEmpty path name)
    makeLocation (path ++ [name]) rest

/-- `extract_archive`, for what `getmembers` makes of the archive. -/
def extractArchive (archive : Except ArchiveFailure (List TarInfo)) (destination : Location) :
    ExtractM Unit := do
  let present ← read .stat fun fs => .ok (fs.node destination).isSome
  Prog.require (¬present) (.archiveError "extraction destination already exists" [])
  makeLocation [] destination
  let members ← Prog.ofExcept archive
  let members ← read .filter fun fs => scan p destination fs [] members
  extractall p destination members

end FetchNow.Archive
