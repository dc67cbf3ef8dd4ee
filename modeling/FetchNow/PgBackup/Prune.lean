import FetchNow.PgBackup.Root
import FetchNow.Theory.Batches

/-! Count-based retention: which backups a prune selects, and what it deletes. -/
namespace FetchNow.PgBackup

open Transactions

inductive PruneAction where
  | keep
  | delete
  | skip
  deriving DecidableEq, Repr

/-- The reasons that decisions carry. -/
inductive PruneReason where
  | status (status : BackupStatus)
  | newestValid
  | newestVerified
  | malformedHold
  | activeHold (holdId : String)
  | beyondKeep (keep : Nat)
  | withinKeep (keep : Nat)
  deriving DecidableEq, Repr

def BackupStatus.text : BackupStatus → String
  | valid => "valid"
  | invalid => "invalid"
  | incomplete => "incomplete"
  | unknown => "unknown"

def PruneReason.text : PruneReason → String
  | status s => "status=" ++ s.text
  | newestValid => "newest valid backup"
  | newestVerified => "newest successfully restore-verified backup"
  | malformedHold => "malformed retention hold (fail closed)"
  | activeHold holdId => "active retention hold " ++ holdId
  | beyondKeep keep => "beyond keep=" ++ toString keep ++ " and not protected"
  | withinKeep keep => "within keep=" ++ toString keep

structure PruneDecision where
  backupId : String
  action : PruneAction
  reason : PruneReason
  deriving DecidableEq, Repr

/-! ## Selection -/

/-- The valid items, newest id first. -/
def validSorted (items : List BackupListItem) : List BackupListItem :=
  (items.filter (·.status = .valid)).insertionSort fun a b => b.backupId ≤ a.backupId

def newestVerified (sorted : List BackupListItem) : Option String :=
  (sorted.find? (·.verifyResult = some "passed")).map (·.backupId)

/-- The decision about one valid item. -/
def decideItem (root : BackupRoot) (keep : Nat) (sorted : List BackupListItem)
    (item : BackupListItem) : Except BackupError PruneDecision :=
  if sorted.head?.map (·.backupId) = some item.backupId then
    .ok ⟨item.backupId, .keep, .newestValid⟩
  else if newestVerified sorted = some item.backupId then
    .ok ⟨item.backupId, .keep, .newestVerified⟩
  else
    match activeHoldForBackup root item.backupId with
    | .error .retentionHoldError => .ok ⟨item.backupId, .skip, .malformedHold⟩
    | .error e => .error e
    | .ok (some hold) => .ok ⟨item.backupId, .keep, .activeHold hold.holdId⟩
    | .ok none =>
      if item.backupId ∈ (sorted.drop keep).map (·.backupId) then
        .ok ⟨item.backupId, .delete, .beyondKeep keep⟩
      else .ok ⟨item.backupId, .keep, .withinKeep keep⟩

def selectPruneCandidates (root : BackupRoot) (keep : Nat) :
    Except BackupError (List PruneDecision) := do
  require (1 ≤ keep) (.valueError "keep must be >= 1")
  let items ← listBackups root
  let sorted := validSorted items
  let skipped := (items.filter (·.status ≠ .valid)).map fun item =>
    (⟨item.backupId, .skip, .status item.status⟩ : PruneDecision)
  let decisions ← sorted.mapM (decideItem root keep sorted)
  .ok (skipped ++ decisions)

/-! ## Deletion -/

namespace BackupRoot

variable (root : BackupRoot)

/-- The root after `remove_directory_tree` has been called on a child. If it fails, something is
left of the child. -/
def remove (name : String) (left : Option RootEntry) : BackupRoot :=
  match left with
  | none => root.erase name
  | some entry => root.set name entry

end BackupRoot

/-- The checks of the loop for a decision to delete, and the name of the directory that it
removes. -/
def deleteBackup (root : BackupRoot) (decision : PruneDecision) : Except BackupError String := do
  let name ← root.assertDirectChild decision.backupId
  match root.child? name with
  | some (.directory content) =>
    match content.manifest with
    | .missing => .error (.readError .osError)
    | .unreadable e => .error (.readError e)
    | .malformed => .error .manifestError
    | .parsed _ => do
      let held ← activeHoldForBackup root decision.backupId
      require (held = none) .pathSafetyError
      let _ ← content.latestAttestation
      require (¬ "newest".toList <+: decision.reason.text.toList) .pathSafetyError
      .ok name
  | _ => .error .pathSafetyError

/-- The errors that the loop catches. -/
def BackupError.caught : BackupError → Bool
  | pathSafetyError | manifestError | readError .osError => true
  | _ => false

/-- How far the loop over the decisions is. -/
structure PruneProgress where
  root : BackupRoot
  deleted : List String
  errors : List (String × BackupError)

/-- The loop, and the error that ends it early. `left` says which removals fail, and what they leave
behind. -/
def pruneLoop (left : String → Option RootEntry) (progress : PruneProgress) :
    List PruneDecision → PruneProgress × Option BackupError
  | [] => (progress, none)
  | decision :: decisions =>
    if decision.action ≠ .delete then pruneLoop left progress decisions
    else
      match deleteBackup progress.root decision with
      | .ok name =>
        let root := progress.root.remove name (left name)
        if (left name).isNone then
          pruneLoop left ⟨root, progress.deleted ++ [decision.backupId], progress.errors⟩ decisions
        else
          pruneLoop left ⟨root, progress.deleted,
            progress.errors ++ [(decision.backupId, .readError .osError)]⟩ decisions
      | .error e =>
        if e.caught then
          pruneLoop left { progress with errors := progress.errors ++ [(decision.backupId, e)] }
            decisions
        else (progress, some e)

structure PruneResult where
  decisions : List PruneDecision
  deleted : List String
  dryRun : Bool
  deriving DecidableEq, Repr

/-- The part under the lock. -/
def applyPrune (root : BackupRoot) (keep : Nat) (left : String → Option RootEntry) :
    BackupRoot × Except BackupError PruneResult :=
  match selectPruneCandidates root keep with
  | .error e => (root, .error e)
  | .ok decisions =>
    match pruneLoop left ⟨root, [], []⟩ decisions with
    | (progress, some e) => (progress.root, .error e)
    | (progress, none) =>
      if progress.errors = [] then (progress.root, .ok ⟨decisions, progress.deleted, false⟩)
      else (progress.root, .error .runtimeError)

def pruneBackups (root : BackupRoot) (keep : Nat) (apply : Bool)
    (left : String → Option RootEntry) : BackupRoot × Except BackupError PruneResult :=
  match selectPruneCandidates root keep with
  | .error e => (root, .error e)
  | .ok decisions =>
    if apply then applyPrune root keep left else (root, .ok ⟨decisions, [], true⟩)

/-! ## Protection -/

/-- A valid backup of the root, under the name of its directory. -/
structure Backup where
  name : String
  id : String
  content : BackupDirectory
  deriving DecidableEq, Repr

/-- The result of its latest attestation, unless that cannot be read. -/
def Backup.result (backup : Backup) : Option String :=
  match backup.content.latestAttestation >>= verifyResult with
  | .ok result => result
  | .error _ => none

def Backup.item (backup : Backup) : BackupListItem :=
  ⟨backup.id, backup.name, backup.result, .valid⟩

def RootChild.backup? (child : RootChild) : Option Backup :=
  if child.name ∈ [".", "..", ".lock"] ∨ incompletePrefix.toList.isPrefixOf child.name.toList
  then none
  else
    match child.entry with
    | .directory content =>
      match content.manifest with
      | .parsed manifest => some ⟨child.name, manifest.backupId, content⟩
      | _ => none
    | _ => none

namespace BackupRoot

variable (root : BackupRoot)

def backups : List Backup := root.children.filterMap RootChild.backup?

/-- Among the `keep` newest valid backups by id. -/
def Newest (keep : Nat) (id : String) : Prop :=
  (root.backups.filter (id < ·.id)).length < keep

/-- The newest valid backup whose latest attestation is passed. -/
def NewestVerified (backup : Backup) : Prop :=
  backup.result = some "passed" ∧
    ∀ other ∈ root.backups, other.result = some "passed" → other.id ≤ backup.id

/-- The backup has a hold that has been acquired and not released. -/
def Held (id : String) : Prop := ∃ hold, .parsed hold ∈ root.activeHolds ∧ hold.backupId = id

def Protected (keep : Nat) (backup : Backup) : Prop :=
  root.Newest keep backup.id ∨ root.NewestVerified backup ∨ root.Held backup.id

/-- Every file that a listing or a look at the holds reads can be read. -/
structure Legible : Prop where
  manifests : ∀ child ∈ root.children, ∀ content, child.entry = .directory content →
    ∀ e, content.manifest ≠ .unreadable e
  attestations : ∀ backup ∈ root.backups,
    ∃ result, (backup.content.latestAttestation >>= verifyResult) = .ok result
  holds : ∀ e, .unreadable e ∉ root.activeHolds

/-- Ids tell the valid backups apart, name their directories, and are not taken by `holds/`. -/
structure Named (keep : Nat) : Prop where
  ids : (root.backups.map (·.id)).Nodup
  names : ∀ backup ∈ root.backups, ¬ root.Newest keep backup.id → backup.name = backup.id
  holds : ∀ backup ∈ root.backups, backup.name ≠ "holds"

end BackupRoot

variable {root : BackupRoot} {keep : Nat} {items sorted : List BackupListItem}
  {backup : Backup} {child : RootChild} {decision : PruneDecision}
  {left : String → Option RootEntry}

/-! ## What a listing shows -/

theorem listItem_eq_ok {item : Option BackupListItem} (h : listItem child = .ok item) :
    item.toList.filter (·.status = .valid) = child.backup?.toList.map Backup.item := by
  obtain ⟨name, entry⟩ := child
  unfold listItem at h
  unfold RootChild.backup?
  by_cases hskipped : name ∈ [".", "..", ".lock"]
  · rw [if_pos hskipped] at h
    rw [if_pos (.inl hskipped)]
    cases h
    rfl
  rw [if_neg hskipped] at h
  cases entry with
  | symlink =>
    cases h
    simp
  | file =>
    simp only at h
    split at h <;> cases h <;> simp
  | directory content =>
    simp only at h
    by_cases hincomplete : incompletePrefix.toList.isPrefixOf name.toList
    · rw [if_pos hincomplete] at h
      rw [if_pos (.inr hincomplete)]
      cases h
      rfl
    rw [if_neg hincomplete] at h
    rw [if_neg (not_or.mpr ⟨hskipped, hincomplete⟩)]
    obtain ⟨manifest, verifications, holds⟩ := content
    cases manifest with
    | missing | malformed =>
      cases h
      rfl
    | unreadable => cases h
    | parsed manifest =>
      obtain ⟨attestation, hattestation, h⟩ := bind_eq_ok.mp h
      obtain ⟨result, hresult, h⟩ := bind_eq_ok.mp h
      cases h
      simp [Backup.item, Backup.result, hattestation, hresult]

theorem listBackups_eq_ok (h : listBackups root = .ok items) :
    (items.filter (·.status = .valid)).Perm (root.backups.map Backup.item) := by
  obtain ⟨listed, hlisted, h⟩ := bind_eq_ok.mp h
  cases h
  have hforall := forall₂_of_mapM hlisted
  have hvalid (children : List RootChild) (listed : List (Option BackupListItem))
      (hlisted : List.Forall₂ (fun child item => listItem child = .ok item) children listed) :
      (listed.filterMap id).filter (·.status = .valid) =
        (children.filterMap RootChild.backup?).map Backup.item := by
    induction hlisted with
    | nil => rfl
    | @cons child item _ _ hitem _ ih =>
      have hhead := listItem_eq_ok hitem
      rw [List.filterMap_cons, List.filterMap_cons]
      cases item with
      | none =>
        cases hbackup : child.backup? with
        | none => exact ih
        | some backup => simp [hbackup] at hhead
      | some item =>
        rw [Option.toList_some, List.filter_cons, List.filter_nil] at hhead
        change List.filter _ (item :: List.filterMap id _) = _
        rw [List.filter_cons]
        cases hbackup : child.backup? with
        | none =>
          rw [hbackup] at hhead
          split at hhead
          · cases hhead
          · rename_i hinvalid
            rw [if_neg hinvalid, ih]
        | some backup =>
          rw [hbackup] at hhead
          split at hhead
          · rename_i hvalid
            rw [if_pos hvalid, ih, (List.cons.inj hhead).1]
            rfl
          · cases hhead
  rw [hvalid _ _ hforall]
  exact ((List.perm_insertionSort _ _).filterMap _).map _

theorem listBackups_legible (h : root.Legible) : ∃ items, listBackups root = .ok items := by
  have hlisted : ∀ child ∈ root.children.insertionSort fun a b => a.name ≤ b.name,
      ∃ item, listItem child = .ok item := by
    intro child hchild
    have hmem := (List.mem_insertionSort _).mp hchild
    obtain ⟨name, entry⟩ := child
    unfold listItem
    by_cases hskipped : name ∈ [".", "..", ".lock"]
    · exact ⟨_, if_pos hskipped⟩
    rw [if_neg hskipped]
    cases entry with
    | symlink => exact ⟨_, rfl⟩
    | file =>
      simp only
      split <;> exact ⟨_, rfl⟩
    | directory content =>
      simp only
      by_cases hincomplete : incompletePrefix.toList.isPrefixOf name.toList
      · exact ⟨_, if_pos hincomplete⟩
      rw [if_neg hincomplete]
      have hreadable := h.manifests _ hmem _ rfl
      obtain ⟨manifest, verifications, holds⟩ := content
      cases manifest with
      | missing | malformed => exact ⟨_, rfl⟩
      | unreadable e => exact absurd rfl (hreadable e)
      | parsed manifest =>
        have hbackup : ⟨name, manifest.backupId, .parsed manifest, verifications, holds⟩ ∈
            root.backups := by
          refine List.mem_filterMap.mpr ⟨_, hmem, ?_⟩
          rw [RootChild.backup?, if_neg (not_or.mpr ⟨hskipped, hincomplete⟩)]
        obtain ⟨result, hresult⟩ := h.attestations _ hbackup
        obtain ⟨attestation, hattestation, hresult⟩ := bind_eq_ok.mp hresult
        simp only at hattestation
        exact ⟨some ⟨manifest.backupId, name, result, .valid⟩, by simp [hattestation, hresult]⟩
  obtain ⟨items, hitems⟩ := exists_mapM hlisted
  exact ⟨items.filterMap id, bind_eq_ok.mpr ⟨items, hitems, rfl⟩⟩

/-! ## What is selected -/

/-- The sort key of `validSorted`. -/
def newestFirst (item : BackupListItem) : Stringᵒᵈ := OrderDual.toDual item.backupId

/-- The valid items of a listing, sorted, are the valid backups. -/
theorem mem_validSorted (h : listBackups root = .ok items) {item : BackupListItem} :
    item ∈ validSorted items ↔ ∃ backup ∈ root.backups, backup.item = item := by
  rw [validSorted, List.mem_insertionSort, (listBackups_eq_ok h).mem_iff, List.mem_map]

theorem eq_of_id (hnamed : root.Named keep) {other : Backup} (hbackup : backup ∈ root.backups)
    (hother : other ∈ root.backups) (h : other.id = backup.id) : other = backup :=
  List.inj_on_of_nodup_map hnamed.ids hother hbackup h

theorem item_injective (hnamed : root.Named keep) (h : listBackups root = .ok items)
    (hbackup : backup ∈ root.backups) {item : BackupListItem} (hitem : item ∈ validSorted items)
    (hid : item.backupId = backup.id) : item = backup.item := by
  obtain ⟨other, hother, rfl⟩ := (mem_validSorted h).mp hitem
  rw [eq_of_id hnamed hbackup hother hid]

theorem not_newest_iff (hnamed : root.Named keep) (h : listBackups root = .ok items)
    (hbackup : backup ∈ root.backups) :
    backup.id ∈ ((validSorted items).drop keep).map (·.backupId) ↔
      ¬ root.Newest keep backup.id := by
  have hperm := listBackups_eq_ok h
  have hkeys : ((items.filter (·.status = .valid)).map newestFirst).Nodup := by
    rw [(hperm.map _).nodup_iff, List.map_map]
    exact hnamed.ids
  have hitem : backup.item ∈ items.filter (·.status = .valid) :=
    hperm.mem_iff.mpr (List.mem_map_of_mem hbackup)
  have hcount : ((items.filter (·.status = .valid)).filter
      (newestFirst · < newestFirst backup.item)).length =
        (root.backups.filter (backup.id < ·.id)).length := by
    rw [(hperm.filter _).length_eq, List.filter_map, List.length_map]
    rfl
  have hdrop := Batches.mem_drop_insertionSort keep hkeys hitem
  rw [hcount] at hdrop
  rw [BackupRoot.Newest, not_lt, ← hdrop]
  constructor
  · intro hmem
    obtain ⟨item, hmem, hid⟩ := List.mem_map.mp hmem
    rwa [item_injective hnamed h hbackup (List.mem_of_mem_drop hmem) hid] at hmem
  · exact fun hmem => List.mem_map_of_mem (f := BackupListItem.backupId) hmem

theorem newestVerified_iff (hnamed : root.Named keep) (h : listBackups root = .ok items)
    (hbackup : backup ∈ root.backups) :
    newestVerified (validSorted items) = some backup.id ↔ root.NewestVerified backup := by
  have hperm := listBackups_eq_ok h
  rw [newestVerified, Option.map_eq_some_iff]
  constructor
  · rintro ⟨item, hfind, hid⟩
    obtain rfl := item_injective hnamed h hbackup (List.mem_of_find?_eq_some hfind) hid
    obtain ⟨_, hpassed, hfirst⟩ := Batches.find?_insertionSort_eq_some (f := newestFirst) hfind
    refine ⟨of_decide_eq_true hpassed, fun other hother hresult => ?_⟩
    exact hfirst other.item (hperm.mem_iff.mpr (List.mem_map_of_mem hother))
      (decide_eq_true hresult)
  · rintro ⟨hresult, hlast⟩
    have hmem := (mem_validSorted h).mpr ⟨backup, hbackup, rfl⟩
    cases hfind : (validSorted items).find? (·.verifyResult = some "passed") with
    | none =>
      have hnone := List.find?_eq_none.mp hfind _ hmem
      simp [Backup.item, hresult] at hnone
    | some item =>
      obtain ⟨other, hother, rfl⟩ := (mem_validSorted h).mp (List.mem_of_find?_eq_some hfind)
      obtain ⟨_, hpassed, hfirst⟩ := Batches.find?_insertionSort_eq_some (f := newestFirst) hfind
      refine ⟨_, rfl, le_antisymm (hlast other hother (of_decide_eq_true hpassed)) ?_⟩
      exact hfirst backup.item (hperm.mem_iff.mpr (List.mem_map_of_mem hbackup))
        (decide_eq_true hresult)

/-- The newest valid backup is among the newest. -/
theorem newest_of_head (h : listBackups root = .ok items) (hkeep : 1 ≤ keep)
    (hhead : (validSorted items).head?.map (·.backupId) = some backup.id) :
    root.Newest keep backup.id := by
  obtain ⟨item, hfirst, hid⟩ := Option.map_eq_some_iff.mp hhead
  have hnone : root.backups.filter (backup.id < ·.id) = [] := by
    refine List.filter_eq_nil_iff.mpr fun other hother => ?_
    have hfind : (validSorted items).find? (fun _ => true) = some item := by
      cases hsorted : validSorted items with
      | nil => simp [hsorted] at hfirst
      | cons first rest => simpa [hsorted] using hfirst
    obtain ⟨_, _, hle⟩ := Batches.find?_insertionSort_eq_some (f := newestFirst) hfind
    have hle := hle other.item
      ((listBackups_eq_ok h).mem_iff.mpr (List.mem_map_of_mem hother)) rfl
    have hle : other.id ≤ backup.id := hid ▸ hle
    exact fun hlt => not_lt.mpr hle (of_decide_eq_true hlt)
  rw [BackupRoot.Newest, hnone]
  exact hkeep

/-- A decision to delete is about an unprotected backup, and only with all active holds read. -/
theorem decideItem_delete (hnamed : root.Named keep) (h : listBackups root = .ok items)
    (hbackup : backup ∈ root.backups)
    (hdecision : decideItem root keep (validSorted items) backup.item = .ok decision)
    (hdelete : decision.action = .delete) :
    ¬ root.Protected keep backup ∧ decision = ⟨backup.id, .delete, .beyondKeep keep⟩ ∧
      activeHoldForBackup root backup.id = .ok none := by
  unfold decideItem at hdecision
  split at hdecision
  · cases hdecision
    cases hdelete
  split at hdecision
  · cases hdecision
    cases hdelete
  rename_i hverified
  split at hdecision
  · cases hdecision
    cases hdelete
  · cases hdecision
  · cases hdecision
    cases hdelete
  rename_i hhold
  split at hdecision
  · rename_i hbeyond
    cases hdecision
    refine ⟨?_, rfl, hhold⟩
    rintro (hnewest | hnewest | ⟨hold, hhold', hid⟩)
    · exact (not_newest_iff hnamed h hbackup).mp hbeyond hnewest
    · exact hverified ((newestVerified_iff hnamed h hbackup).mpr hnewest)
    · rcases firstHold_eq_none.mp hhold _ hhold' with hmissing | ⟨hold', heq, hid'⟩
      · cases hmissing
      · cases heq
        simp [Backup.item, hid] at hid'
  · cases hdecision
    cases hdelete

/-- An unprotected backup is selected for deletion if no hold is in the way. -/
theorem decideItem_unprotected (hkeep : 1 ≤ keep) (hnamed : root.Named keep)
    (h : listBackups root = .ok items) (hbackup : backup ∈ root.backups)
    (hunprotected : ¬ root.Protected keep backup)
    (hhold : activeHoldForBackup root backup.id = .ok none) :
    decideItem root keep (validSorted items) backup.item =
      .ok ⟨backup.id, .delete, .beyondKeep keep⟩ := by
  simp only [BackupRoot.Protected, not_or] at hunprotected
  obtain ⟨hnewest, hverified, _⟩ := hunprotected
  have hhead : ¬ (validSorted items).head?.map (·.backupId) = some backup.item.backupId :=
    fun hhead => hnewest (newest_of_head h hkeep hhead)
  have hlater : ¬ newestVerified (validSorted items) = some backup.item.backupId :=
    fun hfirst => hverified ((newestVerified_iff hnamed h hbackup).mp hfirst)
  have hhold : activeHoldForBackup root backup.item.backupId = .ok none := hhold
  rw [decideItem, if_neg hhead, if_neg hlater, hhold]
  exact if_pos ((not_newest_iff hnamed h hbackup).mpr hnewest)

/-! ## What is deleted -/

theorem BackupRoot.child?_remove {name other : String} {entry : Option RootEntry}
    (h : (root.child? name).isSome) :
    (root.remove name entry).child? other = if other = name then entry else root.child? other := by
  by_cases hname : other = name
  · subst hname
    cases entry <;> simp [remove, h]
  · cases entry <;> simp [remove, hname]

theorem BackupRoot.holds_congr {root' : BackupRoot}
    (h : root'.child? "holds" = root.child? "holds") : root'.activeHolds = root.activeHolds := by
  simp only [activeHolds, holds, h]

theorem RootChild.backup?_name (h : child.backup? = some backup) : backup.name = child.name := by
  unfold RootChild.backup? at h
  split at h
  · cases h
  split at h
  · split at h
    · cases h
      rfl
    · cases h
  · cases h

theorem BackupRoot.backup_names :
    (root.backups.map (·.name)).Sublist (root.children.map (·.name)) := by
  unfold BackupRoot.backups
  induction root.children with
  | nil => exact .slnil
  | cons child children ih =>
    rw [List.filterMap_cons]
    cases hbackup : child.backup? with
    | none => exact ih.cons _
    | some backup =>
      rw [List.map_cons, List.map_cons, RootChild.backup?_name hbackup]
      exact ih.cons_cons _

theorem mem_backups (h : backup ∈ root.backups) :
    root.child? backup.name = some (.directory backup.content) ∧
      ∃ manifest, backup.content.manifest = .parsed manifest ∧ manifest.backupId = backup.id := by
  obtain ⟨⟨name, entry⟩, hchild, hbackup⟩ := List.mem_filterMap.mp h
  unfold RootChild.backup? at hbackup
  split at hbackup
  · cases hbackup
  split at hbackup
  · rename_i content hentry
    split at hbackup
    · rename_i manifest hmanifest
      cases hbackup
      cases hentry
      exact ⟨BackupRoot.child?_eq_some.mpr hchild, manifest, hmanifest, rfl⟩
    · cases hbackup
  · cases hbackup

theorem not_newest_text (keep : String) :
    ¬ "newest".toList <+: ("beyond keep=" ++ keep ++ " and not protected").toList := by
  have hnewest : "newest".toList = 'n' :: "ewest".toList := by decide
  have hbeyond : "beyond keep=".toList = 'b' :: "eyond keep=".toList := by decide
  rw [String.toList_append, String.toList_append, List.append_assoc, hnewest, hbeyond,
    List.cons_append, List.cons_prefix_cons]
  exact fun h => absurd h.1 (by decide)

/-- A backup that bears its id passes the checks of the loop, if no hold is in the way. -/
theorem deleteBackup_eq_ok {root' : BackupRoot} (hbackup : backup ∈ root.backups)
    (hentry : root'.child? backup.name = root.child? backup.name)
    (hholds : root'.child? "holds" = root.child? "holds")
    (hattestation : ∃ file, backup.content.latestAttestation = .ok file)
    (hhold : activeHoldForBackup root backup.name = .ok none) :
    deleteBackup root' ⟨backup.name, .delete, .beyondKeep keep⟩ = .ok backup.name := by
  obtain ⟨hfound, manifest, hmanifest, _⟩ := mem_backups hbackup
  obtain ⟨file, hattestation⟩ := hattestation
  have hfound' := hentry.trans hfound
  have hhold' : activeHoldForBackup root' backup.name = .ok none := by
    rw [activeHoldForBackup, BackupRoot.holds_congr hholds]
    exact hhold
  have htext : require (¬ "newest".toList <+: (PruneReason.beyondKeep keep).text.toList)
      BackupError.pathSafetyError = .ok () := require_true (not_newest_text _)
  simp only [deleteBackup, BackupRoot.assertDirectChild_name hfound', hfound', hmanifest, hhold',
    hattestation, htext, ok_bind, require_true]

/-- What the loop needs to know about the decisions to delete. -/
structure Deletes (root : BackupRoot) (keep : Nat) (decision : PruneDecision) : Prop where
  backup : ∃ backup ∈ root.backups, decision = ⟨backup.name, .delete, .beyondKeep keep⟩ ∧
    backup.name ≠ "holds" ∧ ∃ file, backup.content.latestAttestation = .ok file
  hold : activeHoldForBackup root decision.backupId = .ok none

/-- The ids that the decisions select for deletion. -/
def deletedIds (decisions : List PruneDecision) : List String :=
  (decisions.filter (·.action = .delete)).map (·.backupId)

/-- The loop removes exactly the directories that the decisions name, whichever removals fail. -/
theorem pruneLoop_spec (left : String → Option RootEntry) (progress : PruneProgress)
    {decisions : List PruneDecision}
    (hdecisions : ∀ decision ∈ decisions, decision.action = .delete → Deletes root keep decision)
    (hnodup : (deletedIds decisions).Nodup)
    (hentries : ∀ id ∈ deletedIds decisions, progress.root.child? id = root.child? id)
    (hholds : progress.root.child? "holds" = root.child? "holds") :
    (pruneLoop left progress decisions).2 = none ∧ ∀ name,
      (pruneLoop left progress decisions).1.root.child? name =
        if name ∈ deletedIds decisions then left name else progress.root.child? name := by
  induction decisions generalizing progress with
  | nil => exact ⟨rfl, fun name => rfl⟩
  | cons decision decisions ih =>
    obtain ⟨hdecision, htail⟩ := List.forall_mem_cons.mp hdecisions
    clear hdecisions
    by_cases hdelete : decision.action = .delete
    · obtain ⟨⟨backup, hbackup, hdecision', hname, hattestation⟩, hhold⟩ := hdecision hdelete
      subst hdecision'
      have hids : deletedIds (⟨backup.name, .delete, .beyondKeep keep⟩ :: decisions) =
          backup.name :: deletedIds decisions := rfl
      rw [hids] at hnodup hentries ⊢
      obtain ⟨hfresh, hnodup⟩ := List.nodup_cons.mp hnodup
      obtain ⟨hentry, hentries⟩ := List.forall_mem_cons.mp hentries
      have hsome : (progress.root.child? backup.name).isSome := by
        rw [hentry, (mem_backups hbackup).1]
        rfl
      have hnext (next : PruneProgress)
          (hroot : next.root = progress.root.remove backup.name (left backup.name)) :
          (pruneLoop left next decisions).2 = none ∧ ∀ name,
            (pruneLoop left next decisions).1.root.child? name =
              if name ∈ backup.name :: deletedIds decisions then left name
              else progress.root.child? name := by
        have hother (name : String) (h : name ≠ backup.name) :
            next.root.child? name = progress.root.child? name := by
          rw [hroot, BackupRoot.child?_remove hsome, if_neg h]
        obtain ⟨hend, hloop⟩ := ih next htail hnodup
          (fun id hid => (hother id fun heq => hfresh (heq ▸ hid)).trans (hentries id hid))
          ((hother "holds" hname.symm).trans hholds)
        refine ⟨hend, fun name => ?_⟩
        rw [hloop]
        by_cases hsame : name = backup.name
        · subst hsame
          rw [if_neg hfresh, if_pos List.mem_cons_self, hroot, BackupRoot.child?_remove hsome,
            if_pos rfl]
        · simp only [List.mem_cons, hsame, false_or, hother name hsame]
      rw [pruneLoop, if_neg (not_not.mpr rfl),
        deleteBackup_eq_ok hbackup hentry hholds hattestation hhold]
      simp only
      split
      · exact hnext _ rfl
      · exact hnext _ rfl
    · have hids : deletedIds (decision :: decisions) = deletedIds decisions := by
        rw [deletedIds, List.filter_cons_of_neg (by simpa using hdelete)]
        rfl
      rw [hids] at hnodup hentries ⊢
      rw [pruneLoop, if_pos hdelete]
      exact ih progress htail hnodup hentries hholds

/-! ## What a prune deletes -/

theorem decideItem_backupId {item : BackupListItem}
    (h : decideItem root keep sorted item = .ok decision) : decision.backupId = item.backupId := by
  unfold decideItem at h
  split at h
  · cases h
    rfl
  split at h
  · cases h
    rfl
  split at h
  · cases h
    rfl
  · cases h
  · cases h
    rfl
  split at h <;> cases h <;> rfl

theorem map_backupId {listed : List BackupListItem} {decisions : List PruneDecision}
    (h : List.Forall₂ (fun item decision => decideItem root keep sorted item = .ok decision) listed
      decisions) : decisions.map (·.backupId) = listed.map (·.backupId) := by
  induction h with
  | nil => rfl
  | cons hdecision _ ih => rw [List.map_cons, List.map_cons, ih, decideItem_backupId hdecision]

theorem nodup_validSorted (hnamed : root.Named keep) (h : listBackups root = .ok items) :
    ((validSorted items).map (·.backupId)).Nodup := by
  rw [validSorted, ((List.perm_insertionSort _ _).map _).nodup_iff,
    ((listBackups_eq_ok h).map _).nodup_iff, List.map_map]
  exact hnamed.ids

theorem listItem_attestation {item : Option BackupListItem} (h : listItem child = .ok item)
    (hbackup : child.backup? = some backup) :
    ∃ file, backup.content.latestAttestation = .ok file := by
  obtain ⟨name, entry⟩ := child
  unfold RootChild.backup? at hbackup
  split at hbackup
  · cases hbackup
  rename_i hlisted
  obtain ⟨hskipped, hincomplete⟩ := not_or.mp hlisted
  split at hbackup
  · rename_i content hentry
    split at hbackup
    · rename_i manifest hmanifest
      cases hbackup
      obtain rfl : entry = .directory content := hentry
      unfold listItem at h
      rw [if_neg hskipped] at h
      simp only at h
      rw [if_neg hincomplete, hmanifest] at h
      obtain ⟨file, hfile, _⟩ := bind_eq_ok.mp h
      exact ⟨file, hfile⟩
    · cases hbackup
  · cases hbackup

theorem listBackups_attestation (h : listBackups root = .ok items)
    (hbackup : backup ∈ root.backups) : ∃ file, backup.content.latestAttestation = .ok file := by
  obtain ⟨listed, hlisted, _⟩ := bind_eq_ok.mp h
  obtain ⟨child, hchild, hvalid⟩ := List.mem_filterMap.mp hbackup
  have hmem := (List.mem_insertionSort fun a b : RootChild => a.name ≤ b.name).mpr hchild
  obtain ⟨item, _, hitem⟩ := exists_of_mem_mapM hlisted hmem
  exact listItem_attestation hitem hvalid

/-- The decisions of a selection. -/
theorem selectPruneCandidates_eq_ok {decisions : List PruneDecision} (hnamed : root.Named keep)
    (h : selectPruneCandidates root keep = .ok decisions) :
    (deletedIds decisions).Nodup ∧
      (∀ decision ∈ decisions, decision.action = .delete →
        Deletes root keep decision ∧ ∃ backup ∈ root.backups, backup.name = decision.backupId ∧
          ¬ root.Protected keep backup) ∧
      ∀ backup ∈ root.backups, ¬ root.Protected keep backup →
        activeHoldForBackup root backup.id = .ok none → backup.name ∈ deletedIds decisions := by
  obtain ⟨_, hkeep, h⟩ := bind_eq_ok.mp h
  have hkeep := require_eq_ok.mp hkeep
  obtain ⟨items, hitems, h⟩ := bind_eq_ok.mp h
  obtain ⟨ds, hds, h⟩ := bind_eq_ok.mp h
  cases h
  have hids (backup : Backup) (hbackup : backup ∈ root.backups)
      (hunprotected : ¬ root.Protected keep backup) : backup.name = backup.id :=
    hnamed.names backup hbackup fun hnewest => hunprotected (.inl hnewest)
  have hskipped : deletedIds ((items.filter (·.status ≠ .valid)).map fun item =>
      (⟨item.backupId, .skip, .status item.status⟩ : PruneDecision)) = [] := by
    rw [deletedIds, List.filter_map]
    simp [Function.comp_def]
  have hdeleted : deletedIds ((items.filter (·.status ≠ .valid)).map (fun item =>
      (⟨item.backupId, .skip, .status item.status⟩ : PruneDecision)) ++ ds) = deletedIds ds := by
    rw [deletedIds, List.filter_append, List.map_append]
    exact (congrArg (· ++ deletedIds ds) hskipped).trans (List.nil_append _)
  have hvalid (decision : PruneDecision) (hmem : decision ∈ ds) : ∃ backup ∈ root.backups,
      decideItem root keep (validSorted items) backup.item = .ok decision := by
    obtain ⟨item, hitem, hdecision⟩ := (mem_mapM hds).mp hmem
    obtain ⟨backup, hbackup, rfl⟩ := (mem_validSorted hitems).mp hitem
    exact ⟨backup, hbackup, hdecision⟩
  refine ⟨?_, fun decision hmem hdelete => ?_, fun backup hbackup hunprotected hhold => ?_⟩
  · rw [hdeleted]
    have hnodup : (ds.map (·.backupId)).Nodup := by
      rw [map_backupId (forall₂_of_mapM hds)]
      exact nodup_validSorted hnamed hitems
    exact hnodup.sublist (List.filter_sublist.map _)
  · rcases List.mem_append.mp hmem with hmem | hmem
    · obtain ⟨item, _, rfl⟩ := List.mem_map.mp hmem
      cases hdelete
    · obtain ⟨backup, hbackup, hdecision⟩ := hvalid decision hmem
      obtain ⟨hunprotected, rfl, hhold⟩ := decideItem_delete hnamed hitems hbackup hdecision hdelete
      have hname := hids backup hbackup hunprotected
      refine ⟨⟨⟨backup, hbackup, by rw [hname], hnamed.holds backup hbackup,
        listBackups_attestation hitems hbackup⟩, hhold⟩, backup, hbackup, hname, hunprotected⟩
  · rw [hdeleted, hids backup hbackup hunprotected]
    have hdecision := decideItem_unprotected hkeep hnamed hitems hbackup hunprotected hhold
    have hmem := (mem_mapM hds).mpr
      ⟨_, (mem_validSorted hitems).mpr ⟨backup, hbackup, rfl⟩, hdecision⟩
    exact List.mem_map.mpr ⟨_, List.mem_filter.mpr ⟨hmem, rfl⟩, rfl⟩

theorem pruneBackups_error {e : BackupError} (h : selectPruneCandidates root keep = .error e) :
    pruneBackups root keep true left = (root, .error e) := by
  simp only [pruneBackups, h]

/-- A prune removes the directories that its selection names, and nothing else. -/
theorem child?_pruneBackups {decisions : List PruneDecision} (hnamed : root.Named keep)
    (h : selectPruneCandidates root keep = .ok decisions) (name : String) :
    (pruneBackups root keep true left).1.child? name =
      if name ∈ deletedIds decisions then left name else root.child? name := by
  obtain ⟨hnodup, hdeletes, _⟩ := selectPruneCandidates_eq_ok hnamed h
  obtain ⟨hend, hloop⟩ := pruneLoop_spec left ⟨root, [], []⟩
    (fun decision hmem hdelete => (hdeletes decision hmem hdelete).1) hnodup (fun _ _ => rfl) rfl
  simp only [pruneBackups, applyPrune, h, if_true]
  rw [← hloop name]
  cases hrun : pruneLoop left ⟨root, [], []⟩ decisions with
  | mk progress aborted =>
    rw [hrun] at hend
    obtain rfl : aborted = none := hend
    simp only
    split <;> rfl

/-- A selection succeeds if everything can be read. -/
theorem selectPruneCandidates_legible (hkeep : 1 ≤ keep) (h : root.Legible) :
    ∃ decisions, selectPruneCandidates root keep = .ok decisions := by
  obtain ⟨items, hitems⟩ := listBackups_legible h
  have hdecide : ∀ item ∈ validSorted items,
      ∃ decision, decideItem root keep (validSorted items) item = .ok decision := by
    intro item _
    unfold decideItem
    split
    · exact ⟨_, rfl⟩
    split
    · exact ⟨_, rfl⟩
    split
    · exact ⟨_, rfl⟩
    · rename_i e hne herror
      exact absurd (firstHold_eq_error h.holds herror) hne
    · exact ⟨_, rfl⟩
    · split <;> exact ⟨_, rfl⟩
  obtain ⟨decisions, hdecisions⟩ := exists_mapM hdecide
  exact ⟨_, bind_eq_ok.mpr ⟨(), require_true hkeep, bind_eq_ok.mpr ⟨items, hitems,
    bind_eq_ok.mpr ⟨decisions, hdecisions, rfl⟩⟩⟩⟩

/-- A malformed hold keeps every backup. -/
theorem selectPruneCandidates_malformed {decisions : List PruneDecision}
    (hnamed : root.Named keep) (h : selectPruneCandidates root keep = .ok decisions)
    (hmalformed : .malformed ∈ root.activeHolds) : deletedIds decisions = [] := by
  obtain ⟨_, hdeletes, _⟩ := selectPruneCandidates_eq_ok hnamed h
  refine List.eq_nil_iff_forall_not_mem.mpr fun id hid => ?_
  obtain ⟨decision, hmem, rfl⟩ := List.mem_map.mp hid
  obtain ⟨hmem, hdelete⟩ := List.mem_filter.mp hmem
  have hhold := (hdeletes decision hmem (of_decide_eq_true hdelete)).1.hold
  rcases firstHold_eq_none.mp hhold _ hmalformed with h | ⟨_, h, _⟩ <;> cases h

/-- Every entry is as before, or is what its removal left. -/
theorem child?_pruneBackups_or (hnamed : root.Named keep) (name : String) :
    (pruneBackups root keep true left).1.child? name = root.child? name ∨
      (pruneBackups root keep true left).1.child? name = left name := by
  cases hselect : selectPruneCandidates root keep with
  | error e => exact .inl (by rw [pruneBackups_error hselect])
  | ok decisions =>
    rw [child?_pruneBackups hnamed hselect]
    split
    · exact .inr rfl
    · exact .inl rfl

/-- Only unprotected backups are changed. -/
theorem pruneBackups_safe (hnamed : root.Named keep) {name : String}
    (h : (pruneBackups root keep true left).1.child? name ≠ root.child? name) :
    ∃ backup ∈ root.backups, backup.name = name ∧ ¬ root.Protected keep backup := by
  cases hselect : selectPruneCandidates root keep with
  | error e =>
    rw [pruneBackups_error hselect] at h
    exact absurd rfl h
  | ok decisions =>
    rw [child?_pruneBackups hnamed hselect] at h
    split at h
    · rename_i hmem
      obtain ⟨decision, hselected, rfl⟩ := List.mem_map.mp hmem
      obtain ⟨hmem, hdelete⟩ := List.mem_filter.mp hselected
      exact ((selectPruneCandidates_eq_ok hnamed hselect).2.1 decision hmem
        (of_decide_eq_true hdelete)).2
    · exact absurd rfl h

/-- Every unprotected backup is removed, unless its own removal fails. -/
theorem pruneBackups_complete (hkeep : 1 ≤ keep) (hnamed : root.Named keep) (h : root.Legible)
    (hmalformed : .malformed ∉ root.activeHolds) (hbackup : backup ∈ root.backups)
    (hunprotected : ¬ root.Protected keep backup) :
    (pruneBackups root keep true left).1.child? backup.name = left backup.name := by
  obtain ⟨decisions, hselect⟩ := selectPruneCandidates_legible hkeep h
  have hreadable : ∀ acquired ∈ root.activeHolds,
      acquired ≠ .malformed ∧ ∀ e, acquired ≠ .unreadable e := fun acquired hmem =>
    ⟨fun heq => hmalformed (heq ▸ hmem), fun e heq => h.holds e (heq ▸ hmem)⟩
  obtain ⟨hold, hhold⟩ :=
    exists_firstHold (p := fun hold => decide (hold.backupId = backup.id)) hreadable
  have hnone : activeHoldForBackup root backup.id = .ok none := by
    cases hold with
    | none => exact hhold
    | some hold =>
      obtain ⟨hmem, hid⟩ := firstHold_eq_some hhold
      exact absurd (.inr (.inr ⟨hold, hmem, of_decide_eq_true hid⟩)) hunprotected
  rw [child?_pruneBackups hnamed hselect, if_pos]
  exact (selectPruneCandidates_eq_ok hnamed hselect).2.2 backup hbackup hunprotected hnone

/-- With a malformed hold, nothing is removed. -/
theorem pruneBackups_malformed (hnamed : root.Named keep)
    (hmalformed : .malformed ∈ root.activeHolds) (name : String) :
    (pruneBackups root keep true left).1.child? name = root.child? name := by
  cases hselect : selectPruneCandidates root keep with
  | error e => rw [pruneBackups_error hselect]
  | ok decisions =>
    rw [child?_pruneBackups hnamed hselect,
      selectPruneCandidates_malformed hnamed hselect hmalformed, if_neg List.not_mem_nil]

end FetchNow.PgBackup
