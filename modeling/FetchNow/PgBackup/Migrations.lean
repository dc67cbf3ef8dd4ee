import FetchNow.PgBackup.Prune

/-!
# Migrations and prunes on one backup root

Whoever changes the backup root holds its lock. A migration holds it from the creation of its
backup until the retention hold is acquired; releases and prunes take it for themselves.
-/
namespace FetchNow.PgBackup

open Transactions

open Relation (ReflTransGen)

/-! ## Writes -/

namespace BackupRoot

variable (root : BackupRoot)

/-- Add a child under a name that is free. -/
def insert (name : String) (entry : RootEntry) (hname : IsEntryName name)
    (hfree : root.child? name = none) : BackupRoot where
  path := root.path
  children := ⟨name, entry⟩ :: root.children
  resolved := root.resolved
  names := by
    refine List.nodup_cons.mpr ⟨fun hmem => ?_, root.names⟩
    obtain ⟨child, hchild, hsame⟩ := List.mem_map.mp hmem
    obtain rfl : child.name = name := hsame
    have hentry := child?_eq_some.mpr hchild
    rw [hfree] at hentry
    cases hentry
  entryNames := List.forall_mem_cons.mpr ⟨hname, root.entryNames⟩

theorem child?_insert {name other : String} {entry : RootEntry} {hname : IsEntryName name}
    {hfree : root.child? name = none} :
    (root.insert name entry hname hfree).child? other =
      if other = name then some entry else root.child? other := by
  ext e
  rw [child?_eq_some]
  by_cases hsame : other = name
  · subst hsame
    rw [if_pos rfl]
    simp only [insert, List.mem_cons, RootChild.mk.injEq, true_and, Option.some.injEq]
    constructor
    · rintro (rfl | hmem)
      · rfl
      · rw [child?_eq_some.mpr hmem] at hfree
        cases hfree
    · rintro rfl
      exact .inl rfl
  · rw [if_neg hsame, child?_eq_some]
    simp [insert, hsame]

/-- The root after the children of `holds/` have changed. -/
def mapHolds (f : List (String × HoldEntry) → List (String × HoldEntry)) : BackupRoot :=
  match root.child? "holds" with
  | some (.directory content) =>
    root.set "holds" (.directory { content with holds := f content.holds })
  | some (.symlink (some content)) =>
    root.set "holds" (.symlink (some { content with holds := f content.holds }))
  | _ => root

/-- `publish_acquired_hold` into `holds/`, which is created if need be. -/
def addHold (hold : RetentionHoldAcquired) : BackupRoot :=
  match h : root.child? "holds" with
  | none => root.insert "holds"
      (.directory ⟨.missing, [], [(hold.holdId, .directory (.parsed hold) false)]⟩) (by decide) h
  | some _ => root.mapHolds ((hold.holdId, .directory (.parsed hold) false) :: ·)

/-- A child of `holds/` after the release of a hold. -/
def released (holdId : String) : String × HoldEntry → String × HoldEntry
  | (name, .directory acquired released) => (name, .directory acquired (released || name = holdId))
  | child => child

/-- `publish_released_hold`. -/
def releaseHold (holdId : String) : BackupRoot :=
  root.mapHolds fun holds => holds.map (released holdId)

/-- A new file in `verifications/`. -/
def addAttestation (name file : String) (content : BackupDirectory)
    (attestation : AttestationFile) : BackupRoot :=
  root.set name
    (.directory { content with verifications := (file, attestation) :: content.verifications })

end BackupRoot

/-- Ids that `allocate_backup_id` returns: a time stamp, and a revision without slashes. -/
def IsAllocatedId (id : String) : Prop :=
  '/' ∉ id.toList ∧ ∃ c ∈ id.toList.head?, c.isDigit = true

theorem IsAllocatedId.isEntryName {id : String} (h : IsAllocatedId id) : IsEntryName id := by
  obtain ⟨hslash, c, hc, hdigit⟩ := h
  refine ⟨hslash, ?_, ?_, ?_⟩
  · rintro heq
    simp [heq] at hc
  · intro heq
    obtain rfl : '.' = c := by simpa [heq] using hc
    exact absurd hdigit (by decide)
  · intro heq
    obtain rfl : '.' = c := by simpa [heq] using hc
    exact absurd hdigit (by decide)

theorem IsAllocatedId.ne_holds {id : String} (h : IsAllocatedId id) : id ≠ "holds" := by
  rintro rfl
  obtain ⟨c, hc, hdigit⟩ := h.2
  obtain rfl : 'h' = c := by simpa using hc
  exact absurd hdigit (by decide)

/-! ## The sessions of a migration -/

/-- How far a migration is, with the directory of its backup and its hold. -/
inductive MigrationPhase where
  | absent
  | planned
  /- inside the backup-root session -/
  | created (name : String)
  | verified (name : String)
  | held (name : String) (hold : RetentionHoldAcquired)
  /- from `migration_started` on, Alembic may run -/
  | started (name : String) (hold : RetentionHoldAcquired)
  | resolved
  deriving DecidableEq, Repr

structure BackupWorld where
  root : BackupRoot
  lock : Option String
  migrations : String → MigrationPhase

namespace BackupWorld

variable (w : BackupWorld)

def advance (migrationId : String) (phase : MigrationPhase) : BackupWorld :=
  { w with migrations := Function.update w.migrations migrationId phase }

end BackupWorld

/-- What a failed removal may leave of a directory: some of its files. -/
def LeftOf (content : BackupDirectory) (entry : RootEntry) : Prop :=
  ∃ rest, entry = .directory rest ∧
    (rest.manifest = content.manifest ∨ rest.manifest = .missing)

/-- One step of a migration, a recovery, a prune or one of the backup tools. -/
inductive BackupStep (w : BackupWorld) : BackupWorld → Prop
  | plan {migrationId : String} : w.migrations migrationId = .absent →
      BackupStep w (w.advance migrationId .planned)
  | create {migrationId id sha256 : String} (hid : IsAllocatedId id)
      (hfree : w.root.child? id = none) : w.migrations migrationId = .planned → w.lock = none →
      BackupStep w { w.advance migrationId (.created id) with
        lock := some migrationId
        root := w.root.insert id (.directory ⟨.parsed ⟨id, sha256⟩, [], []⟩) hid.isEntryName hfree }
  | verify {migrationId name file : String} {content : BackupDirectory}
      {attestation : AttestationFile} : w.migrations migrationId = .created name →
      w.lock = some migrationId → w.root.child? name = some (.directory content) →
      BackupStep w { w.advance migrationId (.verified name) with
        root := w.root.addAttestation name file content attestation }
  | acquire {migrationId name : String} {content : BackupDirectory} {manifest : ManifestV1}
      {hold : RetentionHoldAcquired} : w.migrations migrationId = .verified name →
      w.lock = some migrationId → w.root.child? name = some (.directory content) →
      content.manifest = .parsed manifest → hold.backupId = manifest.backupId →
      hold.migrationId = migrationId → isHoldId hold.holdId = true →
      hold.holdId ∉ w.root.holds.map (·.1) → w.root.child? "holds" ≠ some .file →
      w.root.child? "holds" ≠ some (.symlink none) →
      BackupStep w { w.advance migrationId (.held name hold) with root := w.root.addHold hold }
  | close {migrationId name : String} {hold : RetentionHoldAcquired} :
      w.migrations migrationId = .held name hold → w.lock = some migrationId →
      BackupStep w { w with lock := none }
  | start {migrationId name : String} {hold : RetentionHoldAcquired} :
      w.migrations migrationId = .held name hold → w.lock ≠ some migrationId →
      BackupStep w (w.advance migrationId (.started name hold))
  /- a failure before `migration_started` -/
  | fail {migrationId : String} :
      (∀ name hold, w.migrations migrationId ≠ .started name hold) →
      w.migrations migrationId ≠ .absent →
      BackupStep w { w.advance migrationId .resolved with
        lock := if w.lock = some migrationId then none else w.lock }
  /- a committed result, or a recovery that publishes its resolution -/
  | resolve {migrationId name : String} {hold : RetentionHoldAcquired} :
      w.migrations migrationId = .started name hold →
      BackupStep w (w.advance migrationId .resolved)
  | release {migrationId : String} {hold : RetentionHoldAcquired} :
      w.migrations migrationId = .resolved → w.lock = none →
      activeHoldForMigration w.root migrationId = .ok (some hold) →
      BackupStep w { w with root := w.root.releaseHold hold.holdId }
  | prune {keep : Nat} {left : String → Option RootEntry} : 1 ≤ keep → w.lock = none →
      (∀ name content, w.root.child? name = some (.directory content) →
        ∀ entry ∈ left name, LeftOf content entry) →
      BackupStep w { w with root := (pruneBackups w.root keep true left).1 }
  /- the tools on their own -/
  | createBackup {id sha256 : String} (hid : IsAllocatedId id) (hfree : w.root.child? id = none) :
      w.lock = none → BackupStep w { w with
        root := w.root.insert id (.directory ⟨.parsed ⟨id, sha256⟩, [], []⟩) hid.isEntryName hfree }
  | verifyBackup {name file : String} {content : BackupDirectory} {attestation : AttestationFile} :
      w.lock = none → w.root.child? name = some (.directory content) →
      BackupStep w { w with root := w.root.addAttestation name file content attestation }
  | crash {migrationId : String} : w.lock = some migrationId →
      BackupStep w { w with lock := none }

/-! ## What the writes change -/

variable {root root' : BackupRoot} {keep : Nat} {backup : Backup} {name other : String}
  {hold : RetentionHoldAcquired} {w w' w₀ : BackupWorld} {migrationId : String}
  {acquired : Document RetentionHoldAcquired}

/-- The manifest of a directory, if it is a valid one. -/
def BackupRoot.manifestAt (root : BackupRoot) (name : String) : Option ManifestV1 :=
  match root.child? name with
  | some (.directory ⟨.parsed manifest, _, _⟩) => some manifest
  | _ => none

/-- Names that a listing does not pass over. -/
def Listed (name : String) : Prop :=
  ¬ (name ∈ [".", "..", ".lock"] ∨ incompletePrefix.toList.isPrefixOf name.toList)

theorem exists_backup_iff {id : String} :
    (∃ backup ∈ root.backups, backup.name = name ∧ backup.id = id) ↔
      Listed name ∧ ∃ manifest ∈ root.manifestAt name, manifest.backupId = id := by
  constructor
  · rintro ⟨backup, hbackup, rfl, rfl⟩
    obtain ⟨hentry, manifest, hmanifest, hid⟩ := mem_backups hbackup
    obtain ⟨child, hchild, hvalid⟩ := List.mem_filterMap.mp hbackup
    refine ⟨?_, manifest, ?_, hid⟩
    · unfold RootChild.backup? at hvalid
      split at hvalid
      · cases hvalid
      rename_i hlisted
      split at hvalid
      · split at hvalid
        · cases hvalid
          exact hlisted
        · cases hvalid
      · cases hvalid
    · obtain ⟨name, id, ⟨_, verifications, holds⟩⟩ := backup
      obtain rfl := hmanifest
      simp [BackupRoot.manifestAt, hentry]
  · rintro ⟨hlisted, manifest, hmanifest, rfl⟩
    unfold BackupRoot.manifestAt at hmanifest
    split at hmanifest
    · rename_i found verifications holds hentry
      cases hmanifest
      refine ⟨⟨name, manifest.backupId, ⟨.parsed manifest, verifications, holds⟩⟩,
        List.mem_filterMap.mpr ⟨_, BackupRoot.child?_eq_some.mp hentry, ?_⟩, rfl, rfl⟩
      rw [RootChild.backup?, if_neg hlisted]
    · cases hmanifest

theorem mem_activeHolds :
    acquired ∈ root.activeHolds ↔ ∃ child ∈ root.holds, activeHold? child = some acquired := by
  rw [BackupRoot.activeHolds, List.mem_filterMap]
  simp only [List.mem_insertionSort]

namespace BackupRoot

theorem manifestAt_congr (h : root'.child? name = root.child? name) :
    root'.manifestAt name = root.manifestAt name := by
  rw [manifestAt, manifestAt, h]

theorem manifestAt_insert {id sha256 : String} {hid : IsEntryName id}
    {hfree : root.child? id = none} :
    (root.insert id (.directory ⟨.parsed ⟨id, sha256⟩, [], []⟩) hid hfree).manifestAt name =
      if name = id then some ⟨id, sha256⟩ else root.manifestAt name := by
  by_cases hname : name = id
  · rw [manifestAt, child?_insert, if_pos hname, if_pos hname]
  · rw [manifestAt, child?_insert, if_neg hname, if_neg hname, manifestAt]

theorem holds_insert {id : String} {entry : RootEntry} {hid : IsEntryName id}
    {hfree : root.child? id = none} (hne : id ≠ "holds") :
    (root.insert id entry hid hfree).holds = root.holds := by
  rw [holds, child?_insert, if_neg hne.symm]
  rfl

theorem holds_of_entry (h : root'.child? "holds" = root.child? "holds") :
    root'.holds = root.holds := by
  rw [holds, holds, h]

/-- A change of a directory that keeps its manifest and the children of `holds/`. -/
theorem manifestAt_set {content content' : BackupDirectory}
    (hentry : root.child? name = some (.directory content))
    (hmanifest : content'.manifest = content.manifest) :
    (root.set name (.directory content')).manifestAt other = root.manifestAt other := by
  by_cases hother : other = name
  · subst hother
    obtain ⟨manifest, verifications, holds⟩ := content
    obtain ⟨manifest', verifications', holds'⟩ := content'
    obtain rfl : manifest' = manifest := hmanifest
    rw [manifestAt, manifestAt, child?_set (by rw [hentry]; rfl), hentry]
    cases manifest' <;> rfl
  · exact manifestAt_congr (child?_set_ne hother)

theorem holds_set {content content' : BackupDirectory}
    (hentry : root.child? name = some (.directory content))
    (hholds : content'.holds = content.holds) :
    (root.set name (.directory content')).holds = root.holds := by
  by_cases hname : "holds" = name
  · subst hname
    rw [holds, holds, child?_set (by rw [hentry]; rfl), hentry]
    exact hholds
  · rw [holds, holds, child?_set_ne hname]

section Holds

variable {f : List (String × HoldEntry) → List (String × HoldEntry)}

theorem manifestAt_mapHolds : (root.mapHolds f).manifestAt other = root.manifestAt other := by
  unfold mapHolds
  split
  · rename_i content hentry
    exact manifestAt_set hentry rfl
  · rename_i content hentry
    by_cases hother : other = "holds"
    · subst hother
      rw [manifestAt, manifestAt, child?_set (by rw [hentry]; rfl), hentry]
    · exact manifestAt_congr (child?_set_ne hother)
  · rfl

theorem holds_mapHolds (h : (∃ content, root.child? "holds" = some (.directory content)) ∨
    ∃ content, root.child? "holds" = some (.symlink (some content))) :
    (root.mapHolds f).holds = f root.holds := by
  rcases h with ⟨content, h⟩ | ⟨content, h⟩
  · simp only [mapHolds, holds, h]
    rw [child?_set (by rw [h]; rfl)]
  · simp only [mapHolds, holds, h]
    rw [child?_set (by rw [h]; rfl)]

end Holds

end BackupRoot

/-- A root as the tools leave it. -/
structure BackupRoot.Proper (root : BackupRoot) : Prop where
  names : ∀ name, Listed name → ∀ manifest ∈ root.manifestAt name,
    manifest.backupId = name ∧ name ≠ "holds"
  holdNames : (root.holds.map (·.1)).Nodup
  holdIds : ∀ name hold released, (name, HoldEntry.directory (.parsed hold) released) ∈ root.holds →
    name = hold.holdId

/-- Backup and hold of a migration. -/
structure BackupRoot.Keeps (root : BackupRoot) (migrationId name : String)
    (hold : RetentionHoldAcquired) : Prop where
  listed : Listed name
  backup : ∃ manifest ∈ root.manifestAt name, manifest.backupId = name
  active : .parsed hold ∈ root.activeHolds
  backupId : hold.backupId = name
  migration : hold.migrationId = migrationId

/-! ## What the writes keep -/

namespace BackupRoot

theorem Proper.named (h : root.Proper) : root.Named keep := by
  have hids (backup : Backup) (hbackup : backup ∈ root.backups) :
      backup.name = backup.id ∧ backup.name ≠ "holds" := by
    obtain ⟨hlisted, manifest, hmanifest, hid⟩ := exists_backup_iff.mp ⟨backup, hbackup, rfl, rfl⟩
    obtain ⟨hname, hholds⟩ := h.names _ hlisted manifest hmanifest
    exact ⟨hname.symm.trans hid, hholds⟩
  refine ⟨?_, fun backup hbackup _ => (hids backup hbackup).1,
    fun backup hbackup => (hids backup hbackup).2⟩
  have hnames : root.backups.map (·.id) = root.backups.map (·.name) :=
    List.map_congr_left fun backup hbackup => (hids backup hbackup).1.symm
  rw [hnames]
  exact root.names.sublist root.backup_names

/-- A write that adds backups under their ids, and leaves the holds alone. -/
theorem Proper.congr (h : root.Proper)
    (hmanifests : ∀ name manifest, root'.manifestAt name = some manifest →
      root.manifestAt name = some manifest ∨ manifest.backupId = name ∧ name ≠ "holds")
    (hholds : root'.holds = root.holds) : root'.Proper where
  names name hlisted manifest hmanifest :=
    (hmanifests name manifest hmanifest).elim (h.names name hlisted manifest) id
  holdNames := hholds ▸ h.holdNames
  holdIds := hholds ▸ h.holdIds

theorem Keeps.congr (h : root.Keeps migrationId name hold)
    (hmanifest : root'.manifestAt name = root.manifestAt name)
    (hholds : root'.holds = root.holds) : root'.Keeps migrationId name hold where
  listed := h.listed
  backup := hmanifest ▸ h.backup
  active := by
    rw [mem_activeHolds, hholds, ← mem_activeHolds]
    exact h.active
  backupId := h.backupId
  migration := h.migration

end BackupRoot

/-- What a migration in a phase relies on. -/
def MigrationPhase.Backed (root : BackupRoot) (migrationId : String) : MigrationPhase → Prop
  | absent | planned | resolved => True
  | created name | verified name => Listed name
  | held name hold | started name hold => root.Keeps migrationId name hold

/-- The invariant: the root is proper, and migrations keep their backups and holds. -/
structure BackupWorld.Sound (w : BackupWorld) : Prop where
  proper : w.root.Proper
  backed : ∀ migrationId, (w.migrations migrationId).Backed w.root migrationId

section Writes

variable {id sha256 : String}

theorem BackupRoot.Proper.insert (h : root.Proper) (hid : IsAllocatedId id)
    (hfree : root.child? id = none) : (root.insert id (.directory ⟨.parsed ⟨id, sha256⟩, [], []⟩)
      hid.isEntryName hfree).Proper := by
  refine h.congr (fun name manifest hmanifest => ?_) (holds_insert hid.ne_holds)
  rw [manifestAt_insert] at hmanifest
  split at hmanifest
  · rename_i hname
    cases hmanifest
    exact .inr ⟨hname.symm, hname ▸ hid.ne_holds⟩
  · exact .inl hmanifest

theorem BackupRoot.Keeps.insert (h : root.Keeps migrationId name hold) (hid : IsAllocatedId id)
    (hfree : root.child? id = none) :
    (root.insert id (.directory ⟨.parsed ⟨id, sha256⟩, [], []⟩)
      hid.isEntryName hfree).Keeps migrationId name hold := by
  refine h.congr ?_ (holds_insert hid.ne_holds)
  rw [manifestAt_insert, if_neg]
  rintro rfl
  obtain ⟨manifest, hmanifest, _⟩ := h.backup
  simp [manifestAt, hfree] at hmanifest

end Writes

section Attestations

variable {content : BackupDirectory} {file : String} {attestation : AttestationFile}

theorem BackupRoot.Proper.addAttestation (hproper : root.Proper)
    (h : root.child? name = some (.directory content)) :
    (root.addAttestation name file content attestation).Proper := by
  refine hproper.congr (fun name manifest hmanifest => .inl ?_) (holds_set h rfl)
  rw [← hmanifest, BackupRoot.addAttestation, manifestAt_set h]
  rfl

theorem BackupRoot.Keeps.addAttestation (hkeeps : root.Keeps migrationId other hold)
    (h : root.child? name = some (.directory content)) :
    (root.addAttestation name file content attestation).Keeps migrationId other hold :=
  hkeeps.congr (manifestAt_set h rfl) (holds_set h rfl)

end Attestations

/-! ### Holds -/

namespace BackupRoot

theorem addHold_spec (hold : RetentionHoldAcquired) (hfile : root.child? "holds" ≠ some .file)
    (hlink : root.child? "holds" ≠ some (.symlink none)) :
    (∀ name, (root.addHold hold).manifestAt name = root.manifestAt name) ∧
      (root.addHold hold).holds = (hold.holdId, .directory (.parsed hold) false) :: root.holds := by
  unfold addHold
  split
  · rename_i hnone
    refine ⟨fun name => ?_, ?_⟩
    · by_cases hname : name = "holds"
      · subst hname
        rw [manifestAt, manifestAt, child?_insert, if_pos rfl, hnone]
      · exact manifestAt_congr (by rw [child?_insert, if_neg hname])
    · simp [holds, child?_insert, hnone]
  · rename_i entry hentry
    refine ⟨fun name => manifestAt_mapHolds, holds_mapHolds ?_⟩
    cases entry with
    | file => exact absurd hentry hfile
    | directory content => exact .inl ⟨content, hentry⟩
    | symlink target =>
      cases target with
      | none => exact absurd hentry hlink
      | some content => exact .inr ⟨content, hentry⟩

theorem holds_releaseHold {holdId : String} :
    (root.releaseHold holdId).holds = root.holds.map (released holdId) := by
  by_cases h : (∃ content, root.child? "holds" = some (.directory content)) ∨
      ∃ content, root.child? "holds" = some (.symlink (some content))
  · exact holds_mapHolds h
  · have hsame : root.releaseHold holdId = root := by
      unfold releaseHold mapHolds
      split
      · rename_i content hentry
        exact absurd (.inl ⟨content, hentry⟩) h
      · rename_i content hentry
        exact absurd (.inr ⟨content, hentry⟩) h
      · rfl
    have hnil : root.holds = [] := by
      unfold holds
      split
      · rename_i content hentry
        exact absurd (.inl ⟨content, hentry⟩) h
      · rename_i content hentry
        exact absurd (.inr ⟨content, hentry⟩) h
      · rfl
    rw [hsame, hnil]
    rfl

theorem Proper.addHold (h : root.Proper) (hfresh : hold.holdId ∉ root.holds.map (·.1))
    (hfile : root.child? "holds" ≠ some .file)
    (hlink : root.child? "holds" ≠ some (.symlink none)) : (root.addHold hold).Proper := by
  obtain ⟨hmanifests, hholds⟩ := addHold_spec hold hfile hlink
  refine ⟨fun name hlisted manifest hmanifest => ?_, ?_, ?_⟩
  · rw [hmanifests] at hmanifest
    exact h.names name hlisted manifest hmanifest
  · rw [hholds]
    exact List.nodup_cons.mpr ⟨hfresh, h.holdNames⟩
  · rw [hholds]
    intro name found released hmem
    rcases List.mem_cons.mp hmem with heq | hmem
    · cases heq
      rfl
    · exact h.holdIds name found released hmem

theorem Keeps.addHold {added : RetentionHoldAcquired} (h : root.Keeps migrationId name hold)
    (hfile : root.child? "holds" ≠ some .file)
    (hlink : root.child? "holds" ≠ some (.symlink none)) :
    (root.addHold added).Keeps migrationId name hold := by
  obtain ⟨hmanifests, hholds⟩ := addHold_spec added hfile hlink
  refine ⟨h.listed, (hmanifests name).symm ▸ h.backup, ?_, h.backupId, h.migration⟩
  obtain ⟨child, hchild, hactive⟩ := mem_activeHolds.mp h.active
  exact mem_activeHolds.mpr ⟨child, hholds ▸ List.mem_cons_of_mem _ hchild, hactive⟩

theorem released_fst {holdId : String} (child : String × HoldEntry) :
    (released holdId child).1 = child.1 := by
  obtain ⟨name, entry⟩ := child
  cases entry <;> rfl

theorem Proper.releaseHold {holdId : String} (h : root.Proper) :
    (root.releaseHold holdId).Proper := by
  refine ⟨fun name hlisted manifest hmanifest => ?_, ?_, ?_⟩
  · rw [BackupRoot.releaseHold, manifestAt_mapHolds] at hmanifest
    exact h.names name hlisted manifest hmanifest
  · rw [holds_releaseHold, List.map_map]
    exact (List.map_congr_left fun child _ => released_fst child).symm ▸ h.holdNames
  · rw [holds_releaseHold]
    intro name hold released hreleased
    obtain ⟨⟨name', entry⟩, hmem, heq⟩ := List.mem_map.mp hreleased
    cases entry with
    | other => cases heq
    | directory acquired released' =>
      cases heq
      exact h.holdIds _ hold released' hmem

theorem active_hold (hactive : .parsed hold ∈ root.activeHolds) :
    ∃ name, (name, HoldEntry.directory (.parsed hold) false) ∈ root.holds ∧
      isHoldId name = true := by
  obtain ⟨⟨name, entry⟩, hmem, hactive⟩ := mem_activeHolds.mp hactive
  cases entry with
  | other => cases hactive
  | directory acquired released =>
    cases released with
    | true => cases hactive
    | false =>
      rw [activeHold?] at hactive
      split at hactive
      · rename_i hid
        cases hactive
        exact ⟨name, hmem, hid⟩
      · cases hactive

/-- The release of another hold leaves a hold active. -/
theorem Keeps.releaseHold {other : RetentionHoldAcquired} (h : root.Keeps migrationId name hold)
    (hproper : root.Proper) (hother : .parsed other ∈ root.activeHolds) (hne : other ≠ hold) :
    (root.releaseHold other.holdId).Keeps migrationId name hold := by
  refine ⟨h.listed, ?_, ?_, h.backupId, h.migration⟩
  · rw [BackupRoot.releaseHold, manifestAt_mapHolds]
    exact h.backup
  · obtain ⟨n, hmem, hid⟩ := active_hold h.active
    obtain ⟨n', hmem', _⟩ := active_hold hother
    have hname : n ≠ other.holdId := by
      intro heq
      have hsame := List.inj_on_of_nodup_map hproper.holdNames hmem hmem'
        (heq.trans (hproper.holdIds _ _ _ hmem').symm)
      cases hsame
      exact hne rfl
    refine mem_activeHolds.mpr ⟨(n, .directory (.parsed hold) false), ?_, if_pos hid⟩
    rw [holds_releaseHold]
    refine List.mem_map.mpr ⟨_, hmem, ?_⟩
    simp [released, hname]

end BackupRoot

/-! ### Prunes -/

section Prunes

variable {left : String → Option RootEntry}

theorem prune_holds (hproper : root.Proper) :
    (pruneBackups root keep true left).1.child? "holds" = root.child? "holds" := by
  have hnamed : root.Named keep := hproper.named
  by_contra hchanged
  obtain ⟨backup, hbackup, hname, _⟩ := pruneBackups_safe hnamed hchanged
  exact hnamed.holds backup hbackup hname

/-- A prune that fails to remove a directory leaves no other manifest behind. -/
theorem prune_proper (hproper : root.Proper)
    (hleft : ∀ name content, root.child? name = some (.directory content) →
      ∀ entry ∈ left name, LeftOf content entry) :
    (pruneBackups root keep true left).1.Proper := by
  have hnamed : root.Named keep := hproper.named
  refine hproper.congr (fun name manifest hmanifest => .inl ?_)
    (BackupRoot.holds_of_entry (prune_holds hproper))
  by_cases hsame :
      (pruneBackups root keep true left).1.child? name = root.child? name
  · rwa [BackupRoot.manifestAt_congr hsame] at hmanifest
  obtain ⟨backup, hbackup, rfl, _⟩ := pruneBackups_safe hnamed hsame
  have hentry := (mem_backups hbackup).1
  have hremoved := (child?_pruneBackups_or hnamed backup.name).resolve_left hsame
  unfold BackupRoot.manifestAt at hmanifest ⊢
  rw [hremoved] at hmanifest
  split at hmanifest
  · rename_i found verifications holds hrest
    obtain ⟨rest, hdirectory, hkept⟩ := hleft _ _ hentry _ hrest
    cases hdirectory
    rw [hentry]
    rcases hkept with hkept | hkept
    · obtain ⟨name, id, ⟨_, verifications', holds'⟩⟩ := backup
      obtain rfl := hkept
      exact hmanifest
    · cases hkept
  · cases hmanifest

/-- The hold of a migration protects its backup. -/
theorem prune_keeps (hproper : root.Proper) (h : root.Keeps migrationId name hold) :
    (pruneBackups root keep true left).1.Keeps migrationId name hold := by
  have hnamed : root.Named keep := hproper.named
  refine h.congr (BackupRoot.manifestAt_congr ?_)
    (BackupRoot.holds_of_entry (prune_holds hproper))
  by_contra hchanged
  obtain ⟨backup, hbackup, rfl, hunprotected⟩ := pruneBackups_safe hnamed hchanged
  have hid : backup.name = backup.id := hnamed.names backup hbackup
    fun hnewest => hunprotected (.inl hnewest)
  exact hunprotected (.inr (.inr ⟨hold, h.active, h.backupId.trans hid⟩))

end Prunes

/-! ## Runs -/

theorem IsAllocatedId.listed {id : String} (h : IsAllocatedId id) : Listed id := by
  obtain ⟨_, c, hc, hdigit⟩ := h
  have hdot (rest : List Char) : id.toList ≠ '.' :: rest := by
    intro heq
    obtain rfl : '.' = c := by simpa [heq] using hc
    exact absurd hdigit (by decide)
  rintro (hskipped | hincomplete)
  · simp only [List.mem_cons, List.not_mem_nil, or_false] at hskipped
    rcases hskipped with rfl | rfl | rfl
    · exact hdot [] (by decide)
    · exact hdot ['.'] (by decide)
    · exact hdot ['l', 'o', 'c', 'k'] (by decide)
  · obtain ⟨rest, hrest⟩ := List.isPrefixOf_iff_prefix.mp hincomplete
    exact hdot _ hrest.symm

theorem MigrationPhase.Backed.mono {phase : MigrationPhase} (h : phase.Backed root migrationId)
    (hkeeps : ∀ name hold, phase = .held name hold ∨ phase = .started name hold →
      root.Keeps migrationId name hold → root'.Keeps migrationId name hold) :
    phase.Backed root' migrationId := by
  cases phase with
  | absent | planned | resolved | created | verified => exact h
  | held name hold => exact hkeeps name hold (.inl rfl) h
  | started name hold => exact hkeeps name hold (.inr rfl) h

/-- A step keeps the invariant if it keeps what migrations need, and backs those it moves. -/
theorem BackupWorld.Sound.step (hw : w.Sound) (hproper : w'.root.Proper)
    (hkeeps : ∀ migrationId name hold, w.migrations migrationId = .held name hold ∨
      w.migrations migrationId = .started name hold →
      w.root.Keeps migrationId name hold → w'.root.Keeps migrationId name hold)
    (hmoved : ∀ migrationId, w'.migrations migrationId = w.migrations migrationId ∨
      (w'.migrations migrationId).Backed w'.root migrationId) : w'.Sound where
  proper := hproper
  backed migrationId := by
    rcases hmoved migrationId with hsame | hbacked
    · rw [hsame]
      exact (hw.backed migrationId).mono (hkeeps migrationId)
    · exact hbacked

/-- A migration that moves to another phase. -/
theorem moved_update {phase : MigrationPhase} (hphase : phase.Backed root migrationId)
    (other : String) :
    Function.update w.migrations migrationId phase other = w.migrations other ∨
      (Function.update w.migrations migrationId phase other).Backed root other := by
  by_cases hother : other = migrationId
  · subst hother
    rw [Function.update_self]
    exact .inr hphase
  · exact .inl (Function.update_of_ne hother _ _)

/-- Every step keeps the invariant. -/
theorem BackupStep.sound (h : BackupStep w w') (hw : w.Sound) : w'.Sound := by
  cases h with
  | plan => exact hw.step hw.proper (fun _ _ _ _ => id) (moved_update trivial)
  | create hid hfree =>
    exact hw.step (hw.proper.insert hid hfree) (fun _ _ _ _ hkeeps => hkeeps.insert hid hfree)
      (moved_update hid.listed)
  | @verify migrationId name _ _ _ hphase _ hentry =>
    have hlisted := hw.backed migrationId
    rw [hphase] at hlisted
    exact hw.step (hw.proper.addAttestation hentry)
      (fun _ _ _ _ hkeeps => hkeeps.addAttestation hentry) (moved_update hlisted)
  | @acquire migrationId name content manifest hold hphase _ hentry hmanifest hbackup hmigration
      hid hfresh hfile hlink =>
    have hlisted := hw.backed migrationId
    rw [hphase] at hlisted
    refine hw.step (hw.proper.addHold hfresh hfile hlink)
      (fun _ _ _ _ hkeeps => hkeeps.addHold hfile hlink) (moved_update ?_)
    have hfound : manifest ∈ w.root.manifestAt name := by
      obtain ⟨_, verifications, holds⟩ := content
      obtain rfl := hmanifest
      simp [BackupRoot.manifestAt, hentry]
    have hname := (hw.proper.names name hlisted manifest hfound).1
    obtain ⟨hmanifests, hholds⟩ := BackupRoot.addHold_spec hold hfile hlink
    refine ⟨hlisted, ⟨manifest, (hmanifests name).symm ▸ hfound, hname⟩, ?_,
      hbackup.trans hname, hmigration⟩
    refine mem_activeHolds.mpr ⟨(hold.holdId, .directory (.parsed hold) false), ?_, if_pos hid⟩
    rw [hholds]
    exact List.mem_cons_self
  | close | crash => exact ⟨hw.proper, hw.backed⟩
  | @start migrationId name hold hphase _ =>
    have hkept := hw.backed migrationId
    rw [hphase] at hkept
    exact hw.step hw.proper (fun _ _ _ _ => id) (moved_update hkept)
  | fail | resolve => exact hw.step hw.proper (fun _ _ _ _ => id) (moved_update trivial)
  | @release migrationId hold hphase _ hfound =>
    obtain ⟨hactive, hmigration⟩ := firstHold_eq_some hfound
    refine hw.step hw.proper.releaseHold (fun other name kept hother hkeeps =>
      hkeeps.releaseHold hw.proper hactive ?_) fun _ => .inl rfl
    rintro rfl
    obtain rfl : other = migrationId :=
      hkeeps.migration.symm.trans (of_decide_eq_true hmigration)
    rw [hphase] at hother
    rcases hother with hother | hother <;> cases hother
  | prune _ _ hleft =>
    exact hw.step (prune_proper hw.proper hleft)
      (fun _ _ _ _ hkeeps => prune_keeps hw.proper hkeeps) fun _ => .inl rfl
  | createBackup hid hfree =>
    exact hw.step (hw.proper.insert hid hfree) (fun _ _ _ _ hkeeps => hkeeps.insert hid hfree)
      fun _ => .inl rfl
  | verifyBackup _ hentry =>
    exact hw.step (hw.proper.addAttestation hentry)
      (fun _ _ _ _ hkeeps => hkeeps.addAttestation hentry) fun _ => .inl rfl

theorem backup_runs_sound (h : ReflTransGen BackupStep w₀ w) (hw : w₀.Sound) : w.Sound := by
  induction h with
  | refl => exact hw
  | tail _ hstep ih => exact hstep.sound ih

/-- No migration has begun on a proper root. -/
structure BackupWorld.Initial (w : BackupWorld) : Prop where
  proper : w.root.Proper
  absent : ∀ migrationId, w.migrations migrationId = .absent

theorem BackupWorld.Initial.sound (h : w.Initial) : w.Sound where
  proper := h.proper
  backed migrationId := by
    rw [h.absent]
    trivial

/-- A migration that nothing disturbs gets to its start. -/
theorem exists_started {id : String} (hid : IsAllocatedId id) (hfree : w.root.child? id = none)
    (hlock : w.lock = none) (habsent : w.migrations migrationId = .absent)
    (hbackup : hold.backupId = id) (hmigration : hold.migrationId = migrationId)
    (hhold : isHoldId hold.holdId = true) (hfresh : hold.holdId ∉ w.root.holds.map (·.1))
    (hfile : w.root.child? "holds" ≠ some .file)
    (hlink : w.root.child? "holds" ≠ some (.symlink none)) :
    ∃ w', ReflTransGen BackupStep w w' ∧ w'.migrations migrationId = .started id hold := by
  let created := w.root.insert id (.directory ⟨.parsed ⟨id, ""⟩, [], []⟩) hid.isEntryName hfree
  have hcreated : created.child? id = some (.directory ⟨.parsed ⟨id, ""⟩, [], []⟩) := by
    rw [BackupRoot.child?_insert, if_pos rfl]
  let verified := created.addAttestation id "verify_1.json" ⟨.parsed ⟨id, ""⟩, [], []⟩
    (.object (some "passed"))
  have hverified : verified.child? id = some (.directory
      ⟨.parsed ⟨id, ""⟩, [("verify_1.json", .object (some "passed"))], []⟩) :=
    BackupRoot.child?_set (by rw [hcreated]; rfl)
  have hentry : verified.child? "holds" = w.root.child? "holds" := by
    have hne := hid.ne_holds.symm
    have hset : verified.child? "holds" = created.child? "holds" := BackupRoot.child?_set_ne hne
    rw [hset, BackupRoot.child?_insert, if_neg hne]
  have hholds : verified.holds = w.root.holds := BackupRoot.holds_of_entry hentry
  let planned := w.advance migrationId .planned
  have hplan : BackupStep w planned := .plan habsent
  let w₂ : BackupWorld :=
    ⟨created, some migrationId, Function.update planned.migrations migrationId (.created id)⟩
  have hcreate : BackupStep planned w₂ :=
    .create (w := planned) hid hfree (Function.update_self ..) hlock
  let w₃ : BackupWorld :=
    ⟨verified, some migrationId, Function.update w₂.migrations migrationId (.verified id)⟩
  have hverify : BackupStep w₂ w₃ := .verify (Function.update_self ..) rfl hcreated
  let w₄ : BackupWorld := ⟨verified.addHold hold, some migrationId,
    Function.update w₃.migrations migrationId (.held id hold)⟩
  have hacquire : BackupStep w₃ w₄ :=
    .acquire (Function.update_self ..) rfl hverified rfl hbackup hmigration hhold
      (fun hmem => hfresh (hholds ▸ hmem)) (fun heq => hfile (hentry ▸ heq))
      fun heq => hlink (hentry ▸ heq)
  have hclose : BackupStep w₄ { w₄ with lock := none } := .close (Function.update_self ..) rfl
  have hstart : BackupStep { w₄ with lock := none }
      ({ w₄ with lock := none }.advance migrationId (.started id hold)) :=
    .start (Function.update_self ..) nofun
  exact ⟨_, .head hplan (.head hcreate (.head hverify (.head hacquire (.head hclose
    (.single hstart))))), Function.update_self ..⟩

/-- What prunes remove, and what they leave to a migration whose schema change may run. -/
theorem prune_respects_protection :
    (∀ (root : BackupRoot) (keep : Nat) (left : String → Option RootEntry), 1 ≤ keep →
      root.Named keep →
      (∀ name, (pruneBackups root keep true left).1.child? name ≠ root.child? name →
        ∃ backup ∈ root.backups, backup.name = name ∧ ¬ root.Protected keep backup) ∧
      (root.Legible → .malformed ∉ root.activeHolds →
        ∀ backup ∈ root.backups, ¬ root.Protected keep backup →
          (pruneBackups root keep true left).1.child? backup.name = left backup.name) ∧
      (.malformed ∈ root.activeHolds →
        ∀ name, (pruneBackups root keep true left).1.child? name = root.child? name)) ∧
    ∀ w₀ w : BackupWorld, w₀.Initial → ReflTransGen BackupStep w₀ w →
      ∀ migrationId name hold, w.migrations migrationId = .started name hold →
        ∃ manifest ∈ w.root.manifestAt name, manifest.backupId = name := by
  constructor
  · intro root keep left hkeep hnamed
    refine ⟨fun name hchanged => pruneBackups_safe hnamed hchanged, ?_, ?_⟩
    · intro hlegible hmalformed backup hbackup hunprotected
      exact pruneBackups_complete hkeep hnamed hlegible hmalformed hbackup hunprotected
    · exact fun hmalformed name => pruneBackups_malformed hnamed hmalformed name
  · intro w₀ w hinitial hrun migrationId name hold hstarted
    have hbacked := (backup_runs_sound hrun hinitial.sound).backed migrationId
    rw [hstarted] at hbacked
    exact hbacked.backup

/-! ## Roots in which a prune does otherwise -/

/-- A valid backup without attestations. -/
def plainBackup (name id : String) : RootChild :=
  ⟨name, .directory ⟨.parsed ⟨id, "sha256"⟩, [], []⟩⟩

def sampleHold : RetentionHoldAcquired :=
  ⟨"00000000-0000-0000-0000-000000000001", "2", "m", ["001"], "sha256"⟩

/-- Two backups, and a copy of one of them under another name. -/
def copiedRoot : BackupRoot where
  path := [['b']]
  children := [plainBackup "3" "3", plainBackup "2" "2", plainBackup "copy" "2"]
  resolved := by decide
  names := by decide
  entryNames := by decide

/-- Two backups and a hold. -/
def heldRoot (acquired : Document RetentionHoldAcquired) : BackupRoot where
  path := [['b']]
  children := [plainBackup "2" "2", plainBackup "1" "1",
    ⟨"holds", .directory ⟨.missing, [], [(sampleHold.holdId, .directory acquired false)]⟩⟩]
  resolved := by decide
  names := by
    change ["2", "1", "holds"].Nodup
    decide
  entryNames child hchild := by
    have hnames : ∀ name ∈ ["2", "1", "holds"], IsEntryName name := by decide
    exact hnames child.name (List.mem_map_of_mem (f := RootChild.name) hchild)

def emptyRoot : BackupRoot where
  path := [['b']]
  children := []
  resolved := by decide
  names := by decide
  entryNames := by decide

theorem emptyRoot_proper : emptyRoot.Proper where
  names := nofun
  holdNames := by decide
  holdIds := nofun

/-- A copy makes a prune delete a backup that is among the newest, and a malformed hold makes it
keep one that nothing protects. -/
theorem prune_deletes_newest_and_keeps_unprotected :
    ((pruneBackups copiedRoot 2 true fun _ => none).1.child? "2" = none ∧
      copiedRoot.child? "2" = some (plainBackup "2" "2").entry ∧ copiedRoot.Newest 2 "2") ∧
    (pruneBackups (heldRoot .malformed) 1 true fun _ => none).1.child? "1" =
      some (plainBackup "1" "1").entry ∧
    ∃ backup ∈ (heldRoot .malformed).backups, backup.name = "1" ∧
      ¬ (heldRoot .malformed).Protected 1 backup := by
  refine ⟨⟨by decide +kernel, by decide +kernel, ?_⟩, by decide +kernel,
    ⟨"1", "1", ⟨.parsed ⟨"1", "sha256"⟩, [], []⟩⟩, by decide +kernel, rfl, ?_⟩
  · have hcount : (copiedRoot.backups.filter ("2" < ·.id)).length = 1 := by decide +kernel
    rw [BackupRoot.Newest, hcount]
    decide
  · rintro (hnewest | ⟨hresult, _⟩ | ⟨hold, hactive, _⟩)
    · exact absurd hnewest (by unfold BackupRoot.Newest; decide +kernel)
    · exact absurd hresult (by decide +kernel)
    · have hactives : (heldRoot .malformed).activeHolds = [.malformed] := by decide +kernel
      simp [hactives] at hactive

theorem heldRoot_named : (heldRoot (.parsed sampleHold)).Named 1 where
  ids := by decide
  names := by
    have hids : ∀ backup ∈ (heldRoot (.parsed sampleHold)).backups, backup.name = backup.id := by
      decide
    exact fun backup hbackup _ => hids backup hbackup
  holds := by decide

theorem heldRoot_legible : (heldRoot (.parsed sampleHold)).Legible where
  manifests := by
    intro child hchild content hcontent e
    simp only [heldRoot, plainBackup, List.mem_cons, List.not_mem_nil, or_false] at hchild
    rcases hchild with rfl | rfl | rfl <;> cases hcontent <;> simp
  attestations := by
    have hnone : ∀ backup ∈ (heldRoot (.parsed sampleHold)).backups,
        (backup.content.latestAttestation >>= verifyResult) = .ok none := by decide
    exact fun backup hbackup => ⟨none, hnone backup hbackup⟩
  holds := by
    have hholds : (heldRoot (.parsed sampleHold)).activeHolds = [.parsed sampleHold] := by
      decide
    simp [hholds]

theorem prune_respects_protection_sample :
    (pruneBackups (heldRoot (.parsed sampleHold)) 1 true fun _ => none).1.child? "1" = none ∧
    ∃ w : BackupWorld, w.migrations "m" = .started "2" sampleHold ∧
      ∃ manifest ∈ w.root.manifestAt "2", manifest.backupId = "2" := by
  have hholds : (heldRoot (.parsed sampleHold)).activeHolds = [.parsed sampleHold] := by
    decide +kernel
  constructor
  · refine (prune_respects_protection.1 (heldRoot (.parsed sampleHold)) 1 (fun _ => none)
      (Nat.le_refl 1) heldRoot_named).2.1 heldRoot_legible (by simp [hholds])
      ⟨"1", "1", ⟨.parsed ⟨"1", "sha256"⟩, [], []⟩⟩ (by decide +kernel) ?_
    rintro (hnewest | ⟨hresult, _⟩ | ⟨hold, hactive, hid⟩)
    · exact absurd hnewest (by unfold BackupRoot.Newest; decide +kernel)
    · exact absurd hresult (by decide +kernel)
    · rw [hholds, List.mem_singleton] at hactive
      cases hactive
      exact absurd hid (by decide)
  · have hhold : isHoldId sampleHold.holdId = true := by decide +kernel
    obtain ⟨w, hrun, hstarted⟩ := exists_started (w := ⟨emptyRoot, none, fun _ => .absent⟩)
      ⟨by decide, '2', rfl, rfl⟩ (by decide) rfl rfl rfl rfl hhold (by decide) (by decide)
      (by decide)
    exact ⟨w, hstarted, prune_respects_protection.2 _ w ⟨emptyRoot_proper, fun _ => rfl⟩ hrun
      "m" "2" sampleHold hstarted⟩

end FetchNow.PgBackup
