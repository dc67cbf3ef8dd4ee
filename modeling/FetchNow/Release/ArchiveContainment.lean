import FetchNow.Release.Archive
import Mathlib.Data.List.TakeWhile

/-!
# Extraction stays in its directory

Every call of the extraction keeps the tree below the destination confined: no link in it is
absolute or goes up. That no target leaves the destination is checked on the text only, and this
is enough.
-/
namespace FetchNow.Archive

open Faults Faults.Prog LinkedTrees

/-- What an extraction may change: it makes missing directories on the way to the destination, and
whatever else it makes is inside, with every link leading to the inside and no entry of its files
on the outside. -/
structure Contained (destination : Location) (before after : FileSystem) : Prop where
  created : ∀ path, after.node path ≠ before.node path → destination <+: path ∨
    (path <+: destination ∧ before.node path = none ∧ after.node path = some .dir)
  links : ∀ path target maxLinks location, after.node path = some (.link target) →
    before.node path ≠ some (.link target) →
      after.resolve maxLinks [] (Location.walk path) = some location → destination <+: location
  files : ∀ path inode other, after.node path = some (.file inode) →
    before.node path ≠ some (.file inode) → after.node other = some (.file inode) →
      destination <+: other

variable {p : Platform} {destination home : Location} {base before fs fs' : FileSystem}
  {member filtered : TarInfo} {members : List TarInfo} {text : Str} {kind : String}
  {path : Walk} {prepared : Bool}

/-! ## Texts -/

/-- A path text that is not empty: no component goes up, and it is relative. -/
structure SafeText (text : Str) : Prop where
  relative : text.head? ≠ some slash
  inward : LinkedTrees.Step.up ∉ steps text

theorem up_mem_steps : LinkedTrees.Step.up ∈ steps text ↔ [dot, dot] ∈ (purePath text).parts := by
  have hup (component : Name) : stepOf component = .up ↔ component = [dot, dot] := by
    unfold stepOf
    by_cases hstay : component = [] ∨ component = [dot]
    · rw [if_pos hstay]
      refine iff_of_false nofun ?_
      rintro rfl
      rcases hstay with h | h <;> cases h
    · rw [if_neg hstay]
      by_cases htwo : component = [dot, dot]
      · rw [if_pos htwo]
        exact iff_of_true rfl htwo
      · rw [if_neg htwo]
        exact iff_of_false nofun htwo
  rw [steps, List.mem_map, purePath, List.mem_filter]
  constructor
  · rintro ⟨component, hmem, hstep⟩
    obtain rfl := (hup component).mp hstep
    exact ⟨hmem, by decide⟩
  · rintro ⟨hmem, -⟩
    exact ⟨_, hmem, (hup _).mpr rfl⟩

theorem steps_ne_nil (text : Str) : steps text ≠ [] := by
  rw [steps, Ne, List.map_eq_nil_iff]
  exact List.splitOn_ne_nil slash text

theorem require_eq_ok {c : Prop} [Decidable c] {reason : String} {u : Unit}
    (h : require c reason text = .ok u) : c := by
  unfold require at h
  split_ifs at h with hc
  exact hc

theorem bind_eq_ok {α β : Type} {x : Except ArchiveFailure α} {f : α → Except ArchiveFailure β}
    {b : β} (h : (x >>= f) = .ok b) : ∃ a, x = .ok a ∧ f a = .ok b := by
  cases x with
  | error e => cases h
  | ok a => exact ⟨a, rfl, h⟩

theorem safeText_of_reject {u : Unit} (h : rejectUnsafeName kind text = .ok u) : SafeText text := by
  unfold rejectUnsafeName at h
  obtain ⟨_, -, h⟩ := bind_eq_ok h
  obtain ⟨_, -, h⟩ := bind_eq_ok h
  obtain ⟨_, habsolute, h⟩ := bind_eq_ok h
  obtain ⟨_, -, h⟩ := bind_eq_ok h
  exact ⟨(require_eq_ok habsolute).1, fun hup => require_eq_ok h (up_mem_steps.mp hup)⟩

/-- A member that the filter lets pass. -/
structure SafeMember (member : TarInfo) : Prop where
  name : SafeText member.name
  link : member.issym ∨ member.islnk → SafeText member.linkname

theorem safeMember_of_filter (h : safeExtractFilter p destination fs member = .ok filtered) :
    SafeMember filtered := by
  unfold safeExtractFilter at h
  obtain ⟨_, hname, h⟩ := bind_eq_ok h
  obtain ⟨_, -, h⟩ := bind_eq_ok h
  obtain ⟨_, -, h⟩ := bind_eq_ok h
  have hsafe := safeText_of_reject hname
  by_cases hlink : member.issym ∨ member.islnk
  · rw [if_pos hlink] at h
    obtain ⟨_, htarget, h⟩ := bind_eq_ok h
    obtain ⟨_, -, h⟩ := bind_eq_ok h
    obtain ⟨_, -, h⟩ := bind_eq_ok h
    obtain ⟨_, -, h⟩ := bind_eq_ok h
    obtain ⟨_, -, h⟩ := bind_eq_ok h
    cases h
    exact ⟨hsafe, fun _ => safeText_of_reject htarget⟩
  · rw [if_neg hlink] at h
    cases h
    exact ⟨hsafe, fun hlink' => absurd hlink' hlink⟩

/-- The slashes at the end of a text are components of their own. -/
theorem targetSteps_inward (h : SafeText text) : LinkedTrees.Step.up ∉ targetSteps text := by
  intro hup
  have hsplit := congrArg List.reverse
    (List.takeWhile_append_dropWhile (p := fun c => decide (c = slash)) (l := text.reverse))
  rw [List.reverse_append, List.reverse_reverse] at hsplit
  generalize hs : (text.reverse.dropWhile fun c => decide (c = slash)).reverse = stripped at hsplit
  rw [targetSteps, hs] at hup
  refine h.inward ?_
  cases hrest : (text.reverse.takeWhile fun c => decide (c = slash)).reverse with
  | nil =>
    rw [hrest, List.append_nil] at hsplit
    rwa [← hsplit]
  | cons c rest =>
    have hslash : c = slash := by
      have hmem : c ∈ text.reverse.takeWhile fun c => decide (c = slash) := by
        rw [← List.mem_reverse, hrest]
        exact List.mem_cons_self
      have hc := @List.mem_takeWhile_imp _ (fun c => decide (c = slash)) _ _ hmem
      exact of_decide_eq_true hc
    rw [hrest, hslash] at hsplit
    have hcomponents : text.splitOn slash = stripped.splitOn slash ++ rest.splitOn slash := by
      rw [← hsplit]
      exact List.splitOnP_append_cons _ _ (beq_self_eq_true slash)
    rw [steps, hcomponents, List.map_append]
    exact List.mem_append_left _ hup

theorem targetSteps_ne_nil (text : Str) : targetSteps text ≠ [] := steps_ne_nil _

/-! ## Calls -/

theorem locate_within (h : Within destination base fs) (hup : LinkedTrees.Step.up ∉ path)
    (hne : path ≠ []) {dir : Location} {name : Name}
    (hlocate : locate p fs (destination.walk ++ path) = some (dir, name)) :
    destination <+: dir := by
  unfold locate at hlocate
  split at hlocate
  · obtain ⟨found, hfound, heq⟩ := Option.map_eq_some_iff.mp hlocate
    cases heq
    rw [List.dropLast_append_of_ne_nil hne] at hfound
    exact h.resolve (fun hmem => hup (List.mem_of_mem_dropLast hmem)) hfound
  · cases hlocate

theorem enter_within {new : Node Name} (h : Within destination base fs)
    (hup : LinkedTrees.Step.up ∉ path) (hne : path ≠ [])
    (hlink : ∀ target, new = .link target → target.Inward)
    (hfile : ∀ inode, new = .file inode → base.next ≤ inode)
    (henter : enter p (destination.walk ++ path) new fs = some fs') :
    Within destination base fs' := by
  unfold enter at henter
  obtain ⟨⟨dir, name⟩, hlocate, henter⟩ := Option.bind_eq_some_iff.mp henter
  dsimp only at henter
  split_ifs at henter
  exact h.put henter (locate_within h hup hne hlocate)
    (fun target htarget => hlink target (Option.some.inj htarget))
    (fun inode hinode => hfile inode (Option.some.inj hinode))

theorem orOsError_eq_ok {result : Option FileSystem} (h : orOsError result = .ok fs') :
    result = some fs' := by
  cases result with
  | none => cases h
  | some fs => cases h; rfl

theorem mkdir_within (h : Within destination base fs) (hup : LinkedTrees.Step.up ∉ path)
    (hne : path ≠ []) (hok : mkdir p (destination.walk ++ path) fs = .ok fs') :
    Within destination base fs' :=
  enter_within h hup hne (fun _ hnode => by cases hnode) (fun _ hnode => by cases hnode)
    (orOsError_eq_ok hok)

theorem symlink_within (h : Within destination base fs) (hup : LinkedTrees.Step.up ∉ path)
    (hne : path ≠ []) (htarget : SafeText text)
    (hok : symlink p text (destination.walk ++ path) fs = .ok fs') :
    Within destination base fs' := by
  refine enter_within h hup hne ?_ (fun _ hnode => by cases hnode) (orOsError_eq_ok hok)
  rintro target ⟨⟩
  exact ⟨decide_eq_false htarget.relative, htarget.inward⟩

theorem unlink_within (h : Within destination base fs) (hup : LinkedTrees.Step.up ∉ path)
    (hne : path ≠ []) (hok : unlink p (destination.walk ++ path) fs = .ok fs') :
    Within destination base fs' := by
  obtain ⟨⟨dir, name⟩, hlocate, hput⟩ := Option.bind_eq_some_iff.mp (orOsError_eq_ok hok)
  dsimp only at hput
  split_ifs at hput
  exact h.put hput (locate_within h hup hne hlocate) nofun nofun

theorem openWrite_within (h : Within destination base fs) (hup : LinkedTrees.Step.up ∉ path)
    (hok : openWrite p (destination.walk ++ path) fs = .ok fs') :
    Within destination base fs' := by
  obtain ⟨location, hresolve, hopen⟩ := Option.bind_eq_some_iff.mp (orOsError_eq_ok hok)
  have hinside := h.resolve hup hresolve
  split at hopen
  · cases hopen
    exact h
  · rename_i name hnode hlast
    -- the home is a directory, so what is missing is below it
    have hne : destination ≠ location := by
      rintro rfl
      rw [h.dir] at hnode
      cases hnode
    have hdir : destination <+: location.dropLast := by
      obtain ⟨rest, rfl⟩ := hinside
      have hrest : rest ≠ [] := by
        rintro rfl
        exact hne (List.append_nil _).symm
      rw [List.dropLast_append_of_ne_nil hrest]
      exact List.prefix_append _ _
    refine h.put hopen hdir nofun ?_
    rintro inode ⟨⟩
    exact h.next
  · cases hopen

theorem link_within {source : Walk} (h : Within destination base fs)
    (hsource : LinkedTrees.Step.up ∉ source) (hsourceNe : source ≠ [])
    (hup : LinkedTrees.Step.up ∉ path) (hne : path ≠ [])
    (hok : link p (destination.walk ++ source) (destination.walk ++ path) fs = .ok fs') :
    Within destination base fs' := by
  obtain ⟨location, hlocation, hlink⟩ := Option.bind_eq_some_iff.mp (orOsError_eq_ok hok)
  have hinside : destination <+: location := by
    by_cases hfollow : p.linkFollowsSymlinks = true
    · rw [linkSource, if_pos hfollow] at hlocation
      exact h.resolve hsource hlocation
    · rw [linkSource, if_neg hfollow] at hlocation
      obtain ⟨⟨dir, name⟩, hlocate, rfl⟩ := Option.map_eq_some_iff.mp hlocation
      exact (locate_within h hsource hsourceNe hlocate).trans (List.prefix_append _ _)
  split at hlink
  · cases hlink
  · rename_i node hnode
    refine enter_within h hup hne ?_ ?_ hlink
    · rintro target rfl
      exact h.confined location target hinside hnode
    · rintro inode rfl
      exact h.inodes location inode hinside hnode
  · cases hlink

/-! ## Extraction -/

/-- What every operation below the destination keeps. -/
abbrev Keeps (destination : Location) (base : FileSystem) {α : Type} (m : ExtractM α) : Prop :=
  Preserves (Within destination base) m

theorem makedirs_keeps {rest : Walk} (hup : LinkedTrees.Step.up ∉ path ++ rest) :
    Keeps destination base (makedirs p (destination.walk ++ path) rest) := by
  induction rest generalizing path with
  | nil => exact Preserves.pure
  | cons component rest ih =>
    have happend : path ++ component :: rest = path ++ [component] ++ rest := by simp
    rw [happend] at hup
    have hup' : LinkedTrees.Step.up ∉ path ++ [component] :=
      fun hmem => hup (List.mem_append_left _ hmem)
    unfold makedirs
    rw [List.append_assoc]
    refine Preserves.bind Preserves.read fun present => ?_
    refine Preserves.bind (Preserves.when fun _ => ?_) fun _ => ih hup
    exact Preserves.update fun s t hs ht => mkdir_within hs hup' (by simp) ht

theorem tryLink_keeps (hmember : SafeMember member) (hlink : member.issym ∨ member.islnk)
    (hup : LinkedTrees.Step.up ∉ path) (hne : path ≠ []) :
    Keeps destination base (tryLink p destination prepared member (destination.walk ++ path)) := by
  have htarget := hmember.link hlink
  unfold tryLink
  refine Preserves.ite (fun _ => ?_) fun _ => ?_
  · refine Preserves.bind Preserves.read fun present => ?_
    refine Preserves.bind (Preserves.when fun _ => ?_) fun _ => ?_
    · exact Preserves.update fun s t hs ht => unlink_within hs hup hne ht
    · refine Preserves.bind ?_ fun _ => Preserves.pure
      exact Preserves.update fun s t hs ht => symlink_within hs hup hne htarget ht
  · refine Preserves.bind Preserves.require fun _ => ?_
    refine Preserves.bind Preserves.read fun present => ?_
    refine Preserves.ite (fun _ => ?_) fun _ => Preserves.pure
    refine Preserves.bind ?_ fun _ => Preserves.pure
    exact Preserves.update fun s t hs ht =>
      link_within hs htarget.inward (steps_ne_nil _) hup hne ht

/-- A member that is extracted in place of a link went through the filter as well. -/
theorem makelink_keeps {extract : TarInfo → ExtractM Unit} (hmember : SafeMember member)
    (hlink : member.issym ∨ member.islnk) (hup : LinkedTrees.Step.up ∉ path) (hne : path ≠ [])
    (hextract : ∀ member, SafeMember member → Keeps destination base (extract member)) :
    Keeps destination base
      (makelink p destination members extract prepared member (destination.walk ++ path)) := by
  have hreferenced (missing : ArchiveFailure) : Keeps destination base
      (makelink.referenced p destination members extract member missing) := by
    unfold makelink.referenced
    refine Preserves.bind Preserves.ofOption fun unfiltered => ?_
    exact Preserves.read_bind fun s filtered _ hfilter =>
      hextract filtered (safeMember_of_filter hfilter)
  unfold makelink
  refine Preserves.bind (Preserves.attempt (tryLink_keeps hmember hlink hup hne)) fun made => ?_
  split
  · exact Preserves.pure
  · exact hreferenced _
  · exact hreferenced _
  · exact hreferenced _
  · exact Preserves.throw

theorem makedir_keeps (hup : LinkedTrees.Step.up ∉ path) (hne : path ≠ []) :
    Keeps destination base (makedir p (destination.walk ++ path)) := by
  unfold makedir
  refine Preserves.bind (Preserves.attempt ?_) fun made => ?_
  · exact Preserves.update fun s t hs ht => mkdir_within hs hup hne ht
  · split
    · exact Preserves.pure
    · exact Preserves.bind Preserves.read fun _ => Preserves.require

/-- The induction is on the depth of the calls: a link that cannot be made is replaced by another
member at the same path. -/
theorem extractMember_keeps {limit : ℕ} (hmember : SafeMember member)
    (hup : LinkedTrees.Step.up ∉ path) (hne : path ≠ []) :
    Keeps destination base (extractMember p destination members limit prepared member path) := by
  induction limit generalizing prepared member with
  | zero => exact Preserves.throw
  | succ limit ih =>
    have hparents : Keeps destination base (makedirs p destination.walk path.dropLast) := by
      have h := @makedirs_keeps p destination base [] path.dropLast
        fun hmem => hup (List.mem_of_mem_dropLast hmem)
      rwa [List.append_nil] at h
    unfold extractMember
    refine Preserves.bind hparents fun _ => ?_
    refine Preserves.ite (fun _ => makedir_keeps hup hne) fun _ => ?_
    refine Preserves.ite (fun hlink => ?_) fun _ => ?_
    · exact makelink_keeps hmember hlink hup hne fun member hmember => ih hmember
    · exact Preserves.update fun s t hs ht => openWrite_within hs hup ht

theorem extractOne_keeps : Keeps destination base (extractOne p destination members member) := by
  unfold extractOne
  refine Preserves.catching (Preserves.read_bind fun s filtered _ hfilter => ?_)
  have hsafe := safeMember_of_filter hfilter
  exact extractMember_keeps hsafe (targetSteps_inward hsafe.name) (targetSteps_ne_nil _)

theorem extractall_keeps : Keeps destination base (extractall p destination members) := by
  have hall (rest : List TarInfo) :
      Keeps destination base (rest.forM (extractOne p destination members)) := by
    induction rest with
    | nil => exact Preserves.pure
    | cons member rest ih => exact Preserves.bind extractOne_keeps fun _ => ih
  exact hall members

/-! ## The destination -/

/-- While the destination is made, there are only new directories on the way to it. -/
def Made (destination : Location) (before fs : FileSystem) : Prop :=
  ∀ path, fs.node path = before.node path ∨
    (path <+: destination ∧ before.node path = none ∧ fs.node path = some .dir)

theorem made_refl : Made destination before before := fun _ => .inl rfl

theorem Made.contained (h : Made destination before fs) : Contained destination before fs := by
  have hchanged : ∀ path, fs.node path ≠ before.node path → fs.node path = some .dir := by
    intro path hpath
    rcases h path with hsame | ⟨-, -, hdir⟩
    · exact absurd hsame hpath
    · exact hdir
  constructor
  · intro path hpath
    exact .inr ((h path).resolve_left hpath)
  · intro path target _ _ hafter hbefore
    have hdir := hchanged path fun hsame => hbefore (hsame ▸ hafter)
    rw [hafter] at hdir
    cases hdir
  · intro path inode _ hafter hbefore
    have hdir := hchanged path fun hsame => hbefore (hsame ▸ hafter)
    rw [hafter] at hdir
    cases hdir

theorem within_of_made (h : Made destination before fs) (hnew : before.node destination = none)
    (hdir : fs.node destination = some .dir) : Within destination fs fs := by
  have hbelow : ∀ path node, destination <+: path → fs.node path = some node → node = .dir := by
    intro path node hpath hnode
    rcases h path with hsame | ⟨-, -, hdir⟩
    · rw [node_below hnew hpath, hnode] at hsame
      cases hsame
    · rw [hnode] at hdir
      exact Option.some.inj hdir
  refine ⟨fun _ _ => rfl, fun path target hpath hnode => ?_, fun path inode hpath hnode => ?_, hdir,
    le_rfl⟩
  · cases hbelow path _ hpath hnode
  · cases hbelow path _ hpath hnode

theorem contained_of_within (hmade : Made destination before base)
    (h : Within destination base fs) : Contained destination before fs := by
  have hinside : ∀ path, fs.node path ≠ before.node path → fs.node path ≠ some .dir →
      destination <+: path := by
    intro path hpath hdir
    by_contra hout
    rw [h.outside path hout] at hpath hdir
    rcases hmade path with hsame | ⟨-, -, hdir'⟩
    · exact hpath hsame
    · exact hdir hdir'
  constructor
  · intro path hpath
    by_cases hin : destination <+: path
    · exact .inl hin
    · rw [h.outside path hin] at hpath ⊢
      exact .inr ((hmade path).resolve_left hpath)
  · intro path target maxLinks location hafter hbefore hresolve
    have hin := hinside path (fun hsame => hbefore (hsame ▸ hafter)) (by rw [hafter]; nofun)
    obtain ⟨rest, rfl⟩ := hin
    rw [Location.walk, List.map_append] at hresolve
    refine h.resolve ?_ hresolve
    rw [List.mem_map]
    rintro ⟨name, -, hname⟩
    cases hname
  · intro path inode other hafter hbefore hother
    have hin := hinside path (fun hsame => hbefore (hsame ▸ hafter)) (by rw [hafter]; nofun)
    exact h.file hin hafter hother

theorem makeDirectory_made {path : Location} {name : Name} {last : Bool}
    (hway : path ++ [name] <+: destination) (hmade : Made destination before fs)
    (hok : makeDirectory (path ++ [name]) last path name fs = .ok fs') :
    Made destination before fs' ∧ (last = true → fs'.node (path ++ [name]) = some .dir) := by
  unfold makeDirectory at hok
  split at hok
  · rename_i hnone
    obtain ⟨-, -, -, hnode⟩ := put_eq_some (orOsError_eq_ok hok)
    constructor
    · intro other
      rw [hnode]
      by_cases heq : other = path ++ [name]
      · rw [if_pos heq, heq]
        refine .inr ⟨hway, ?_, rfl⟩
        rcases hmade (path ++ [name]) with hsame | ⟨-, hold, -⟩
        · rw [← hsame, hnone]
        · exact hold
      · rw [if_neg heq]
        exact hmade other
    · intro _
      rw [hnode, if_pos rfl]
  · cases last with
    | true => cases hok
    | false =>
      cases hok
      exact ⟨hmade, nofun⟩
  · cases hok

/-- The induction is on the rest of the way. -/
theorem wp_makeLocation {path rest : Location}
    {A : Call → FileSystem → Fault ArchiveFailure → Prop} (hway : path ++ rest = destination)
    (hmade : Made destination before fs) (hend : rest = [] → fs.node destination = some .dir) :
    (makeLocation path rest).wp A
      ⟨fun _ fs => Made destination before fs ∧ fs.node destination = some .dir,
        fun _ => Made destination before, Made destination before⟩ fs := by
  induction rest generalizing path fs with
  | nil => exact wp_pure.mpr ⟨hmade, hend rfl⟩
  | cons name rest ih =>
    have hway' : path ++ [name] ++ rest = destination := by simpa using hway
    have hstep {fs' : FileSystem}
        (hok : makeDirectory (path ++ [name]) rest.isEmpty path name fs = .ok fs') :=
      @makeDirectory_made destination before fs fs' path name _ ⟨rest, hway'⟩ hmade hok
    unfold makeLocation
    refine wp_bind.mpr (wp_update.mpr ⟨fun _ fs' hok => ?_, fun _ _ _ => hmade, fun _ effect _ => ?_,
      fun effect _ => ?_⟩)
    · refine ih hway' (hstep hok).1 ?_
      rintro rfl
      rw [List.append_nil] at hway'
      rw [← hway']
      exact (hstep hok).2 rfl
    · exact interrupted_of_imp hmade fun fs' hok => (hstep hok).1
    · exact interrupted_of_imp hmade fun fs' hok => (hstep hok).1

theorem wp_extractArchive {archive : Except ArchiveFailure (List TarInfo)}
    {A : Call → FileSystem → Fault ArchiveFailure → Prop} :
    (extractArchive p archive destination).wp A ⟨fun _ => Contained destination before,
      fun _ => Contained destination before, Contained destination before⟩ before := by
  unfold extractArchive
  refine wp_bind.mpr (wp_read (fun present hpresent => ?_) (fun _ => made_refl.contained)
    made_refl.contained)
  obtain rfl := Except.ok.inj hpresent
  refine wp_bind.mpr (wp_require (fun habsent => ?_) fun _ => made_refl.contained)
  have hnew : before.node destination = none := by simpa using habsent
  have hroot : destination ≠ [] := by
    rintro rfl
    rw [before.root] at hnew
    cases hnew
  refine wp_bind.mpr (wp_mono (wp_makeLocation (List.nil_append destination) made_refl
    fun h => absurd h hroot) ?_ (fun _ _ h => h.contained) fun _ h => h.contained)
  rintro _ base ⟨hmade, hdir⟩
  have hextract : Keeps destination base (do
      let members ← Prog.ofExcept archive
      let members ← read .filter fun fs => scan p destination fs [] members
      extractall p destination members : ExtractM Unit) :=
    Preserves.bind Preserves.ofExcept fun _ => Preserves.bind Preserves.read fun _ =>
      extractall_keeps
  exact hextract.wp (within_of_made hmade hnew hdir) (fun _ _ h => contained_of_within hmade h)
    (fun _ _ h => contained_of_within hmade h) fun _ h => contained_of_within hmade h

/-- Whatever is in the archive, wherever a call fails or the process stops: what there is of the
extraction is inside the destination, and its links lead nowhere else. -/
theorem extractArchive_contained (p : Platform) (archive : Except ArchiveFailure (List TarInfo))
    (destination : Location) (before : FileSystem) (script : List (Fault ArchiveFailure)) :
    Contained destination before ((extractArchive p archive destination).run script before).state := by
  have hwp := @wp_extractArchive p destination before archive fun _ _ _ => True
  have hholds := holds_of_wp script hwp fun _ _ => trivial
  cases hexit : ((extractArchive p archive destination).run script before).exit with
  | returned _ => rw [hexit] at hholds; exact hholds
  | raised _ => rw [hexit] at hholds; exact hholds
  | stopped => rw [hexit] at hholds; exact hholds

/-- A file further below a link is written where the link leads. -/
example :
    let root : FileSystem :=
      ⟨fun path => if path = [] then some .dir else none, 0, rfl, by simp, fun path inode => by
        split_ifs <;> nofun⟩
    let members : List TarInfo := [⟨codePoints "d/", '5', [], 0o755⟩,
      ⟨codePoints "l", '2', codePoints "d", 0o777⟩, ⟨codePoints "l/a/x", '0', [], 0o644⟩]
    ((extractArchive ⟨40, false, 1000⟩ (.ok members) [codePoints "out"]).run [] root).state.node
      [codePoints "out", codePoints "d", codePoints "a", codePoints "x"] = some (.file 4) := by
  decide +kernel

end FetchNow.Archive
