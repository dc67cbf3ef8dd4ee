import Mathlib.Data.List.Infix

/-!
# Trees with links

A tree of files and directories in which a link stands for a path, relative to the directory it is
in or absolute. Where every link of a subtree is relative and never goes up, no chain of links
leads out of the subtree.
-/
namespace LinkedTrees

/-- A step of a path. -/
inductive Step (ν : Type) where
  | stay
  | up
  | down (name : ν)
  deriving DecidableEq, Repr

structure Target (ν : Type) where
  absolute : Bool
  steps : List (Step ν)
  deriving DecidableEq, Repr

/-- The entries of a file have its inode in common. -/
inductive Node (ν : Type) where
  | file (inode : ℕ)
  | dir
  | link (target : Target ν)
  deriving DecidableEq, Repr

def Node.inode? {ν : Type} : Node ν → Option ℕ
  | file inode => some inode
  | _ => none

/-- The entries by location, and the number of the next file. -/
structure Tree (ν : Type) where
  node : List ν → Option (Node ν)
  next : ℕ
  root : node [] = some .dir
  parent : ∀ path name, node (path ++ [name]) ≠ none → node path = some .dir
  fresh : ∀ path inode, node path = some (.file inode) → inode < next

variable {ν : Type} {t base : Tree ν} {home path q : List ν} {name : ν} {steps : List (Step ν)}
  {depth : ℕ} {target : Target ν}

/-! ## Lookup -/

namespace Tree

/-- Where a path leads, if `follow` tells where the targets of its links lead. -/
def walk (t : Tree ν) (follow : List ν → List (Step ν) → Option (List ν)) :
    List ν → List (Step ν) → Option (List ν)
  | path, [] => some path
  | path, .stay :: rest => walk t follow path rest
  | path, .up :: rest => walk t follow path.dropLast rest
  | path, .down name :: rest =>
    match t.node (path ++ [name]) with
    | some (.link target) =>
      (follow (if target.absolute then [] else path) target.steps).bind fun path =>
        walk t follow path rest
    | _ => walk t follow (path ++ [name]) rest

/-- The location that a path leads to, through links that are nested up to a depth. What is missing
is passed over. -/
def resolve (t : Tree ν) : ℕ → List ν → List (Step ν) → Option (List ν)
  | 0 => t.walk fun _ _ => none
  | depth + 1 => t.walk (t.resolve depth)

end Tree

/-- A relative path that does not go up. -/
def Target.Inward (target : Target ν) : Prop := target.absolute = false ∧ Step.up ∉ target.steps

/-- The links of a subtree stay in it. -/
def Confined (home : List ν) (t : Tree ν) : Prop :=
  ∀ path target, home <+: path → t.node path = some (.link target) → target.Inward

theorem walk_confined {follow : List ν → List (Step ν) → Option (List ν)} (h : Confined home t)
    (hfollow : ∀ path steps q, home <+: path → Step.up ∉ steps → follow path steps = some q →
      home <+: q)
    (hsteps : Step.up ∉ steps) (hpath : home <+: path) (hq : t.walk follow path steps = some q) :
    home <+: q := by
  induction steps generalizing path with
  | nil =>
    cases hq
    exact hpath
  | cons step rest ih =>
    rw [List.mem_cons, not_or] at hsteps
    cases step with
    | stay => exact ih hsteps.2 hpath hq
    | up => exact absurd rfl hsteps.1
    | down name =>
      have hdown : home <+: path ++ [name] := hpath.trans (List.prefix_append _ _)
      rw [Tree.walk] at hq
      cases hnode : t.node (path ++ [name]) with
      | none =>
        rw [hnode] at hq
        exact ih hsteps.2 hdown hq
      | some node =>
        rw [hnode] at hq
        cases node with
        | file inode => exact ih hsteps.2 hdown hq
        | dir => exact ih hsteps.2 hdown hq
        | link target =>
          obtain ⟨hrelative, hup⟩ := h _ target hdown hnode
          obtain ⟨p, hp, hq⟩ := Option.bind_eq_some_iff.mp hq
          rw [if_neg (by rw [hrelative]; exact Bool.false_ne_true)] at hp
          exact ih hsteps.2 (hfollow path target.steps p hpath hup hp) hq

/-- A path that does not go up stays in a confined subtree, whatever links it goes through. -/
theorem resolve_confined (h : Confined home t) (hsteps : Step.up ∉ steps) (hpath : home <+: path)
    (hq : t.resolve depth path steps = some q) : home <+: q := by
  induction depth generalizing path steps q with
  | zero => exact walk_confined h (fun _ _ _ _ _ hnone => by cases hnone) hsteps hpath hq
  | succ depth ih =>
    exact walk_confined h (fun _ _ _ hpath hsteps hq => ih hsteps hpath hq) hsteps hpath hq

theorem dir_of_append {rest : List ν} (h : t.node (path ++ rest) = some .dir) :
    t.node path = some .dir := by
  induction rest using List.reverseRecOn with
  | nil => rwa [List.append_nil] at h
  | append_singleton rest name ih =>
    apply ih
    apply t.parent _ name
    rw [List.append_assoc, h]
    exact Option.some_ne_none _

theorem walk_down {follow : List ν → List (Step ν) → Option (List ν)} {names : List ν}
    (h : t.node (path ++ names) = some .dir) :
    t.walk follow path (names.map Step.down ++ steps) = t.walk follow (path ++ names) steps := by
  induction names generalizing path with
  | nil => rw [List.map_nil, List.nil_append, List.append_nil]
  | cons name names ih =>
    have hassoc : path ++ name :: names = path ++ [name] ++ names := by simp
    have hdir : t.node (path ++ [name]) = some .dir := dir_of_append (hassoc ▸ h)
    rw [List.map_cons, List.cons_append, Tree.walk, hdir]
    dsimp only
    rw [ih (hassoc ▸ h), hassoc]

/-- A path through a directory is looked up from the directory. -/
theorem resolve_down (h : t.node home = some .dir) :
    t.resolve depth [] (home.map Step.down ++ steps) = t.resolve depth home steps := by
  cases depth with
  | zero => exact walk_down h
  | succ depth => exact walk_down h

theorem node_below (h : t.node home = none) (hpath : home <+: path) : t.node path = none := by
  obtain ⟨rest, rfl⟩ := hpath
  induction rest using List.reverseRecOn with
  | nil => rwa [List.append_nil]
  | append_singleton rest name ih =>
    by_contra hnode
    rw [← List.append_assoc] at hnode
    have hdir := t.parent _ name hnode
    rw [ih] at hdir
    cases hdir

/-! ## Homes -/

/-- Only what stands below a home has changed, its links stay in it, and its files are new. -/
structure Within (home : List ν) (base t : Tree ν) : Prop where
  outside : ∀ path, ¬home <+: path → t.node path = base.node path
  confined : Confined home t
  inodes : ∀ path inode, home <+: path → t.node path = some (.file inode) → base.next ≤ inode
  dir : t.node home = some .dir
  next : base.next ≤ t.next

/-- A path that begins at the home and does not go up ends below it. -/
theorem Within.resolve (h : Within home base t) (hsteps : Step.up ∉ steps)
    (hq : t.resolve depth [] (home.map Step.down ++ steps) = some q) : home <+: q := by
  rw [resolve_down h.dir] at hq
  exact resolve_confined h.confined hsteps (List.prefix_refl home) hq

/-- A file below the home has no entry outside. -/
theorem Within.file {other : List ν} {inode : ℕ} (h : Within home base t) (hpath : home <+: path)
    (hfile : t.node path = some (.file inode)) (hother : t.node other = some (.file inode)) :
    home <+: other := by
  by_contra hout
  have hold := base.fresh other inode (h.outside other hout ▸ hother)
  have hnew := h.inodes path inode hpath hfile
  omega

/-! ## Changes -/

variable [DecidableEq ν]

/-- Change an entry that is no directory. -/
def Tree.set (t : Tree ν) (path : List ν) (name : ν) (new : Option (Node ν))
    (hdir : t.node path = some .dir) (hold : t.node (path ++ [name]) ≠ some .dir)
    (hnew : ∀ inode ∈ new.bind Node.inode?, inode ≤ t.next) : Tree ν where
  node p := if p = path ++ [name] then new else t.node p
  next := t.next + 1
  root := by
    rw [if_neg (by simp)]
    exact t.root
  parent p n h := by
    by_cases hentry : p ++ [n] = path ++ [name]
    · obtain rfl := (List.append_inj' hentry rfl).1
      have hne : p ≠ p ++ [name] := fun heq => by simpa using congrArg List.length heq
      rw [if_neg hne]
      exact hdir
    · rw [if_neg hentry] at h
      have hp := t.parent p n h
      have hne : p ≠ path ++ [name] := fun heq => hold (heq ▸ hp)
      rw [if_neg hne]
      exact hp
  fresh p inode h := by
    by_cases hentry : p = path ++ [name]
    · rw [if_pos hentry] at h
      exact Nat.lt_succ_of_le (hnew inode (by rw [h]; rfl))
    · rw [if_neg hentry] at h
      exact (t.fresh p inode h).trans (Nat.lt_succ_self _)

/-- The change, where it can be made. -/
def Tree.put (t : Tree ν) (path : List ν) (name : ν) (new : Option (Node ν)) : Option (Tree ν) :=
  if h : t.node path = some .dir ∧ t.node (path ++ [name]) ≠ some .dir ∧
      ∀ inode ∈ new.bind Node.inode?, inode ≤ t.next then
    some (t.set path name new h.1 h.2.1 h.2.2)
  else none

theorem put_eq_some {t' : Tree ν} {new : Option (Node ν)} (h : t.put path name new = some t') :
    t.node path = some .dir ∧ t.node (path ++ [name]) ≠ some .dir ∧ t'.next = t.next + 1 ∧
      ∀ p, t'.node p = if p = path ++ [name] then new else t.node p := by
  unfold Tree.put at h
  split_ifs at h with hput
  cases h
  exact ⟨hput.1, hput.2.1, rfl, fun _ => rfl⟩

/-- What a change puts below the home is a directory, a new file or an inward link. -/
theorem Within.put {t' : Tree ν} {new : Option (Node ν)} (h : Within home base t)
    (hput : t.put path name new = some t') (hpath : home <+: path)
    (hlink : ∀ target, new = some (.link target) → target.Inward)
    (hfile : ∀ inode, new = some (.file inode) → base.next ≤ inode) : Within home base t' := by
  obtain ⟨-, hold, hnext, hnode⟩ := put_eq_some hput
  have hentry : home <+: path ++ [name] := hpath.trans (List.prefix_append _ _)
  constructor
  · intro p hp
    have hne : p ≠ path ++ [name] := fun heq => hp (heq ▸ hentry)
    rw [hnode, if_neg hne]
    exact h.outside p hp
  · intro p target hp hp'
    rw [hnode] at hp'
    by_cases heq : p = path ++ [name]
    · rw [if_pos heq] at hp'
      exact hlink target hp'
    · rw [if_neg heq] at hp'
      exact h.confined p target hp hp'
  · intro p inode hp hp'
    rw [hnode] at hp'
    by_cases heq : p = path ++ [name]
    · rw [if_pos heq] at hp'
      exact hfile inode hp'
    · rw [if_neg heq] at hp'
      exact h.inodes p inode hp hp'
  · have hne : home ≠ path ++ [name] := fun heq => hold (heq ▸ h.dir)
    rw [hnode, if_neg hne]
    exact h.dir
  · rw [hnext]
    exact h.next.trans (Nat.le_succ _)

end LinkedTrees
