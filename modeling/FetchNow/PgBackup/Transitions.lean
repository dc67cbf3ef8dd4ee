import FetchNow.PgBackup.AlembicGraph
import Mathlib.Order.CompletePartialOrder

/-!
# Merged graphs and the transitions they classify

A graph that was built is closed and acyclic. Merging two of them reports a conflict only from
the first graph's side, and what is classified on the merge is applied from the second graph.
-/
namespace FetchNow.PgBackup

open Reachability Transactions

open Relation (ReflTransGen TransGen)

variable {revisions : Revisions} {graph G G₁ G₂ : AlembicGraph} {depth : ℕ}

/-! ## What a build accepts -/

/-- `y` is a parent of `x`. -/
def Parent (revisions : Revisions) (x y : String) : Prop := y ∈ revisions.parentsOf x

structure WellFormed (revisions : Revisions) : Prop where
  closed : ∀ x y, Parent revisions x y → y ∈ revisions
  acyclic : Acyclic (Parent revisions)
  nonempty : ∃ x, x ∈ revisions

theorem Parent.mem {x y : String} (h : Parent revisions x y) : x ∈ revisions := by
  by_contra hx
  have hnone : revisions.lookup x = none := AList.lookup_eq_none.mpr hx
  simp [Parent, Revisions.parentsOf, hnone] at h

theorem mem_of_foldl_insert {migrations : List Migration} {start : Revisions} {x : String}
    {parents : Parents}
    (h : (migrations.foldl (fun revisions m => revisions.insert m.revision m.parents)
      start).lookup x = some parents) :
    start.lookup x = some parents ∨ ∃ m ∈ migrations, m.revision = x ∧ m.parents = parents := by
  induction migrations generalizing start with
  | nil => exact Or.inl h
  | cons m migrations ih =>
    rcases ih h with hstart | ⟨m', hm', hsame⟩
    · by_cases hx : x = m.revision
      · subst hx
        rw [AList.lookup_insert] at hstart
        exact Or.inr ⟨m, List.mem_cons_self, rfl, Option.some.inj hstart⟩
      · rw [AList.lookup_insert_ne hx] at hstart
        exact Or.inl hstart
    · exact Or.inr ⟨m', List.mem_cons_of_mem _ hm', hsame⟩

theorem exists_migration {migrations : List Migration} {x : String} {parents : Parents}
    (h : (revisionsOf migrations).lookup x = some parents) :
    ∃ m ∈ migrations, m.revision = x ∧ m.parents = parents := by
  rcases mem_of_foldl_insert h with hempty | hm
  · simp at hempty
  · exact hm

theorem mem_of_checkParents {m : Migration} {parents : List String}
    (h : checkParents revisions m parents = .ok ()) : ∀ p ∈ parents, p ∈ revisions := by
  induction parents with
  | nil => simp
  | cons p parents ih =>
    obtain ⟨_, -, h⟩ := bind_eq_ok.mp h
    obtain ⟨_, hmem, h⟩ := bind_eq_ok.mp h
    exact List.forall_mem_cons.mpr ⟨require_eq_ok.mp hmem, ih h⟩

theorem mem_of_checkAllParents {migrations : List Migration}
    (h : checkAllParents revisions migrations = .ok ()) :
    ∀ m ∈ migrations, ∀ p ∈ m.parents.getD [], p ∈ revisions := by
  induction migrations with
  | nil => simp
  | cons m migrations ih =>
    obtain ⟨_, hm, h⟩ := bind_eq_ok.mp h
    exact List.forall_mem_cons.mpr ⟨mem_of_checkParents hm, ih h⟩

/-- What visiting adds: nothing that is being visited, and everything in order. -/
structure Extends (revisions : Revisions) (v v' : Visits) : Prop where
  visiting : v'.visiting = v.visiting
  ordered : Ordered (Parent revisions) v.visited → Ordered (Parent revisions) v'.visited
  kept : ∀ x ∈ v.visited, x ∈ v'.visited
  fresh : ∀ x ∈ v'.visited, x ∈ v.visited ∨ x ∉ v.visiting

theorem Extends.refl (v : Visits) : Extends revisions v v :=
  ⟨rfl, id, fun _ hx => hx, fun _ hx => Or.inl hx⟩

theorem Extends.trans {v v' v'' : Visits} (h : Extends revisions v v')
    (h' : Extends revisions v' v'') : Extends revisions v v'' where
  visiting := h'.visiting.trans h.visiting
  ordered hv := h'.ordered (h.ordered hv)
  kept x hx := h'.kept x (h.kept x hx)
  fresh x hx := by
    rcases h'.fresh x hx with hx | hx
    · exact h.fresh x hx
    · rw [h.visiting] at hx
      exact Or.inr hx

theorem extends_of_foldlM {f : Visits → String → Except GraphError Visits}
    (hf : ∀ v v' x, f v x = .ok v' → Extends revisions v v' ∧ x ∈ v'.visited)
    {l : List String} {v v' : Visits} (h : l.foldlM f v = .ok v') :
    Extends revisions v v' ∧ ∀ x ∈ l, x ∈ v'.visited := by
  induction l generalizing v with
  | nil =>
    cases h
    exact ⟨Extends.refl _, by simp⟩
  | cons x l ih =>
    rw [List.foldlM_cons] at h
    obtain ⟨w, hx, h⟩ := bind_eq_ok.mp h
    obtain ⟨hvw, hmem⟩ := hf v w x hx
    obtain ⟨hwv', hall⟩ := ih h
    exact ⟨hvw.trans hwv', List.forall_mem_cons.mpr ⟨hwv'.kept _ hmem, hall⟩⟩

theorem extends_of_visit {v v' : Visits} {x : String}
    (h : visit revisions depth v x = .ok v') : Extends revisions v v' ∧ x ∈ v'.visited := by
  induction depth generalizing v v' x with
  | zero => cases h
  | succ depth ih =>
    obtain ⟨_, hnew, h⟩ := bind_eq_ok.mp h
    rw [require_eq_ok] at hnew
    by_cases hvisited : x ∈ v.visited
    · rw [if_pos hvisited] at h
      cases h
      exact ⟨Extends.refl v, hvisited⟩
    · rw [if_neg hvisited] at h
      obtain ⟨w, hparents, h⟩ := bind_eq_ok.mp h
      cases h
      obtain ⟨hw, hall⟩ := extends_of_foldlM (fun _ _ _ => ih) hparents
      have hx : x ∉ w.visited := by
        intro hmem
        rcases hw.fresh x hmem with hmem | hmem
        · exact hvisited hmem
        · exact hmem List.mem_cons_self
      refine ⟨⟨?_, ?_, ?_, ?_⟩, List.mem_cons_self⟩
      · rw [hw.visiting]
        exact List.erase_cons_head ..
      · intro hord
        exact Ordered.cons hx hall (hw.ordered hord)
      · exact fun y hy => List.mem_cons_of_mem _ (hw.kept y hy)
      · intro y hy
        rcases List.mem_cons.mp hy with rfl | hy
        · exact Or.inr hnew
        · rcases hw.fresh y hy with hy | hy
          · exact Or.inl hy
          · exact Or.inr fun hmem => hy (List.mem_cons_of_mem _ hmem)

/-- Whatever a build accepts is closed and acyclic. -/
theorem wellFormed_of_build {dir : Option (List MigrationFile)}
    (h : buildAlembicGraph depth dir = .ok graph) : WellFormed graph.revisions := by
  cases dir with
  | none => cases h
  | some files =>
    obtain ⟨migrations, -, h⟩ := bind_eq_ok.mp h
    obtain ⟨_, hkeys, h⟩ := bind_eq_ok.mp h
    obtain ⟨_, hcheck, h⟩ := bind_eq_ok.mp h
    obtain ⟨visits, hvisit, h⟩ := bind_eq_ok.mp h
    obtain ⟨_, -, h⟩ := bind_eq_ok.mp h
    cases h
    obtain ⟨hext, hall⟩ := extends_of_foldlM (fun _ _ _ => extends_of_visit) hvisit
    have hord := hext.ordered Ordered.nil
    have hmigration : ∀ x y, Parent (revisionsOf migrations) x y →
        ∃ m ∈ migrations, m.revision = x ∧ y ∈ m.parents.getD [] := by
      intro x y hxy
      obtain ⟨parents, hparents⟩ := Option.isSome_iff_exists.mp
        (AList.lookup_isSome.mpr hxy.mem)
      obtain ⟨m, hm, rfl, rfl⟩ := exists_migration hparents
      refine ⟨m, hm, rfl, ?_⟩
      simpa [Parent, Revisions.parentsOf, hparents] using hxy
    refine ⟨?_, ?_, ?_⟩
    · intro x y hxy
      obtain ⟨m, hm, -, hy⟩ := hmigration x y hxy
      exact mem_of_checkAllParents hcheck m hm y hy
    · intro x hcycle
      obtain ⟨y, hxy, -⟩ := TransGen.head'_iff.mp hcycle
      obtain ⟨m, hm, rfl, -⟩ := hmigration x y hxy
      exact hord.irrefl _ (hall _ (List.mem_map_of_mem hm)) hcycle
    · obtain ⟨x, hx⟩ := List.exists_mem_of_ne_nil _ (require_eq_ok.mp hkeys)
      exact ⟨x, AList.mem_keys.mpr hx⟩

/-! ## Merging -/

/-- `r` is in both graphs, with different parents. -/
def Conflict (G₁ G₂ : AlembicGraph) : Prop :=
  ∃ r, ∃ parents₁ parents₂ : Parents, G₁.revisions.lookup r = some parents₁ ∧
    G₂.revisions.lookup r = some parents₂ ∧ parents₁ ≠ parents₂

/-- A conflict on a revision that has parents in the first graph. -/
def Contradicted (G₁ G₂ : AlembicGraph) : Prop :=
  ∃ r parents, ∃ parents₂ : Parents, G₁.revisions.lookup r = some (some parents) ∧
    G₂.revisions.lookup r = some parents₂ ∧ parents₂ ≠ some parents

/-- Some revision without parents in the first graph has parents in the second, and nothing that
has parents in the first is contradicted. -/
def ParentsAppear (G₁ G₂ : AlembicGraph) : Prop :=
  (∃ r parents, G₁.revisions.lookup r = some none ∧
    G₂.revisions.lookup r = some (some parents)) ∧ ¬ Contradicted G₁ G₂

theorem conflict_iff : Conflict G₁ G₂ ↔ ParentsAppear G₁ G₂ ∨ Contradicted G₁ G₂ := by
  constructor
  · rintro ⟨r, parents₁, parents₂, h₁, h₂, hne⟩
    by_cases hcon : Contradicted G₁ G₂
    · exact Or.inr hcon
    · refine Or.inl ⟨⟨r, ?_⟩, hcon⟩
      cases parents₁ with
      | some parents => exact (hcon ⟨r, parents, parents₂, h₁, h₂, Ne.symm hne⟩).elim
      | none =>
        cases parents₂ with
        | none => exact (hne rfl).elim
        | some parents => exact ⟨parents, h₁, h₂⟩
  · rintro (⟨⟨r, parents, h₁, h₂⟩, -⟩ | ⟨r, parents, parents₂, h₁, h₂, hne⟩)
    · exact ⟨r, none, some parents, h₁, h₂, by simp⟩
    · exact ⟨r, some parents, parents₂, h₁, h₂, Ne.symm hne⟩

theorem Conflict.symm (h : Conflict G₁ G₂) : Conflict G₂ G₁ := by
  obtain ⟨r, parents₁, parents₂, h₁, h₂, hne⟩ := h
  exact ⟨r, parents₂, parents₁, h₂, h₁, Ne.symm hne⟩

theorem mem_items {x : String} {parents : Parents} :
    (x, parents) ∈ revisions.items ↔ revisions.lookup x = some parents := by
  rw [← Option.mem_def, AList.mem_lookup_iff, Revisions.items]
  simp only [List.map_reverse, List.mem_reverse, List.mem_map, Prod.mk.injEq]
  constructor
  · rintro ⟨⟨_, _⟩, hmem, rfl, rfl⟩
    exact hmem
  · exact fun hmem => ⟨_, hmem, rfl, rfl⟩

theorem nodup_items : (revisions.items.map Prod.fst).Nodup := by
  have hkeys : revisions.items.map Prod.fst = revisions.keys.reverse := by
    simp [Revisions.items, AList.keys, List.keys, Function.comp_def]
  rw [hkeys]
  exact List.nodup_reverse.mpr revisions.keys_nodup

section Fold

variable {items : List (String × Parents)} {merged : Revisions}

def insertAll (revisions : Revisions) (items : List (String × Parents)) : Revisions :=
  items.foldl (fun revisions item => revisions.insert item.1 item.2) revisions

/-- What `mergeRevision` refuses. -/
def Refused (revisions : Revisions) (item : String × Parents) : Prop :=
  (revisions.lookup item.1).join ≠ none ∧ (revisions.lookup item.1).join ≠ item.2

theorem mergeRevision_eq_ok {item : String × Parents} :
    mergeRevision revisions item = .ok merged ↔
      ¬ Refused revisions item ∧ merged = revisions.insert item.1 item.2 := by
  simp only [mergeRevision, bind_eq_ok, require_eq_ok]
  constructor
  · rintro ⟨_, hitem, h⟩
    cases h
    exact ⟨hitem, rfl⟩
  · rintro ⟨hitem, rfl⟩
    exact ⟨(), hitem, rfl⟩

theorem refused_insert {item other : String × Parents} (hne : other.1 ≠ item.1) :
    Refused (revisions.insert item.1 item.2) other ↔ Refused revisions other := by
  rw [Refused, Refused, AList.lookup_insert_ne hne]

theorem foldlM_mergeRevision_eq_ok (hnodup : (items.map Prod.fst).Nodup) :
    items.foldlM mergeRevision revisions = .ok merged ↔
      (∀ item ∈ items, ¬ Refused revisions item) ∧
        merged = insertAll revisions items := by
  induction items generalizing revisions with
  | nil =>
    simp only [insertAll, List.foldlM_nil, List.foldl_nil, List.not_mem_nil, false_implies, implies_true,
      true_and]
    exact ⟨fun h => (Except.ok.inj h).symm, fun h => congrArg Except.ok h.symm⟩
  | cons item items ih =>
    obtain ⟨hnew, hnodup⟩ := List.nodup_cons.mp hnodup
    have hrest : ∀ other ∈ items,
        Refused (revisions.insert item.1 item.2) other ↔ Refused revisions other := by
      intro other hother
      apply refused_insert
      intro hsame
      exact hnew (List.mem_map.mpr ⟨other, hother, hsame⟩)
    simp only [List.foldlM_cons, bind_eq_ok, mergeRevision_eq_ok, insertAll,
      List.foldl_cons, List.forall_mem_cons]
    constructor
    · rintro ⟨_, ⟨hitem, rfl⟩, h⟩
      obtain ⟨hall, rfl⟩ := (ih hnodup).mp h
      exact ⟨⟨hitem, fun o ho hc => hall o ho ((hrest o ho).mpr hc)⟩, rfl⟩
    · rintro ⟨⟨hitem, hall⟩, rfl⟩
      exact ⟨_, ⟨hitem, rfl⟩, (ih hnodup).mpr ⟨fun o ho hc => hall o ho ((hrest o ho).mp hc), rfl⟩⟩

theorem lookup_insertAll (hnodup : (items.map Prod.fst).Nodup) {x : String}
    {parents : Parents} :
    (insertAll revisions items).lookup x = some parents ↔
      (x, parents) ∈ items ∨ x ∉ items.map Prod.fst ∧ revisions.lookup x = some parents := by
  induction items generalizing revisions with
  | nil => simp [insertAll]
  | cons item items ih =>
    obtain ⟨hnew, hnodup⟩ := List.nodup_cons.mp hnodup
    rw [insertAll, List.foldl_cons, ← insertAll, ih hnodup]
    by_cases hx : x = item.1
    · subst hx
      have hout : (item.1, parents) ∉ items := fun hmem =>
        hnew (List.mem_map.mpr ⟨_, hmem, rfl⟩)
      simp [hout, hnew, Prod.ext_iff, eq_comm]
    · simp [hx, AList.lookup_insert_ne hx, Prod.ext_iff]

end Fold

/-- The second graph's parents, or else the first one's. -/
def MergeOf (merged : Revisions) (G₁ G₂ : AlembicGraph) : Prop :=
  ∀ x, merged.lookup x = (G₂.revisions.lookup x).or (G₁.revisions.lookup x)

theorem lookup_insertAll_items {first second : Revisions} {x : String} :
    (insertAll first second.items).lookup x = (second.lookup x).or (first.lookup x) := by
  ext parents
  rw [lookup_insertAll nodup_items, mem_items]
  have hkey : x ∉ second.items.map Prod.fst ↔ second.lookup x = none := by
    rw [Option.eq_none_iff_forall_ne_some, List.mem_map, not_exists]
    constructor
    · exact fun h parents hsome => h (x, parents) ⟨mem_items.mpr hsome, rfl⟩
    · rintro h ⟨_, parents⟩ ⟨hmem, rfl⟩
      exact h parents (mem_items.mp hmem)
  rw [hkey, Option.or_eq_some_iff]

theorem refused_iff {first : Revisions} (hfirst : ∀ x, first.lookup x = G₁.revisions.lookup x) :
    (∃ item ∈ G₂.revisions.items, Refused first item) ↔ Contradicted G₁ G₂ := by
  constructor
  · rintro ⟨⟨r, parents₂⟩, hmem, hparents, hne⟩
    rw [hfirst] at hparents hne
    cases h₁ : G₁.revisions.lookup r with
    | none => simp [h₁] at hparents
    | some parents₁ =>
      cases parents₁ with
      | none => simp [h₁] at hparents
      | some parents =>
        simp only [h₁, Option.join_some] at hne
        exact ⟨r, parents, parents₂, h₁, mem_items.mp hmem, Ne.symm hne⟩
  · rintro ⟨r, parents, parents₂, h₁, h₂, hne⟩
    refine ⟨(r, parents₂), mem_items.mpr h₂, ?_, ?_⟩
    · simp [hfirst, h₁]
    · simpa [hfirst, h₁] using Ne.symm hne

theorem foldlM_items :
    (Contradicted G₁ G₂ ∧ ∃ e, ([G₁, G₂].flatMap (·.revisions.items)).foldlM mergeRevision ∅ =
      .error e) ∨
    ¬ Contradicted G₁ G₂ ∧ ∃ merged, MergeOf merged G₁ G₂ ∧
      ([G₁, G₂].flatMap (·.revisions.items)).foldlM mergeRevision ∅ = .ok merged := by
  have hfirst : G₁.revisions.items.foldlM mergeRevision ∅ =
      .ok (insertAll ∅ G₁.revisions.items) := by
    rw [foldlM_mergeRevision_eq_ok nodup_items]
    refine ⟨?_, rfl⟩
    intro item _ hrefused
    exact hrefused.1 (by simp)
  have hlookup : ∀ x, (insertAll ∅ G₁.revisions.items).lookup x = G₁.revisions.lookup x := by
    intro x
    rw [lookup_insertAll_items, AList.lookup_empty, Option.or_none]
  have happend : ([G₁, G₂].flatMap (·.revisions.items)).foldlM mergeRevision ∅ =
      G₂.revisions.items.foldlM mergeRevision (insertAll ∅ G₁.revisions.items) := by
    simp only [List.flatMap_cons, List.flatMap_nil, List.append_nil, List.foldlM_append, hfirst,
      ok_bind]
  rw [happend]
  by_cases hcon : Contradicted G₁ G₂
  · refine Or.inl ⟨hcon, ?_⟩
    cases hfold : G₂.revisions.items.foldlM mergeRevision (insertAll ∅ G₁.revisions.items) with
    | error e => exact ⟨e, rfl⟩
    | ok merged =>
      obtain ⟨hall, -⟩ := (foldlM_mergeRevision_eq_ok nodup_items).mp hfold
      obtain ⟨item, hmem, hrefused⟩ := (refused_iff hlookup).mpr hcon
      exact (hall item hmem hrefused).elim
  · refine Or.inr ⟨hcon, _, ?_, (foldlM_mergeRevision_eq_ok nodup_items).mpr ⟨?_, rfl⟩⟩
    · intro x
      rw [lookup_insertAll_items, hlookup]
    · exact fun item hmem hrefused => hcon ((refused_iff hlookup).mp ⟨item, hmem, hrefused⟩)

/-! ## Merged graphs are well formed -/

section Merged

variable {merged : Revisions}

theorem parent_iff_lookup {x y : String} :
    Parent revisions x y ↔ ∃ parents, revisions.lookup x = some (some parents) ∧ y ∈ parents := by
  rw [Parent, Revisions.parentsOf]
  rcases h : revisions.lookup x with _ | _ | parents <;> simp

theorem mem_iff_lookup {x : String} :
    x ∈ revisions ↔ ∃ parents, revisions.lookup x = some parents := by
  rw [← AList.lookup_isSome, Option.isSome_iff_exists]

theorem MergeOf.mem (h : MergeOf merged G₁ G₂) {x : String} :
    x ∈ merged ↔ x ∈ G₁.revisions ∨ x ∈ G₂.revisions := by
  rw [← AList.lookup_isSome, h, Option.isSome_or, Bool.or_eq_true, AList.lookup_isSome,
    AList.lookup_isSome, or_comm]

theorem MergeOf.parent_second (h : MergeOf merged G₁ G₂) {x y : String}
    (hx : x ∈ G₂.revisions) : Parent merged x y ↔ Parent G₂.revisions x y := by
  obtain ⟨parents, hparents⟩ := mem_iff_lookup.mp hx
  rw [parent_iff_lookup, parent_iff_lookup, h, hparents, Option.some_or]

theorem MergeOf.parent_first (h : MergeOf merged G₁ G₂) {x y : String}
    (hx : x ∉ G₂.revisions) : Parent merged x y ↔ Parent G₁.revisions x y := by
  rw [parent_iff_lookup, parent_iff_lookup, h, AList.lookup_eq_none.mpr hx, Option.none_or]

theorem MergeOf.wellFormed (h : MergeOf merged G₁ G₂) (h₁ : WellFormed G₁.revisions)
    (h₂ : WellFormed G₂.revisions) : WellFormed merged where
  closed x y hxy := by
    by_cases hx : x ∈ G₂.revisions
    · exact h.mem.mpr (Or.inr (h₂.closed x y ((h.parent_second hx).mp hxy)))
    · exact h.mem.mpr (Or.inl (h₁.closed x y ((h.parent_first hx).mp hxy)))
  acyclic := by
    apply acyclic_of_split (P := {x | x ∈ G₂.revisions}) _ _ _ h₁.acyclic h₂.acyclic
    · exact fun x hx y hxy => h₂.closed x y ((h.parent_second hx).mp hxy)
    · exact fun x hx y hxy => (h.parent_second hx).mp hxy
    · exact fun x hx y hxy => (h.parent_first hx).mp hxy
  nonempty := by
    obtain ⟨x, hx⟩ := h₁.nonempty
    exact ⟨x, h.mem.mpr (Or.inl hx)⟩

theorem mem_pointed {y : String} : y ∈ revisions.pointed ↔ ∃ x, Parent revisions x y := by
  simp only [Revisions.pointed, List.mem_flatMap, Prod.exists, parent_iff_lookup, mem_items]
  constructor
  · rintro ⟨x, _ | parents, hx, hy⟩
    · simp at hy
    · exact ⟨x, parents, hx, hy⟩
  · rintro ⟨x, parents, hx, hy⟩
    exact ⟨x, some parents, hx, hy⟩

theorem mem_heads {x : String} :
    x ∈ revisions.heads ↔ x ∈ revisions ∧ ∀ y, ¬ Parent revisions y x := by
  rw [Revisions.heads, List.mem_insertionSort, List.mem_filter, List.mem_reverse, AList.mem_keys]
  simp [mem_pointed]

theorem WellFormed.heads_ne_nil (h : WellFormed revisions) : revisions.heads ≠ [] := by
  obtain ⟨x, hx⟩ := h.nonempty
  obtain ⟨m, hm, hsource⟩ := exists_source h.acyclic (l := revisions.keys)
    (List.ne_nil_of_mem (AList.mem_keys.mp hx)) fun x y hxy => AList.mem_keys.mp hxy.mem
  exact List.ne_nil_of_mem (mem_heads.mpr ⟨AList.mem_keys.mpr hm, hsource⟩)

/-- Heads are a matter of what a graph says, not of its order. -/
theorem heads_congr {other : Revisions} (h : ∀ x, revisions.lookup x = other.lookup x) :
    revisions.heads = other.heads := by
  have hmem : ∀ x, x ∈ revisions.heads ↔ x ∈ other.heads := by
    intro x
    simp only [mem_heads, mem_iff_lookup, parent_iff_lookup, h]
  have hnodup : ∀ revisions : Revisions, revisions.heads.Nodup := by
    intro revisions
    apply (List.perm_insertionSort _ _).nodup_iff.mpr
    exact (List.nodup_reverse.mpr revisions.keys_nodup).filter _
  have hperm := (List.perm_ext_iff_of_nodup (hnodup revisions) (hnodup other)).mpr hmem
  exact hperm.eq_of_pairwise (fun _ _ _ _ => le_antisymm) (List.pairwise_insertionSort _ _)
    (List.pairwise_insertionSort _ _)

end Merged

/-! ## Ancestors -/

section Ancestors

variable {current target : Finset String}

/-- All revisions reachable backward from the given ones, including them. -/
def anc (revisions : Revisions) (ids : Finset String) : Set String :=
  reached (Parent revisions) ids

theorem popAncestors_eq_ok (hgraph : WellFormed graph.revisions) {start : Set String}
    {result : Finset String} {stack : List String} (hstack : ∀ x ∈ stack, x ∈ graph.revisions)
    (h : Explored (Parent graph.revisions) start result stack) :
    ∃ out, graph.popAncestors result stack = .ok out ∧
      (out : Set String) = reached (Parent graph.revisions) start := by
  induction result, stack using AlembicGraph.popAncestors.induct graph with
  | case1 result =>
    refine ⟨result, ?_, h.done⟩
    rw [AlembicGraph.popAncestors]
  | case2 result x stack hx ih =>
    rw [AlembicGraph.popAncestors, if_pos hx]
    exact ih (fun y hy => hstack y (List.mem_cons_of_mem _ hy)) (h.skip hx)
  | case3 result x stack hx hkey ih =>
    rw [AlembicGraph.popAncestors, if_neg hx, if_pos hkey]
    apply ih
    · intro y hy
      rcases List.mem_append.mp hy with hy | hy
      · exact hgraph.closed x y (List.mem_reverse.mp hy)
      · exact hstack y (List.mem_cons_of_mem _ hy)
    · rw [Finset.coe_insert]
      exact h.visit fun y => List.mem_reverse.symm
  | case4 result x stack hx hkey => exact (hkey (hstack x List.mem_cons_self)).elim

theorem ancestors_eq_ok (hgraph : WellFormed graph.revisions) {ids : Finset String}
    (hids : ids ⊆ graph.revisions.keySet) :
    ∃ out, graph.ancestors ids = .ok out ∧ (out : Set String) = anc graph.revisions ids := by
  have hunknown : ids \ graph.revisions.keySet = ∅ := Finset.sdiff_eq_empty_iff_subset.mpr hids
  have hmem : ∀ x, x ∈ (ids : Set String) ↔ x ∈ ids.sort (· ≤ ·) := by simp
  obtain ⟨out, hout, hset⟩ := popAncestors_eq_ok hgraph
    (fun x hx => Revisions.mem_keySet.mp (hids ((hmem x).mpr hx)))
    (show Explored _ _ ((∅ : Finset String) : Set String) _ by simpa using Explored.init hmem)
  refine ⟨out, ?_, hset⟩
  simp only [AlembicGraph.ancestors, hunknown, require_true, ok_bind, hout]

theorem subset_anc {ids : Finset String} : (ids : Set String) ⊆ anc revisions ids :=
  subset_reached

theorem anc_subset_iff : anc revisions current ⊆ anc revisions target ↔
    (current : Set String) ⊆ anc revisions target := reached_subset_iff

/-- What is in the second graph has the same ancestors there and on the merge. -/
theorem MergeOf.anc_second {merged : Revisions} (h : MergeOf merged G₁ G₂)
    (h₂ : WellFormed G₂.revisions) {ids : Finset String} (hids : ids ⊆ G₂.revisions.keySet) :
    anc merged ids = anc G₂.revisions ids := by
  apply reached_congr (P := {x | x ∈ G₂.revisions})
  · exact fun x hx => Revisions.mem_keySet.mp (hids hx)
  · exact fun x hx y hxy => h₂.closed x y ((h.parent_second hx).mp hxy)
  · exact fun x hx y => h.parent_second hx

theorem anc_subset_keys (hgraph : WellFormed revisions) {ids : Finset String}
    (hids : ids ⊆ revisions.keySet) : anc revisions ids ⊆ {x | x ∈ revisions} := by
  apply reached_least
  · exact fun x hx => Revisions.mem_keySet.mp (hids hx)
  · exact fun x _ y hxy => hgraph.closed x y hxy

/-! ## Transitions -/

/-- What the classification of a transition is to say about the ancestors of its heads. -/
structure Classified (revisions : Revisions) (current target : Finset String)
    (relation : Transition) : Prop where
  equal : relation = .equal ↔ current = target
  forward : relation = .forward ↔
    current ≠ target ∧ anc revisions current ⊂ anc revisions target
  downgrade : relation = .downgrade ↔
    current ≠ target ∧ anc revisions target ⊆ anc revisions current
  divergent : relation = .divergent ↔ current ≠ target ∧
    ¬ anc revisions current ⊂ anc revisions target ∧
    ¬ anc revisions target ⊆ anc revisions current

theorem classifyTransition_eq_ok (hgraph : WellFormed graph.revisions)
    (hcurrent : current ⊆ graph.revisions.keySet) (htarget : target ⊆ graph.revisions.keySet) :
    ∃ relation, graph.classifyTransition current target = .ok relation ∧
      Classified graph.revisions current target relation := by
  obtain ⟨c, hc, hcset⟩ := ancestors_eq_ok hgraph hcurrent
  obtain ⟨t, ht, htset⟩ := ancestors_eq_ok hgraph htarget
  have hback : t ⊆ c ↔ anc graph.revisions target ⊆ anc graph.revisions current := by
    rw [← Finset.coe_subset, hcset, htset]
  have hforth : current ⊆ t ↔ anc graph.revisions current ⊆ anc graph.revisions target := by
    rw [← Finset.coe_subset, htset, anc_subset_iff]
  rw [AlembicGraph.classifyTransition]
  by_cases heq : current = target
  · subst heq
    rw [if_pos rfl]
    exact ⟨.equal, rfl, by simp, by simp, by simp, by simp⟩
  · rw [if_neg heq, hc, ok_bind, ht, ok_bind]
    by_cases hdown : t ⊆ c
    · rw [if_pos hdown]
      rw [hback] at hdown
      refine ⟨.downgrade, rfl, ?_, ?_, ?_, ?_⟩ <;>
        simp [heq, hdown, ssubset_iff_subset_not_subset]
    · rw [if_neg hdown]
      rw [hback] at hdown
      by_cases hsub : current ⊆ t
      · rw [if_neg (not_not.mpr hsub)]
        rw [hforth] at hsub
        refine ⟨.forward, rfl, ?_, ?_, ?_, ?_⟩ <;>
          simp [heq, hdown, hsub, ssubset_iff_subset_not_subset]
      · rw [if_pos hsub]
        rw [hforth] at hsub
        refine ⟨.divergent, rfl, ?_, ?_, ?_, ?_⟩ <;>
          simp [heq, hdown, hsub, ssubset_iff_subset_not_subset]

/-- What is applied: all that the target needs and the current heads lack, parents first. -/
structure Delta (revisions : Revisions) (current target included : Finset String) : Prop where
  exact : (included : Set String) = anc revisions target \ anc revisions current
  nonempty : included.Nonempty
  closed : ∀ x ∈ included, ∀ y, Parent revisions x y → y ∉ anc revisions current → y ∈ included

/-- On a forward transition the second graph alone yields the delta of the merge. -/
theorem includedRevisions_eq_ok {merged : Revisions} (h : MergeOf merged G₁ G₂)
    (h₂ : WellFormed G₂.revisions) (htarget : target ⊆ G₂.revisions.keySet)
    (hne : current ≠ target) (hforward : anc merged current ⊂ anc merged target) :
    ∃ included, G₂.includedRevisions current target = .ok included ∧
      Delta merged current target included := by
  have hcurrent : current ⊆ G₂.revisions.keySet := by
    intro x hx
    have hreach : x ∈ anc G₂.revisions target := by
      rw [← h.anc_second h₂ htarget]
      exact hforward.subset (subset_anc hx)
    exact Revisions.mem_keySet.mpr (anc_subset_keys h₂ htarget hreach)
  obtain ⟨c, hc, hcset⟩ := ancestors_eq_ok h₂ hcurrent
  obtain ⟨t, ht, htset⟩ := ancestors_eq_ok h₂ htarget
  rw [← h.anc_second h₂ hcurrent] at hcset
  rw [← h.anc_second h₂ htarget] at htset
  have hexact : (((t \ c) \ current : Finset String) : Set String) =
      anc merged target \ anc merged current := by
    ext x
    simp only [Finset.coe_sdiff, Set.mem_sdiff, hcset, htset]
    constructor
    · exact fun hx => hx.1
    · exact fun hx => ⟨hx, fun hmem => hx.2 (subset_anc hmem)⟩
  refine ⟨(t \ c) \ current, ?_, hexact, ?_, ?_⟩
  · rw [AlembicGraph.includedRevisions, if_neg hne, hc, ok_bind, ht]
    rfl
  · obtain ⟨x, hx, hnot⟩ := Set.exists_of_ssubset hforward
    refine ⟨x, ?_⟩
    rw [← Finset.mem_coe, hexact]
    exact ⟨hx, hnot⟩
  · intro x hx y hxy hy
    rw [← Finset.mem_coe, hexact] at hx ⊢
    exact ⟨reached_step hx.1 hxy, hy⟩

end Ancestors

/-! ## The plan -/

/-- A merge raises exactly on a conflict, and otherwise does not depend on the order. -/
structure MergeExact (G₁ G₂ : AlembicGraph) : Prop where
  raises : (∃ e, mergeAlembicGraphs [G₁, G₂] = .error e) ↔ Conflict G₁ G₂
  merged : ∀ G, mergeAlembicGraphs [G₁, G₂] = .ok G → WellFormed G.revisions ∧
    ∃ G', mergeAlembicGraphs [G₂, G₁] = .ok G' ∧
      (∀ x, G'.revisions.lookup x = G.revisions.lookup x) ∧ G'.heads = G.heads

/-- Classification and delta of every transition from the first graph to the second one. -/
def TransitionsExact (G₁ G₂ : AlembicGraph) : Prop :=
  ∀ G, mergeAlembicGraphs [G₁, G₂] = .ok G →
    ∀ current ⊆ G₁.revisions.keySet, ∀ target ⊆ G₂.revisions.keySet,
      ∃ relation, G.classifyTransition current target = .ok relation ∧
        Classified G.revisions current target relation ∧
        (relation = .forward → ∃ included, G₂.includedRevisions current target = .ok included ∧
          Delta G.revisions current target included)

theorem merge_cases (h₁ : WellFormed G₁.revisions) (h₂ : WellFormed G₂.revisions) :
    (Contradicted G₁ G₂ ∧ ∃ e, mergeAlembicGraphs [G₁, G₂] = .error e) ∨
    ¬ Contradicted G₁ G₂ ∧ ∃ merged, MergeOf merged G₁ G₂ ∧
      mergeAlembicGraphs [G₁, G₂] = .ok ⟨merged, merged.heads⟩ := by
  rcases @foldlM_items G₁ G₂ with ⟨hcon, e, he⟩ | ⟨hcon, merged, hmerge, hok⟩
  · refine Or.inl ⟨hcon, e, ?_⟩
    rw [mergeAlembicGraphs, he, error_bind]
  · refine Or.inr ⟨hcon, merged, hmerge, ?_⟩
    rw [mergeAlembicGraphs, hok, ok_bind,
      require_true (hmerge.wellFormed h₁ h₂).heads_ne_nil, ok_bind]
    rfl

theorem transitionsExact (h₁ : WellFormed G₁.revisions) (h₂ : WellFormed G₂.revisions) :
    TransitionsExact G₁ G₂ := by
  intro G hG current hcurrent target htarget
  rcases merge_cases h₁ h₂ with ⟨-, e, he⟩ | ⟨-, merged, hmerge, hok⟩
  · rw [he] at hG
    cases hG
  · rw [hok] at hG
    cases hG
    have hkeys : ∀ {ids : Finset String}, ids ⊆ G₁.revisions.keySet ∨
        ids ⊆ G₂.revisions.keySet → ids ⊆ merged.keySet := by
      intro ids hids x hx
      rw [Revisions.mem_keySet, hmerge.mem]
      rcases hids with hids | hids
      · exact Or.inl (Revisions.mem_keySet.mp (hids hx))
      · exact Or.inr (Revisions.mem_keySet.mp (hids hx))
    obtain ⟨relation, hrelation, hclassified⟩ := @classifyTransition_eq_ok
      ⟨merged, merged.heads⟩ _ _ (hmerge.wellFormed h₁ h₂) (hkeys (Or.inl hcurrent))
      (hkeys (Or.inr htarget))
    refine ⟨relation, hrelation, hclassified, ?_⟩
    intro hforward
    obtain ⟨hne, hss⟩ := hclassified.forward.mp hforward
    exact includedRevisions_eq_ok hmerge h₂ htarget hne hss

theorem mergeExact_iff (h₁ : WellFormed G₁.revisions) (h₂ : WellFormed G₂.revisions) :
    MergeExact G₁ G₂ ↔ ¬ ParentsAppear G₁ G₂ := by
  rcases merge_cases h₁ h₂ with ⟨hcon, e, he⟩ | ⟨hcon, merged, hmerge, hok⟩
  · constructor
    · exact fun _ happear => happear.2 hcon
    · intro _
      refine ⟨⟨fun _ => conflict_iff.mpr (Or.inr hcon), fun _ => ⟨e, he⟩⟩, ?_⟩
      intro G hG
      rw [he] at hG
      cases hG
  · constructor
    · rintro hexact ⟨⟨r, parents, hr₁, hr₂⟩, -⟩
      obtain ⟨e, he⟩ := hexact.raises.mpr ⟨r, none, some parents, hr₁, hr₂, by simp⟩
      rw [hok] at he
      cases he
    · intro happear
      have hagree : ¬ Conflict G₁ G₂ := by
        rw [conflict_iff]
        exact not_or.mpr ⟨happear, hcon⟩
      refine ⟨⟨?_, fun hconflict => (hagree hconflict).elim⟩, ?_⟩
      · rintro ⟨e, he⟩
        rw [hok] at he
        cases he
      · intro G hG
        rw [hok] at hG
        cases hG
        refine ⟨hmerge.wellFormed h₁ h₂, ?_⟩
        rcases merge_cases h₂ h₁ with ⟨hcon', -⟩ | ⟨-, merged', hmerge', hok'⟩
        · exact (hagree (conflict_iff.mpr (Or.inr hcon')).symm).elim
        · have hsame : ∀ x, merged'.lookup x = merged.lookup x := by
            intro x
            rw [hmerge, hmerge']
            rcases hx₁ : G₁.revisions.lookup x with _ | p₁ <;>
              rcases hx₂ : G₂.revisions.lookup x with _ | p₂ <;> try rfl
            have heq : p₁ = p₂ := by
              by_contra hne
              exact hagree ⟨x, p₁, p₂, hx₁, hx₂, hne⟩
            rw [heq]
          exact ⟨_, hok', hsame, heads_congr hsame⟩

variable {depth₁ depth₂ : ℕ} {dir₁ dir₂ : Option (List MigrationFile)}

/-- Merging and classifying are exact for graphs that were built, unless a revision without
parents gains some in the second graph. -/
theorem plan_exact_iff (h₁ : buildAlembicGraph depth₁ dir₁ = .ok G₁)
    (h₂ : buildAlembicGraph depth₂ dir₂ = .ok G₂) :
    (MergeExact G₁ G₂ ∧ TransitionsExact G₁ G₂) ↔ ¬ ParentsAppear G₁ G₂ := by
  have hw₁ := wellFormed_of_build h₁
  have hw₂ := wellFormed_of_build h₂
  rw [mergeExact_iff hw₁ hw₂]
  exact and_iff_left (transitionsExact hw₁ hw₂)

/-- A migration file with its two assignments. -/
def migrationFile (name revision : String) (down : Literal) : MigrationFile :=
  ⟨name, some [("revision", .text revision), ("down_revision", down)]⟩

def twoRoots : List MigrationFile :=
  [migrationFile "0001.py" "0001" .none, migrationFile "0002.py" "0002" .none]

def oneRoot : List MigrationFile :=
  [migrationFile "0001.py" "0001" .none, migrationFile "0002.py" "0002" (.text "0001")]

def twoRootsGraph : AlembicGraph :=
  ⟨((∅ : Revisions).insert "0001" none).insert "0002" none, ["0001", "0002"]⟩

def oneRootGraph : AlembicGraph :=
  ⟨((∅ : Revisions).insert "0001" none).insert "0002" (some ["0001"]), ["0002"]⟩

theorem build_twoRoots : buildAlembicGraph 10 (some twoRoots) = .ok twoRootsGraph := rfl

theorem build_oneRoot : buildAlembicGraph 10 (some oneRoot) = .ok oneRootGraph := rfl

/-- A branch beside the head, and a revision that joins both. -/
def branched : List MigrationFile :=
  oneRoot ++ [migrationFile "0003.py" "0003" (.text "0001"),
    migrationFile "0004.py" "0004" (.sequence [.text "0002", .text "0003"])]

def branchedGraph : AlembicGraph :=
  ⟨(oneRootGraph.revisions.insert "0003" (some ["0001"])).insert "0004" (some ["0002", "0003"]),
    ["0004"]⟩

theorem build_branched : buildAlembicGraph 10 (some branched) = .ok branchedGraph := rfl

/-- The old head needs neither the branch nor the join. -/
theorem anc_ssubset_branched :
    anc branchedGraph.revisions {"0002"} ⊂ anc branchedGraph.revisions {"0004"} := by
  refine ssubset_iff_subset_not_subset.mpr ⟨anc_subset_iff.mpr ?_, fun h => ?_⟩
  · have hparent : "0002" ∈ branchedGraph.revisions.parentsOf "0004" := by decide
    have hreach : "0002" ∈ anc branchedGraph.revisions {"0004"} :=
      reached_step (subset_anc (by simp)) hparent
    simpa using hreach
  · have hclosed : anc branchedGraph.revisions {"0002"} ⊆ {"0001", "0002"} := by
      apply reached_least
      · simp
      · rintro x (rfl | rfl) y hxy
        · exact absurd hxy List.not_mem_nil
        · rw [List.mem_singleton.mp hxy]
          exact Or.inl rfl
    have hmem : "0004" ∈ ({"0001", "0002"} : Set String) := hclosed (h (subset_anc (by simp)))
    simp at hmem

theorem plan_exact_branched : MergeExact oneRootGraph branchedGraph ∧
    TransitionsExact oneRootGraph branchedGraph ∧
    branchedGraph.classifyTransition {"0002"} {"0004"} = .ok .forward ∧
    ∃ included, branchedGraph.includedRevisions {"0002"} {"0004"} = .ok included ∧
      Delta branchedGraph.revisions {"0002"} {"0004"} included := by
  obtain ⟨hmerge, htransitions⟩ := (plan_exact_iff build_oneRoot build_branched).mpr (by
    rintro ⟨⟨r, parents, hnone, hsome⟩, -⟩
    have hmem : (r, none) ∈ [("0001", none), ("0002", some ["0001"])] := mem_items.mpr hnone
    have hroot : r = "0001" := by simpa using hmem
    rw [hroot] at hsome
    cases hsome)
  have hmerged : mergeAlembicGraphs [oneRootGraph, branchedGraph] = .ok branchedGraph := rfl
  obtain ⟨relation, hrelation, hclassified, hdelta⟩ :=
    htransitions branchedGraph hmerged {"0002"} (by decide) {"0004"} (by decide)
  have hforward : relation = .forward :=
    hclassified.forward.mpr ⟨by decide, anc_ssubset_branched⟩
  rw [hforward] at hrelation
  exact ⟨hmerge, htransitions, hrelation, hdelta hforward⟩

/-- A root that gains a parent goes unnoticed. -/
theorem merge_root_gains_parent : buildAlembicGraph 10 (some twoRoots) = .ok twoRootsGraph ∧
    buildAlembicGraph 10 (some oneRoot) = .ok oneRootGraph ∧
    ¬ (MergeExact twoRootsGraph oneRootGraph ∧ TransitionsExact twoRootsGraph oneRootGraph) := by
  refine ⟨build_twoRoots, build_oneRoot, ?_⟩
  rintro ⟨hexact, -⟩
  obtain ⟨e, he⟩ := hexact.raises.mpr ⟨"0002", none, some ["0001"], by decide, by decide, by simp⟩
  have hok : mergeAlembicGraphs [twoRootsGraph, oneRootGraph] = .ok oneRootGraph := rfl
  rw [hok] at he
  cases he

end FetchNow.PgBackup
