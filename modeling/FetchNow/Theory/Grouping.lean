import FetchNow.Theory.Comparators
import Mathlib.Data.List.Perm.Basic
import Mathlib.Data.List.Nodup

/-!
# Grouping by a key

Groups in the order in which their keys were first seen, each with its members in their order. A
group may be shown as a row, of its sorted members and the first of them.
-/
namespace Grouping

open Comparators

variable {α κ ρ : Type*} [DecidableEq κ]

section

variable (key : α → κ)

/-- A member goes to the group of its key, or opens one. -/
def insert : List (κ × List α) → α → List (κ × List α)
  | [], a => [(key a, [a])]
  | (k, members) :: rest, a =>
    if key a = k then (k, members ++ [a]) :: rest else (k, members) :: insert rest a

def groupBy (l : List α) : List (κ × List α) := l.foldl (insert key) []

/-- Every key has one group, of all that have it. -/
structure Grouped (l : List α) (groups : List (κ × List α)) : Prop where
  nodup : (groups.map Prod.fst).Nodup
  members : ∀ group ∈ groups, group.2 = l.filter fun a => decide (key a = group.1)
  covers : ∀ k, k ∈ groups.map Prod.fst ↔ ∃ a ∈ l, key a = k
  perm : (groups.flatMap Prod.snd).Perm l

end

variable {key : α → κ} {l l' : List α} {groups groups' : List (κ × List α)} {a : α} {k : κ}

theorem keys_insert : (insert key groups a).map Prod.fst =
    if key a ∈ groups.map Prod.fst then groups.map Prod.fst else groups.map Prod.fst ++ [key a] := by
  induction groups with
  | nil => rfl
  | cons group rest ih =>
    obtain ⟨k, members⟩ := group
    rw [insert]
    by_cases hk : key a = k
    · rw [if_pos hk, List.map_cons, List.map_cons, if_pos (by simp [hk])]
    · rw [if_neg hk, List.map_cons, List.map_cons, ih]
      by_cases hmem : key a ∈ rest.map Prod.fst
      · rw [if_pos hmem, if_pos (List.mem_cons_of_mem _ hmem)]
      · have hnew : key a ∉ k :: rest.map Prod.fst := by simp [hk, hmem]
        rw [if_neg hmem, if_neg hnew, List.cons_append]

theorem flatMap_insert : ((insert key groups a).flatMap Prod.snd).Perm
    (groups.flatMap Prod.snd ++ [a]) := by
  induction groups with
  | nil => exact List.Perm.refl _
  | cons group rest ih =>
    obtain ⟨k, members⟩ := group
    rw [insert]
    split
    · rw [List.flatMap_cons, List.flatMap_cons, List.append_assoc, List.append_assoc]
      exact List.perm_append_comm.append_left members
    · rw [List.flatMap_cons, List.flatMap_cons, List.append_assoc]
      exact ih.append_left members

theorem mem_insert {group : κ × List α} (h : group ∈ insert key groups a)
    (hnodup : (groups.map Prod.fst).Nodup) :
    (group.1 ≠ key a ∧ group ∈ groups) ∨
      (group.1 = key a ∧ ∃ members, group.2 = members ++ [a] ∧
        ((key a, members) ∈ groups ∨ members = [] ∧ key a ∉ groups.map Prod.fst)) := by
  induction groups with
  | nil =>
    obtain rfl := List.mem_singleton.mp h
    exact .inr ⟨rfl, [], rfl, .inr ⟨rfl, List.not_mem_nil⟩⟩
  | cons first rest ih =>
    obtain ⟨k, members⟩ := first
    obtain ⟨hk, hrest⟩ := List.nodup_cons.mp hnodup
    rw [insert] at h
    split at h
    · rename_i heq
      rcases List.mem_cons.mp h with rfl | h
      · exact .inr ⟨heq.symm, members, rfl, .inl (heq ▸ List.mem_cons_self)⟩
      · refine .inl ⟨?_, List.mem_cons_of_mem _ h⟩
        intro hsame
        apply hk
        have hmem := List.mem_map_of_mem (f := Prod.fst) h
        rwa [hsame, heq] at hmem
    · rename_i hne
      rcases List.mem_cons.mp h with rfl | h
      · exact .inl ⟨fun heq => hne heq.symm, List.mem_cons_self⟩
      · rcases ih h hrest with ⟨hother, hmem⟩ | ⟨hsame, members', heq, hmem⟩
        · exact .inl ⟨hother, List.mem_cons_of_mem _ hmem⟩
        · refine .inr ⟨hsame, members', heq, hmem.imp (List.mem_cons_of_mem _) ?_⟩
          rintro ⟨rfl, hnew⟩
          exact ⟨rfl, by simp [hne, hnew]⟩

theorem Grouped.insert (h : Grouped key l groups) : Grouped key (l ++ [a]) (insert key groups a) where
  nodup := by
    rw [keys_insert]
    split
    · exact h.nodup
    · rename_i hnew
      rw [List.nodup_append]
      refine ⟨h.nodup, List.nodup_singleton _, ?_⟩
      rintro k hk _ hk' rfl
      rw [List.mem_singleton] at hk'
      exact hnew (hk' ▸ hk)
  members := by
    intro group hgroup
    rw [List.filter_append]
    rcases mem_insert hgroup h.nodup with ⟨hother, hmem⟩ | ⟨hsame, members, heq, hmem⟩
    · have hnone : [a].filter (fun a => decide (key a = group.1)) = [] := by
        simp [Ne.symm hother]
      rw [hnone, List.append_nil]
      exact h.members group hmem
    · have hone : [a].filter (fun a => decide (key a = group.1)) = [a] := by simp [hsame]
      rw [heq, hone, hsame]
      congr 1
      rcases hmem with hmem | ⟨rfl, hnew⟩
      · exact h.members _ hmem
      · symm
        rw [List.filter_eq_nil_iff]
        intro b hb hkey
        exact hnew ((h.covers _).mpr ⟨b, hb, by simpa using hkey⟩)
  covers := by
    intro k
    have hold := h.covers k
    rw [keys_insert]
    split
    · rename_i hseen
      rw [hold]
      constructor
      · rintro ⟨b, hb, hk⟩
        exact ⟨b, List.mem_append_left _ hb, hk⟩
      · rintro ⟨b, hb, hk⟩
        rcases List.mem_append.mp hb with hb | hb
        · exact ⟨b, hb, hk⟩
        · obtain rfl := List.mem_singleton.mp hb
          exact hold.mp (hk ▸ hseen)
    · rw [List.mem_append, hold, List.mem_singleton]
      constructor
      · rintro (⟨b, hb, hk⟩ | rfl)
        · exact ⟨b, List.mem_append_left _ hb, hk⟩
        · exact ⟨a, List.mem_append_right _ (List.mem_singleton_self a), rfl⟩
      · rintro ⟨b, hb, hk⟩
        rcases List.mem_append.mp hb with hb | hb
        · exact .inl ⟨b, hb, hk⟩
        · obtain rfl := List.mem_singleton.mp hb
          exact .inr hk.symm
  perm := List.Perm.trans flatMap_insert (h.perm.append_right [a])

theorem grouped_groupBy (key : α → κ) (l : List α) : Grouped key l (groupBy key l) := by
  have hfold : ∀ (rest seen : List α) groups, Grouped key seen groups →
      Grouped key (seen ++ rest) (rest.foldl (Grouping.insert key) groups) := by
    intro rest
    induction rest with
    | nil =>
      intro seen groups h
      rwa [List.append_nil]
    | cons a rest ih =>
      intro seen groups h
      have hnext := ih (seen ++ [a]) _ h.insert
      rwa [List.append_assoc] at hnext
  exact hfold l [] [] ⟨List.nodup_nil, nofun, by simp, List.Perm.refl _⟩

theorem Grouped.ne_nil (h : Grouped key l groups) {group : κ × List α} (hgroup : group ∈ groups) :
    group.2 ≠ [] := by
  obtain ⟨a, ha, hk⟩ := (h.covers group.1).mp (List.mem_map_of_mem hgroup)
  have hmem : a ∈ l.filter fun a => decide (key a = group.1) :=
    List.mem_filter.mpr ⟨ha, by simpa using hk⟩
  rw [h.members group hgroup]
  exact List.ne_nil_of_mem hmem

/-! ## Rows -/

section Rows

variable {μ : Type*} [LinearOrder μ] {inside : α → α → Ordering} {rank : α → μ}
  {make : κ → List α → α → ρ} {row : ρ} {first : α}

/-- The row of a group. -/
def rowOf (inside : α → α → Ordering) (make : κ → List α → α → ρ) (group : κ × List α) : Option ρ :=
  let ordered := sortBy inside group.2
  ordered.head?.map fun first => make group.1 ordered first

def rows (key : α → κ) (inside : α → α → Ordering) (make : κ → List α → α → ρ) (l : List α) :
    List ρ := (groupBy key l).filterMap (rowOf inside make)

/-- The members of a key, sorted. -/
def membersOf (key : α → κ) (inside : α → α → Ordering) (l : List α) (k : κ) : List α :=
  sortBy inside (l.filter fun a => decide (key a = k))

theorem mem_membersOf : a ∈ membersOf key inside l k ↔ a ∈ l ∧ key a = k := by
  rw [membersOf, (sortBy_perm inside _).mem_iff, List.mem_filter, decide_eq_true_eq]

theorem Grouped.eq_rowOf (h : Grouped key l groups) : groups.filterMap (rowOf inside make) =
    (groups.map Prod.fst).filterMap fun k =>
      (membersOf key inside l k).head?.map fun first => make k (membersOf key inside l k) first := by
  rw [List.filterMap_map]
  apply List.filterMap_congr
  rintro ⟨k, members⟩ hgroup
  rw [Function.comp_apply, rowOf, h.members _ hgroup]
  rfl

/-- A row is made of the first of the members of a key. -/
theorem mem_rows : row ∈ rows key inside make l ↔ ∃ first,
    (membersOf key inside l (key first)).head? = some first ∧
      row = make (key first) (membersOf key inside l (key first)) first := by
  rw [rows, (grouped_groupBy key l).eq_rowOf, List.mem_filterMap]
  constructor
  · rintro ⟨k, -, hrow⟩
    obtain ⟨first, hfirst, rfl⟩ := Option.map_eq_some_iff.mp hrow
    have hkey := (mem_membersOf.1 (List.mem_of_mem_head? hfirst)).2
    subst hkey
    exact ⟨first, hfirst, rfl⟩
  · rintro ⟨first, hfirst, rfl⟩
    have hmem := (mem_membersOf.1 (List.mem_of_mem_head? hfirst)).1
    refine ⟨key first, ((grouped_groupBy key l).covers _).mpr ⟨first, hmem, rfl⟩, ?_⟩
    rw [hfirst, Option.map_some]

/-- Every key of the list has its row. -/
theorem exists_row (ha : a ∈ l) : ∃ first, key first = key a ∧
    (membersOf key inside l (key first)).head? = some first := by
  have hmem : a ∈ membersOf key inside l (key a) := mem_membersOf.2 ⟨ha, rfl⟩
  obtain ⟨first, hfirst⟩ := Option.isSome_iff_exists.mp
    (List.isSome_head?.mpr (List.ne_nil_of_mem hmem))
  have hkey := (mem_membersOf.1 (List.mem_of_mem_head? hfirst)).2
  exact ⟨first, hkey, by rw [hkey, hfirst]⟩

/-- The rows have the keys of the groups. -/
theorem keys_rows {keyOf : ρ → κ} (hkeyOf : ∀ k members first, keyOf (make k members first) = k) :
    ((rows key inside make l).map keyOf).Nodup := by
  have h := grouped_groupBy key l
  rw [rows, h.eq_rowOf, List.map_filterMap]
  have hsub : ∀ ks : List κ, (ks.filterMap fun k => ((membersOf key inside l k).head?.map fun first =>
      make k (membersOf key inside l k) first).map keyOf).Sublist ks := by
    intro ks
    induction ks with
    | nil => exact List.Sublist.refl _
    | cons k ks ih =>
      rw [List.filterMap_cons]
      split
      · exact ih.cons k
      · rename_i k' hk'
        obtain ⟨row, hrow, rfl⟩ := Option.map_eq_some_iff.mp hk'
        obtain ⟨first, -, rfl⟩ := Option.map_eq_some_iff.mp hrow
        rw [hkeyOf]
        exact ih.cons_cons k
  exact h.nodup.sublist (hsub _)

/-- The rows show each member of the list once. -/
theorem flatMap_rows {membersOfRow : ρ → List α}
    (hmembers : ∀ k members first, membersOfRow (make k members first) = members) :
    ((rows key inside make l).flatMap membersOfRow).Perm l := by
  have h := grouped_groupBy key l
  refine List.Perm.trans ?_ h.perm
  rw [rows]
  have hne : ∀ group ∈ groupBy key l, group.2 ≠ [] := fun group hgroup => h.ne_nil hgroup
  generalize groupBy key l = groups at hne
  induction groups with
  | nil => exact List.Perm.refl _
  | cons group rest ih =>
    obtain ⟨hgroup, hrest⟩ := List.forall_mem_cons.mp hne
    have hsome : sortBy inside group.2 ≠ [] := by
      intro hnil
      have hperm := sortBy_perm inside group.2
      rw [hnil] at hperm
      exact hgroup hperm.nil_eq.symm
    obtain ⟨first, hfirst⟩ := Option.isSome_iff_exists.mp (List.isSome_head?.mpr hsome)
    have hrow : rowOf inside make group = some (make group.1 (sortBy inside group.2) first) := by
      rw [rowOf]
      simp only [hfirst, Option.map_some]
    rw [List.filterMap_cons_some hrow, List.flatMap_cons, List.flatMap_cons, hmembers]
    exact (sortBy_perm inside group.2).append (ih hrest)

/-- The rows do not depend on the order of the list, but for their own order. -/
theorem rows_perm (h : ComparesBy inside rank)
    (hties : ∀ x ∈ l, ∀ y ∈ l, rank x = rank y → x = y) (hp : l.Perm l') :
    (rows key inside make l).Perm (rows key inside make l') := by
  have hgroups := grouped_groupBy key l
  have hgroups' := grouped_groupBy key l'
  have hmembers : ∀ k, membersOf key inside l k = membersOf key inside l' k := by
    intro k
    apply h.sortBy_eq (hp.filter _)
    intro x hx y hy
    exact hties x (List.mem_filter.mp hx).1 y (List.mem_filter.mp hy).1
  have hkeys : ((groupBy key l).map Prod.fst).Perm ((groupBy key l').map Prod.fst) := by
    rw [List.perm_ext_iff_of_nodup hgroups.nodup hgroups'.nodup]
    intro k
    rw [hgroups.covers, hgroups'.covers]
    simp only [hp.mem_iff]
  rw [rows, rows, hgroups.eq_rowOf, hgroups'.eq_rowOf]
  simp only [hmembers]
  exact hkeys.filterMap _

end Rows

end Grouping
