import Mathlib.Data.List.Nodup
import Mathlib.Logic.Function.Basic

/-!
# Sessions on a table

Sessions write rows by key under locks that exclude each other, and publish what they wrote when
they commit.
-/
namespace Sessions

variable {ι κ ρ σ : Type*}

/-! ## Locks -/

section Locks

variable [DecidableEq ι] {claims : σ → List κ} {sessions : ι → σ} {i : ι} {s : σ}

/-- No two sessions claim the same key. -/
def Exclusive (claims : σ → List κ) (sessions : ι → σ) : Prop :=
  ∀ i j, i ≠ j → (claims (sessions i)).Disjoint (claims (sessions j))

theorem Exclusive.update (h : Exclusive claims sessions)
    (hs : ∀ j, j ≠ i → (claims s).Disjoint (claims (sessions j))) :
    Exclusive claims (Function.update sessions i s) := by
  intro j k hjk
  by_cases hj : j = i
  · subst hj
    rw [Function.update_self, Function.update_of_ne hjk.symm]
    exact hs k hjk.symm
  · rw [Function.update_of_ne hj]
    by_cases hk : k = i
    · subst hk
      rw [Function.update_self]
      exact fun _ hk hk' => hs j hj hk' hk
    · rw [Function.update_of_ne hk]
      exact h j k hjk

/-- A session may always give up some of its claims. -/
theorem Exclusive.shrink (h : Exclusive claims sessions)
    (hs : ∀ k ∈ claims s, k ∈ claims (sessions i)) :
    Exclusive claims (Function.update sessions i s) :=
  h.update fun j hj _ hk hk' => h i j hj.symm (hs _ hk) hk'

end Locks

/-! ## Tables -/

section Tables

variable [DecidableEq κ] {key : ρ → κ} {rows rows' table : List ρ} {r b : ρ}
  {R : ρ → ρ → Prop}

/-- The table after `rows` have been written into it. -/
def upsert (key : ρ → κ) (rows table : List ρ) : List ρ :=
  rows ++ table.filter fun r => key r ∉ rows.map key

theorem mem_upsert :
    r ∈ upsert key rows table ↔ r ∈ rows ∨ r ∈ table ∧ key r ∉ rows.map key := by
  simp only [upsert, List.mem_append, List.mem_filter, decide_eq_true_iff]

theorem nodup_upsert (hrows : (rows.map key).Nodup) (htable : (table.map key).Nodup) :
    ((upsert key rows table).map key).Nodup := by
  rw [upsert, List.map_append]
  refine hrows.append (htable.sublist (List.filter_sublist.map key)) ?_
  intro k hk hk'
  obtain ⟨r, hr, rfl⟩ := List.mem_map.mp hk'
  exact of_decide_eq_true (List.mem_filter.mp hr).2 hk

/-- With unique keys, a key selects one row. -/
theorem filter_key (htable : (table.map key).Nodup) (hr : r ∈ table) :
    table.filter (key · = key r) = [r] := by
  induction table with
  | nil => exact absurd hr List.not_mem_nil
  | cons b table ih =>
    obtain ⟨hb, htable⟩ := List.nodup_cons.mp htable
    have hnone (hkey : key r = key b) : table.filter (key · = key r) = [] := by
      refine List.filter_eq_nil_iff.mpr fun c hc hck => hb ?_
      rw [← hkey, ← of_decide_eq_true hck]
      exact List.mem_map_of_mem hc
    rcases List.mem_cons.mp hr with rfl | hr
    · rw [List.filter_cons_of_pos (by simp), hnone rfl]
    · have hne : key b ≠ key r := fun hkey => hb (hkey ▸ List.mem_map_of_mem hr)
      rw [List.filter_cons_of_neg (by simpa using hne), ih htable hr]

/-- Every written row is related to the row of its key in the table, if there is one. -/
def Writes (key : ρ → κ) (R : ρ → ρ → Prop) (table rows : List ρ) : Prop :=
  ∀ r ∈ rows, ∀ b ∈ table, key b = key r → R b r

/-- Writes of other keys do not matter to it. -/
theorem Writes.upsert (h : Writes key R table rows)
    (hdisjoint : (rows.map key).Disjoint (rows'.map key)) :
    Writes key R (Sessions.upsert key rows' table) rows := by
  intro r hr b hb hkey
  rcases mem_upsert.mp hb with hb | ⟨hb, _⟩
  · exact absurd (hkey ▸ List.mem_map_of_mem hb) (hdisjoint (List.mem_map_of_mem hr))
  · exact h r hr b hb hkey

/-- Every row of the table has a successor in the table that is published. -/
theorem Writes.published (h : Writes key R table rows) (hrefl : ∀ b, R b b) (hb : b ∈ table) :
    ∃ r ∈ Sessions.upsert key rows table, key r = key b ∧ R b r := by
  by_cases hwritten : key b ∈ rows.map key
  · obtain ⟨r, hr, hkey⟩ := List.mem_map.mp hwritten
    exact ⟨r, mem_upsert.mpr (.inl hr), hkey, h r hr b hb hkey.symm⟩
  · exact ⟨b, mem_upsert.mpr (.inr ⟨hb, hwritten⟩), rfl, hrefl b⟩

end Tables

end Sessions
