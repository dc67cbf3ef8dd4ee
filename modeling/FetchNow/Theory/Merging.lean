import Mathlib.Data.List.Nodup

/-!
# Collecting rows by key

Rows that share a key have to agree; the first of them then stands for all.
-/
namespace FetchNow.Merging

variable {α κ ε : Type*} [DecidableEq κ] (key : α → κ) (same : α → α → Bool) (conflict : ε)

/-- Go through rows, keep the first one of every key, and fail if a later one does not agree. -/
def collect : List α → List α → Except ε (List α)
  | seen, [] => .ok seen
  | seen, a :: as =>
    match seen.find? fun b => decide (key b = key a) with
    | none => collect (seen ++ [a]) as
    | some b => if same b a then collect seen as else .error conflict

variable {key same conflict} {seen as r : List α} {a b : α}

theorem collect_cons_eq_ok (h : collect key same conflict seen (a :: as) = .ok r) :
    ((∀ b ∈ seen, key b ≠ key a) ∧ collect key same conflict (seen ++ [a]) as = .ok r) ∨
      ∃ b ∈ seen, key b = key a ∧ same b a = true ∧ collect key same conflict seen as = .ok r := by
  rw [collect] at h
  split at h
  · rename_i hnone
    exact .inl ⟨fun b hb heq => List.find?_eq_none.mp hnone b hb (decide_eq_true heq), h⟩
  · rename_i b hfound
    split at h
    · rename_i hsame
      have hkey : key b = key a := by simpa using List.find?_some hfound
      exact .inr ⟨b, List.mem_of_find?_eq_some hfound, hkey, hsame, h⟩
    · cases h

/-- What has been kept stays. -/
theorem prefix_collect (h : collect key same conflict seen as = .ok r) : seen <+: r := by
  induction as generalizing seen with
  | nil =>
    cases h
    exact List.prefix_refl _
  | cons a as ih =>
    rcases collect_cons_eq_ok h with ⟨_, h⟩ | ⟨_, _, _, _, h⟩
    · exact (List.prefix_append seen [a]).trans (ih h)
    · exact ih h

theorem mem_of_mem_collect (h : collect key same conflict seen as = .ok r) (ha : a ∈ r) :
    a ∈ seen ∨ a ∈ as := by
  induction as generalizing seen with
  | nil =>
    cases h
    exact .inl ha
  | cons b as ih =>
    rcases collect_cons_eq_ok h with ⟨_, h⟩ | ⟨_, _, _, _, h⟩
    · rcases ih h with hmem | hmem
      · rcases List.mem_append.mp hmem with hmem | hmem
        · exact .inl hmem
        · exact .inr (List.mem_cons.mpr (.inl (List.mem_singleton.mp hmem)))
      · exact .inr (List.mem_cons_of_mem _ hmem)
    · exact (ih h).imp_right (List.mem_cons_of_mem _)

/-- Every row is represented by one that agrees with it. -/
theorem exists_collected (h : collect key same conflict seen as = .ok r) (ha : a ∈ as) :
    ∃ b ∈ r, key b = key a ∧ (b = a ∨ same b a = true) := by
  induction as generalizing seen with
  | nil => cases ha
  | cons c as ih =>
    rcases collect_cons_eq_ok h with ⟨_, h⟩ | ⟨b, hb, hkey, hsame, h⟩
    · rcases List.mem_cons.mp ha with rfl | ha
      · exact ⟨a, (prefix_collect h).subset (by simp), rfl, .inl rfl⟩
      · exact ih h ha
    · rcases List.mem_cons.mp ha with rfl | ha
      · exact ⟨b, (prefix_collect h).subset hb, hkey, .inr hsame⟩
      · exact ih h ha

theorem nodup_collect (h : collect key same conflict seen as = .ok r)
    (hseen : (seen.map key).Nodup) : (r.map key).Nodup := by
  induction as generalizing seen with
  | nil =>
    cases h
    exact hseen
  | cons a as ih =>
    rcases collect_cons_eq_ok h with ⟨hfresh, h⟩ | ⟨_, _, _, _, h⟩
    · refine ih h ?_
      rw [List.map_append, List.nodup_append]
      refine ⟨hseen, List.nodup_singleton _, fun k hk k' hk' heq => ?_⟩
      obtain ⟨b, hb, rfl⟩ := List.mem_map.mp hk
      exact hfresh b hb (heq.trans (List.mem_singleton.mp hk'))
    · exact ih h hseen

theorem collect_eq_error {e : ε} (h : collect key same conflict seen as = .error e) :
    e = conflict := by
  induction as generalizing seen with
  | nil => cases h
  | cons a as ih =>
    rw [collect] at h
    split at h
    · exact ih h
    · split at h
      · exact ih h
      · exact (Except.error.inj h).symm

/-- Collecting succeeds if rows with the same key agree. -/
theorem exists_collect (h : ∀ a ∈ seen ++ as, ∀ b ∈ seen ++ as, key a = key b → same a b = true) :
    ∃ r, collect key same conflict seen as = .ok r := by
  induction as generalizing seen with
  | nil => exact ⟨seen, rfl⟩
  | cons a as ih =>
    rw [collect]
    split
    · exact ih (by simpa using h)
    · rename_i b hfound
      have hb := List.mem_of_find?_eq_some hfound
      have hkey : key b = key a := by simpa using List.find?_some hfound
      rw [if_pos (h b (List.mem_append_left _ hb) a (by simp) hkey)]
      exact ih fun c hc d hd => h c (by simp only [List.mem_append, List.mem_cons] at hc ⊢; tauto)
        d (by simp only [List.mem_append, List.mem_cons] at hd ⊢; tauto)

/-- If agreement is an equivalence, collecting succeeds exactly if rows with the same key agree. -/
theorem exists_collect_iff (hrefl : ∀ a, same a a = true)
    (hsymm : ∀ a b, same a b = true → same b a = true)
    (htrans : ∀ a b c, same a b = true → same b c = true → same a c = true) :
    (∃ r, collect key same conflict [] as = .ok r) ↔
      ∀ a ∈ as, ∀ b ∈ as, key a = key b → same a b = true := by
  constructor
  · rintro ⟨r, hr⟩ a ha b hb hkey
    obtain ⟨a', ha', hakey, hsame⟩ := exists_collected hr ha
    obtain ⟨b', hb', hbkey, hsame'⟩ := exists_collected hr hb
    obtain rfl : a' = b' := List.inj_on_of_nodup_map (nodup_collect hr List.nodup_nil) ha' hb'
      (hakey.trans (hkey.trans hbkey.symm))
    have hsame : same a' a = true := hsame.elim (fun heq => heq ▸ hrefl _) id
    have hsame' : same a' b = true := hsame'.elim (fun heq => heq ▸ hrefl _) id
    exact htrans _ _ _ (hsymm _ _ hsame) hsame'
  · exact fun h => exists_collect (by simpa using h)

/-- With unique keys, a look-up by key finds the row. -/
theorem find?_eq_some_of_nodup (hnodup : (r.map key).Nodup) (ha : a ∈ r) :
    r.find? (fun b => decide (key b = key a)) = some a := by
  cases hfound : r.find? fun b => decide (key b = key a) with
  | none => exact absurd (decide_eq_true rfl) (List.find?_eq_none.mp hfound a ha)
  | some b =>
    have hkey : key b = key a := by simpa using List.find?_some hfound
    rw [List.inj_on_of_nodup_map hnodup (List.mem_of_find?_eq_some hfound) ha hkey]

end FetchNow.Merging
