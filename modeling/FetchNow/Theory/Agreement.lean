import FetchNow.Theory.Merging
import FetchNow.Theory.Transactions
import Mathlib.Data.List.Perm.Basic

/-!
# Agreement of two runs that may fail

Two runs agree if both fail, with any errors, or both succeed with related values.
-/
namespace FetchNow.Agreement

open Transactions Merging

variable {ε α α' β β' κ : Type} {R : α → α' → Prop} {S : β → β' → Prop}

inductive Agree (R : α → α' → Prop) : Except ε α → Except ε α' → Prop where
  | error (e e' : ε) : Agree R (.error e) (.error e')
  | ok {a : α} {a' : α'} (h : R a a') : Agree R (.ok a) (.ok a')

/-- Both fail, or both succeed with the same value. -/
abbrev Same : Except ε α → Except ε α → Prop := Agree Eq

namespace Agree

variable {r r₁ r₂ : Except ε α} {r' : Except ε α'} {f : α → Except ε β} {f' : α' → Except ε β'}

@[refl]
theorem same_refl (r : Except ε α) : Same r r := by
  cases r with
  | error e => exact .error e e
  | ok a => exact .ok rfl

theorem of_eq (h : r₁ = r₂) : Same r₁ r₂ := h ▸ same_refl r₁

/-- Runs that go on in agreement agree. -/
theorem bind (h : Agree R r r') (hnext : ∀ a a', r = .ok a → R a a' → Agree S (f a) (f' a')) :
    Agree S (r >>= f) (r' >>= f') := by
  cases h with
  | error e e' => exact .error e e'
  | ok h => exact hnext _ _ rfl h

theorem same_bind {f f' : α → Except ε β} (h : Same r₁ r₂) (hnext : ∀ a, Same (f a) (f' a)) :
    Same (r₁ >>= f) (r₂ >>= f') := by
  apply h.bind
  rintro a _ - rfl
  exact hnext a

/-- Agreement, from success with related values on one side and failure on the same terms. -/
theorem of_forall (h : ∀ a, r = .ok a → ∃ a', r' = .ok a' ∧ R a a')
    (h' : ∀ a', r' = .ok a' → ∃ a, r = .ok a) : Agree R r r' := by
  cases r with
  | ok a =>
    obtain ⟨a', rfl, ha⟩ := h a rfl
    exact .ok ha
  | error e =>
    cases r' with
    | error e' => exact .error e e'
    | ok a' =>
      obtain ⟨a, ha⟩ := h' a' rfl
      cases ha

theorem same_of_error {e : ε} {r' : Except ε α} {R : α → α → Prop} (h : Agree R (.error e) r') :
    Same (.error e) r' := by
  cases h with
  | error e e' => exact .error e e'

theorem same_iff : Same r₁ r₂ ↔ ∀ a, r₁ = .ok a ↔ r₂ = .ok a := by
  constructor
  · intro h a
    cases h with
    | error e e' => simp
    | ok h => rw [h]
  · intro h
    apply of_forall
    · intro a ha
      exact ⟨a, (h a).mp ha, rfl⟩
    · intro a ha
      exact ⟨a, (h a).mpr ha⟩

end Agree

/-! ## Lists in another order -/

section Lists

variable {l l' : List α} {f g : α → Except ε β}

theorem mapM_eq_ok_iff {r : List β} : l.mapM f = .ok r ↔ l.map f = r.map .ok := by
  induction l generalizing r with
  | nil =>
    cases r with
    | nil => exact ⟨fun _ => rfl, fun _ => rfl⟩
    | cons b r =>
      constructor
      · intro h
        cases h
      · intro h
        cases h
  | cons a l ih =>
    rw [mapM_cons_eq_ok, List.map_cons]
    constructor
    · rintro ⟨b, r, hb, hr, rfl⟩
      rw [List.map_cons, hb, ih.mp hr]
    · intro h
      cases r with
      | nil => cases h
      | cons b r =>
        obtain ⟨hb, hr⟩ := List.cons.inj h
        exact ⟨b, r, hb, ih.mpr hr, rfl⟩

/-- If all rows give the same values up to their order, so does the run over them. -/
theorem mapM_perm (h : (l.map f).Perm (l'.map g)) : Agree List.Perm (l.mapM f) (l'.mapM g) := by
  have hexists : ∀ {l l' : List α} {f g : α → Except ε β} {r : List β},
      (l.map f).Perm (l'.map g) → l.mapM f = .ok r → ∃ r', l'.mapM g = .ok r' ∧ r.Perm r' := by
    intro l l' f g r hp hr
    rw [mapM_eq_ok_iff.mp hr] at hp
    obtain ⟨r', hr'⟩ : ∃ r', l'.mapM g = .ok r' := by
      apply exists_mapM
      intro a ha
      obtain ⟨b, -, hb⟩ := List.mem_map.mp (hp.mem_iff.mpr (List.mem_map_of_mem ha))
      exact ⟨b, hb.symm⟩
    rw [mapM_eq_ok_iff.mp hr'] at hp
    exact ⟨r', hr', (List.map_perm_map_iff fun _ _ => Except.ok.inj).mp hp⟩
  apply Agree.of_forall
  · exact fun r hr => hexists h hr
  · intro r hr
    obtain ⟨r', hr', -⟩ := hexists h.symm hr
    exact ⟨r', hr'⟩

variable [DecidableEq κ] {key : α → κ} {same : α → α → Bool} {conflict : ε}

/-- What is collected does not depend on the order of the rows if rows with the same key agree only
if they are equal. -/
theorem collect_perm (hrefl : ∀ a, same a a = true)
    (hsymm : ∀ a b, same a b = true → same b a = true)
    (htrans : ∀ a b c, same a b = true → same b c = true → same a c = true)
    (hequal : ∀ a ∈ l, ∀ b ∈ l, key a = key b → same a b = true → a = b) (hp : l.Perm l') :
    Agree List.Perm (collect key same conflict [] l) (collect key same conflict [] l') := by
  have hiff := @exists_collect_iff _ _ _ _ key same conflict l hrefl hsymm htrans
  have hiff' := @exists_collect_iff _ _ _ _ key same conflict l' hrefl hsymm htrans
  have hsubset : ∀ {l₁ l₂ r₁ r₂ : List α}, l₁.Perm l₂ →
      (∀ a ∈ l₂, ∀ b ∈ l₂, key a = key b → same a b = true → a = b) →
      collect key same conflict [] l₁ = .ok r₁ → collect key same conflict [] l₂ = .ok r₂ →
      r₁ ⊆ r₂ := by
    intro l₁ l₂ r₁ r₂ hp hequal hr₁ hr₂ a ha
    have hmem := hp.mem_iff.mp ((mem_of_mem_collect hr₁ ha).resolve_left List.not_mem_nil)
    obtain ⟨b, hb, hkey, hsame⟩ := exists_collected hr₂ hmem
    have hmem' := (mem_of_mem_collect hr₂ hb).resolve_left List.not_mem_nil
    obtain rfl : b = a := hsame.elim id (hequal b hmem' a hmem hkey)
    exact hb
  have hequal' : ∀ a ∈ l', ∀ b ∈ l', key a = key b → same a b = true → a = b :=
    fun a ha b hb => hequal a (hp.mem_iff.mpr ha) b (hp.mem_iff.mpr hb)
  apply Agree.of_forall
  · intro r hr
    obtain ⟨r', hr'⟩ := hiff'.mpr fun a ha b hb =>
      hiff.mp ⟨r, hr⟩ a (hp.mem_iff.mpr ha) b (hp.mem_iff.mpr hb)
    refine ⟨r', hr', ?_⟩
    apply (List.perm_ext_iff_of_nodup (nodup_collect hr List.nodup_nil).of_map
      (nodup_collect hr' List.nodup_nil).of_map).mpr
    intro a
    constructor
    · exact fun ha => hsubset hp hequal' hr hr' ha
    · exact fun ha => hsubset hp.symm hequal hr' hr ha
  · intro r' hr'
    exact hiff.mpr fun a ha b hb =>
      hiff'.mp ⟨r', hr'⟩ a (hp.mem_iff.mp ha) b (hp.mem_iff.mp hb)

end Lists

end FetchNow.Agreement
