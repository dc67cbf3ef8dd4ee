import FetchNow.MediaFlow.Quality
import Mathlib.Data.List.TakeWhile
import Mathlib.Data.Nat.Digits.Lemmas
import Mathlib.Data.Nat.Size

/-!
# A runtime for whole numbers

Integers are written in their digits, and the first one that is not as an exponent. What the
grouping needs of a runtime holds of this one.
-/
namespace FetchNow.Quality

open EcmaScript

/-! ## Digits -/

/-- The digits of a number. -/
def digitsText (n : ℕ) : JsString :=
  if n = 0 then [48] else (Nat.digits 10 n).reverse.map (48 + ·)

def readDigits (digits : JsString) : ℕ := Nat.ofDigits 10 (digits.reverse.map (· - 48))

/-- The number that keeps 53 bits of a natural number. -/
def roundedDown (n : ℕ) : Option Number :=
  if h : n.size ≤ 1024 then
    some ⟨((n / 2 ^ (n.size - 53) : ℕ) : ℤ) * 2 ^ ((n.size - 53 : ℕ) : ℤ),
      ((n / 2 ^ (n.size - 53) : ℕ) : ℤ), ((n.size - 53 : ℕ) : ℤ), by
        have hlt : n / 2 ^ (n.size - 53) < 2 ^ 53 := by
          apply Nat.div_lt_of_lt_mul
          rw [← pow_add]
          exact n.lt_size_self.trans_le (Nat.pow_le_pow_right (by omega) (by omega))
        rw [abs_of_nonneg (Int.natCast_nonneg _)]
        exact_mod_cast hlt, by omega, by omega, rfl⟩
  else none

/-- The number that the leading digits make. -/
def parseDigits (s : JsString) : Option Number :=
  let digits := s.takeWhile isDigit
  if digits = [] then none else roundedDown (readDigits digits)

def signUnit (n : ℤ) : ℕ := if 0 ≤ n then 1 else 0

/-- The text of integers and of the first number that is not written in plain digits. -/
def wholeText (x : Number) : JsString :=
  if x.1 = 10 ^ 21 then codePoints "1e+21"
  else if x.1.den = 1 ∧ 0 ≤ x.1.num then digitsText x.1.num.toNat
  else [46, x.1.num.natAbs, signUnit x.1.num, x.1.den]

theorem isDigit_digitsText {n : ℕ} : (digitsText n).all isDigit = true := by
  rw [List.all_eq_true, digitsText]
  intro c hc
  split at hc
  · obtain rfl := List.mem_singleton.mp hc
    rfl
  · obtain ⟨d, hd, rfl⟩ := List.mem_map.mp hc
    have hlt := Nat.digits_lt_base (by omega) (List.mem_reverse.mp hd)
    simp only [isDigit, Bool.and_eq_true, decide_eq_true_eq]
    omega

theorem digitsText_ne_nil {n : ℕ} : digitsText n ≠ [] := by
  rw [digitsText]
  split
  · nofun
  · rename_i hn
    rw [Ne, List.map_eq_nil_iff, List.reverse_eq_nil_iff, Nat.digits_eq_nil_iff_eq_zero]
    exact hn

theorem readDigits_digitsText (n : ℕ) : readDigits (digitsText n) = n := by
  rw [digitsText]
  split
  · rename_i hn
    rw [hn]
    rfl
  · rw [readDigits, ← List.map_reverse, List.reverse_reverse, List.map_map]
    have hid : ((· - 48) ∘ (48 + ·) : ℕ → ℕ) = id := by
      funext d
      exact Nat.add_sub_cancel_left 48 d
    rw [hid, List.map_id, Nat.ofDigits_digits]

/-! ## Integers are read back -/

/-- The bits of an integer that is a number. -/
theorem bits_of_number {n : ℕ} {x : Number} (h : x.1 = n) :
    n.size ≤ 1024 ∧ 2 ^ (n.size - 53) ∣ n := by
  obtain ⟨m, e, hm, -, hhigh, hx⟩ := x.2
  rw [h] at hx
  rcases lt_or_ge e 0 with he | he
  · have hpow : (0 : ℚ) < 2 ^ e := zpow_pos (by norm_num) e
    have hone : (2 : ℚ) ^ e ≤ 1 := zpow_le_one_of_nonpos₀ (by norm_num) he.le
    have hmnonneg : (0 : ℚ) ≤ m := nonneg_of_mul_nonneg_left (hx ▸ Nat.cast_nonneg n) hpow
    have hle : (n : ℚ) ≤ m := hx ▸ mul_le_of_le_one_right hmnonneg hone
    have hlt : n < 2 ^ 53 := by
      have hcast : (n : ℤ) ≤ m := by exact_mod_cast hle
      have habs := (le_abs_self m).trans_lt hm
      exact_mod_cast hcast.trans_lt habs
    have hsize := Nat.size_le.mpr hlt
    rw [Nat.sub_eq_zero_of_le hsize]
    exact ⟨by omega, one_dvd n⟩
  · obtain ⟨k, rfl⟩ := Int.eq_ofNat_of_zero_le he
    have hint : (n : ℤ) = m * 2 ^ k := by exact_mod_cast hx
    have hnat : n = m.natAbs * 2 ^ k := by
      have habs := congrArg Int.natAbs hint
      rwa [Int.natAbs_natCast, Int.natAbs_mul, Int.natAbs_pow] at habs
    have hbound : m.natAbs < 2 ^ 53 := by
      have hcast : (m.natAbs : ℤ) < 2 ^ 53 := by rwa [Int.natCast_natAbs]
      exact_mod_cast hcast
    have hsize : n.size ≤ 53 + k := by
      apply Nat.size_le.mpr
      rw [hnat, pow_add]
      exact Nat.mul_lt_mul_of_pos_right hbound (by positivity)
    refine ⟨by omega, ?_⟩
    rw [hnat] at hsize ⊢
    exact dvd_mul_of_dvd_right (Nat.pow_dvd_pow 2 (by omega)) _

/-- An integer that is a number is read as itself. -/
theorem roundedDown_eq {n : ℕ} {x : Number} (h : x.1 = n) : roundedDown n = some x := by
  obtain ⟨hsize, hdvd⟩ := bits_of_number h
  rw [roundedDown, dif_pos hsize, Option.some_inj]
  apply Subtype.ext
  have hcast : ((((n / 2 ^ (n.size - 53) : ℕ) : ℤ) : ℚ) * 2 ^ ((n.size - 53 : ℕ) : ℤ)) = n := by
    exact_mod_cast Nat.div_mul_cancel hdvd
  exact hcast.trans h.symm

theorem parseDigits_digits {n : ℕ} {x : Number} (h : x.1 = n) :
    parseDigits (digitsText n) = some x := by
  have hall : (digitsText n).takeWhile isDigit = digitsText n :=
    List.takeWhile_eq_self_iff.mpr (List.all_eq_true.mp isDigit_digitsText)
  simp only [parseDigits, hall, if_neg digitsText_ne_nil]
  rw [readDigits_digitsText, roundedDown_eq h]

theorem eq_num_toNat {x : Number} (hden : x.1.den = 1) (hnum : 0 ≤ x.1.num) :
    x.1 = x.1.num.toNat := by
  have hcast : (x.1.num.toNat : ℤ) = x.1.num := Int.toNat_of_nonneg hnum
  have hself : (x.1.num : ℚ) = x.1 := (Rat.den_eq_one_iff x.1).mp hden
  calc x.1 = ((x.1.num.toNat : ℤ) : ℚ) := by rw [hcast, hself]
    _ = x.1.num.toNat := by norm_cast

theorem parseDigits_text (x : Number) (hx : 0 ≤ x.1) (hlt : x.1 < 10 ^ 21)
    (htrunc : trunc x = x) : parseDigits (wholeText x) = some x := by
  have hint : x.1 = (⌊x.1⌋ : ℚ) := by
    rw [← trunc_eq hx, htrunc]
  have hnum : 0 ≤ x.1.num := Rat.num_nonneg.mpr hx
  have hden : x.1.den = 1 := by
    rw [hint]
    rfl
  rw [wholeText, if_neg hlt.ne, if_pos ⟨hden, hnum⟩]
  exact parseDigits_digits (eq_num_toNat hden hnum)

theorem not_digits {n c : ℕ} {rest : JsString} (hc : c ∈ rest) (hdigit : isDigit c = false) :
    digitsText n ≠ rest := by
  intro h
  have hall := List.all_eq_true.mp isDigit_digitsText c (h ▸ hc)
  rw [hdigit] at hall
  cases hall

theorem wholeText_inj (a b : Number) (h : wholeText a = wholeText b) : a = b := by
  rw [wholeText, wholeText] at h
  split at h
  · rename_i ha
    split at h
    · rename_i hb
      exact Subtype.ext (ha.trans hb.symm)
    · split at h
      · exact absurd h.symm (not_digits (List.mem_of_elem_eq_true (a := 101) rfl) rfl)
      · exact absurd (List.cons.inj h).1 (by decide)
  · split at h
    · rename_i ha
      split at h
      · exact absurd h (not_digits (List.mem_of_elem_eq_true (a := 101) rfl) rfl)
      · split at h
        · rename_i hb
          have hread := congrArg readDigits h
          rw [readDigits_digitsText, readDigits_digitsText] at hread
          apply Subtype.ext
          rw [eq_num_toNat ha.1 ha.2, eq_num_toNat hb.1 hb.2, hread]
        · exact absurd h (not_digits List.mem_cons_self rfl)
    · split at h
      · exact absurd (List.cons.inj h).1 (by decide)
      · split at h
        · exact absurd h.symm (not_digits List.mem_cons_self rfl)
        · obtain ⟨-, h⟩ := List.cons.inj h
          obtain ⟨habs, h⟩ := List.cons.inj h
          obtain ⟨hsign, h⟩ := List.cons.inj h
          obtain ⟨hden, -⟩ := List.cons.inj h
          apply Subtype.ext
          apply Rat.ext _ hden
          rw [signUnit, signUnit] at hsign
          split at hsign <;> split at hsign <;> omega

/-- Identifiers are compared unit by unit. -/
def wholeRuntime : Runtime where
  toLowerCase s := s.map fun c => if 65 ≤ c ∧ c ≤ 90 then c + 32 else c
  sortKey s := s
  numberText := wholeText
  parseInt := parseDigits
  sortKey_ids _ _ := Subtype.ext
  numberText_inj := wholeText_inj
  parseInt_text := parseDigits_text

end FetchNow.Quality
