import FetchNow.Payments.Robokassa
import FetchNow.Theory.Rounding

/-! Which texts of a callback stand for an amount, and the amounts the code reads from them. -/
namespace FetchNow

open Transactions Rounding

namespace Robokassa

variable {raw : String} {whole fraction : List Char} {c k m n u : ℕ}

/-- A text of the `_OUT_SUM` grammar, with its digits before and after the point. -/
structure OutSum (raw : String) (whole fraction : List Char) : Prop where
  text : raw.toList = whole ++ (if fraction = [] then [] else '.' :: fraction)
  whole_digits : whole.all Char.isDigit
  fraction_digits : fraction.all Char.isDigit
  leading : whole = ['0'] ∨ whole ≠ [] ∧ whole.head? ≠ some '0'

/-- The coefficient of a hundred times the value; the point stands before `k` digits. -/
def hundredfold (whole fraction : List Char) : ℕ := (decimal whole fraction).coefficient * 100

/-- A hundred times the exact value of the text is the amount. -/
def ExactAmount (raw : String) (n : ℕ) : Prop :=
  ∃ whole fraction, OutSum raw whole fraction ∧
    hundredfold whole fraction = n * 10 ^ fraction.length ∧ 1 ≤ n ∧ n ≤ maxAmount

/-- A unit of the last of the context's significant digits of a coefficient. -/
def lastPlace (c : ℕ) : ℕ := 10 ^ (Nat.log 10 c + 1 - Decimal.precision)

/-- A hundred times the exact value is no integer, but rounds to an amount. -/
def RoundsToAmount (raw : String) : Prop :=
  ∃ whole fraction, OutSum raw whole fraction ∧ ∃ n, 1 ≤ n ∧ n ≤ maxAmount ∧
    hundredfold whole fraction ≠ n * 10 ^ fraction.length ∧
    Near (lastPlace (hundredfold whole fraction)) (hundredfold whole fraction)
      (n * 10 ^ fraction.length)

theorem lastPlace_pos : 0 < lastPlace c := Nat.pow_pos (by decide)

theorem takeWhile_digits (rest : List Char) (hw : whole.all Char.isDigit)
    (hr : rest = [] ∨ ∃ l, rest = '.' :: l) :
    (whole ++ rest).takeWhile Char.isDigit = whole ∧
      (whole ++ rest).dropWhile Char.isDigit = rest := by
  induction whole with
  | nil => rcases hr with rfl | ⟨l, rfl⟩ <;> simp
  | cons d whole ih =>
    have hd : d.isDigit = true := by simp_all
    have ht := ih (by simp_all)
    simp [hd, ht]

theorem outSumDigits_iff :
    outSumDigits raw.toList = some (whole, fraction) ↔ OutSum raw whole fraction := by
  constructor
  · intro h
    have htext := List.takeWhile_append_dropWhile (p := Char.isDigit) (l := raw.toList)
    have hall := List.all_takeWhile (p := Char.isDigit) (l := raw.toList)
    simp only [outSumDigits] at h
    split_ifs at h with hlead
    generalize raw.toList.takeWhile Char.isDigit = w at htext hall hlead h
    split at h
    · simp only [Option.some.injEq, Prod.mk.injEq] at h
      obtain ⟨rfl, rfl⟩ := h
      exact ⟨by simp_all, hall, rfl, hlead⟩
    · split_ifs at h with hfraction
      simp only [Option.some.injEq, Prod.mk.injEq] at h
      obtain ⟨rfl, rfl⟩ := h
      exact ⟨by simp_all, hall, hfraction.2, hlead⟩
    · cases h
  · rintro ⟨htext, hw, hf, hlead⟩
    by_cases hne : fraction = []
    · subst hne
      obtain ⟨ht, hd⟩ := takeWhile_digits [] hw (Or.inl rfl)
      simp only [if_pos, htext] at ht hd ⊢
      simp only [outSumDigits, ht, hd, if_pos hlead]
    · obtain ⟨ht, hd⟩ := takeWhile_digits ('.' :: fraction) hw (Or.inr ⟨_, rfl⟩)
      simp only [if_neg hne] at htext
      simp only [htext, outSumDigits, ht, hd, if_pos hlead]
      rw [if_pos ⟨hne, hf⟩]

theorem OutSum.unique {whole' fraction' : List Char} (h : OutSum raw whole fraction)
    (h' : OutSum raw whole' fraction') : whole = whole' ∧ fraction = fraction' := by
  have he := (outSumDigits_iff.mpr h).symm.trans (outSumDigits_iff.mpr h')
  simpa using he

/-! The product is the rounded coefficient, moved by the digits that were dropped. -/

theorem scale_decimal :
    (decimal whole fraction).scale 100 =
      ⟨halfEven (hundredfold whole fraction) (lastPlace (hundredfold whole fraction)),
        ((Nat.log 10 (hundredfold whole fraction) + 1 - Decimal.precision : ℕ) : ℤ) -
          fraction.length⟩ := by
  simp only [Decimal.scale, Decimal.rounded]
  change (if Nat.log 10 (hundredfold whole fraction) + 1 ≤ _ then _ else _) = _
  by_cases hdigits : Nat.log 10 (hundredfold whole fraction) + 1 ≤ Decimal.precision
  · have hzero : Nat.log 10 (hundredfold whole fraction) + 1 - Decimal.precision = 0 := by omega
    rw [if_pos hdigits]
    simp only [lastPlace, hzero, pow_zero, halfEven_one]
    simp [hundredfold, decimal]
  · rw [if_neg hdigits]
    refine congrArg₂ Decimal.mk rfl ?_
    change -(fraction.length : ℤ) + _ = _
    simp only [hundredfold]
    omega

theorem integral?_eq_some_iff {e : ℕ} :
    (⟨c, (e : ℤ) - k⟩ : Decimal).integral? = some n ↔ c * 10 ^ e = n * 10 ^ k := by
  simp only [Decimal.integral?]
  by_cases hle : k ≤ e
  · have hexp : ((e : ℤ) - k).toNat = e - k := by omega
    have hpow : 10 ^ e = 10 ^ (e - k) * 10 ^ k := by rw [← pow_add]; congr 1; omega
    rw [if_pos (by omega), hexp, hpow, Option.some.injEq, ← mul_assoc]
    exact ⟨fun h => by rw [h], Nat.eq_of_mul_eq_mul_right (Nat.pow_pos (by decide))⟩
  · have hexp : (-((e : ℤ) - k)).toNat = k - e := by omega
    have hpow : 10 ^ k = 10 ^ (k - e) * 10 ^ e := by rw [← pow_add]; congr 1; omega
    have hpos : 0 < 10 ^ (k - e) := Nat.pow_pos (by decide)
    rw [if_neg (by omega), hexp, hpow, ← mul_assoc]
    constructor
    · intro h
      split_ifs at h with hdvd
      rw [Option.some.injEq] at h
      rw [← h, Nat.div_mul_cancel hdvd]
    · intro h
      have hc : c = n * 10 ^ (k - e) := Nat.eq_of_mul_eq_mul_right (Nat.pow_pos (by decide)) h
      rw [if_pos (hc ▸ Nat.dvd_mul_left _ _), hc, Nat.mul_div_cancel _ hpos]

/-- An accepted text is read as the amount whose multiple of the last place it rounds to. -/
theorem parseCallbackOutSum_eq_ok_iff (h : OutSum raw whole fraction) {a : ℤ} :
    parseCallbackOutSum raw = .ok a ↔ raw.length ≤ 64 ∧ ∃ n : ℕ, a = n ∧ 1 ≤ n ∧ n ≤ maxAmount ∧
      halfEven (hundredfold whole fraction) (lastPlace (hundredfold whole fraction)) *
        lastPlace (hundredfold whole fraction) = n * 10 ^ fraction.length := by
  simp only [parseCallbackOutSum, outSumDigits_iff.mpr h, bind_eq_ok, require_eq_ok, scale_decimal]
  constructor
  · rintro ⟨-, hlen, hread⟩
    refine ⟨hlen, ?_⟩
    split at hread
    · cases hread
    · rename_i n hn
      simp only [bind_eq_ok, require_eq_ok, Except.ok.injEq] at hread
      obtain ⟨-, ⟨hpos, hle⟩, rfl⟩ := hread
      exact ⟨n, rfl, hpos, hle, integral?_eq_some_iff.mp hn⟩
  · rintro ⟨hlen, n, rfl, hpos, hle, hn⟩
    refine ⟨(), hlen, ?_⟩
    simp only [integral?_eq_some_iff.mpr hn]
    exact bind_eq_ok.mpr ⟨(), require_eq_ok.mpr ⟨hpos, hle⟩, rfl⟩

theorem outSum_of_accepted {a : ℤ} (h : parseCallbackOutSum raw = .ok a) :
    ∃ whole fraction, OutSum raw whole fraction := by
  simp only [parseCallbackOutSum, bind_eq_ok, require_eq_ok] at h
  obtain ⟨-, -, h⟩ := h
  split at h
  · cases h
  · exact ⟨_, _, outSumDigits_iff.mp ‹_›⟩

/-! An amount has at most nineteen digits, so the last of twenty-eight lies within the fraction:
a multiple of the last place is reached from all of the half unit around it, as an even one. -/

/-- The number of digits that rounding drops. -/
def dropped (c : ℕ) : ℕ := Nat.log 10 c + 1 - Decimal.precision

theorem lastPlace_eq : lastPlace c = 10 ^ dropped c := rfl

theorem dropped_lt (hn : n ≤ maxAmount) (hnear : Near (lastPlace c) c (n * 10 ^ k))
    (hd : dropped c ≠ 0) : dropped c < k := by
  by_contra hk
  have hlog : Nat.log 10 c = 27 + dropped c := by
    simp only [dropped, Decimal.precision] at hd ⊢
    omega
  have hc : c ≠ 0 := by
    rintro rfl
    rw [Nat.log_zero_right] at hlog
    omega
  have hbig : 10 ^ (27 + dropped c) ≤ c := hlog ▸ Nat.pow_log_le_self 10 hc
  have hsplit : 10 ^ (27 + dropped c) = 10 ^ 27 * lastPlace c := by rw [lastPlace_eq, pow_add]
  have hpow : 10 ^ k ≤ lastPlace c := by
    rw [lastPlace_eq]
    exact Nat.pow_le_pow_right (by decide) (Nat.le_of_not_lt hk)
  have hmul : n * 10 ^ k ≤ maxAmount * lastPlace c := Nat.mul_le_mul hn hpow
  have hplace : 0 < lastPlace c := lastPlace_pos
  have hlow := hnear.1
  simp only [maxAmount] at hmul
  omega

theorem halfEven_of_near_amount (hn : n ≤ maxAmount)
    (hnear : Near (lastPlace c) c (n * 10 ^ k)) :
    halfEven c (lastPlace c) * lastPlace c = n * 10 ^ k := by
  by_cases hd : dropped c = 0
  · have hone : lastPlace c = 1 := by rw [lastPlace_eq, hd, pow_zero]
    rw [hone] at hnear ⊢
    rw [halfEven_one, mul_one]
    exact eq_of_near_one hnear
  · have hk := dropped_lt hn hnear hd
    obtain ⟨j, rfl⟩ : ∃ j, k = j + 1 + dropped c := ⟨k - 1 - dropped c, by omega⟩
    have hmul : n * 10 ^ (j + 1 + dropped c) = n * 10 ^ j * 10 * lastPlace c := by
      rw [lastPlace_eq]
      ring
    have heven : n * 10 ^ j * 10 % 2 = 0 := by omega
    rw [hmul] at hnear ⊢
    rw [halfEven_of_near heven hnear lastPlace_pos]

/-- Exactly the texts within half a last place of an amount are read as it. -/
theorem parseCallbackOutSum_iff_near (h : OutSum raw whole fraction) {a : ℤ} :
    parseCallbackOutSum raw = .ok a ↔ raw.length ≤ 64 ∧ ∃ n : ℕ, a = n ∧ 1 ≤ n ∧ n ≤ maxAmount ∧
      Near (lastPlace (hundredfold whole fraction)) (hundredfold whole fraction)
        (n * 10 ^ fraction.length) := by
  rw [parseCallbackOutSum_eq_ok_iff h]
  constructor
  · rintro ⟨hlen, n, rfl, hpos, hn, he⟩
    exact ⟨hlen, n, rfl, hpos, hn, he ▸ halfEven_near lastPlace_pos⟩
  · rintro ⟨hlen, n, rfl, hpos, hn, hnear⟩
    exact ⟨hlen, n, rfl, hpos, hn, halfEven_of_near_amount hn hnear⟩

theorem parseCallbackOutSum_of_exact (h : ExactAmount raw n) (hlen : raw.length ≤ 64) :
    parseCallbackOutSum raw = .ok n := by
  obtain ⟨whole, fraction, hsum, he, hpos, hn⟩ := h
  exact (parseCallbackOutSum_iff_near hsum).mpr ⟨hlen, n, rfl, hpos, hn, he ▸ near_self⟩

theorem exactAmount_iff (h : OutSum raw whole fraction) :
    ExactAmount raw n ↔
      hundredfold whole fraction = n * 10 ^ fraction.length ∧ 1 ≤ n ∧ n ≤ maxAmount := by
  constructor
  · rintro ⟨whole', fraction', hsum, hexact⟩
    obtain ⟨rfl, rfl⟩ := h.unique hsum
    exact hexact
  · exact fun hexact => ⟨whole, fraction, h, hexact⟩

/-! The texts the code writes. -/

theorem value_toDigits (n : ℕ) :
    (Nat.toDigits 10 n).foldl (fun v d => 10 * v + (d.toNat - '0'.toNat)) 0 = n := by
  induction n using Nat.strong_induction_on with
  | _ n ih =>
    have hlast : (n % 10).digitChar.toNat - '0'.toNat = n % 10 :=
      Nat.toNat_digitChar_sub_48_of_lt_ten (Nat.mod_lt n (by decide))
    by_cases hn : n < 10
    · rw [Nat.toDigits_of_lt_base hn]
      rw [Nat.mod_eq_of_lt hn] at hlast
      simp only [List.foldl_cons, List.foldl_nil, hlast]
      omega
    · rw [Nat.toDigits_of_base_le (by decide) (by omega), List.foldl_append, ih _ (by omega)]
      simp only [List.foldl_cons, List.foldl_nil, hlast]
      omega

theorem toDigits_head_ne_zero (hn : 1 ≤ n) : (Nat.toDigits 10 n).head? ≠ some '0' := by
  induction n using Nat.strong_induction_on with
  | _ n ih =>
    by_cases hlt : n < 10
    · rw [Nat.toDigits_of_lt_base hlt]
      intro h
      rw [List.head?_cons, Option.some.injEq, Nat.digitChar_eq_zero] at h
      omega
    · rw [Nat.toDigits_of_base_le (by decide) (by omega),
        List.head?_append_of_ne_nil _ Nat.toDigits_ne_nil]
      exact ih _ (by omega) (by omega)

theorem toDigits_leading (n : ℕ) :
    Nat.toDigits 10 n = ['0'] ∨
      Nat.toDigits 10 n ≠ [] ∧ (Nat.toDigits 10 n).head? ≠ some '0' := by
  cases n with
  | zero => exact Or.inl (Nat.toDigits_zero 10)
  | succ n => exact Or.inr ⟨Nat.toDigits_ne_nil, toDigits_head_ne_zero (by omega)⟩

theorem toDigits_digits (n : ℕ) : (Nat.toDigits 10 n).all Char.isDigit := by
  rw [List.all_eq_true]
  intro d hd
  exact Nat.isDigit_of_mem_toDigits (by decide) (by decide) hd

/-- The text of an amount, with its two digits after the point. -/
def amountText (n : ℕ) : String :=
  toString (n / 100) ++ "." ++ toString (n % 100 / 10) ++ toString (n % 100 % 10)

theorem formatOutSum_eq (hpos : 1 ≤ n) :
    formatOutSum n = .ok (amountText n) := by
  simp only [amountText, formatOutSum, require_true (show (0 : ℤ) < n by omega), ok_bind, Int.toNat_natCast]

theorem amountText_toList : (amountText n).toList = Nat.toDigits 10 (n / 100) ++ '.' ::
    [(n % 100 / 10).digitChar, (n % 100 % 10).digitChar] := by
  have htens : n % 100 / 10 < 10 := by omega
  have hunits : n % 100 % 10 < 10 := by omega
  simp only [amountText, String.toList_append, Nat.toString_eq_repr, Nat.toList_repr,
    Nat.toDigits_of_lt_base htens, Nat.toDigits_of_lt_base hunits]
  simp

theorem amountText_outSum : OutSum (amountText n) (Nat.toDigits 10 (n / 100))
    [(n % 100 / 10).digitChar, (n % 100 % 10).digitChar] := by
  refine ⟨?_, toDigits_digits _, ?_, toDigits_leading _⟩
  · rw [amountText_toList, if_neg (by simp)]
  · simp only [List.all_cons, List.all_nil, Nat.isDigit_digitChar]
    simp only [Bool.and_true, Bool.and_eq_true, decide_eq_true_eq]
    omega

theorem amountText_hundredfold : hundredfold (Nat.toDigits 10 (n / 100))
    [(n % 100 / 10).digitChar, (n % 100 % 10).digitChar] = n * 10 ^ 2 := by
  have htens := Nat.toNat_digitChar_sub_48_of_lt_ten (show n % 100 / 10 < 10 by omega)
  have hunits := Nat.toNat_digitChar_sub_48_of_lt_ten (show n % 100 % 10 < 10 by omega)
  have hzero : '0'.toNat = 48 := rfl
  simp only [hundredfold, decimal, List.foldl_append, value_toDigits]
  simp only [List.foldl_cons, List.foldl_nil, hzero, htens, hunits]
  omega

theorem amountText_exact (hpos : 1 ≤ n) (hn : n ≤ maxAmount) : ExactAmount (amountText n) n :=
  ⟨_, _, amountText_outSum, amountText_hundredfold, hpos, hn⟩

theorem amountText_length (hn : n ≤ maxAmount) : (amountText n).length ≤ 64 := by
  have hwhole : (Nat.toDigits 10 (n / 100)).length ≤ 61 := by
    rw [Nat.length_toDigits_le_iff (by decide) (by decide)]
    simp only [maxAmount] at hn
    omega
  rw [← String.length_toList, amountText_toList]
  simp only [List.length_append, List.length_cons, List.length_nil]
  omega

theorem parseCallbackOutSum_amountText (hpos : 1 ≤ n) (hn : n ≤ maxAmount) :
    parseCallbackOutSum (amountText n) = .ok n :=
  parseCallbackOutSum_of_exact (amountText_exact hpos hn) (amountText_length hn)

/-- Among the texts short enough to be read, exactly those that round to an amount without being
one are read otherwise than they are written; what the code writes it reads back. -/
theorem callback_amounts_exact_iff (raw : String) :
    ((∀ a : ℤ, parseCallbackOutSum raw = .ok a ↔
        raw.length ≤ 64 ∧ ∃ n : ℕ, a = n ∧ ExactAmount raw n) ↔
      ¬ (raw.length ≤ 64 ∧ RoundsToAmount raw)) ∧
    (∀ n : ℕ, 1 ≤ n → n ≤ maxAmount →
      ∃ raw, formatOutSum n = .ok raw ∧ parseCallbackOutSum raw = .ok n) ∧
    ∀ n m : ℕ, 1 ≤ n → n ≤ maxAmount → 1 ≤ m → m ≤ maxAmount →
      formatOutSum n = formatOutSum m → n = m := by
  refine ⟨?_, ?_, ?_⟩
  · constructor
    · rintro hread ⟨hlen, whole, fraction, hsum, n, hpos, hn, hne, hnear⟩
      have hok := (parseCallbackOutSum_iff_near hsum).mpr ⟨hlen, n, rfl, hpos, hn, hnear⟩
      obtain ⟨-, m, hm, hexact⟩ := (hread n).mp hok
      obtain rfl : n = m := by exact_mod_cast hm
      exact hne ((exactAmount_iff hsum).mp hexact).1
    · intro hcon a
      constructor
      · intro hok
        obtain ⟨whole, fraction, hsum⟩ := outSum_of_accepted hok
        obtain ⟨hlen, n, rfl, hpos, hn, hnear⟩ := (parseCallbackOutSum_iff_near hsum).mp hok
        refine ⟨hlen, n, rfl, (exactAmount_iff hsum).mpr ⟨?_, hpos, hn⟩⟩
        by_contra hne
        exact hcon ⟨hlen, whole, fraction, hsum, n, hpos, hn, hne, hnear⟩
      · rintro ⟨hlen, n, rfl, hexact⟩
        exact parseCallbackOutSum_of_exact hexact hlen
  · intro n hpos hn
    exact ⟨amountText n, formatOutSum_eq hpos, parseCallbackOutSum_amountText hpos hn⟩
  · intro n m hpos hn hposm hm he
    rw [formatOutSum_eq hpos, formatOutSum_eq hposm, Except.ok.injEq] at he
    have hread := parseCallbackOutSum_amountText hpos hn
    rw [he, parseCallbackOutSum_amountText hposm hm, Except.ok.injEq] at hread
    exact_mod_cast hread.symm

theorem callback_amounts_exact_sample :
    (∃ raw, formatOutSum (19900 : ℕ) = .ok raw ∧ parseCallbackOutSum raw = .ok (19900 : ℕ)) ∧
      formatOutSum (19900 : ℕ) ≠ formatOutSum (19901 : ℕ) := by
  refine ⟨(callback_amounts_exact_iff "199.00").2.1 19900 (by decide) (by decide), ?_⟩
  intro he
  have heq := (callback_amounts_exact_iff "199.00").2.2 19900 19901 (by decide) (by decide)
    (by decide) (by decide) he
  omega

/-- A price with sixty-two digits after the point, a little above one. -/
def longOutSum : String :=
  "1.00000000000000000000000000000000000000000000000000000000000001"

theorem long_out_sum_read : parseCallbackOutSum longOutSum = .ok 100 := by rfl

theorem long_out_sum_inexact : ¬ ExactAmount longOutSum 100 := by
  have hsum : OutSum longOutSum ['1'] (List.replicate 61 '0' ++ ['1']) :=
    outSumDigits_iff.mp (by rfl)
  rw [exactAmount_iff hsum]
  rintro ⟨he, -⟩
  revert he
  decide

theorem callback_amounts_not_exact : ¬ ∀ (raw : String) (a : ℤ),
    parseCallbackOutSum raw = .ok a ↔ raw.length ≤ 64 ∧ ∃ n : ℕ, a = n ∧ ExactAmount raw n := by
  intro hclaim
  obtain ⟨-, n, hn, hexact⟩ := (hclaim longOutSum 100).mp long_out_sum_read
  obtain rfl : 100 = n := by exact_mod_cast hn
  exact long_out_sum_inexact hexact

end Robokassa

end FetchNow
