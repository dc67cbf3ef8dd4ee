import FetchNow.Text.Unicode
import FetchNow.Theory.Utf16
import FetchNow.Theory.Utf8Prefix
import Mathlib.Algebra.Order.Floor.Ring
import Mathlib.Data.Rat.Floor
import Mathlib.Tactic.NormNum
import Mathlib.Tactic.Ring

/-!
# Strings and numbers of ECMAScript

A string is a sequence of UTF-16 code units, a finite number a double.
-/
namespace FetchNow.EcmaScript

abbrev JsString := List ℕ

/-! ## Strings -/

/-- The white space of `trim` and of `\\s`. -/
def isWhiteSpace (c : ℕ) : Bool :=
  9 ≤ c && c ≤ 13 || c == 0x20 || c == 0xA0 || c == 0x1680 || 0x2000 ≤ c && c ≤ 0x200A ||
    c == 0x2028 || c == 0x2029 || c == 0x202F || c == 0x205F || c == 0x3000 || c == 0xFEFF

/-- `String.prototype.trim`. -/
def trim (s : JsString) : JsString :=
  ((s.dropWhile isWhiteSpace).reverse.dropWhile isWhiteSpace).reverse

/-- The rest of `.replace(/\\s+/g, " ")`, behind white space or not. -/
def joinSpacesFrom : Bool → JsString → JsString
  | _, [] => []
  | behind, c :: rest =>
    if isWhiteSpace c then if behind then joinSpacesFrom true rest else 32 :: joinSpacesFrom true rest
    else c :: joinSpacesFrom false rest

/-- `.replace(/\\s+/g, " ")`. -/
def joinSpaces (s : JsString) : JsString := joinSpacesFrom false s

/-- The character that stands for a code point in UTF-8; lone surrogates are replaced. -/
def replaced (c : ℕ) : Char := if c.isValidChar then Char.ofNat c else Char.ofNat 0xFFFD

/-- `new TextEncoder().encode(s)`. -/
def textEncode (s : JsString) : List UInt8 := Utf8Prefix.bytes ((Utf16.decode s).map replaced)

/-- A byte order mark in front is not part of a decoded text. -/
def withoutMark : JsString → JsString
  | 0xFEFF :: s => s
  | s => s

/-- `new TextDecoder("utf-8", { fatal: true }).decode(bytes)`; nothing stands for its error. -/
def textDecode (bytes : List UInt8) : Option JsString :=
  (Utf8Prefix.read bytes).map fun text => withoutMark (Utf16.encode (text.map Char.toNat))

/-! ## Numbers -/

/-- A value of the format binary64. -/
def IsDouble (q : ℚ) : Prop :=
  ∃ m e : ℤ, |m| < 2 ^ 53 ∧ -1074 ≤ e ∧ e ≤ 971 ∧ q = m * 2 ^ e

/-- A finite number. -/
abbrev Number := {q : ℚ // IsDouble q}

theorem isDouble_intCast {n : ℤ} (h : |n| < 2 ^ 53) : IsDouble n :=
  ⟨n, 0, h, by norm_num, by norm_num, by simp⟩

theorem IsDouble.neg {q : ℚ} (h : IsDouble q) : IsDouble (-q) := by
  obtain ⟨m, e, hm, hlow, hhigh, rfl⟩ := h
  refine ⟨-m, e, by rwa [abs_neg], hlow, hhigh, ?_⟩
  push_cast
  ring

/-- The integral part of a double is one. -/
theorem IsDouble.floor {q : ℚ} (h : IsDouble q) (hq : 0 ≤ q) : IsDouble ⌊q⌋ := by
  obtain ⟨m, e, hm, hlow, hhigh, rfl⟩ := h
  have hpow : (0 : ℚ) < 2 ^ e := zpow_pos (by norm_num) e
  rcases le_or_gt 0 e with he | he
  · obtain ⟨k, rfl⟩ := Int.eq_ofNat_of_zero_le he
    have hint : (m : ℚ) * 2 ^ (k : ℤ) = ((m * 2 ^ k : ℤ) : ℚ) := by push_cast; rfl
    refine ⟨m, k, hm, hlow, hhigh, ?_⟩
    rw [hint, Int.floor_intCast]
  · apply isDouble_intCast
    have hone : (2 : ℚ) ^ e ≤ 1 := zpow_le_one_of_nonpos₀ (by norm_num) he.le
    have hmnonneg : (0 : ℚ) ≤ m := nonneg_of_mul_nonneg_left hq hpow
    have hle : (m : ℚ) * 2 ^ e ≤ m := mul_le_of_le_one_right hmnonneg hone
    have hfloor : ⌊(m : ℚ) * 2 ^ e⌋ ≤ m := by
      have hcast := (Int.floor_le ((m : ℚ) * 2 ^ e)).trans hle
      exact_mod_cast hcast
    rw [abs_of_nonneg (Int.floor_nonneg.mpr hq)]
    exact hfloor.trans_lt ((le_abs_self m).trans_lt hm)

/-- `Math.trunc`. -/
def trunc (x : Number) : Number :=
  if h : 0 ≤ x.1 then ⟨⌊x.1⌋, x.2.floor h⟩
  else ⟨-⌊-x.1⌋, (x.2.neg.floor (neg_nonneg.mpr (not_le.mp h).le)).neg⟩

theorem trunc_eq {a : Number} (h : 0 ≤ a.1) : (trunc a).1 = ⌊a.1⌋ := by
  rw [trunc, dif_pos h]

end FetchNow.EcmaScript
