import Mathlib.Algebra.Group.Nat.Defs
import Mathlib.Data.List.Basic
import Mathlib.Data.Nat.Basic

/-!
# Texts

Numerals of a fixed width, and the replacement of one text by another.
-/
namespace Texts

/-! ## Numerals -/

variable {base width n acc : ℕ} {rest : List Char}

/-- The value of a digit in a base up to 16. -/
def digitValue (c : Char) : Option ℕ :=
  if c.isDigit then some (c.toNat - 48)
  else if 97 ≤ c.toNat ∧ c.toNat ≤ 102 then some (c.toNat - 87)
  else if 65 ≤ c.toNat ∧ c.toNat ≤ 70 then some (c.toNat - 55)
  else none

def writeDigits (base : ℕ) : ℕ → ℕ → List Char
  | 0, _ => []
  | width + 1, n => Nat.digitChar (n / base ^ width) :: writeDigits base width (n % base ^ width)

/-- Read digits in front of a text, behind those that have the value `acc`. -/
def readDigits (base : ℕ) : ℕ → ℕ → List Char → Option (ℕ × List Char)
  | 0, acc, rest => some (acc, rest)
  | _ + 1, _, [] => none
  | width + 1, acc, c :: rest =>
    ((digitValue c).filter (· < base)).bind fun digit =>
      readDigits base width (acc * base + digit) rest

theorem digitValue_digitChar (h : n < 16) : digitValue n.digitChar = some n := by
  revert n
  decide

theorem length_writeDigits (base width n : ℕ) : (writeDigits base width n).length = width := by
  induction width generalizing n with
  | zero => rfl
  | succ width ih => rw [writeDigits, List.length_cons, ih]

theorem isHex_of_mem {c : Char} (hbase : base ≤ 16) (hn : n < base ^ width)
    (hc : c ∈ writeDigits base width n) : ∃ digit < base, c = Nat.digitChar digit := by
  induction width generalizing n with
  | zero => cases hc
  | succ width ih =>
    have hpos : 0 < base ^ width := by
      rcases Nat.eq_zero_or_pos base with rfl | hbase
      · simp at hn
      · exact Nat.pow_pos hbase
    rcases List.mem_cons.mp hc with rfl | hc
    · exact ⟨_, Nat.div_lt_of_lt_mul (hn), rfl⟩
    · exact ih (Nat.mod_lt _ hpos) hc

/-- What is written is read back. -/
theorem readDigits_writeDigits (hbase : base ≤ 16) (hn : n < base ^ width) :
    readDigits base width acc (writeDigits base width n ++ rest) =
      some (acc * base ^ width + n, rest) := by
  induction width generalizing n acc with
  | zero =>
    have hzero : n = 0 := by simpa using hn
    simp [readDigits, writeDigits, hzero]
  | succ width ih =>
    have hpos : 0 < base ^ width := by
      rcases Nat.eq_zero_or_pos base with rfl | hbase
      · simp at hn
      · exact Nat.pow_pos hbase
    have hdigit : n / base ^ width < base := Nat.div_lt_of_lt_mul (hn)
    have hvalue := digitValue_digitChar (Nat.lt_of_lt_of_le hdigit hbase)
    rw [writeDigits, List.cons_append, readDigits, hvalue, Option.filter_some,
      if_pos (decide_eq_true hdigit), Option.bind_some, ih (Nat.mod_lt _ hpos)]
    have hsplit := Nat.div_add_mod' n (base ^ width)
    rw [Nat.add_mul, Nat.pow_succ, Nat.mul_assoc, Nat.mul_comm base, Nat.add_assoc, hsplit]

/-! ## Replacement -/

section Replace

variable {α : Type*} [DecidableEq α] {old new s t : List α} {a : α}

/-- Replace every occurrence of `old`, from the left; `skip` elements belong to the last one. -/
def replaceFrom (old new : List α) : ℕ → List α → List α
  | _, [] => []
  | skip + 1, _ :: s => replaceFrom old new skip s
  | 0, a :: s =>
    if old <+: a :: s then new ++ replaceFrom old new (old.length - 1) s
    else a :: replaceFrom old new 0 s

def replace (old new s : List α) : List α := replaceFrom old new 0 s

/-- In front of the first element of `old` nothing is replaced. -/
theorem replace_append (ha : a ∉ s) :
    replace (a :: old) new (s ++ t) = s ++ replace (a :: old) new t := by
  induction s with
  | nil => rfl
  | cons b s ih =>
    rw [List.mem_cons, not_or] at ha
    have hne : ¬ a :: old <+: b :: (s ++ t) := by
      rw [List.cons_prefix_cons]
      exact fun h => ha.1 h.1
    rw [List.cons_append, replace, replaceFrom, if_neg hne, ← replace, ih ha.2, List.cons_append]

theorem replace_eq_self (ha : a ∉ s) : replace (a :: old) new s = s := by
  have happend := @replace_append _ _ old new s [] a ha
  rwa [List.append_nil, replace, replace, replaceFrom, List.append_nil] at happend

theorem replaceFrom_drop (s : List α) : replaceFrom old new s.length s = [] := by
  induction s with
  | nil => rfl
  | cons a s ih => rw [List.length_cons, replaceFrom, ih]

/-- An occurrence at the end. -/
theorem replace_end (ha : a ∉ s) : replace (a :: old) new (s ++ a :: old) = s ++ new := by
  rw [replace_append ha, replace, replaceFrom, if_pos List.prefix_rfl, List.length_cons,
    Nat.add_sub_cancel, replaceFrom_drop, List.append_nil]

end Replace

end Texts
