import FetchNow.PgBackup.AttestationCodec
import Mathlib.Data.List.Lex
import Mathlib.Tactic.Ring

/-!
# The order of attestations

A file name sorts by its stamp, then by the result, then by its counter as long as that has one
digit. The latest attestation is the last one written as long as this is the order of writing.
-/
namespace FetchNow.Attestation

open Transactions Texts PgBackup

/-! ## Lexicographic order -/

section Lex

variable {s t x y : List Char} {m n width : ℕ}

theorem append_lt_append (h : s < t) (hlength : s.length = t.length) : s ++ x < t ++ y := by
  change List.Lex (· < ·) s t at h
  change List.Lex (· < ·) (s ++ x) (t ++ y)
  induction h with
  | nil => cases hlength
  | cons _ ih => exact .cons (ih (by simpa using hlength))
  | rel h => exact .rel h

theorem append_left_lt (s : List Char) (h : x < y) : s ++ x < s ++ y := by
  induction s with
  | nil => exact h
  | cons c s ih => exact List.Lex.cons ih

theorem digitChar_lt (hmn : m < n) (hn : n < 10) : Nat.digitChar m < Nat.digitChar n := by
  have hall : ∀ n < 10, ∀ m < n, Nat.digitChar m < Nat.digitChar n := by decide
  exact hall n hn m hmn

/-- Numerals of the same width are ordered like their numbers. -/
theorem writeDigits_lt (hmn : m < n) (hn : n < 10 ^ width) :
    writeDigits 10 width m < writeDigits 10 width n := by
  induction width generalizing m n with
  | zero => omega
  | succ width ih =>
    have hpos : 0 < 10 ^ width := Nat.pow_pos (by decide)
    have hquotient : n / 10 ^ width < 10 := by
      apply Nat.div_lt_of_lt_mul
      rwa [Nat.pow_succ] at hn
    rcases (Nat.div_le_div_right (c := 10 ^ width) hmn.le).lt_or_eq with hlt | heq
    · exact List.Lex.rel (digitChar_lt hlt hquotient)
    · rw [writeDigits, writeDigits, heq]
      apply List.Lex.cons
      apply ih _ (Nat.mod_lt _ hpos)
      have hm := Nat.div_add_mod m (10 ^ width)
      have hn' := Nat.div_add_mod n (10 ^ width)
      rw [heq] at hm
      omega

theorem writeDigits_append {w : ℕ} (hm : m < 10 ^ width) (hn : n < 10 ^ w) :
    writeDigits 10 width m ++ writeDigits 10 w n = writeDigits 10 (width + w) (m * 10 ^ w + n) := by
  induction width generalizing m with
  | zero =>
    obtain rfl : m = 0 := by simpa using hm
    simp [writeDigits]
  | succ width ih =>
    have hpos : 0 < 10 ^ width := Nat.pow_pos (by decide)
    have hwpos : 0 < 10 ^ w := Nat.pow_pos (by decide)
    have hpow : 10 ^ (width + w) = 10 ^ w * 10 ^ width := by rw [Nat.pow_add, Nat.mul_comm]
    have hquotient : (m * 10 ^ w + n) / 10 ^ (width + w) = m / 10 ^ width := by
      rw [hpow, ← Nat.div_div_eq_div_mul, Nat.add_comm, Nat.add_mul_div_right _ _ hwpos,
        Nat.div_eq_of_lt hn, Nat.zero_add]
    have hremainder : (m * 10 ^ w + n) % 10 ^ (width + w) = m % 10 ^ width * 10 ^ w + n := by
      have hsplit := Nat.div_add_mod (m * 10 ^ w + n) (10 ^ (width + w))
      have hm' := Nat.div_add_mod m (10 ^ width)
      rw [hquotient, hpow] at hsplit
      have hexpand : m * 10 ^ w =
          10 ^ w * 10 ^ width * (m / 10 ^ width) + m % 10 ^ width * 10 ^ w := by
        calc m * 10 ^ w = (10 ^ width * (m / 10 ^ width) + m % 10 ^ width) * 10 ^ w := by rw [hm']
          _ = _ := by ring
      rw [hpow]
      omega
    rw [Nat.add_right_comm, writeDigits, writeDigits, List.cons_append, ih (Nat.mod_lt _ hpos),
      hquotient, hremainder]

end Lex

/-! ## Stamps -/

def Moment.date (m : Moment) : ℕ := (m.year * 100 + m.month) * 100 + m.day

def Moment.time (m : Moment) : ℕ := (m.hour * 100 + m.minute) * 100 + m.second

def Moment.stamp (m : Moment) : List Char := stampOf (String.ofList m.strftime)

variable {m m' : Moment}

theorem filter_writeDigits {c : Char} {width n : ℕ} (hc : c.isDigit = false)
    (hn : n < 10 ^ width) : (writeDigits 10 width n).filter (· ≠ c) = writeDigits 10 width n := by
  refine List.filter_eq_self.mpr fun d hd => ?_
  obtain ⟨digit, hdigit, rfl⟩ := isHex_of_mem (by decide) hn hd
  have hall : ∀ digit < 10, (Nat.digitChar digit).isDigit = true := by decide
  have hne : Nat.digitChar digit ≠ c := by
    rintro rfl
    rw [hall digit hdigit] at hc
    cases hc
  simpa using hne

theorem Moment.stamp_eq (m : Moment) :
    m.stamp = writeDigits 10 8 m.date ++ 'T' :: (writeDigits 10 6 m.time ++ ['Z']) := by
  have hyear := m.year_lt
  have hmonth := m.month_lt
  have hday := m.day_lt
  have hhour := m.hour_lt
  have hminute := m.minute_lt
  have hsecond := m.second_lt
  have hdate : writeDigits 10 8 m.date =
      writeDigits 10 4 m.year ++ (writeDigits 10 2 m.month ++ writeDigits 10 2 m.day) := by
    rw [← List.append_assoc, writeDigits_append (by omega) (by omega),
      writeDigits_append (by omega) (by omega)]
    rfl
  have htime : writeDigits 10 6 m.time =
      writeDigits 10 2 m.hour ++ (writeDigits 10 2 m.minute ++ writeDigits 10 2 m.second) := by
    rw [← List.append_assoc, writeDigits_append (by omega) (by omega),
      writeDigits_append (by omega) (by omega)]
    rfl
  have hfilter (c : Char) (hc : c.isDigit = false) (width n : ℕ) (hn : n < 10 ^ width) :
      (writeDigits 10 width n).filter (· ≠ c) = writeDigits 10 width n := filter_writeDigits hc hn
  have hcolon := hfilter ':' (by decide)
  have hdash := hfilter '-' (by decide)
  have hcolons : m.strftime.filter (· ≠ ':') = writeDigits 10 4 m.year ++ '-' ::
      (writeDigits 10 2 m.month ++ '-' :: (writeDigits 10 2 m.day ++ 'T' ::
        (writeDigits 10 2 m.hour ++ (writeDigits 10 2 m.minute ++
          (writeDigits 10 2 m.second ++ ['Z']))))) := by
    rw [strftime, List.filter_append, hcolon _ _ hyear, List.filter_cons_of_pos (by decide),
      List.filter_append, hcolon _ _ hmonth, List.filter_cons_of_pos (by decide),
      List.filter_append, hcolon _ _ hday, List.filter_cons_of_pos (by decide),
      List.filter_append, hcolon _ _ hhour, List.filter_cons_of_neg (by decide),
      List.filter_append, hcolon _ _ hminute, List.filter_cons_of_neg (by decide),
      List.filter_append, hcolon _ _ hsecond]
    rfl
  rw [hdate, htime, stamp, stampOf, String.toList_ofList, hcolons, List.filter_append,
    hdash _ _ hyear, List.filter_cons_of_neg (by decide), List.filter_append, hdash _ _ hmonth,
    List.filter_cons_of_neg (by decide), List.filter_append, hdash _ _ hday,
    List.filter_cons_of_pos (by decide), List.filter_append, hdash _ _ hhour, List.filter_append,
    hdash _ _ hminute, List.filter_append, hdash _ _ hsecond]
  simp

theorem Moment.date_lt (m : Moment) : m.date < 10 ^ 8 := by
  have hyear := m.year_lt
  have hmonth := m.month_lt
  have hday := m.day_lt
  unfold date
  omega

theorem Moment.time_lt (m : Moment) : m.time < 10 ^ 6 := by
  have hhour := m.hour_lt
  have hminute := m.minute_lt
  have hsecond := m.second_lt
  unfold time
  omega

theorem Moment.number_eq (m : Moment) : m.number = m.date * 10 ^ 6 + m.time := by
  unfold number date time
  omega

theorem Moment.length_stamp (m : Moment) : m.stamp.length = 16 := by
  rw [m.stamp_eq]
  simp [length_writeDigits]

/-- Stamps are ordered like the moments. -/
theorem Moment.stamp_lt (h : m.number < m'.number) : m.stamp < m'.stamp := by
  have htime := m.time_lt
  have htime' := m'.time_lt
  rw [m.number_eq, m'.number_eq] at h
  rw [m.stamp_eq, m'.stamp_eq]
  rcases Nat.lt_trichotomy m.date m'.date with hdate | hdate | hdate
  · exact append_lt_append (writeDigits_lt hdate m'.date_lt) (by simp [length_writeDigits])
  · rw [hdate]
    apply append_left_lt
    apply List.Lex.cons
    exact append_lt_append (writeDigits_lt (by omega) htime') (by simp [length_writeDigits])
  · omega

theorem Moment.stamp_eq_of_number (h : m.number = m'.number) : m.stamp = m'.stamp := by
  have htime := m.time_lt
  have htime' := m'.time_lt
  rw [m.number_eq, m'.number_eq] at h
  have hdate : m.date = m'.date := by omega
  have htimes : m.time = m'.time := by omega
  rw [m.stamp_eq, m'.stamp_eq, hdate, htimes]

theorem Moment.stamp_chars (m : Moment) : ∀ c ∈ m.stamp, c.isAlphanum = true := by
  have hall : ∀ digit < 10, (Nat.digitChar digit).isAlphanum = true := by decide
  intro c hc
  rw [m.stamp_eq] at hc
  have hdigits (width n : ℕ) (hn : n < 10 ^ width) (h : c ∈ writeDigits 10 width n) :
      c.isAlphanum = true := by
    obtain ⟨digit, hdigit, rfl⟩ := isHex_of_mem (by decide) hn h
    exact hall digit hdigit
  rcases List.mem_append.mp hc with hc | hc
  · exact hdigits _ _ m.date_lt hc
  · rcases List.mem_cons.mp hc with rfl | hc
    · decide
    · rcases List.mem_append.mp hc with hc | hc
      · exact hdigits _ _ m.time_lt hc
      · obtain rfl := List.mem_singleton.mp hc
        decide

/-! ## Names -/

/-- The name of the n-th attestation of a second with its result. -/
def nameOf (stamp : List Char) (result : String) (n : ℕ) : String :=
  fileName stamp result (counter n)

variable {stamp stamp' : List Char} {result result' : String} {n k : ℕ}

theorem toList_nameOf (stamp : List Char) (result : String) (n : ℕ) :
    (nameOf stamp result n).toList = "verify_".toList ++ (stamp ++
      '_' :: (result.toList ++ ((counter n).toList ++ ".json".toList))) := by
  simp [nameOf, fileName, String.toList_append]

theorem nameOf_lt_of_stamp (h : stamp < stamp') (hlength : stamp.length = stamp'.length) :
    nameOf stamp result n < nameOf stamp' result' k := by
  rw [String.lt_iff_toList_lt, toList_nameOf, toList_nameOf]
  exact append_left_lt _ (append_lt_append h hlength)

theorem nameOf_failed_lt_passed : nameOf stamp "failed" n < nameOf stamp "passed" k := by
  rw [String.lt_iff_toList_lt, toList_nameOf, toList_nameOf]
  apply append_left_lt
  apply append_left_lt
  apply List.Lex.cons
  exact List.Lex.rel (by decide)

theorem nameOf_lt_of_suffix (h : (counter n).toList ++ ".json".toList <
    (counter k).toList ++ ".json".toList) : nameOf stamp result n < nameOf stamp result k := by
  rw [String.lt_iff_toList_lt, toList_nameOf, toList_nameOf]
  apply append_left_lt
  apply append_left_lt
  exact List.Lex.cons (append_left_lt _ h)

theorem nameOf_lt (hn : 1 ≤ n) (hnk : n < k) (hk : k ≤ 9) :
    nameOf stamp result n < nameOf stamp result k := by
  apply nameOf_lt_of_suffix
  have hall : ∀ k ≤ 9, ∀ n < k, 1 ≤ n → (counter n).toList ++ ".json".toList <
      (counter k).toList ++ ".json".toList := by decide +kernel
  exact hall k hk n hnk hn

/-- A tenth name sorts before the second one. -/
theorem nameOf_ten_lt : nameOf stamp result 10 < nameOf stamp result 2 := by
  apply nameOf_lt_of_suffix
  decide +kernel

end FetchNow.Attestation
