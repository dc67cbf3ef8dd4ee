import FetchNow.Text.Unicode
import Mathlib.Tactic.IntervalCases

/-! Extended header values: the percent-encoded UTF-8 of a suggested filename. -/
namespace FetchNow

open Text

namespace Filename

/-- `_ATTR_CHAR` -/
def isAttrChar (c : ℕ) : Bool :=
  48 ≤ c && c ≤ 57 || 65 ≤ c && c ≤ 90 || 97 ≤ c && c ≤ 122 ||
    (codePoints "!#$&+-.^_`|~").contains c

def percent : ℕ := codePoint '%'

def extPrefix : Str := codePoints "UTF-8''"

def upperHexDigit (n : ℕ) : ℕ := if n < 10 then 48 + n else 55 + n

/-- A byte as an attr-char, or as `%` and two uppercase digits. -/
def encodeByte (byte : UInt8) : Str :=
  if isAttrChar byte.toNat then [byte.toNat]
  else [percent, upperHexDigit (byte.toNat / 16), upperHexDigit (byte.toNat % 16)]

def encodeRfc8187 (value : String) : Str :=
  extPrefix ++ value.toUTF8.data.toList.flatMap encodeByte

/-- The pieces of a raw value, unless the code returns `None` for one of them. -/
def pieces (tables : Unicode) : Str → Option (List ℤ)
  | [] => some []
  | c :: rest =>
    if c = percent then
      match rest with
      | x :: y :: rest =>
        (int tables 16 [x, y]).bind fun n => (pieces tables rest).map (n :: ·)
      | _ => none
    else if isAttrChar c then (pieces tables rest).map ((c : ℤ) :: ·)
    else none

/-- `bytes(pieces).decode("utf-8")` without a `UnicodeDecodeError`. -/
def utf8Text (ns : List ℤ) : Option String :=
  String.fromUTF8? ⟨(ns.map fun n => UInt8.ofNat n.toNat).toArray⟩

/-- `bytes` raises a `ValueError` for a number that is no byte, which the code does not catch. -/
inductive BytesError
  | valueError
  deriving DecidableEq, Repr

def decodeRfc8187 (tables : Unicode) (value : Str) : Except BytesError (Option String) :=
  if ¬ extPrefix <+: value then .ok none
  else
    let raw := value.drop 7
    if raw = [] then .ok none
    else
      match pieces tables raw with
      | none => .ok none
      | some ns =>
        if ns.all fun n => 0 ≤ n && n < 256 then .ok (utf8Text ns) else .error .valueError

/-! ## The grammar of an extended value -/

/-- A sequence of attr-chars and escapes, and what it stands for. -/
inductive ExtSequence (escape : ℕ → ℕ → ℤ → Prop) : Str → List ℤ → Prop
  | nil : ExtSequence escape [] []
  | char {c raw ns} : isAttrChar c → ExtSequence escape raw ns →
      ExtSequence escape (c :: raw) (c :: ns)
  | escaped {x y n raw ns} : escape x y n → ExtSequence escape raw ns →
      ExtSequence escape (percent :: x :: y :: raw) (n :: ns)

/-- Two ASCII hex digits. -/
def HexEscape (x y : ℕ) (n : ℤ) : Prop :=
  ∃ a b : ℕ, digitValue 16 x = some a ∧ digitValue 16 y = some b ∧ n = a * 16 + b

/-- Two uppercase hex digits. -/
def UpperEscape (x y : ℕ) (n : ℤ) : Prop := HexEscape x y n ∧ x ≤ 70 ∧ y ≤ 70

/-- Two characters that `int` reads. -/
def IntEscape (tables : Unicode) (x y : ℕ) (n : ℤ) : Prop := int tables 16 [x, y] = some n

/-- The text is an extended value of valid UTF-8, and stands for `t`. -/
def ExtText (s : Str) (t : String) : Prop :=
  ∃ raw ns, s = extPrefix ++ raw ∧ raw ≠ [] ∧ ExtSequence HexEscape raw ns ∧ utf8Text ns = some t

/-- Some escape is one only for `int`, and the code decodes or chokes on the numbers it reads. -/
def LooseText (tables : Unicode) (s : Str) : Prop :=
  ∃ raw ns, s = extPrefix ++ raw ∧ ExtSequence (IntEscape tables) raw ns ∧
    (¬ ∃ ms, ExtSequence HexEscape raw ms) ∧ ((∃ n ∈ ns, n < 0) ∨ (utf8Text ns).isSome)

variable {tables : Unicode} {raw s : Str} {ns ms : List ℤ} {n m : ℤ} {a c x y : ℕ} {b : UInt8}
  {bs : List UInt8} {escape escape' : ℕ → ℕ → ℤ → Prop}

theorem percent_not_attrChar : isAttrChar percent = false := by decide

theorem digitValue_bounds (h : digitValue 16 c = some a) :
    (48 ≤ c ∧ c ≤ 57 ∧ a = c - 48) ∨ (65 ≤ c ∧ c ≤ 70 ∧ a = c - 55) ∨
      (97 ≤ c ∧ c ≤ 102 ∧ a = c - 87) := by
  simp only [digitValue, Option.filter_eq_some_iff, decide_eq_true_eq] at h
  obtain ⟨h, hlt⟩ := h
  split_ifs at h <;> simp only [Option.some.injEq] at h <;> omega

theorem toAscii_of_lt (h : c < 128) : toAscii tables c = c := if_pos h

theorem not_isAsciiSpace_of_digit (h : digitValue 16 c = some a) : isAsciiSpace c = false := by
  have hc := digitValue_bounds h
  simp only [isAsciiSpace, Bool.or_eq_false_iff, Bool.and_eq_false_iff, beq_eq_false_iff_ne,
    decide_eq_false_iff_not]
  omega

theorem skipPrefix_pair (hy : digitValue 16 y = some a) :
    skipPrefix 16 [x, y] = [x, y] := by
  have hyb := digitValue_bounds hy
  have hx' : y ≠ codePoint 'x' := by simp only [codePoint, Char.reduceToNat]; omega
  have hX' : y ≠ codePoint 'X' := by simp only [codePoint, Char.reduceToNat]; omega
  simp only [skipPrefix]
  split
  · simp_all
  · rfl

theorem digits_pair {a b : ℕ} (hx : digitValue 16 x = some a) (hy : digitValue 16 y = some b) :
    digits 16 [x, y] = some (a * 16 + b) := by
  have hyb := digitValue_bounds hy
  have hunder : y ≠ codePoint '_' := by simp only [codePoint, Char.reduceToNat]; omega
  simp only [digits, moreDigits, hx, hy, hunder, if_false, Option.bind_some]

/-- `int` reads two hex digits as they stand. -/
theorem HexEscape.int (h : HexEscape x y n) : IntEscape tables x y n := by
  obtain ⟨a, b, hx, hy, rfl⟩ := h
  have hxb := digitValue_bounds hx
  have hyb := digitValue_bounds hy
  have htrim : trimmed ([x, y].map (toAscii tables)) = [x, y] := by
    simp [trimmed, toAscii_of_lt (show x < 128 by omega), toAscii_of_lt (show y < 128 by omega),
      not_isAsciiSpace_of_digit hx, not_isAsciiSpace_of_digit hy]
  simp only [IntEscape, Text.int, htrim]
  split
  · rename_i rest hsign
    simp only [List.cons.injEq] at hsign
    omega
  · rename_i rest hsign
    simp only [List.cons.injEq] at hsign
    omega
  · rw [skipPrefix_pair hy, digits_pair hx hy]
    rfl

theorem HexEscape.bounds (h : HexEscape x y n) : 0 ≤ n ∧ n < 256 := by
  obtain ⟨a, b, hx, hy, rfl⟩ := h
  have hxb := digitValue_bounds hx
  have hyb := digitValue_bounds hy
  omega

/-! ## What sequences stand for -/

theorem ExtSequence.mono (h : ExtSequence escape raw ns)
    (hm : ∀ x y n, escape x y n → escape' x y n) : ExtSequence escape' raw ns := by
  induction h with
  | nil => exact .nil
  | char hc _ ih => exact .char hc ih
  | escaped he _ ih => exact .escaped (hm _ _ _ he) ih

theorem ExtSequence.append {raw' : Str} {ns' : List ℤ} (h : ExtSequence escape raw ns)
    (h' : ExtSequence escape raw' ns') : ExtSequence escape (raw ++ raw') (ns ++ ns') := by
  induction h with
  | nil => exact h'
  | char hc _ ih => exact .char hc ih
  | escaped he _ ih => exact .escaped he ih

theorem isAttrChar_lt (h : isAttrChar c) : c < 128 := by
  have hpunct : ∀ d ∈ codePoints "!#$&+-.^_`|~", d < 128 := by decide
  simp only [isAttrChar, Bool.or_eq_true, Bool.and_eq_true, decide_eq_true_eq,
    List.contains_iff_mem] at h
  rcases h with ((h | h) | h) | h
  · omega
  · omega
  · omega
  · exact hpunct c h

theorem ExtSequence.bounds (h : ExtSequence HexEscape raw ns) (hn : n ∈ ns) : 0 ≤ n ∧ n < 256 := by
  induction h with
  | nil => cases hn
  | @char c _ _ hc _ ih =>
    rcases List.mem_cons.mp hn with rfl | hn
    · have hlt := isAttrChar_lt hc
      omega
    · exact ih hn
  | escaped he _ ih =>
    rcases List.mem_cons.mp hn with rfl | hn
    · exact he.bounds
    · exact ih hn

/-- The loop of the decoder reads the sequences whose escapes `int` reads. -/
theorem pieces_eq_some_iff : pieces tables raw = some ns ↔ ExtSequence (IntEscape tables) raw ns := by
  constructor
  · intro h
    fun_induction pieces tables raw generalizing ns with
    | case1 =>
      cases h
      exact .nil
    | case2 x y rest ih =>
      rw [Option.bind_eq_some_iff] at h
      obtain ⟨n, hn, h⟩ := h
      obtain ⟨ms, hms, rfl⟩ := Option.map_eq_some_iff.mp h
      exact .escaped hn (ih hms)
    | case3 => cases h
    | case4 c rest hc hattr ih =>
      obtain ⟨ms, hms, rfl⟩ := Option.map_eq_some_iff.mp h
      exact .char hattr (ih hms)
    | case5 => cases h
  · intro h
    induction h with
    | nil => rfl
    | @char c _ _ hc _ ih =>
      have hne : c ≠ percent := by
        rintro rfl
        exact absurd hc (by decide)
      rw [pieces.eq_def]
      simp only [hne, if_false, hc, if_true, ih, Option.map_some]
    | escaped he _ ih =>
      have hint : int tables 16 _ = some _ := he
      simp only [pieces, if_true, hint, ih, Option.bind_some, Option.map_some]

theorem ExtSequence.unique (h : ExtSequence (IntEscape tables) raw ns)
    (h' : ExtSequence (IntEscape tables) raw ms) : ns = ms := by
  have he := (pieces_eq_some_iff.2 h).symm.trans (pieces_eq_some_iff.2 h')
  simpa using he

/-! Two characters never stand for a number past a byte. -/

theorem digitValue_lt (h : digitValue 16 c = some a) : a < 16 := by
  have hc := digitValue_bounds h
  omega

theorem digits_lt {l : Str} (hl : l.length ≤ 2) (h : digits 16 l = some a) : a < 256 := by
  match l, hl with
  | [x], _ =>
    simp only [digits, moreDigits] at h
    rw [Option.bind_fun_some] at h
    have hv := digitValue_lt h
    omega
  | [x, y], _ =>
    simp only [digits, moreDigits, Option.bind_eq_some_iff] at h
    obtain ⟨v, hv, h⟩ := h
    split_ifs at h
    obtain ⟨w, hw, h⟩ := Option.bind_eq_some_iff.mp h
    have hv' := digitValue_lt hv
    have hw' := digitValue_lt hw
    simp only [Option.some.injEq] at h
    omega

theorem skipPrefix_length (l : Str) : (skipPrefix 16 l).length ≤ l.length := by
  simp only [skipPrefix]
  split
  · split_ifs
    · split <;> simp <;> omega
    · simp
  · simp

theorem trimmed_length (l : Str) : (trimmed l).length ≤ l.length := by
  have houter := (List.dropWhile_suffix (l := (l.dropWhile isAsciiSpace).reverse)
    isAsciiSpace).length_le
  have hinner := (List.dropWhile_suffix (l := l) isAsciiSpace).length_le
  simp only [trimmed, List.length_reverse] at houter ⊢
  omega

theorem IntEscape.lt (h : IntEscape tables x y n) : n < 256 := by
  have hlen := trimmed_length ([x, y].map (toAscii tables))
  simp only [List.map_cons, List.map_nil, List.length_cons, List.length_nil] at hlen
  simp only [IntEscape, int, List.map_cons, List.map_nil] at h
  split at h
  · rename_i rest hrest
    obtain ⟨v, hv, rfl⟩ := Option.map_eq_some_iff.mp h
    omega
  · rename_i rest hrest
    obtain ⟨v, hv, rfl⟩ := Option.map_eq_some_iff.mp h
    have hskip := skipPrefix_length rest
    rw [hrest, List.length_cons] at hlen
    have hv' := digits_lt (by omega) hv
    omega
  · obtain ⟨v, hv, rfl⟩ := Option.map_eq_some_iff.mp h
    have hv' := digits_lt (Nat.le_trans (skipPrefix_length _) hlen) hv
    omega

theorem ExtSequence.lt (h : ExtSequence (IntEscape tables) raw ns) (hn : n ∈ ns) : n < 256 := by
  induction h with
  | nil => cases hn
  | char hc _ ih =>
    rcases List.mem_cons.mp hn with rfl | hn
    · have hlt := isAttrChar_lt hc
      omega
    · exact ih hn
  | escaped he _ ih =>
    rcases List.mem_cons.mp hn with rfl | hn
    · exact he.lt
    · exact ih hn

/-! ## The encoder -/

theorem upperHexDigit_value (h : a < 16) : digitValue 16 (upperHexDigit a) = some a := by
  interval_cases a <;> rfl

theorem upperHexDigit_le (h : a < 16) : upperHexDigit a ≤ 70 := by
  simp only [upperHexDigit]
  split_ifs <;> omega

theorem encodeByte_sequence : ExtSequence UpperEscape (encodeByte b) [(b.toNat : ℤ)] := by
  simp only [encodeByte]
  split_ifs with hattr
  · exact .char hattr .nil
  · have hb := b.toNat_lt
    refine .escaped ⟨⟨b.toNat / 16, b.toNat % 16, upperHexDigit_value (by omega),
      upperHexDigit_value (by omega), by omega⟩, upperHexDigit_le (by omega),
      upperHexDigit_le (by omega)⟩ .nil

theorem encodeBytes_sequence :
    ExtSequence UpperEscape (bs.flatMap encodeByte) (bs.map fun b => (b.toNat : ℤ)) := by
  induction bs with
  | nil => exact .nil
  | cons b bs ih => exact ExtSequence.append encodeByte_sequence ih

theorem utf8Text_bytes {v : String} :
    utf8Text (v.toUTF8.data.toList.map fun b => (b.toNat : ℤ)) = some v := by
  have hbytes : (v.toUTF8.data.toList.map fun b => (b.toNat : ℤ)).map
      (fun n => UInt8.ofNat n.toNat) = v.toUTF8.data.toList := by
    simp [List.map_map, Function.comp_def]
  simp only [utf8Text, hbytes, Array.toArray_toList]
  exact dif_pos v.isValidUTF8

/-! ## The decoder -/

theorem decodeRfc8187_raw (hraw : raw ≠ []) : decodeRfc8187 tables (extPrefix ++ raw) =
    match pieces tables raw with
    | none => .ok none
    | some ns =>
      if ns.all fun n => 0 ≤ n && n < 256 then .ok (utf8Text ns) else .error .valueError := by
  have hdrop : (extPrefix ++ raw).drop 7 = raw := rfl
  simp only [decodeRfc8187, List.prefix_append, not_true_eq_false, if_false, hdrop, hraw]

theorem decodeRfc8187_sequence (hraw : raw ≠ []) (h : ExtSequence (IntEscape tables) raw ns) :
    decodeRfc8187 tables (extPrefix ++ raw) =
      if ns.all fun n => 0 ≤ n && n < 256 then .ok (utf8Text ns) else .error .valueError := by
  rw [decodeRfc8187_raw hraw, pieces_eq_some_iff.2 h]

theorem decodeRfc8187_encode {v : String} (hv : v ≠ "") :
    decodeRfc8187 tables (encodeRfc8187 v) = .ok (some v) := by
  have hseq := @encodeBytes_sequence v.toUTF8.data.toList
  have hhex := hseq.mono fun _ _ _ h => h.1
  have hraw : v.toUTF8.data.toList.flatMap encodeByte ≠ [] := by
    intro hnil
    rw [hnil] at hseq
    have hlen : v.toUTF8.data.toList = [] := by
      generalize v.toUTF8.data.toList = bs at hseq
      cases bs with
      | nil => rfl
      | cons b bs => cases hseq
    apply hv
    rw [← String.toByteArray_inj]
    apply ByteArray.ext
    exact Array.toList_inj.mp hlen
  have hall : (v.toUTF8.data.toList.map fun b => (b.toNat : ℤ)).all
      fun n => 0 ≤ n && n < 256 := by
    rw [List.all_eq_true]
    intro n hn
    have hb := hhex.bounds hn
    simp only [Bool.and_eq_true, decide_eq_true_eq]
    exact hb
  rw [encodeRfc8187, decodeRfc8187_sequence hraw (hhex.mono fun _ _ _ h => h.int), if_pos hall,
    utf8Text_bytes]

theorem extText_raw {t : String} : ExtText (extPrefix ++ raw) t ↔
    raw ≠ [] ∧ ∃ ns, ExtSequence HexEscape raw ns ∧ utf8Text ns = some t := by
  constructor
  · rintro ⟨raw', ns, hcat, hraw, hhex, ht⟩
    obtain rfl : raw = raw' := List.append_cancel_left hcat
    exact ⟨hraw, ns, hhex, ht⟩
  · rintro ⟨hraw, ns, hhex, ht⟩
    exact ⟨raw, ns, rfl, hraw, hhex, ht⟩

theorem all_bytes_iff (h : ExtSequence (IntEscape tables) raw ns) :
    (ns.all fun n => 0 ≤ n && n < 256) ↔ ∀ n ∈ ns, 0 ≤ n := by
  rw [List.all_eq_true]
  constructor
  · intro hall n hn
    have hb := hall n hn
    simp only [Bool.and_eq_true, decide_eq_true_eq] at hb
    exact hb.1
  · intro hall n hn
    have hlt := h.lt hn
    simp only [Bool.and_eq_true, decide_eq_true_eq]
    exact ⟨hall n hn, hlt⟩

/-- What the code returns stands for the text, unless `int` read an escape that is none. -/
theorem decodeRfc8187_exact_iff :
    (∃ r, decodeRfc8187 tables s = .ok r ∧ ∀ t, r = some t ↔ ExtText s t) ↔
      ¬ LooseText tables s := by
  constructor
  · rintro ⟨r, hr, hexact⟩ ⟨raw, ns, rfl, hseq, hloose, hbad⟩
    have hraw : raw ≠ [] := by
      rintro rfl
      exact hloose ⟨[], .nil⟩
    have hnone : r = none := by
      cases r with
      | none => rfl
      | some t =>
        obtain ⟨raw', ms, hcat, -, hhex, -⟩ := (hexact t).mp rfl
        rw [List.append_cancel_left_eq] at hcat
        exact absurd ⟨ms, hcat ▸ hhex⟩ hloose
    rw [decodeRfc8187_sequence hraw hseq, hnone] at hr
    split_ifs at hr with hall
    simp only [Except.ok.injEq] at hr
    rcases hbad with ⟨n, hn, hneg⟩ | hvalid
    · have hb := List.all_eq_true.mp hall n hn
      simp only [Bool.and_eq_true, decide_eq_true_eq] at hb
      omega
    · rw [hr] at hvalid
      cases hvalid
  · intro hloose
    by_cases hpre : extPrefix <+: s
    · obtain ⟨raw, rfl⟩ := hpre
      simp only [extText_raw]
      by_cases hraw : raw = []
      · subst hraw
        exact ⟨none, rfl, fun t => ⟨fun h => (by cases h), fun h => absurd rfl h.1⟩⟩
      cases hp : pieces tables raw with
      | none =>
        refine ⟨none, by rw [decodeRfc8187_raw hraw, hp], fun t => ⟨fun h => (by cases h), ?_⟩⟩
        rintro ⟨-, ns, hhex, -⟩
        rw [pieces_eq_some_iff.2 (hhex.mono fun _ _ _ h => h.int)] at hp
        cases hp
      | some ns =>
        have hseq := pieces_eq_some_iff.1 hp
        rw [decodeRfc8187_sequence hraw hseq]
        by_cases hhex : ∃ ms, ExtSequence HexEscape raw ms
        · obtain ⟨ms, hms⟩ := hhex
          obtain rfl := hseq.unique (hms.mono fun _ _ _ h => h.int)
          rw [if_pos ((all_bytes_iff hseq).mpr fun n hn => (hms.bounds hn).1)]
          refine ⟨utf8Text ns, rfl, fun t => ⟨fun ht => ⟨hraw, ns, hms, ht⟩, ?_⟩⟩
          rintro ⟨-, ms, hms', ht⟩
          rwa [hseq.unique (hms'.mono fun _ _ _ h => h.int)]
        · -- no number is negative and the bytes are no UTF-8, or the text would be a loose one
          have hpos : ∀ n ∈ ns, 0 ≤ n := by
            intro n hn
            by_contra hneg
            exact hloose ⟨raw, ns, rfl, hseq, hhex, Or.inl ⟨n, hn, by omega⟩⟩
          have hnone : utf8Text ns = none := by
            rw [← Option.not_isSome_iff_eq_none]
            intro hsome
            exact hloose ⟨raw, ns, rfl, hseq, hhex, Or.inr hsome⟩
          rw [if_pos ((all_bytes_iff hseq).mpr hpos), hnone]
          refine ⟨none, rfl, fun t => ⟨fun h => (by cases h), ?_⟩⟩
          rintro ⟨-, ms, hms, -⟩
          exact absurd ⟨ms, hms⟩ hhex
    · refine ⟨none, if_pos hpre, ?_⟩
      intro t
      refine ⟨fun h => (by cases h), ?_⟩
      rintro ⟨raw, ns, rfl, -⟩
      exact absurd (List.prefix_append _ _) hpre

/-- Every text is written in attr-chars and uppercase escapes and read back; and exactly for the
texts without a loose escape the decoder does what the grammar says. -/
theorem rfc8187_codec_iff (tables : Unicode) :
    (∀ v : String, v ≠ "" → decodeRfc8187 tables (encodeRfc8187 v) = .ok (some v)) ∧
    (∀ v : String, ∃ raw ns, encodeRfc8187 v = extPrefix ++ raw ∧ ExtSequence UpperEscape raw ns) ∧
    ∀ s, (∃ r, decodeRfc8187 tables s = .ok r ∧ ∀ t, r = some t ↔ ExtText s t) ↔
      ¬ LooseText tables s :=
  ⟨fun _ hv => decodeRfc8187_encode hv, fun _ => ⟨_, _, rfl, encodeBytes_sequence⟩,
    fun _ => decodeRfc8187_exact_iff⟩

/-- The tables of an interpreter that knows ASCII only. -/
def asciiTables : Unicode := ⟨fun _ => none, fun _ => false⟩

theorem rfc8187_codec_sample :
    decodeRfc8187 asciiTables (encodeRfc8187 "naïve.mp4") = .ok (some "naïve.mp4") :=
  (rfc8187_codec_iff asciiTables).1 "naïve.mp4" (by decide)

theorem decode_minus_one : decodeRfc8187 asciiTables (codePoints "UTF-8''%-1") =
    .error .valueError := by decide +kernel

example : decodeRfc8187 asciiTables (codePoints "UTF-8''% 9") ≠ .ok none := by
  decide +kernel

theorem rfc8187_codec_not_exact : ¬ ∀ (tables : Unicode) (s : Str),
    ∃ r, decodeRfc8187 tables s = .ok r ∧ ∀ t, r = some t ↔ ExtText s t := by
  intro hclaim
  obtain ⟨r, hr, -⟩ := hclaim asciiTables (codePoints "UTF-8''%-1")
  rw [decode_minus_one] at hr
  cases hr

end Filename

end FetchNow
