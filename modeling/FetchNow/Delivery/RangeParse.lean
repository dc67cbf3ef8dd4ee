import FetchNow.Basic
import FetchNow.Text.Unicode
import FetchNow.Theory.Transactions

/-! The `Range` header of a content request. -/
namespace FetchNow.Delivery

open Transactions Text

/-- Inclusive start, exclusive end. -/
structure ByteRange where
  start : ℕ
  stop : ℕ
  total : ℕ
  deriving DecidableEq, Repr

inductive ParsedRange
  | range (r : ByteRange)
  | unsatisfiable (total : ℕ)
  deriving DecidableEq, Repr

inductive RangeError
  | downloadError (code : DownloadErrorCode) (internalReason : String) (httpStatus : ℕ)
  | valueError
  deriving DecidableEq, Repr

def badRequest (reason : String) : RangeError := .downloadError .internalError reason 400

/-- `str.isdigit` -/
def isDigits (tables : Unicode) (s : Str) : Bool := s ≠ [] && s.all (isDigit tables)

/-- `int` of a text of digits. -/
def toInt (tables : Unicode) (s : Str) : Except RangeError ℕ :=
  match int tables 10 s with
  | some n => .ok n.toNat
  | none => .error .valueError

/-- `raw.lower()` at its first characters: past ASCII nothing lowers to one of the unit's. -/
def lowered (s : Str) : Str := s.map fun c => if 65 ≤ c ∧ c ≤ 90 then c + 32 else c

def dash : ℕ := codePoint '-'

def parseSuffix (tables : Unicode) (size : ℕ) (suffix : Str) : Except RangeError ParsedRange := do
  require (isDigits tables suffix) (badRequest "RANGE_SUFFIX_MALFORMED")
  require (¬ (1 < suffix.length ∧ suffix.head? = some 48)) (badRequest "RANGE_SUFFIX_LEADING_ZERO")
  let n ← toInt tables suffix
  if n = 0 then .ok (.unsatisfiable size)
  else .ok (.range ⟨if size < n then 0 else size - n, size, size⟩)

def parseBounds (tables : Unicode) (size : ℕ) (startText endText : Str) :
    Except RangeError ParsedRange := do
  require (isDigits tables startText) (badRequest "RANGE_START_MALFORMED")
  let start ← toInt tables startText
  if size ≤ start then .ok (.unsatisfiable size)
  else if endText = [] then .ok (.range ⟨start, size, size⟩)
  else do
    require (isDigits tables endText) (badRequest "RANGE_END_MALFORMED")
    let last ← toInt tables endText
    require (start ≤ last) (badRequest "RANGE_EMPTY")
    .ok (.range ⟨start, min (last + 1) size, size⟩)

def parseSpec (tables : Unicode) (size : ℕ) (spec : Str) : Except RangeError ParsedRange :=
  if spec.head? = some dash then parseSuffix tables size spec.tail
  else
    match splitOnce dash spec with
    | none => .error (badRequest "RANGE_MALFORMED")
    | some (startText, endText) => parseBounds tables size startText endText

def maxRangeHeaderChars : ℕ := 128

/-- `parse_single_byte_range` of a stripped header that is not empty. -/
def parseRaw (tables : Unicode) (raw : Str) (size : ℕ) : Except RangeError ParsedRange := do
  require (raw.length ≤ maxRangeHeaderChars) (badRequest "RANGE_HEADER_TOO_LONG")
  require (codePoint ',' ∉ raw) (badRequest "RANGE_MULTIPLE")
  require (codePoints "bytes=" <+: lowered raw) (badRequest "RANGE_UNIT")
  let spec := raw.drop 6
  require (spec ≠ [] ∧ codePoint '=' ∉ spec ∧ codePoint ' ' ∉ spec) (badRequest "RANGE_MALFORMED")
  require (0 < size) (.downloadError .downloadStorageUnavailable "RANGE_EMPTY_TARGET" 503)
  parseSpec tables size spec

def parseSingleByteRange (tables : Unicode) (header : Option Str) (size : ℕ) :
    Except RangeError (Option ParsedRange) :=
  match header with
  | none => .ok none
  | some header =>
    let raw := stripped header
    if raw = [] then .ok none else (parseRaw tables raw size).map some

/-! ## The grammar of a single range -/

/-- ASCII digits. -/
def Digits (s : Str) : Prop := s ≠ [] ∧ s.all isAsciiDigit

def value (s : Str) : ℕ := s.foldl (fun n c => n * 10 + (c - 48)) 0

inductive RangeSpec
  | bounds (first : ℕ) (last : Option ℕ)
  | suffix (length : ℕ)
  deriving DecidableEq, Repr

inductive RangeText : Str → RangeSpec → Prop
  | fromOn {ds} : Digits ds → RangeText (ds ++ [dash]) (.bounds (value ds) none)
  | fromTo {ds es} : Digits ds → Digits es →
      RangeText (ds ++ dash :: es) (.bounds (value ds) (some (value es)))
  | suffix {ds} : Digits ds → RangeText (dash :: ds) (.suffix (value ds))

/-- The bytes a range denotes, of a file of this size. -/
def RangeSpec.interval (size : ℕ) : RangeSpec → ℕ × ℕ
  | .bounds first none => (first, size)
  | .bounds first (some last) => (first, min (last + 1) size)
  | .suffix length => (size - min length size, size)

/-- What a range is read as, in a file it denotes some bytes of. -/
def RangeSpec.byteRange (size : ℕ) (spec : RangeSpec) : ByteRange :=
  ⟨(spec.interval size).1, (spec.interval size).2, size⟩

/-- The range begins past the end of the file, or is an empty suffix. -/
def RangeSpec.beyond (size : ℕ) : RangeSpec → Bool
  | .bounds first _ => size ≤ first
  | .suffix length => length = 0

/-- The header is `bytes=`, in any case, and the text, between white space. -/
def HeaderText (header text : Str) : Prop :=
  ∃ unit, stripped header = unit ++ text ∧ lowered unit = codePoints "bytes="

/-- A suffix with a leading zero, which the code refuses. -/
def ZeroLed (text : Str) : Prop := ∃ ds, text = dash :: 48 :: ds ∧ ds ≠ []

/-- A header short enough to be read, with a range the code does not refuse. -/
def Written (header : Str) (spec : RangeSpec) : Prop :=
  (stripped header).length ≤ maxRangeHeaderChars ∧
    ∃ text, HeaderText header text ∧ RangeText text spec ∧ ¬ ZeroLed text

/-- Written in digits, but not in ASCII digits alone. -/
def Foreign (tables : Unicode) (part : Str) : Prop := isDigits tables part ∧ ¬ Digits part

/-- A zero and more after it. -/
def LeadingZero (part : Str) : Prop := 1 < part.length ∧ part.head? = some 48

/-- The first number is read always, the last one as a suffix without a leading zero or after a
number within the file. -/
def ReadsForeign (tables : Unicode) (size : ℕ) (text : Str) : Prop :=
  ∃ first last, splitOnce dash text = some (first, last) ∧
    (Foreign tables first ∨ Foreign tables last ∧
      (first = [] ∧ ¬ LeadingZero last ∨ Digits first ∧ value first < size))

/-- The header is not refused before a number is read, and one that is read is foreign. -/
def ForeignDigits (tables : Unicode) (header : Str) (size : ℕ) : Prop :=
  (stripped header).length ≤ maxRangeHeaderChars ∧ codePoint ',' ∉ stripped header ∧
    ∃ text, HeaderText header text ∧ codePoint '=' ∉ text ∧ codePoint ' ' ∉ text ∧
      ReadsForeign tables size text

/-- A range that begins past the end, and that something other than digits follows. -/
def MalformedLast (header : Str) (size : ℕ) : Prop :=
  ∃ text first last, HeaderText header text ∧ splitOnce dash text = some (first, last) ∧
    Digits first ∧ size ≤ value first ∧ last ≠ [] ∧ ¬ Digits last

variable {tables : Unicode} {text a b s ds es : Str} {size n : ℕ} {spec : RangeSpec} {c : ℕ}

theorem Digits.not_mem (h : Digits s) (hc : isAsciiDigit c = false) : c ∉ s := by
  intro hin
  have hd := List.all_eq_true.mp h.2 c hin
  rw [hc] at hd
  cases hd

theorem dash_not_digit : isAsciiDigit dash = false := by decide

theorem Digits.dash_not_mem (h : Digits s) : dash ∉ s := h.not_mem dash_not_digit

theorem Digits.isDigits (h : Digits s) : isDigits tables s := by
  simp only [Delivery.isDigits, isDigit, Bool.and_eq_true, decide_eq_true_eq, List.all_eq_true,
    Bool.or_eq_true]
  exact ⟨h.1, fun c hc => Or.inl (List.all_eq_true.mp h.2 c hc)⟩

/-! `int` reads ASCII digits as they stand. -/

theorem digitValue_ten (h : isAsciiDigit c) : digitValue 10 c = some (c - 48) := by
  simp only [isAsciiDigit, Bool.and_eq_true, decide_eq_true_eq] at h
  have hlt : c - 48 < 10 := by omega
  simp only [digitValue, if_pos h, Option.filter_some, decide_eq_true hlt, if_true]

theorem moreDigits_digits (h : s.all isAsciiDigit) :
    moreDigits 10 n s = some (s.foldl (fun n c => n * 10 + (c - 48)) n) := by
  induction s generalizing n with
  | nil => rfl
  | cons c s ih =>
    rw [List.all_cons, Bool.and_eq_true] at h
    have hunder : c ≠ codePoint '_' := by
      rintro rfl
      exact absurd h.1 (by decide)
    rw [moreDigits.eq_def]
    simp only [hunder, if_false, digitValue_ten h.1, Option.bind_some, ih h.2, List.foldl_cons]

theorem trimmed_digits (h : s.all isAsciiDigit) :
    trimmed (s.map (toAscii tables)) = s := by
  have hmap : s.map (toAscii tables) = s := by
    refine List.map_congr_left (g := id) ?_ |>.trans s.map_id
    intro c hc
    have hd := List.all_eq_true.mp h c hc
    simp only [isAsciiDigit, Bool.and_eq_true, decide_eq_true_eq] at hd
    exact if_pos (by omega)
  have hspace : ∀ l : Str, l.all isAsciiDigit → l.dropWhile isAsciiSpace = l := by
    intro l hl
    cases l with
    | nil => rfl
    | cons c l =>
      rw [List.all_cons, Bool.and_eq_true] at hl
      have hc := hl.1
      simp only [isAsciiDigit, Bool.and_eq_true, decide_eq_true_eq] at hc
      apply List.dropWhile_cons_of_neg
      simp only [isAsciiSpace, Bool.or_eq_true, Bool.and_eq_true, decide_eq_true_eq, beq_iff_eq]
      omega
  rw [hmap, trimmed, hspace s h, hspace _ (by simpa using h), List.reverse_reverse]

theorem toInt_digits (h : Digits s) : toInt tables s = .ok (value s) := by
  obtain ⟨hne, hall⟩ := h
  have hint : int tables 10 s = some (value s : ℤ) := by
    simp only [int, trimmed_digits hall]
    cases s with
    | nil => exact absurd rfl hne
    | cons c rest =>
      have hc := hall
      rw [List.all_cons, Bool.and_eq_true] at hc
      have hskip : skipPrefix 10 (c :: rest) = c :: rest := by
        simp only [skipPrefix]
        split <;> simp_all
      have hd := hc.1
      simp only [isAsciiDigit, Bool.and_eq_true, decide_eq_true_eq] at hd
      split
      · simp_all
      · simp_all
      · rw [hskip, digits, digitValue_ten hc.1, Option.bind_some, moreDigits_digits hc.2]
        simp [value]
  simp only [toInt, hint, Int.toNat_natCast]

/-! ## Ranges of the grammar -/

/-- What a range of the grammar is answered with. -/
def RangeSpec.answer (size : ℕ) (spec : RangeSpec) : Except RangeError ParsedRange :=
  let interval := spec.interval size
  if spec.beyond size then .ok (.unsatisfiable size)
  else if interval.1 < interval.2 then .ok (.range ⟨interval.1, interval.2, size⟩)
  else .error (badRequest "RANGE_EMPTY")

theorem RangeSpec.beyond_suffix : (RangeSpec.suffix n).beyond size = true ↔ n = 0 :=
  decide_eq_true_iff

theorem RangeSpec.beyond_bounds {first : ℕ} {last : Option ℕ} :
    (RangeSpec.bounds first last).beyond size = true ↔ size ≤ first := decide_eq_true_iff

theorem RangeSpec.answer_beyond (h : spec.beyond size = true) :
    spec.answer size = .ok (.unsatisfiable size) := if_pos h

theorem RangeSpec.answer_range (spec : RangeSpec) (h : ¬ spec.beyond size = true)
    (hlt : (spec.interval size).1 < (spec.interval size).2) : spec.answer size =
      .ok (.range ⟨(spec.interval size).1, (spec.interval size).2, size⟩) := by
  simp only [RangeSpec.answer, if_neg h, if_pos hlt]

theorem RangeSpec.answer_empty (spec : RangeSpec) (h : ¬ spec.beyond size = true)
    (hlt : ¬ (spec.interval size).1 < (spec.interval size).2) :
    spec.answer size = .error (badRequest "RANGE_EMPTY") := by
  simp only [RangeSpec.answer, if_neg h, if_neg hlt]

theorem parseSuffix_written (h : Digits ds) (hz : ¬ ZeroLed (dash :: ds)) (hsize : 1 ≤ size) :
    parseSuffix tables size ds = (RangeSpec.suffix (value ds)).answer size := by
  have hlead : ¬ (1 < ds.length ∧ ds.head? = some 48) := by
    rintro ⟨hlen, hhead⟩
    cases ds with
    | nil => cases hhead
    | cons d ds =>
      simp only [List.head?_cons, Option.some.injEq] at hhead
      refine hz ⟨ds, by rw [hhead], ?_⟩
      rintro rfl
      simp at hlen
  simp only [parseSuffix, require_true h.isDigits, require_true hlead, toInt_digits h, ok_bind]
  by_cases hn : value ds = 0
  · rw [if_pos hn, RangeSpec.answer_beyond (RangeSpec.beyond_suffix.mpr hn)]
  · have hlt : size - min (value ds) size < size := by omega
    rw [if_neg hn, RangeSpec.answer_range _ (mt RangeSpec.beyond_suffix.mp hn) hlt]
    simp only [RangeSpec.interval]
    by_cases hlong : size < value ds
    · rw [if_pos hlong, Nat.min_eq_right (by omega), Nat.sub_self]
    · rw [if_neg hlong, Nat.min_eq_left (by omega)]

theorem parseBounds_from (h : Digits ds) :
    parseBounds tables size ds [] = (RangeSpec.bounds (value ds) none).answer size := by
  simp only [parseBounds, require_true h.isDigits, toInt_digits h, ok_bind, if_true]
  by_cases hbeyond : size ≤ value ds
  · rw [if_pos hbeyond, RangeSpec.answer_beyond (RangeSpec.beyond_bounds.mpr hbeyond)]
  · have hlt : value ds < size := by omega
    rw [if_neg hbeyond]
    exact (RangeSpec.answer_range (.bounds _ none) (mt RangeSpec.beyond_bounds.mp hbeyond) hlt).symm

theorem parseBounds_fromTo (h : Digits ds) (h' : Digits es) :
    parseBounds tables size ds es = (RangeSpec.bounds (value ds) (some (value es))).answer size := by
  simp only [parseBounds, require_true h.isDigits, require_true h'.isDigits, toInt_digits h,
    toInt_digits h', ok_bind, if_neg h'.1]
  by_cases hbeyond : size ≤ value ds
  · rw [if_pos hbeyond, RangeSpec.answer_beyond (RangeSpec.beyond_bounds.mpr hbeyond)]
  · rw [if_neg hbeyond]
    by_cases hle : value ds ≤ value es
    · have hlt : value ds < min (value es + 1) size := by omega
      rw [require_true hle]
      exact (RangeSpec.answer_range (.bounds _ (some _))
        (mt RangeSpec.beyond_bounds.mp hbeyond) hlt).symm
    · have hempty : ¬ value ds < min (value es + 1) size := by omega
      rw [require_false hle]
      exact (RangeSpec.answer_empty (.bounds _ (some _))
        (mt RangeSpec.beyond_bounds.mp hbeyond) hempty).symm

theorem parseSpec_written (h : RangeText text spec) (hz : ¬ ZeroLed text) (hsize : 1 ≤ size) :
    parseSpec tables size text = spec.answer size := by
  have hhead : ∀ {ds es : Str}, Digits ds → (ds ++ dash :: es).head? ≠ some dash := by
    intro ds es hds hhead
    cases ds with
    | nil => exact hds.1 rfl
    | cons d ds =>
      apply hds.dash_not_mem
      simp only [List.cons_append, List.head?_cons, Option.some.injEq] at hhead
      exact hhead ▸ List.mem_cons_self
  cases h with
  | fromOn hds =>
    rw [parseSpec, if_neg (hhead hds), splitOnce_eq_some_iff.mpr ⟨rfl, hds.dash_not_mem⟩]
    exact parseBounds_from hds
  | fromTo hds hes =>
    rw [parseSpec, if_neg (hhead hds), splitOnce_eq_some_iff.mpr ⟨rfl, hds.dash_not_mem⟩]
    exact parseBounds_fromTo hds hes
  | suffix hds =>
    exact (if_pos rfl).trans (parseSuffix_written hds hz hsize)

/-! ## Other texts -/

/-- A refusal with status 400. -/
def Refused {α : Type} (outcome : Except RangeError α) : Prop :=
  ∃ reason, outcome = .error (badRequest reason)

theorem Refused.ne_ok {α : Type} {outcome : Except RangeError α} {x : α} (h : Refused outcome) :
    outcome ≠ .ok x := by
  obtain ⟨reason, rfl⟩ := h
  nofun

theorem refused_require {α : Type} {p : Prop} [Decidable p] {reason : String}
    {f : Unit → Except RangeError α} (h : ¬ p) :
    Refused (require p (badRequest reason) >>= f) := ⟨reason, by rw [require_false h]; rfl⟩

theorem parseSuffix_other (hplain : ¬ LeadingZero ds → ¬ Foreign tables ds)
    (h : Digits ds → ZeroLed (dash :: ds)) : Refused (parseSuffix tables size ds) := by
  by_cases hds : isDigits tables ds
  · have hlead : LeadingZero ds := by
      by_contra hlead
      have hdigits : Digits ds := by
        by_contra hnot
        exact hplain hlead ⟨hds, hnot⟩
      obtain ⟨rest, hrest, hne⟩ := h hdigits
      obtain rfl : ds = 48 :: rest := by simpa using hrest
      exact hlead ⟨by simpa using List.length_pos_iff.mpr hne, rfl⟩
    simp only [parseSuffix, require_true hds, ok_bind]
    exact refused_require (not_not.mpr hlead)
  · exact refused_require hds

theorem parseBounds_other (hfirst : ¬ Foreign tables ds)
    (hlast : Digits ds → value ds < size → ¬ Foreign tables es)
    (h : Digits ds → es ≠ [] ∧ ¬ Digits es) :
    Refused (parseBounds tables size ds es) ∨
      (parseBounds tables size ds es = .ok (.unsatisfiable size) ∧ Digits ds ∧ size ≤ value ds) := by
  by_cases hds : isDigits tables ds
  · have hdigits : Digits ds := by
      by_contra hnot
      exact hfirst ⟨hds, hnot⟩
    obtain ⟨hne, hes⟩ := h hdigits
    simp only [parseBounds, require_true hds, toInt_digits hdigits, ok_bind, if_neg hne]
    by_cases hbeyond : size ≤ value ds
    · rw [if_pos hbeyond]
      exact Or.inr ⟨rfl, hdigits, hbeyond⟩
    · rw [if_neg hbeyond]
      exact Or.inl (refused_require fun hdigits' =>
        hlast hdigits (Nat.lt_of_not_le hbeyond) ⟨hdigits', hes⟩)
  · exact Or.inl (refused_require hds)

theorem parseSpec_other (hplain : ¬ ReadsForeign tables size text)
    (h : ∀ spec, RangeText text spec → ZeroLed text) :
    Refused (parseSpec tables size text) ∨
      (parseSpec tables size text = .ok (.unsatisfiable size) ∧ ∃ first last,
        splitOnce dash text = some (first, last) ∧ Digits first ∧ size ≤ value first ∧ last ≠ [] ∧
          ¬ Digits last) := by
  rw [parseSpec]
  split_ifs with hdash
  · obtain ⟨ds, rfl⟩ : ∃ ds, text = dash :: ds := by
      cases text with
      | nil => cases hdash
      | cons c ds =>
        simp only [List.head?_cons, Option.some.injEq] at hdash
        exact ⟨ds, by rw [hdash]⟩
    have hsplit : splitOnce dash (dash :: ds) = some ([], ds) := rfl
    refine Or.inl (parseSuffix_other ?_ fun hds => h _ (.suffix hds))
    intro hlead hforeign
    exact hplain ⟨[], ds, hsplit, Or.inr ⟨hforeign, Or.inl ⟨rfl, hlead⟩⟩⟩
  · cases hsplit : splitOnce dash text with
    | none => exact Or.inl ⟨_, rfl⟩
    | some parts =>
      obtain ⟨first, last⟩ := parts
      obtain ⟨rfl, hmem⟩ := splitOnce_eq_some_iff.mp hsplit
      have hnot : Digits first → last ≠ [] ∧ ¬ Digits last := by
        intro hfirst
        have hzero : ¬ ZeroLed (first ++ dash :: last) := by
          rintro ⟨ds, hds, -⟩
          apply hdash
          rw [hds]
          rfl
        refine ⟨?_, fun hlast => hzero (h _ (.fromTo hfirst hlast))⟩
        rintro rfl
        exact hzero (h _ (.fromOn hfirst))
      have hstart : ¬ Foreign tables first :=
        fun hforeign => hplain ⟨first, last, hsplit, Or.inl hforeign⟩
      have hend : Digits first → value first < size → ¬ Foreign tables last :=
        fun hdigits hlt hforeign =>
          hplain ⟨first, last, hsplit, Or.inr ⟨hforeign, Or.inr ⟨hdigits, hlt⟩⟩⟩
      rcases parseBounds_other hstart hend hnot with
        hrefused | ⟨hunsat, hfirst, hbeyond⟩
      · exact Or.inl hrefused
      · exact Or.inr ⟨hunsat, first, last, rfl, hfirst, hbeyond, (hnot hfirst).1, (hnot hfirst).2⟩

/-! ## Headers -/

variable {header : Str}

theorem headerText_iff : HeaderText header text ↔
    codePoints "bytes=" <+: lowered (stripped header) ∧ text = (stripped header).drop 6 := by
  constructor
  · rintro ⟨unit, hcat, hunit⟩
    have hlen : unit.length = 6 := by
      have h := congrArg List.length hunit
      rwa [lowered, List.length_map] at h
    rw [hcat]
    refine ⟨⟨lowered text, ?_⟩, ?_⟩
    · rw [← hunit]
      simp [lowered]
    · rw [← hlen, List.drop_left]
  · rintro ⟨hpre, rfl⟩
    refine ⟨(stripped header).take 6, (List.take_append_drop 6 _).symm, ?_⟩
    have htake := List.prefix_iff_eq_take.mp hpre
    rw [htake]
    simp [lowered, List.map_take]
    rfl

/-- No character of a range is one of those the code refuses. -/
theorem RangeText.not_mem (h : RangeText text spec) (hc : isAsciiDigit c = false) (hd : c ≠ dash) :
    c ∉ text := by
  cases h with
  | fromOn hds => simp [hds.not_mem hc, hd]
  | fromTo hds hes => simp [hds.not_mem hc, hes.not_mem hc, hd]
  | suffix hds => simp [hds.not_mem hc, hd]

theorem RangeText.ne_nil (h : RangeText text spec) : text ≠ [] := by
  cases h <;> simp

theorem parse_written (h : Written header spec) (hsize : 1 ≤ size) :
    parseSingleByteRange tables (some header) size = (spec.answer size).map some := by
  obtain ⟨hlen, text, htext, hrange, hz⟩ := h
  obtain ⟨hpre, htextEq⟩ := headerText_iff.mp htext
  obtain ⟨unit, hcat, hunit⟩ := htext
  have hcomma : codePoint ',' ∉ stripped header := by
    rw [hcat, List.mem_append]
    rintro (hin | hin)
    · have hlow : codePoint ',' ∈ lowered unit := by
        exact List.mem_map.mpr ⟨_, hin, rfl⟩
      rw [hunit] at hlow
      exact absurd hlow (by decide)
    · exact hrange.not_mem (by decide) (by decide) hin
  have hne : stripped header ≠ [] := by
    rw [hcat]
    intro hnil
    exact hrange.ne_nil (List.append_eq_nil_iff.mp hnil).2
  have hchars : text ≠ [] ∧ codePoint '=' ∉ text ∧ codePoint ' ' ∉ text :=
    ⟨hrange.ne_nil, hrange.not_mem (by decide) (by decide), hrange.not_mem (by decide) (by decide)⟩
  have hspec := @parseSpec_written tables _ _ _ hrange hz hsize
  rw [htextEq] at hchars hspec
  simp only [parseSingleByteRange, if_neg hne, parseRaw, require_true hlen, require_true hcomma,
    require_true hpre, require_true hchars, require_true (show 0 < size by omega), ok_bind, hspec]

theorem Refused.map {α β : Type} {outcome : Except RangeError α} (f : α → β) (h : Refused outcome) :
    Refused (outcome.map f) := by
  obtain ⟨reason, rfl⟩ := h
  exact ⟨reason, rfl⟩

/-- What becomes of a header whose range is none of the grammar, or refused. -/
theorem parse_other (hforeign : ¬ ForeignDigits tables header size) (hsize : 1 ≤ size)
    (h : ∀ spec, ¬ Written header spec) (hne : stripped header ≠ []) :
    Refused (parseSingleByteRange tables (some header) size) ∨
      (parseSingleByteRange tables (some header) size = .ok (some (.unsatisfiable size)) ∧
        MalformedLast header size) := by
  simp only [parseSingleByteRange, if_neg hne, parseRaw]
  by_cases hlen : (stripped header).length ≤ maxRangeHeaderChars
  swap
  · exact Or.inl ((refused_require hlen).map some)
  by_cases hcomma : codePoint ',' ∉ stripped header
  swap
  · rw [require_true hlen, ok_bind]
    exact Or.inl ((refused_require hcomma).map some)
  by_cases hpre : codePoints "bytes=" <+: lowered (stripped header)
  swap
  · rw [require_true hlen, require_true hcomma, ok_bind, ok_bind]
    exact Or.inl ((refused_require hpre).map some)
  have htext : HeaderText header ((stripped header).drop 6) := headerText_iff.mpr ⟨hpre, rfl⟩
  generalize (stripped header).drop 6 = text at htext
  simp only [require_true hlen, require_true hcomma, require_true hpre, ok_bind,
    require_true (show 0 < size by omega)]
  by_cases hchars : text ≠ [] ∧ codePoint '=' ∉ text ∧ codePoint ' ' ∉ text
  swap
  · exact Or.inl ((refused_require hchars).map some)
  have hplain : ¬ ReadsForeign tables size text := fun hreads =>
    hforeign ⟨hlen, hcomma, text, htext, hchars.2.1, hchars.2.2, hreads⟩
  have hwritten : ∀ spec, RangeText text spec → ZeroLed text := by
    intro spec hrange
    by_contra hz
    exact h spec ⟨hlen, text, htext, hrange, hz⟩
  rw [require_true hchars, ok_bind]
  rcases parseSpec_other hplain hwritten with hrefused | ⟨hunsat, first, last, hlast⟩
  · exact Or.inl (hrefused.map some)
  · rw [hunsat]
    exact Or.inr ⟨rfl, text, first, last, htext, hlast⟩

theorem RangeSpec.interval_le : (spec.interval size).2 ≤ size := by
  rcases spec with ⟨first, _ | last⟩ | n
  · exact Nat.le_refl _
  · exact Nat.min_le_right _ _
  · exact Nat.le_refl _

theorem RangeSpec.interval_of_beyond (h : spec.beyond size = true) :
    ¬ (spec.interval size).1 < (spec.interval size).2 := by
  rcases spec with ⟨first, _ | last⟩ | n
  · have hle := beyond_bounds.mp h
    exact Nat.not_lt.mpr hle
  · have hle := beyond_bounds.mp h
    have hmin : min (last + 1) size ≤ size := Nat.min_le_right _ _
    exact Nat.not_lt.mpr (Nat.le_trans hmin hle)
  · have hzero := beyond_suffix.mp h
    subst hzero
    simp [interval]

theorem RangeSpec.answer_cases :
    (spec.beyond size = true ∧ spec.answer size = .ok (.unsatisfiable size)) ∨
      ((spec.interval size).1 < (spec.interval size).2 ∧ spec.beyond size = false ∧
        spec.answer size = .ok (.range (spec.byteRange size))) ∨
      (¬ (spec.interval size).1 < (spec.interval size).2 ∧ spec.beyond size = false ∧
        Refused (spec.answer size)) := by
  cases hbeyond : spec.beyond size with
  | true => exact Or.inl ⟨rfl, answer_beyond hbeyond⟩
  | false =>
    have hnot : ¬ spec.beyond size = true := by simp [hbeyond]
    by_cases hlt : (spec.interval size).1 < (spec.interval size).2
    · exact Or.inr (Or.inl ⟨hlt, rfl, answer_range spec hnot hlt⟩)
    · exact Or.inr (Or.inr ⟨hlt, rfl, _, answer_empty spec hnot hlt⟩)

/-- Every way a header can be read. -/
theorem parse_cases (hforeign : ¬ ForeignDigits tables header size) (hsize : 1 ≤ size) :
    (stripped header = [] ∧ parseSingleByteRange tables (some header) size = .ok none) ∨
    (∃ spec, Written header spec ∧
      parseSingleByteRange tables (some header) size = (spec.answer size).map some) ∨
    ((∀ spec, ¬ Written header spec) ∧ stripped header ≠ [] ∧
      (Refused (parseSingleByteRange tables (some header) size) ∨
        (parseSingleByteRange tables (some header) size = .ok (some (.unsatisfiable size)) ∧
          MalformedLast header size))) := by
  by_cases hne : stripped header = []
  · exact Or.inl ⟨hne, if_pos hne⟩
  by_cases hwritten : ∃ spec, Written header spec
  · obtain ⟨spec, hspec⟩ := hwritten
    exact Or.inr (Or.inl ⟨spec, hspec, parse_written hspec hsize⟩)
  · have hnone : ∀ spec, ¬ Written header spec := fun spec hspec => hwritten ⟨spec, hspec⟩
    exact Or.inr (Or.inr ⟨hnone, hne, parse_other hforeign hsize hnone hne⟩)

theorem parse_total (hforeign : ¬ ForeignDigits tables header size) (hsize : 1 ≤ size) :
    parseSingleByteRange tables (some header) size = .ok none ∨
      parseSingleByteRange tables (some header) size = .ok (some (.unsatisfiable size)) ∨
      (∃ r, parseSingleByteRange tables (some header) size = .ok (some (.range r)) ∧
        r.start < r.stop ∧ r.stop ≤ size ∧ r.total = size) ∨
      Refused (parseSingleByteRange tables (some header) size) := by
  rcases parse_cases hforeign hsize with ⟨-, h⟩ | ⟨spec, -, h⟩ | ⟨-, -, hrefused | ⟨h, -⟩⟩
  · exact Or.inl h
  · rcases spec.answer_cases with ⟨-, ha⟩ | ⟨hlt, -, ha⟩ | ⟨-, -, ha⟩
    · exact Or.inr (Or.inl (by rw [h, ha]; rfl))
    · exact Or.inr (Or.inr (Or.inl ⟨spec.byteRange size, by rw [h, ha]; rfl, hlt,
        spec.interval_le, rfl⟩))
    · exact Or.inr (Or.inr (Or.inr (h ▸ ha.map some)))
  · exact Or.inr (Or.inr (Or.inr hrefused))
  · exact Or.inr (Or.inl h)

theorem parse_none_iff (hforeign : ¬ ForeignDigits tables header size) (hsize : 1 ≤ size) :
    parseSingleByteRange tables (some header) size = .ok none ↔ stripped header = [] := by
  constructor
  · intro hnone
    rcases parse_cases hforeign hsize with ⟨hblank, -⟩ | ⟨spec, -, h⟩ | ⟨-, -, hrefused | ⟨h, -⟩⟩
    · exact hblank
    · rw [h] at hnone
      cases ha : spec.answer size <;> rw [ha] at hnone <;> cases hnone
    · exact absurd hnone hrefused.ne_ok
    · rw [h] at hnone
      cases hnone
  · exact fun hblank => if_pos hblank

theorem parse_range_iff (hforeign : ¬ ForeignDigits tables header size) (hsize : 1 ≤ size)
    {r : ByteRange} :
    parseSingleByteRange tables (some header) size = .ok (some (.range r)) ↔
      ∃ spec, Written header spec ∧ (spec.interval size).1 < (spec.interval size).2 ∧
        r = spec.byteRange size := by
  constructor
  · intro hrange
    rcases parse_cases hforeign hsize with ⟨-, h⟩ | ⟨spec, hspec, h⟩ | ⟨-, -, hrefused | ⟨h, -⟩⟩
    · rw [h] at hrange
      cases hrange
    · rcases spec.answer_cases with ⟨-, ha⟩ | ⟨hlt, -, ha⟩ | ⟨-, -, ha⟩
      · rw [h, ha] at hrange
        cases hrange
      · rw [h, ha] at hrange
        cases hrange
        exact ⟨spec, hspec, hlt, rfl⟩
      · rw [h] at hrange
        exact absurd hrange (ha.map some).ne_ok
    · exact absurd hrange hrefused.ne_ok
    · rw [h] at hrange
      cases hrange
  · rintro ⟨spec, hspec, hlt, rfl⟩
    rw [parse_written hspec hsize]
    rcases spec.answer_cases with ⟨hbeyond, -⟩ | ⟨-, -, ha⟩ | ⟨hempty, -⟩
    · exact absurd hlt (RangeSpec.interval_of_beyond hbeyond)
    · rw [ha]
      rfl
    · exact absurd hlt hempty

theorem parse_unsatisfiable_iff (hforeign : ¬ ForeignDigits tables header size) (hsize : 1 ≤ size)
    (hlast : ¬ MalformedLast header size) :
    parseSingleByteRange tables (some header) size = .ok (some (.unsatisfiable size)) ↔
      ∃ spec, Written header spec ∧ spec.beyond size = true := by
  constructor
  · intro hunsat
    rcases parse_cases hforeign hsize with ⟨-, h⟩ | ⟨spec, hspec, h⟩ | ⟨-, -, hrefused | ⟨-, hbad⟩⟩
    · rw [h] at hunsat
      cases hunsat
    · rcases spec.answer_cases with ⟨hbeyond, -⟩ | ⟨-, -, ha⟩ | ⟨-, -, ha⟩
      · exact ⟨spec, hspec, hbeyond⟩
      · rw [h, ha] at hunsat
        cases hunsat
      · rw [h] at hunsat
        exact absurd hunsat (ha.map some).ne_ok
    · exact absurd hunsat hrefused.ne_ok
    · exact absurd hbad hlast
  · rintro ⟨spec, hspec, hbeyond⟩
    rw [parse_written hspec hsize, RangeSpec.answer_beyond hbeyond]
    rfl

/-- A header is absent, or it denotes bytes of the file, or none of them, or it is refused. -/
theorem range_parsing_exact (tables : Unicode) (header : Str) (size : ℕ) (hsize : 1 ≤ size)
    (hforeign : ¬ ForeignDigits tables header size) :
    parseSingleByteRange tables none size = .ok none ∧
    (parseSingleByteRange tables (some header) size = .ok none ∨
      parseSingleByteRange tables (some header) size = .ok (some (.unsatisfiable size)) ∨
      (∃ r, parseSingleByteRange tables (some header) size = .ok (some (.range r)) ∧
        r.start < r.stop ∧ r.stop ≤ size ∧ r.total = size) ∨
      Refused (parseSingleByteRange tables (some header) size)) ∧
    (parseSingleByteRange tables (some header) size = .ok none ↔ stripped header = []) ∧
    (∀ r, parseSingleByteRange tables (some header) size = .ok (some (.range r)) ↔
      ∃ spec, Written header spec ∧ (spec.interval size).1 < (spec.interval size).2 ∧
        r = spec.byteRange size) ∧
    (¬ MalformedLast header size →
      (parseSingleByteRange tables (some header) size = .ok (some (.unsatisfiable size)) ↔
        ∃ spec, Written header spec ∧ spec.beyond size = true)) :=
  ⟨rfl, parse_total hforeign hsize, parse_none_iff hforeign hsize,
    fun _ => parse_range_iff hforeign hsize, parse_unsatisfiable_iff hforeign hsize⟩

/-- Tables that know no digits past ASCII but the superscript two. -/
def sampleTables : Unicode := ⟨fun _ => none, (· == 0xB2)⟩

example : parseSingleByteRange sampleTables (some (codePoints "bytes=²-")) 10 =
    .error .valueError := by decide +kernel

theorem not_foreign_of_ascii (h : ∀ c ∈ ds, c ≤ 127) : ¬ Foreign tables ds := by
  rintro ⟨hdigits, hnot⟩
  simp only [isDigits, Bool.and_eq_true, decide_eq_true_eq, List.all_eq_true] at hdigits
  refine hnot ⟨hdigits.1, List.all_eq_true.mpr fun c hc => ?_⟩
  have hd := hdigits.2 c hc
  simpa [isDigit, Nat.not_lt.mpr (h c hc)] using hd

theorem not_foreignDigits_of_ascii (h : ∀ c ∈ stripped header, c ≤ 127) :
    ¬ ForeignDigits tables header size := by
  rintro ⟨-, -, text, ⟨unit, hcat, -⟩, -, -, first, last, hsplit, hforeign⟩
  obtain ⟨rfl, -⟩ := splitOnce_eq_some_iff.mp hsplit
  rw [hcat] at h
  rcases hforeign with hfirst | ⟨hlast, -⟩
  · exact not_foreign_of_ascii (fun c hc => h c (by simp [hc])) hfirst
  · exact not_foreign_of_ascii (fun c hc => h c (by simp [hc])) hlast

theorem range_parsing_sample :
    parseSingleByteRange sampleTables (some (codePoints "bytes=2-5")) 10 =
      .ok (some (.range ⟨2, 6, 10⟩)) := by
  have hforeign : ¬ ForeignDigits sampleTables (codePoints "bytes=2-5") 10 :=
    not_foreignDigits_of_ascii (by decide)
  have hexact := (range_parsing_exact sampleTables (codePoints "bytes=2-5") 10 (by decide)
    hforeign).2.2.2.1 ⟨2, 6, 10⟩
  have htext : RangeText (codePoints "2-5") (.bounds 2 (some 5)) :=
    @RangeText.fromTo (codePoints "2") (codePoints "5") ⟨by decide, by decide⟩
      ⟨by decide, by decide⟩
  refine hexact.mpr ⟨.bounds 2 (some 5), ⟨by decide, codePoints "2-5",
    ⟨codePoints "bytes=", by decide, by decide⟩, htext, ?_⟩, by decide, rfl⟩
  rintro ⟨ds, hds, -⟩
  cases hds

theorem zero_led_suffix_text : RangeText (codePoints "-05") (.suffix 5) :=
  @RangeText.suffix (codePoints "05") ⟨by decide, by decide⟩

theorem zero_led_suffix_refused :
    parseSingleByteRange sampleTables (some (codePoints "bytes=-05")) 10 =
      .error (badRequest "RANGE_SUFFIX_LEADING_ZERO") := by decide +kernel

theorem range_parsing_not_exact : ¬ ∀ (tables : Unicode) (header text : Str) (size : ℕ)
    (spec : RangeSpec), 1 ≤ size → header = codePoints "bytes=" ++ text → RangeText text spec →
    (spec.interval size).1 < (spec.interval size).2 →
    parseSingleByteRange tables (some header) size = .ok (some (.range (spec.byteRange size))) := by
  intro hclaim
  have hread := hclaim sampleTables (codePoints "bytes=-05") (codePoints "-05") 10 (.suffix 5)
    (by decide) rfl zero_led_suffix_text (by decide)
  rw [zero_led_suffix_refused] at hread
  cases hread

end FetchNow.Delivery
