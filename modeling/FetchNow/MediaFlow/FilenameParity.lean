import FetchNow.Downloads.SafeFilename
import FetchNow.MediaFlow.Filenames

/-!
# Filenames in both languages

The browser makes the same stem of a title as the server, accepts the same names, and reads the
name of a header back.
-/
namespace FetchNow.WebFilename

open EcmaScript

variable {data : SharedUnicode} {s t raw stem name ext : Str} {c n : ℕ} {behind : Bool}

/-- A text without surrogates. -/
def Scalars (s : Str) : Prop := ∀ c ∈ s, Utf16.Scalar c

theorem scalar_iff : Filename.isScalar c = true ↔ Utf16.Scalar c := by
  rw [Filename.isScalar, Bool.or_eq_true, Bool.and_eq_true, decide_eq_true_eq, decide_eq_true_eq,
    decide_eq_true_eq, Utf16.Scalar]

theorem Scalars.subset (h : Scalars s) (hsub : t ⊆ s) : Scalars t := fun c hc => h c (hsub hc)

theorem scalars_clean (h : Filename.Clean data.isOther s) : Scalars s :=
  fun _ hc => scalar_iff.mp (h.char hc).1

/-! ## The characters -/

theorem mem_forbidden : c ∈ FORBIDDEN_FILENAME_CHARS ↔ c ∈ Filename.forbidden := by
  simp [FORBIDDEN_FILENAME_CHARS, Filename.forbidden, codePoints, codePoint]
  omega

/-- White space is the same to both but for what has been removed. -/
theorem isWhiteSpace_eq (h : data.isOther c = false) : isWhiteSpace c = Text.isSpace c := by
  have hcontrol : ¬ (c < 32 ∨ 127 ≤ c ∧ c < 160) := by
    intro hc
    rw [data.other_control c hc] at h
    cases h
  have hmark : c ≠ 0xFEFF := by
    rintro rfl
    rw [data.other_mark] at h
    cases h
  rw [Bool.eq_iff_iff]
  simp only [isWhiteSpace, Text.isSpace, Text.isAsciiSpace, Bool.or_eq_true, Bool.and_eq_true,
    decide_eq_true_eq, beq_iff_eq]
  omega

theorem cleanChar_eq : cleanChar data c = Filename.cleanPoint data.isOther c := by
  have hdeleted : (BIDI_CODEPOINTS.contains c || FORBIDDEN_FILENAME_CHARS.contains c) = true ↔
      c ∈ Filename.bidi ∨ c ∈ Filename.forbidden := by
    rw [Bool.or_eq_true, List.contains_iff_mem, List.contains_iff_mem, mem_forbidden]
    rfl
  rw [cleanChar, Filename.cleanPoint]
  by_cases hcase : c ∈ Filename.bidi ∨ c ∈ Filename.forbidden
  · rw [if_pos (hdeleted.mpr hcase), if_pos hcase]
  rw [if_neg (mt hdeleted.mp hcase), if_neg hcase]
  cases hother : data.isOther c with
  | true => split <;> rfl
  | false =>
    have hscalar : ¬ (decide (0xd800 ≤ c) && decide (c ≤ 0xdfff)) = true := by
      intro hsurrogate
      rw [Bool.and_eq_true, decide_eq_true_eq, decide_eq_true_eq] at hsurrogate
      have hnot : Filename.isScalar c = false := by
        rw [Bool.eq_false_iff, Ne, scalar_iff, Utf16.Scalar]
        omega
      rw [data.other_not_scalar c hnot] at hother
      cases hother
    rw [if_neg hscalar, isWhiteSpace_eq hother]
    rfl

theorem cleaned_eq (hs : Scalars s) :
    cleaned data (Utf16.encode s) = Utf16.encode (Filename.cleaned data.toUnicodeData s) := by
  rw [cleaned, Utf16.decode_encode hs, Filename.cleaned]
  congr 1
  exact List.filterMap_congr fun c _ => cleanChar_eq

theorem joinSpacesFrom_cons (h : isWhiteSpace c = false) :
    joinSpacesFrom behind (c :: s) = c :: joinSpacesFrom false s := by
  rw [joinSpacesFrom, h, if_neg Bool.false_ne_true]

theorem joinSpacesFrom_eq (h : Filename.Clean data.isOther s) :
    joinSpacesFrom behind (Utf16.encode s) = Utf16.encode (Filename.collapseFrom behind s) := by
  induction s generalizing behind with
  | nil => rfl
  | cons c s ih =>
    obtain ⟨hc, hs⟩ := List.forall_mem_cons.mp h
    obtain ⟨-, -, hother, -⟩ := Filename.cleanPoint_eq_some hc
    have hspace := isWhiteSpace_eq hother
    rw [Utf16.encode_cons, Filename.collapseFrom]
    rcases Nat.lt_or_ge c 0x10000 with hlow | hhigh
    · rw [Utf16.unitsOf_low hlow, List.singleton_append, joinSpacesFrom, hspace]
      split
      · split
        · exact ih hs
        · rw [ih hs]
          rfl
      · rw [ih hs, Utf16.encode_cons, Utf16.unitsOf_low hlow, List.singleton_append]
    · have hnone : ∀ u, 0xD800 ≤ u → u < 0xFE00 → isWhiteSpace u = false := by
        intro u hu hu'
        simp only [isWhiteSpace, Bool.or_eq_false_iff, Bool.and_eq_false_iff, beq_eq_false_iff_ne,
          decide_eq_false_iff_not]
        omega
      have hpoint : Text.isSpace c = false := by
        simp only [Text.isSpace, Text.isAsciiSpace, Bool.or_eq_false_iff, Bool.and_eq_false_iff,
          beq_eq_false_iff_ne, decide_eq_false_iff_not]
        omega
      have hmax : c < 0x110000 := by
        rcases scalars_clean h c List.mem_cons_self with hscalar | hscalar <;> omega
      rw [Utf16.unitsOf_high hhigh, List.cons_append, List.singleton_append,
        joinSpacesFrom_cons (hnone _ (by omega) (by omega)),
        joinSpacesFrom_cons (hnone _ (by omega) (by omega)), ih hs, hpoint,
        if_neg Bool.false_ne_true, Utf16.encode_cons, Utf16.unitsOf_high hhigh]
      rfl

/-! ## The ends -/

theorem isEnd_eq : isEnd = Filename.isEnd := by
  funext c
  rfl

theorem isEnd_high (h : 0xD800 ≤ c) : Filename.isEnd c = false := by
  have hblank : Filename.blank = 32 := rfl
  have hdot : Filename.dot = 46 := rfl
  rw [Filename.isEnd, Bool.or_eq_false_iff, decide_eq_false_iff_not, decide_eq_false_iff_not]
  omega

theorem stripEnd_eq : stripEnd (Utf16.encode s) = Utf16.encode (Filename.rstripEnds s) := by
  rw [stripEnd, isEnd_eq, Utf16.rdropWhile_encode fun _ => isEnd_high]
  rfl

theorem stripEnds_eq : stripEnds (Utf16.encode s) = Utf16.encode (Filename.stripEnds s) := by
  rw [stripEnds, isEnd_eq, Utf16.dropWhile_encode fun _ => isEnd_high, stripEnd_eq]
  rfl

/-- What is left of a title before it is cut. -/
theorem collapsed_eq (h : Scalars raw) :
    stripEnds (joinSpaces (cleaned data (normalize data (Utf16.encode raw)))) =
      Utf16.encode (Filename.reduced data.toUnicodeData raw) := by
  have hcleaned := @Filename.clean_cleaned data.toUnicodeData (data.nfc raw)
  have hcollapsed := hcleaned.subset (@Filename.collapseFrom_subset _ _ false hcleaned)
  have hstripped := hcollapsed.subset Filename.stripEnds_infix.subset
  rw [normalize, Utf16.decode_encode h, cleaned_eq (data.nfc_scalar raw h), joinSpaces,
    joinSpacesFrom_eq hcleaned, stripEnds_eq, Filename.reduced,
    Filename.removeControls_eq_self hstripped]

theorem isNoName_eq : isNoName (Utf16.encode s) = Filename.isNoName s := by
  have hdot : ∀ c ∈ [46], c < 0xD800 := by decide
  have hdots : ∀ c ∈ [46, 46], c < 0xD800 := by decide
  rw [Bool.eq_iff_iff, isNoName, Filename.isNoName]
  simp only [Bool.or_eq_true, beq_iff_eq, decide_eq_true_eq, Utf16.encode_eq_nil,
    Utf16.encode_eq_low hdot, Utf16.encode_eq_low hdots]
  rfl

theorem reserved_eq (h : Scalars s) : WINDOWS_RESERVED.contains (toUpperCase data (Utf16.encode s)) =
    Filename.isReserved data.toUnicodeData s := by
  have hnames : WINDOWS_RESERVED = Filename.reserved := by decide
  have hlow : ∀ device ∈ Filename.reserved, ∀ c ∈ device, c < 0xD800 := by decide
  rw [toUpperCase, Utf16.decode_encode h, hnames, Filename.isReserved, Bool.eq_iff_iff,
    List.contains_iff_mem, List.contains_iff_mem]
  constructor
  · intro hmem
    have hsame := (Utf16.encode_eq_low (hlow _ hmem)).mp rfl
    rwa [← hsame] at hmem
  · intro hmem
    rwa [(Utf16.encode_eq_low (hlow _ hmem)).mpr rfl]

/-! ## Cutting -/

theorem replaced_scalar (h : Utf16.Scalar c) : replaced c = Char.ofNat c := if_pos h

theorem utf8Size_ofNat (h : Utf16.Scalar c) : (Char.ofNat c).utf8Size = Filename.utf8Bytes c := by
  have hval : (Char.ofNat c).val.toNat = c := Utf16.toNat_ofNat h
  rw [Char.utf8Size, Filename.utf8Bytes]
  simp only [UInt32.le_iff_toNat_le, UInt32.toNat_ofNatLT, hval]
  split_ifs <;> omega

/-- The characters of a text. -/
def chars (s : Str) : List Char := s.map Char.ofNat

theorem textEncode_eq (h : Scalars s) : textEncode (Utf16.encode s) = Utf8Prefix.bytes (chars s) := by
  rw [textEncode, Utf16.decode_encode h, chars]
  congr 1
  exact List.map_congr_left fun c hc => replaced_scalar (h c hc)

theorem size_chars (h : Scalars s) : Utf8Prefix.size (chars s) = Filename.utf8Size s := by
  rw [Utf8Prefix.size, chars, List.map_map, Filename.utf8Size]
  congr 1
  exact List.map_congr_left fun c hc => utf8Size_ofNat (h c hc)

theorem length_textEncode (h : Scalars s) :
    (textEncode (Utf16.encode s)).length = Filename.utf8Size s := by
  rw [textEncode_eq h, Utf8Prefix.length_bytes, size_chars h]

theorem fit_chars (h : Scalars s) : Utf8Prefix.fit n (chars s) = chars (Filename.takeBytes n s) := by
  induction s generalizing n with
  | nil => rfl
  | cons c s ih =>
    obtain ⟨hc, hs⟩ := List.forall_mem_cons.mp h
    show Utf8Prefix.fit n (Char.ofNat c :: chars s) = _
    rw [Utf8Prefix.fit, Filename.takeBytes, utf8Size_ofNat hc, ih hs]
    split <;> rfl

theorem toNat_chars (h : Scalars s) : (chars s).map Char.toNat = s := by
  rw [chars, List.map_map]
  conv_rhs => rw [← List.map_id s]
  exact List.map_congr_left fun c hc => Utf16.toNat_ofNat (h c hc)

theorem withoutMark_eq (h : ∀ c ∈ s.head?, c ≠ 0xFEFF) : withoutMark s = s := by
  cases s with
  | nil => rfl
  | cons c s =>
    have hc := h c rfl
    rw [withoutMark]
    intro _ heq
    exact hc (List.cons.inj heq).1

/-- A text that does not start with a mark is decoded from its bytes. -/
theorem textDecode_bytes (h : Scalars s) (hmark : ∀ c ∈ s.head?, c ≠ 0xFEFF) :
    textDecode (Utf8Prefix.bytes (chars s)) = some (Utf16.encode s) := by
  have hread : Utf8Prefix.read (Utf8Prefix.bytes (chars s)) = some (chars s) :=
    Utf8Prefix.read_eq_some.mpr rfl
  rw [textDecode, hread, Option.map_some, toNat_chars h, withoutMark_eq]
  intro u hu
  cases s with
  | nil => cases hu
  | cons c s =>
    have hc := hmark c rfl
    rw [Utf16.encode_cons, Utf16.unitsOf] at hu
    split at hu
    · cases hu
      exact hc
    · cases hu
      rcases h c List.mem_cons_self with hscalar | hscalar <;> omega

theorem takeBytes_pred (h : Scalars s) (hsize : Filename.utf8Size (Filename.takeBytes (n + 1) s) ≠ n + 1) :
    Filename.takeBytes n s = Filename.takeBytes (n + 1) s := by
  have hprefix := Filename.takeBytes_prefix (s := s) (n + 1)
  have hle := Filename.utf8Size_takeBytes (s := s) (n + 1)
  have hfit : Utf8Prefix.fit n (chars s) = Utf8Prefix.fit (n + 1) (chars s) := by
    apply Utf8Prefix.fit_mono _ (Nat.le_succ n)
    rw [fit_chars h, size_chars (h.subset hprefix.subset)]
    omega
  rw [fit_chars h, fit_chars h] at hfit
  have hmap := congrArg (List.map Char.toNat) hfit
  rwa [toNat_chars (h.subset (Filename.takeBytes_prefix n).subset),
    toNat_chars (h.subset hprefix.subset)] at hmap

/-- Bytes are dropped one by one until those left are whole characters. -/
theorem decodeFrom_eq {limit : ℕ} (h : Scalars s) (hmark : ∀ c ∈ s.head?, c ≠ 0xFEFF)
    (hlimit : n ≤ limit) (hn : n ≤ Filename.utf8Size s) :
    decodeFrom ((Utf8Prefix.bytes (chars s)).take limit) n =
      Utf16.encode (Filename.takeBytes n s) := by
  induction n with
  | zero =>
    cases s with
    | nil => rfl
    | cons c s =>
      have hpos := @Filename.utf8Bytes_pos c
      rw [Filename.takeBytes, if_neg (by omega)]
      rfl
  | succ n ih =>
    have hprefix := Filename.takeBytes_prefix (s := s) (n + 1)
    have hscalars := h.subset hprefix.subset
    have hread : Utf8Prefix.read ((Utf8Prefix.bytes (chars s)).take (n + 1)) = _ :=
      Utf8Prefix.read_take (by rwa [size_chars h])
    rw [fit_chars h, size_chars hscalars] at hread
    rw [decodeFrom, List.take_take, Nat.min_eq_left hlimit]
    by_cases hsize : Filename.utf8Size (Filename.takeBytes (n + 1) s) = n + 1
    · rw [if_pos hsize, Utf8Prefix.read_eq_some] at hread
      have hhead : ∀ c ∈ (Filename.takeBytes (n + 1) s).head?, c ≠ 0xFEFF := by
        obtain ⟨rest, hrest⟩ := hprefix
        intro c hc
        apply hmark
        rw [← hrest]
        exact List.mem_head?_append_of_mem_head? hc
      rw [hread, textDecode_bytes hscalars hhead]
    · rw [if_neg hsize] at hread
      rw [textDecode, hread, ← takeBytes_pred h hsize]
      exact ih (by omega) (by omega)

theorem head_ne_mark (h : Filename.Clean data.isOther s) : ∀ c ∈ s.head?, c ≠ 0xFEFF := by
  rintro c hc rfl
  obtain ⟨-, -, hother, -⟩ := Filename.cleanPoint_eq_some (h _ (List.mem_of_mem_head? hc))
  rw [data.other_mark] at hother
  cases hother

theorem cutChars_eq (h : Scalars s) :
    cutChars (Utf16.encode s) = Utf16.encode (Filename.cutChars s) := by
  have hlimit : MAX_STEM_CHARS = Filename.maxStemChars := rfl
  rw [cutChars, Filename.cutChars, unicodeCharCount, unicodePrefix, Utf16.decode_encode h, hlimit]
  split
  · rename_i hlong
    rw [if_neg (Nat.not_le.mpr hlong), stripEnd_eq]
  · rfl

theorem cutBytes_eq (h : Filename.Clean data.isOther s) :
    cutBytes (Utf16.encode s) = Utf16.encode (Filename.cutBytes s) := by
  have hscalars := scalars_clean h
  have hlimit : MAX_STEM_UTF8_BYTES = Filename.maxStemUtf8Bytes := rfl
  have hlength : (Utf8Prefix.bytes (chars s)).length = Filename.utf8Size s := by
    rw [Utf8Prefix.length_bytes, size_chars hscalars]
  rw [cutBytes, Filename.cutBytes, textEncode_eq hscalars]
  simp only [hlength, hlimit]
  split
  · rename_i hlong
    rw [decodeUtf8IgnoreIncomplete, List.length_take, hlength, Nat.min_eq_left hlong.le,
      decodeFrom_eq hscalars (head_ne_mark h) le_rfl hlong.le, stripEnd_eq]
  · rfl

/-- The stem of a title is the same in both languages. -/
theorem sanitizeFilenameStem_eq (h : Scalars raw) :
    sanitizeFilenameStem data (some (Utf16.encode raw)) =
      (Filename.sanitizeStem data.toUnicodeData (some raw)).map Utf16.encode := by
  obtain ⟨hclean, htidy⟩ := @Filename.reduced_spec data.toUnicodeData raw
  have hscalars := scalars_clean hclean
  have hchars := (Filename.cutChars_spec htidy).1
  have hcut := hclean.subset hchars.subset
  have hbytes := (Filename.cutBytes_spec (Filename.cutChars_spec htidy).2.1).1
  have hpoint : ∀ c, 0xD800 ≤ c → decide (c ≠ 46) = true := by
    intro c hc
    exact decide_eq_true (by omega)
  have hhead : Scalars ((Filename.reduced data.toUnicodeData raw).takeWhile (· ≠ 46)) :=
    hscalars.subset (List.takeWhile_prefix _).subset
  simp only [sanitizeFilenameStem, Filename.sanitizeStem, Option.bind_some]
  rw [collapsed_eq h, isNoName_eq, Utf16.takeWhile_encode hpoint, reserved_eq hhead,
    cutChars_eq hscalars, cutBytes_eq hcut, isNoName_eq,
    reserved_eq (scalars_clean (hcut.subset hbytes.subset))]
  simp only [apply_ite (Option.map Utf16.encode), Option.map_none, Option.map_some]
  rfl

/-! ## The check -/

theorem allowed_eq : ALLOWED_CONTAINERS = Filename.allowedContainers := rfl

theorem matchEach_encode {ps : List (ℕ → Bool)} (hps : ∀ p ∈ ps, ∀ c, p c = true → c < 128) :
    Filename.matchEach ps (Utf16.encode s) = (Filename.matchEach ps s).map Utf16.encode := by
  induction ps generalizing s with
  | nil => rfl
  | cons p ps ih =>
    obtain ⟨hp, hps⟩ := List.forall_mem_cons.mp hps
    cases s with
    | nil => rfl
    | cons c s =>
      rw [Utf16.encode_cons, Filename.matchEach]
      rcases Nat.lt_or_ge c 0x10000 with hlow | hhigh
      · rw [Utf16.unitsOf_low hlow, List.singleton_append, Filename.matchEach]
        split
        · exact ih hps
        · rfl
      · have hc : ¬ p c = true := fun htrue => by
          have hlt := hp c htrue
          omega
        have hlead : ¬ p (0xD800 + (c - 0x10000) / 0x400) = true := fun htrue => by
          have hlt := hp _ htrue
          omega
        rw [Utf16.unitsOf_high hhigh, List.cons_append, Filename.matchEach, if_neg hlead, if_neg hc]
        rfl

/-- An extension that is allowed is one of both patterns. -/
theorem extension_spec (hext : ext ∈ Filename.allowedContainers) :
    ∀ c ∈ ext, isExtensionUnit c = true ∧ Filename.isExtensionChar c = true ∧ c < 0xD800 := by
  have hall : ∀ ext ∈ Filename.allowedContainers, ∀ c ∈ ext,
      isExtensionUnit c = true ∧ Filename.isExtensionChar c = true ∧ c < 0xD800 := by decide
  exact hall ext hext

/-- What the tests leave of a name with such an extension is a part of it, or has a full stop. -/
theorem rest_of_matchEach {ps : List (ℕ → Bool)} {rest : Str}
    (hname : Filename.dot :: ext <:+ name) (h : Filename.matchEach ps name = some rest) :
    Filename.dot ∈ rest ∨ rest <:+ ext := by
  obtain ⟨stem, rfl⟩ := hname
  obtain ⟨u, hu, -⟩ := Filename.exists_of_matchEach h
  rcases List.append_eq_append_iff.mp hu with ⟨a, -, hrest⟩ | ⟨a, -, rfl⟩
  · cases a with
    | nil =>
      rw [List.nil_append] at hrest
      exact .inl (hrest ▸ List.mem_cons_self)
    | cons d a =>
      obtain ⟨-, hsuffix⟩ := List.cons.inj hrest
      exact .inr ⟨a, hsuffix.symm⟩
  · exact .inl (List.mem_append_right _ List.mem_cons_self)

/-- The patterns agree on names with an extension that is allowed: it is all that their last tests
see. -/
theorem uuidFallback_eq (hext : ext ∈ Filename.allowedContainers)
    (hname : Filename.dot :: ext <:+ name) :
    UUID_FALLBACK_NAME (Utf16.encode name) = Filename.matchesUuidFallback name := by
  have hascii : ∀ p ∈ Filename.uuidFallbackTests, ∀ c, p c = true → c < 128 :=
    fun p hp c hc => Filename.ascii_of_test hp hc
  rw [UUID_FALLBACK_NAME, Filename.matchesUuidFallback, matchEach_encode hascii]
  cases hmatch : Filename.matchEach Filename.uuidFallbackTests name with
  | none => rfl
  | some rest =>
    rw [Option.map_some, Option.any_some, Option.any_some]
    rcases rest_of_matchEach hname hmatch with hdot | hsuffix
    · have hunit : (Utf16.encode rest).all isExtensionUnit = false := by
        rw [List.all_eq_false]
        exact ⟨46, (Utf16.mem_encode (by omega)).mpr hdot, by decide⟩
      have hchar : rest.all Filename.isExtensionChar = false := by
        rw [List.all_eq_false]
        exact ⟨Filename.dot, hdot, by decide⟩
      rw [hunit, hchar, Bool.and_false, Bool.and_false]
    · have hspec := fun c hc => extension_spec hext c (hsuffix.subset hc)
      have hself : Utf16.encode rest = rest :=
        Utf16.encode_low fun c hc => (hspec c hc).2.2.trans (by omega)
      have hunit : rest.all isExtensionUnit = true :=
        List.all_eq_true.mpr fun c hc => (hspec c hc).1
      have hchar : rest.all Filename.isExtensionChar = true :=
        List.all_eq_true.mpr fun c hc => (hspec c hc).2.1
      rw [hself, hunit, hchar]

theorem bounds_eq (h : Scalars name) : Filename.filenameBoundsOk name =
    .ok (!(decide (name.length < 1 ∨ MAX_FILENAME_CHARS < name.length) ||
      decide (Filename.utf8Size name < 1 ∨ MAX_FILENAME_UTF8_BYTES < Filename.utf8Size name))) := by
  have hscalar : name.all Filename.isScalar = true :=
    List.all_eq_true.mpr fun c hc => scalar_iff.mpr (h c hc)
  have hempty : name = [] ∨ Filename.maxFilenameChars < name.length ↔
      name.length < 1 ∨ MAX_FILENAME_CHARS < name.length := by
    rw [Nat.lt_one_iff, List.length_eq_zero_iff]
    rfl
  rw [Filename.filenameBoundsOk]
  by_cases hlength : name.length < 1 ∨ MAX_FILENAME_CHARS < name.length
  · rw [if_pos (hempty.mpr hlength), decide_eq_true hlength]
    rfl
  · rw [if_neg (mt hempty.mp hlength), decide_eq_false hlength, Transactions.require_true hscalar]
    have hbytes : (decide (1 ≤ Filename.utf8Size name) &&
        decide (Filename.utf8Size name ≤ Filename.maxFilenameUtf8Bytes)) =
          !decide (Filename.utf8Size name < 1 ∨
            MAX_FILENAME_UTF8_BYTES < Filename.utf8Size name) := by
      rw [Bool.eq_iff_iff, Bool.and_eq_true, decide_eq_true_eq, decide_eq_true_eq,
        Bool.not_eq_true', decide_eq_false_iff_not, not_or, Nat.not_lt, Nat.not_lt]
      rfl
    rw [Bool.false_or, ← hbytes]
    rfl

theorem forbidden_eq (h : Scalars name) :
    ((Utf16.decode (Utf16.encode name)).any FORBIDDEN_FILENAME_CHARS.contains ||
      (Utf16.encode name).contains 13 || (Utf16.encode name).contains 10) =
    name.any fun c => Filename.forbidden.contains c || c = 13 || c = 10 := by
  rw [Utf16.decode_encode h, Bool.eq_iff_iff]
  simp only [Bool.or_eq_true, List.any_eq_true, List.contains_iff_mem, mem_forbidden,
    decide_eq_true_eq, Utf16.mem_encode (show 13 < 0xD800 by omega),
    Utf16.mem_encode (show 10 < 0xD800 by omega)]
  constructor
  · rintro ((⟨c, hc, hforbidden⟩ | hc) | hc)
    · exact ⟨c, hc, .inl (.inl hforbidden)⟩
    · exact ⟨13, hc, .inl (.inr rfl)⟩
    · exact ⟨10, hc, .inr rfl⟩
  · rintro ⟨c, hc, (hforbidden | rfl) | rfl⟩
    · exact .inl (.inl ⟨c, hc, hforbidden⟩)
    · exact .inl (.inr hc)
    · exact .inr hc

theorem unchanged_iff (h : Scalars stem) :
    some (Utf16.encode stem) = sanitizeFilenameStem data (some (Utf16.encode stem)) ↔
      some stem = Filename.sanitizeStem data.toUnicodeData (some stem) := by
  rw [sanitizeFilenameStem_eq h]
  cases hresult : Filename.sanitizeStem data.toUnicodeData (some stem) with
  | none => exact iff_of_false nofun nofun
  | some kept =>
    have hclean := (Filename.sanitized_of_eq_some hresult).1.clean
    rw [Option.map_some, Option.some_inj, Option.some_inj]
    exact Utf16.encode_inj h (scalars_clean hclean)

/-- The check of a name comes out the same in both languages. -/
theorem isSafeSuggestedFilename_eq (h : Scalars name) (hext : ext ∈ Filename.allowedContainers) :
    Filename.isSafeSuggestedFilename data.toUnicodeData name ext =
      .ok (isSafeSuggestedFilename data (Utf16.encode name) ext) := by
  have hvalid : Filename.validatedContainer ext = .ok ext := (Filename.container_spec hext).2.2.2.2
  have hallowed : (!ALLOWED_CONTAINERS.contains ext) = false := by
    rw [Bool.not_eq_false', List.contains_iff_mem, allowed_eq]
    exact hext
  have hlow : ∀ c ∈ Filename.dot :: ext, c < 0xD800 :=
    List.forall_mem_cons.mpr ⟨by decide, fun c hc => (extension_spec hext c hc).2.2⟩
  have hsuffix : 46 :: ext <:+ Utf16.encode name ↔ Filename.dot :: ext <:+ name :=
    Utf16.suffix_encode h hlow
  rw [Filename.isSafeSuggestedFilename, hvalid, Transactions.ok_bind, isSafeSuggestedFilename,
    hallowed, if_neg Bool.false_ne_true]
  simp only [hsuffix, forbidden_eq h, unicodeCharCount, length_textEncode h, bounds_eq h]
  rw [Utf16.decode_encode h]
  by_cases hname : Filename.dot :: ext <:+ name
  · rw [if_neg (not_not.mpr hname), if_neg (not_not.mpr hname)]
    by_cases hcount : name.length < 1 ∨ MAX_FILENAME_CHARS < name.length
    · rw [if_pos hcount, decide_eq_true hcount]
      rfl
    by_cases hbytes : Filename.utf8Size name < 1 ∨
        MAX_FILENAME_UTF8_BYTES < Filename.utf8Size name
    · rw [if_neg hcount, if_pos hbytes, decide_eq_false hcount, decide_eq_true hbytes]
      rfl
    rw [if_neg hcount, if_neg hbytes, decide_eq_false hcount, decide_eq_false hbytes]
    simp only [Bool.or_self, Bool.not_false, Bool.not_true, Transactions.ok_bind,
      Bool.false_eq_true, if_false]
    rw [List.length_cons]
    have hstem : Scalars (name.take (name.length - (ext.length + 1))) :=
      h.subset (List.take_subset _ _)
    have hunchanged := @unchanged_iff data _ hstem
    split
    · rfl
    · split
      · rename_i hchanged
        rw [if_pos (mt hunchanged.mp hchanged), uuidFallback_eq hext hname]
        rfl
      · rename_i hsame
        rw [if_neg (not_not.mpr (hunchanged.mpr (not_not.mp hsame)))]
        rfl
  · rw [if_pos hname, if_pos hname]
    rfl

end FetchNow.WebFilename
