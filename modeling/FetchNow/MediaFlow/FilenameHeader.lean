import FetchNow.MediaFlow.FilenameParity

/-!
# The header of a filename, read back

A name that the server accepts reaches the browser as it is.
-/
namespace FetchNow.WebFilename

open EcmaScript

variable {data : SharedUnicode} {s t raw stem name ext buf rest asciiName fallback : Str}
  {parts : List JsString} {c n : ℕ} {b : UInt8} {bs : List UInt8} {id : Filename.JobUuid}

/-! ## Bytes -/

theorem digitValue_upper (h : n < 16) :
    Text.digitValue 16 (Filename.upperHexDigit n) = some n := Filename.upperHexDigit_value h

/-- What is written for a byte is read as the byte. -/
theorem rawBytes_encodeByte : rawBytes (Filename.encodeByte b ++ raw) =
    (rawBytes raw).map (b :: ·) := by
  have hlt := b.toNat_lt
  have hpercent : Filename.isAttrChar Filename.percent = false := Filename.percent_not_attrChar
  rw [Filename.encodeByte]
  split
  · rename_i hattr
    have hne : b.toNat ≠ Filename.percent := by
      intro heq
      rw [heq, hpercent] at hattr
      cases hattr
    rw [List.singleton_append, rawBytes.eq_def]
    simp only [if_neg hne, if_pos hattr, UInt8.ofNat_toNat]
  · have hback : b.toNat / 16 * 16 + b.toNat % 16 = b.toNat := by omega
    rw [List.cons_append, List.cons_append, List.cons_append, List.nil_append, rawBytes.eq_def]
    simp only [digitValue_upper (show b.toNat / 16 < 16 by omega),
      digitValue_upper (show b.toNat % 16 < 16 by omega), hback, UInt8.ofNat_toNat, if_true]

theorem rawBytes_encode : rawBytes (bs.flatMap Filename.encodeByte) = some bs := by
  induction bs with
  | nil => rfl
  | cons b bs ih =>
    rw [List.flatMap_cons, rawBytes_encodeByte, ih]
    rfl

theorem toUTF8_chars : (String.ofList (name.map Char.ofNat)).toUTF8.data.toList =
    Utf8Prefix.bytes (chars name) := by
  have harray : (String.ofList (name.map Char.ofNat)).toUTF8 =
      (⟨(Utf8Prefix.bytes (chars name)).toArray⟩ : ByteArray) := by
    rw [Utf8Prefix.toByteArray_bytes]
    exact String.toByteArray_ofList
  rw [harray]

/-- The encoded text of a name. -/
def encodedName (name : Str) : Str :=
  Filename.encodeRfc8187 (String.ofList (name.map Char.ofNat))

theorem encodedName_eq : encodedName name = Filename.extPrefix ++
    (Utf8Prefix.bytes (chars name)).flatMap Filename.encodeByte := by
  rw [encodedName, Filename.encodeRfc8187, toUTF8_chars]

theorem decodeRfc8187_encodedName (h : Scalars name) (hne : name ≠ [])
    (hmark : ∀ c ∈ name.head?, c ≠ 0xFEFF) :
    decodeRfc8187 (encodedName name) = some (Utf16.encode name) := by
  have hraw : (Utf8Prefix.bytes (chars name)).flatMap Filename.encodeByte ≠ [] := by
    intro hnil
    have hbytes := @rawBytes_encode (Utf8Prefix.bytes (chars name))
    rw [hnil] at hbytes
    have hlength := congrArg List.length (Option.some.inj hbytes)
    rw [Utf8Prefix.length_bytes, size_chars h] at hlength
    obtain ⟨c, rest, rfl⟩ := List.exists_cons_of_ne_nil hne
    have hpos := @Filename.utf8Bytes_pos c
    rw [Filename.utf8Size_cons, List.length_nil] at hlength
    omega
  have hdrop : (encodedName name).drop 7 =
      (Utf8Prefix.bytes (chars name)).flatMap Filename.encodeByte := by
    rw [encodedName_eq]
    rfl
  rw [decodeRfc8187, hdrop, if_neg hraw, rawBytes_encode, Option.bind_some,
    textDecode_bytes h hmark, encodedName_eq, if_neg (not_not.mpr (List.prefix_append _ _))]

/-! ## Parts -/

/-- A text without quotes and separators stays in its part. -/
theorem splitFrom_plain (h : ∀ c ∈ t, c ≠ 34 ∧ c ≠ 59) :
    splitFrom (t ++ rest) parts buf false = splitFrom rest parts (buf ++ t) false := by
  induction t generalizing buf with
  | nil => rw [List.nil_append, List.append_nil]
  | cons c t ih =>
    obtain ⟨⟨hquote, hseparator⟩, ht⟩ := List.forall_mem_cons.mp h
    rw [List.cons_append, splitFrom, if_neg (by simp), if_neg hquote, if_neg (by simp [hseparator]),
      ih ht, List.append_assoc, List.singleton_append]

/-- So does what stands in quotes. -/
theorem splitFrom_quoted (h : ∀ c ∈ t, c ≠ 34 ∧ c ≠ 92) :
    splitFrom (t ++ rest) parts buf true = splitFrom rest parts (buf ++ t) true := by
  induction t generalizing buf with
  | nil => rw [List.nil_append, List.append_nil]
  | cons c t ih =>
    obtain ⟨⟨hquote, hescape⟩, ht⟩ := List.forall_mem_cons.mp h
    rw [List.cons_append, splitFrom, if_neg (by simp [hescape]), if_neg hquote, if_neg (by simp),
      ih ht, List.append_assoc, List.singleton_append]

theorem splitFrom_quote {q : Bool} :
    splitFrom (34 :: rest) parts buf q = splitFrom rest parts (buf ++ [34]) !q := by
  rw [splitFrom, if_neg (by simp), if_pos rfl]

theorem splitFrom_separator :
    splitFrom (59 :: rest) parts buf false = splitFrom rest (pushPart parts buf) [] false := by
  rw [splitFrom, if_neg (by simp), if_neg (by simp), if_pos (by simp)]

theorem pushPart_eq (h : trim buf = t) (hne : t ≠ []) : pushPart parts buf = parts ++ [t] := by
  rw [pushPart, h]
  exact if_pos hne

theorem trim_eq_self (hhead : ∀ c ∈ s.head?, isWhiteSpace c = false)
    (hlast : ∀ c ∈ s.getLast?, isWhiteSpace c = false) : trim s = s := by
  have hself : ∀ t : JsString, (∀ c ∈ t.head?, isWhiteSpace c = false) →
      t.dropWhile isWhiteSpace = t := by
    intro t ht
    cases t with
    | nil => rfl
    | cons c t => rw [List.dropWhile_cons, ht c rfl, if_neg Bool.false_ne_true]
  rw [trim, hself s hhead, hself, List.reverse_reverse]
  intro c hc
  apply hlast
  rwa [List.head?_reverse] at hc

theorem trim_blank : trim (32 :: s) = trim s := by
  have hblank : isWhiteSpace 32 = true := by decide
  rw [trim, trim, List.dropWhile_cons, if_pos hblank]

/-! ## The header -/

theorem encodeByte_chars (h : c ∈ Filename.encodeByte b) : 32 < c ∧ c < 127 ∧ c ≠ 34 ∧ c ≠ 59 := by
  have hdigit : ∀ n < 16, 48 ≤ Filename.upperHexDigit n ∧ Filename.upperHexDigit n ≤ 70 ∧
      Filename.upperHexDigit n ≠ 59 := by
    intro n hn
    rw [Filename.upperHexDigit]
    split_ifs <;> omega
  have hlt := b.toNat_lt
  rw [Filename.encodeByte] at h
  split at h
  · rename_i hattr
    obtain rfl := List.mem_singleton.mp h
    have hpunct : ∀ d ∈ codePoints "!#$&+-.^_`|~", 32 < d ∧ d < 127 ∧ d ≠ 34 ∧ d ≠ 59 := by decide
    simp only [Filename.isAttrChar, Bool.or_eq_true, Bool.and_eq_true, decide_eq_true_eq,
      List.contains_iff_mem] at hattr
    rcases hattr with ((hattr | hattr) | hattr) | hattr
    · omega
    · omega
    · omega
    · exact hpunct _ hattr
  · simp only [List.mem_cons, List.not_mem_nil, or_false] at h
    rcases h with rfl | rfl | rfl
    · decide
    · have hhigh := hdigit (b.toNat / 16) (by omega)
      omega
    · have hlow := hdigit (b.toNat % 16) (by omega)
      omega

theorem encodedName_chars : ∀ c ∈ encodedName name, 32 < c ∧ c < 127 ∧ c ≠ 34 ∧ c ≠ 59 := by
  have hmark : ∀ c ∈ Filename.extPrefix, 32 < c ∧ c < 127 ∧ c ≠ 34 ∧ c ≠ 59 := by decide
  intro c hc
  rw [encodedName_eq] at hc
  rcases List.mem_append.mp hc with hc | hc
  · exact hmark c hc
  · obtain ⟨b, -, hc⟩ := List.mem_flatMap.mp hc
    exact encodeByte_chars hc

theorem encodedName_ne_nil : encodedName name ≠ [] := by
  rw [encodedName_eq]
  exact List.cons_ne_nil _ _

theorem not_white (h : 32 < c ∧ c < 127) : isWhiteSpace c = false := by
  simp only [isWhiteSpace, Bool.or_eq_false_iff, Bool.and_eq_false_iff, beq_eq_false_iff_ne,
    decide_eq_false_iff_not]
  omega

theorem trim_visible (h : ∀ c ∈ s.head?, 32 < c ∧ c < 127) (h' : ∀ c ∈ s.getLast?, 32 < c ∧ c < 127) :
    trim s = s := trim_eq_self (fun c hc => not_white (h c hc)) fun c hc => not_white (h' c hc)

/-- The header of a name in two forms, the first one in quotes. -/
def headerText (asciiName encoded : Str) : Str :=
  codePoints "attachment" ++ 59 :: (codePoints " filename=" ++ 34 :: (asciiName ++
    34 :: 59 :: (codePoints " filename*=" ++ encoded)))

theorem headerText_eq : codePoints "attachment; filename=\"" ++ asciiName ++
    codePoints "\"; filename*=" ++ s = headerText asciiName s := by
  have hfront : codePoints "attachment; filename=\"" =
      codePoints "attachment" ++ 59 :: (codePoints " filename=" ++ [34]) := by decide
  have hmiddle : codePoints "\"; filename*=" = 34 :: 59 :: codePoints " filename*=" := by decide
  rw [hfront, hmiddle, headerText]
  simp only [List.append_assoc, List.cons_append, List.nil_append]

theorem asciiName_chars (hascii : Filename.isAsciiToken asciiName = true) :
    ∀ c ∈ asciiName, 32 ≤ c ∧ c ≤ 126 ∧ c ≠ 34 ∧ c ≠ 92 := by
  intro c hc
  rw [Filename.isAsciiToken, Bool.and_eq_true, List.all_eq_true] at hascii
  have htoken := hascii.2 c hc
  simp only [Bool.and_eq_true, Bool.not_eq_true', decide_eq_true_eq] at htoken
  refine ⟨htoken.1.1.2, htoken.1.2, ?_, ?_⟩
  · rintro rfl
    exact absurd htoken.2 (by decide)
  · rintro rfl
    exact absurd htoken.2 (by decide)

theorem trim_encoded : trim (codePoints " filename*=" ++ encodedName name) =
    codePoints "filename*=" ++ encodedName name := by
  have hblank : codePoints " filename*=" = 32 :: codePoints "filename*=" := by decide
  rw [hblank, List.cons_append, trim_blank, trim_visible]
  · intro c hc
    cases hc
    decide
  · intro c hc
    rw [List.getLast?_append_of_ne_nil _ encodedName_ne_nil] at hc
    obtain ⟨hlow, hhigh, -⟩ := encodedName_chars c (List.mem_of_getLast? hc)
    exact ⟨hlow, hhigh⟩

theorem trim_quoted : trim (codePoints " filename=" ++ 34 :: (asciiName ++ [34])) =
    codePoints "filename=" ++ 34 :: (asciiName ++ [34]) := by
  have hblank : codePoints " filename=" = 32 :: codePoints "filename=" := by decide
  rw [hblank, List.cons_append, trim_blank, trim_visible]
  · intro c hc
    cases hc
    decide
  · intro c hc
    rw [← List.cons_append, ← List.append_assoc, List.getLast?_concat] at hc
    cases hc
    decide

/-- The three parts of such a header. -/
theorem splitHeaderParts_headerText (hascii : Filename.isAsciiToken asciiName = true) :
    splitHeaderParts (headerText asciiName (encodedName name)) =
      some [codePoints "attachment", codePoints "filename=" ++ 34 :: (asciiName ++ [34]),
        codePoints "filename*=" ++ encodedName name] := by
  have hname := asciiName_chars hascii
  have hencoded := @encodedName_chars name
  have hbreaks : ¬ (headerText asciiName (encodedName name)).any [13, 10, 0].contains = true := by
    rw [List.any_eq_true]
    rintro ⟨c, hc, hbad⟩
    have hcontrol : ∀ d ∈ [13, 10, 0], d < 32 := by decide
    have hlt := hcontrol c (List.contains_iff_mem.mp hbad)
    have hfixed : ∀ c ∈ codePoints "attachment" ++ codePoints " filename=" ++
        codePoints " filename*=", 32 ≤ c := by decide
    rw [headerText] at hc
    simp only [List.mem_append, List.mem_cons] at hc hfixed
    rcases hc with hc | rfl | hc | rfl | hc | rfl | rfl | hc | hc
    · have hge := hfixed c (.inl (.inl hc))
      omega
    · omega
    · have hge := hfixed c (.inl (.inr hc))
      omega
    · omega
    · have hge := (hname c hc).1
      omega
    · omega
    · omega
    · have hge := hfixed c (.inr hc)
      omega
    · have hge := (hencoded c hc).1
      omega
  have hattachment : trim (codePoints "attachment") = codePoints "attachment" := by decide
  have hlast : ∀ c ∈ codePoints " filename*=" ++ encodedName name, c ≠ 34 ∧ c ≠ 59 := by
    have hfixed : ∀ c ∈ codePoints " filename*=", c ≠ 34 ∧ c ≠ 59 := by decide
    intro c hc
    rcases List.mem_append.mp hc with hc | hc
    · exact hfixed c hc
    · exact (hencoded c hc).2.2
  rw [splitHeaderParts, if_neg hbreaks, headerText, splitFrom_plain (by decide), List.nil_append,
    splitFrom_separator, pushPart_eq hattachment (by decide), splitFrom_plain (by decide),
    splitFrom_quote, Bool.not_false, splitFrom_quoted fun c hc => (hname c hc).2.2,
    splitFrom_quote, Bool.not_true, splitFrom_separator]
  have hquoted : trim ([] ++ codePoints " filename=" ++ [34] ++ asciiName ++ [34]) =
      codePoints "filename=" ++ 34 :: (asciiName ++ [34]) := by
    rw [List.nil_append, List.append_assoc, List.append_assoc]
    exact trim_quoted
  have hend : ∀ parts, splitFrom (codePoints " filename*=" ++ encodedName name) parts [] false =
      some (pushPart parts (codePoints " filename*=" ++ encodedName name)) := by
    intro parts
    have hplain := @splitFrom_plain _ [] [] parts hlast
    rw [List.append_nil] at hplain
    rw [hplain]
    rfl
  have hnonempty : codePoints "filename*=" ++ encodedName name ≠ [] := List.cons_ne_nil _ _
  rw [pushPart_eq hquoted (List.cons_ne_nil _ _), hend, pushPart_eq trim_encoded hnonempty]
  rfl

theorem quotedName_eq (hascii : Filename.isAsciiToken asciiName = true) :
    quotedName (34 :: (asciiName ++ [34])) = some asciiName := by
  have hname := asciiName_chars hascii
  have hlast : (34 :: (asciiName ++ [34])).getLast? = some 34 := by
    rw [← List.cons_append, List.getLast?_concat]
  have hmiddle : ((34 :: (asciiName ++ [34])).drop 1).dropLast = asciiName := by
    rw [List.drop_one, List.tail_cons, List.dropLast_concat]
  have hgood : ¬ (asciiName.any [13, 10, 0, 34, 92].contains ∨
      ¬ asciiName.all fun u => 32 ≤ u && u ≤ 126) := by
    rw [not_or, not_not, List.any_eq_true, List.all_eq_true]
    constructor
    · rintro ⟨c, hc, hbad⟩
      obtain ⟨hlow, -, hquote, hescape⟩ := hname c hc
      have hcases : ∀ d ∈ [13, 10, 0, 34, 92], d < 32 ∨ d = 34 ∨ d = 92 := by decide
      have hcase := hcases c (List.contains_iff_mem.mp hbad)
      omega
    · intro c hc
      obtain ⟨hlow, hhigh, -⟩ := hname c hc
      rw [Bool.and_eq_true, decide_eq_true_eq, decide_eq_true_eq]
      exact ⟨hlow, hhigh⟩
  rw [quotedName, if_neg, hmiddle, if_neg hgood]
  rintro (hhead | hend | hshort)
  · exact hhead rfl
  · exact hend hlast
  · rw [List.length_cons, List.length_append, List.length_singleton] at hshort
    omega

theorem readParts_eq (hascii : Filename.isAsciiToken asciiName = true) :
    readParts [codePoints "filename=" ++ 34 :: (asciiName ++ [34]),
      codePoints "filename*=" ++ encodedName name] none none = some (encodedName name) := by
  have hsplit : ∀ rest, Text.splitOnce 61 (codePoints "filename=" ++ rest) =
      some (codePoints "filename", rest) := fun _ => rfl
  have hsplit' : ∀ rest, Text.splitOnce 61 (codePoints "filename*=" ++ rest) =
      some (codePoints "filename*", rest) := fun _ => rfl
  have hkey : Text.lower (trim (codePoints "filename")) = codePoints "filename" := by decide
  have hkey' : Text.lower (trim (codePoints "filename*")) = codePoints "filename*" := by decide
  have htrim : trim (34 :: (asciiName ++ [34])) = 34 :: (asciiName ++ [34]) := by
    apply trim_visible
    · intro c hc
      cases hc
      decide
    · intro c hc
      rw [← List.cons_append, List.getLast?_concat] at hc
      cases hc
      decide
  have htrim' : trim (encodedName name) = encodedName name := by
    apply trim_visible
    · intro c hc
      obtain ⟨hlow, hhigh, -⟩ := encodedName_chars c (List.mem_of_mem_head? hc)
      exact ⟨hlow, hhigh⟩
    · intro c hc
      obtain ⟨hlow, hhigh, -⟩ := encodedName_chars c (List.mem_of_getLast? hc)
      exact ⟨hlow, hhigh⟩
  have hne : codePoints "filename" ≠ [] := by decide
  have hne' : codePoints "filename*" ≠ [] := by decide
  have hother : codePoints "filename*" ≠ codePoints "filename" := by decide
  rw [readParts, hsplit]
  simp only [hkey, htrim, if_neg hne, if_true, ne_eq, not_true_eq_false, if_false,
    quotedName_eq hascii, Option.bind_some]
  rw [readParts, hsplit']
  simp only [hkey', htrim', if_neg hne', if_neg hother, if_true, ne_eq, not_true_eq_false, if_false]
  rfl

/-- The name of a header is what it was built for. -/
theorem parse_headerText (hascii : Filename.isAsciiToken asciiName = true) (h : Scalars name)
    (hne : name ≠ []) (hmark : ∀ c ∈ name.head?, c ≠ 0xFEFF) :
    parseContentDispositionFilename (some (headerText asciiName (encodedName name)))
      (Utf16.encode name) = some (Utf16.encode name) := by
  have htrim : trim (headerText asciiName (encodedName name)) =
      headerText asciiName (encodedName name) := by
    apply trim_visible
    · intro c hc
      cases hc
      decide
    · intro c hc
      have hlast : (headerText asciiName (encodedName name)).getLast? =
          (encodedName name).getLast? := by
        rw [headerText]
        simp only [← List.cons_append, ← List.append_assoc]
        exact List.getLast?_append_of_ne_nil _ encodedName_ne_nil
      rw [hlast] at hc
      obtain ⟨hlow, hhigh, -⟩ := encodedName_chars c (List.mem_of_getLast? hc)
      exact ⟨hlow, hhigh⟩
  have hkind : ¬ Text.lower (codePoints "attachment") ≠ codePoints "attachment" := by decide
  rw [parseContentDispositionFilename]
  · rw [htrim, splitHeaderParts_headerText hascii]
    simp only [if_neg hkind, readParts_eq hascii, Option.bind_some,
      decodeRfc8187_encodedName h hne hmark, ne_eq, not_true_eq_false, if_false]
  · intro hnil
    cases hnil

/-! ## Accepted names -/

/-- A name that is accepted has no line breaks, and does not start with a mark. -/
theorem accepted_spec (hs : Scalars name) (hext : ext ∈ Filename.allowedContainers)
    (h : isSafeSuggestedFilename data (Utf16.encode name) ext = true) :
    name ≠ [] ∧ ¬ name.any [13, 10, 0].contains = true ∧ ∀ c ∈ name.head?, c ≠ 0xFEFF := by
  have hlow : ∀ c ∈ Filename.dot :: ext, c < 0xD800 :=
    List.forall_mem_cons.mpr ⟨by decide, fun c hc => (extension_spec hext c hc).2.2⟩
  have hsuffix : 46 :: ext <:+ Utf16.encode name ↔ Filename.dot :: ext <:+ name :=
    Utf16.suffix_encode hs hlow
  rw [isSafeSuggestedFilename] at h
  split at h
  · cases h
  have hforbidden := forbidden_eq hs
  rw [Utf16.decode_encode hs] at hforbidden
  simp only [hsuffix, Utf16.decode_encode hs, hforbidden, List.length_cons] at h
  split at h
  · cases h
  rename_i hname
  split at h
  · cases h
  split at h
  · cases h
  split at h
  · cases h
  rename_i hbad
  obtain ⟨stem, rfl⟩ := not_not.mp hname
  have hstem : (stem ++ Filename.dot :: ext).take
      ((stem ++ Filename.dot :: ext).length - (ext.length + 1)) = stem := by
    rw [List.length_append, List.length_cons, Nat.add_sub_cancel, List.take_left]
  rw [hstem] at h
  refine ⟨by simp, ?_, ?_⟩
  · rw [List.any_eq_true]
    rintro ⟨c, hc, hbreak⟩
    apply hbad
    rw [List.any_eq_true]
    refine ⟨c, hc, ?_⟩
    have hcases : ∀ d ∈ [13, 10, 0],
        (Filename.forbidden.contains d || decide (d = 13) || decide (d = 10)) = true := by decide
    exact hcases c (List.contains_iff_mem.mp hbreak)
  · intro c hc
    cases stem with
    | nil =>
      cases hc
      decide
    | cons d stem =>
      cases hc
      have hscalars : Scalars (c :: stem) := hs.subset (List.subset_append_left _ _)
      split at h
      · rw [uuidFallback_eq hext (List.suffix_append _ _)] at h
        have hascii := Filename.ascii_of_matchesUuidFallback h c List.mem_cons_self
        omega
      · rename_i hsame
        have hkept := (unchanged_iff hscalars).mp (not_not.mp hsame)
        have hclean := (Filename.sanitized_of_eq_some hkept.symm).1.clean
        exact head_ne_mark hclean c rfl

/-- The header of an accepted name is built, and read back as the name. -/
theorem header_round_trip (hs : Scalars name) (hext : ext ∈ Filename.allowedContainers)
    (h : isSafeSuggestedFilename data (Utf16.encode name) ext = true) (id : Filename.JobUuid) :
    ∃ header, Filename.contentDispositionHeader name (Filename.fallbackName id ext) = .ok header ∧
      parseContentDispositionFilename (some (Utf16.encode header)) (Utf16.encode name) =
        some (Utf16.encode name) := by
  obtain ⟨hne, hbreaks, hmark⟩ := accepted_spec hs hext h
  have hscalar : name.all Filename.isScalar = true :=
    List.all_eq_true.mpr fun c hc => scalar_iff.mpr (hs c hc)
  obtain ⟨asciiName, hascii, hheader⟩ := Filename.contentDispositionHeader_eq hscalar hbreaks
    (@Filename.isAsciiToken_fallbackName _ id hext)
  refine ⟨_, hheader, ?_⟩
  have htext := @headerText_eq (encodedName name) asciiName
  rw [encodedName] at htext
  have hself : Utf16.encode (headerText asciiName (encodedName name)) =
      headerText asciiName (encodedName name) := by
    apply Utf16.encode_low
    have hfixed : ∀ c ∈ codePoints "attachment" ++ codePoints " filename=" ++
        codePoints " filename*=", c < 0x10000 := by decide
    intro c hc
    rw [headerText] at hc
    simp only [List.mem_append, List.mem_cons] at hc hfixed
    rcases hc with hc | rfl | hc | rfl | hc | rfl | rfl | hc | hc
    · exact hfixed c (.inl (.inl hc))
    · omega
    · exact hfixed c (.inl (.inr hc))
    · omega
    · have hge := (asciiName_chars hascii c hc).2.1
      omega
    · omega
    · omega
    · exact hfixed c (.inr hc)
    · have hge := (encodedName_chars c hc).2.1
      omega
  rw [htext]
  show parseContentDispositionFilename
    (some (Utf16.encode (headerText asciiName (encodedName name)))) _ = _
  rw [hself]
  exact parse_headerText hascii hs hne hmark

/-- The rules for filenames agree: the stems of all titles, the check of all names, and the header
of those that are accepted. -/
theorem filename_rules_agree (data : SharedUnicode) :
    (∀ raw, Scalars raw → sanitizeFilenameStem data (some (Utf16.encode raw)) =
      (Filename.sanitizeStem data.toUnicodeData (some raw)).map Utf16.encode) ∧
    (∀ name ext, Scalars name → ext ∈ Filename.allowedContainers →
      Filename.isSafeSuggestedFilename data.toUnicodeData name ext =
        .ok (isSafeSuggestedFilename data (Utf16.encode name) ext)) ∧
    (∀ name ext id, Scalars name → ext ∈ Filename.allowedContainers →
      Filename.isSafeSuggestedFilename data.toUnicodeData name ext = .ok true →
        ∃ fallback header, Filename.fallbackFilename id ext = .ok fallback ∧
          Filename.contentDispositionHeader name fallback = .ok header ∧
          parseContentDispositionFilename (some (Utf16.encode header)) (Utf16.encode name) =
            some (Utf16.encode name)) := by
  refine ⟨fun raw hraw => sanitizeFilenameStem_eq hraw,
    fun name ext hs hext => isSafeSuggestedFilename_eq hs hext, ?_⟩
  intro name ext id hs hext hsafe
  rw [isSafeSuggestedFilename_eq hs hext] at hsafe
  obtain ⟨header, hheader, hparsed⟩ := header_round_trip hs hext (Except.ok.inj hsafe) id
  exact ⟨_, header, Filename.fallbackFilename_eq hext, hheader, hparsed⟩

/-- Tables for text in ASCII with acute accents, and the two kinds of marks. -/
def acuteTables : SharedUnicode where
  nfc := Filename.acuteData.nfc
  isOther c := Filename.acuteData.isOther c || c == 0xFEFF
  upper := Filename.acuteData.upper
  other_control c hc := by rw [Filename.acuteData.other_control c hc, Bool.true_or]
  other_not_scalar c hc := by rw [Filename.acuteData.other_not_scalar c hc, Bool.true_or]
  other_printable c hlow hhigh := by
    rw [Filename.acuteData.other_printable c hlow hhigh, Bool.false_or, beq_eq_false_iff_ne]
    omega
  nfc_nfc := Filename.acuteData.nfc_nfc
  nfc_infix := Filename.acuteData.nfc_infix
  nfc_ascii := Filename.acuteData.nfc_ascii
  nfc_clean s hs c hc := by
    rcases Filename.mem_composeAcute hc with hmem | rfl
    · exact hs c hmem
    · decide
  nfc_blank := Filename.acuteData.nfc_blank
  nfc_dot := Filename.acuteData.nfc_dot
  other_mark := by decide
  nfc_scalar s hs c hc := by
    rcases Filename.mem_composeAcute hc with hmem | rfl
    · exact hs c hmem
    · exact .inl (by omega)

/-- An astral character, and more than a stem may hold. -/
def clapperTitle : Str := 0x20 :: 0x1F3AC :: List.replicate 90 0x61

def clapperName : Str := 0x1F3AC :: List.replicate 79 0x61 ++ codePoints ".mp4"

theorem filename_rules_clapper :
    sanitizeFilenameStem acuteTables (some (Utf16.encode clapperTitle)) =
      some (Utf16.encode (0x1F3AC :: List.replicate 79 0x61)) ∧
    Filename.isSafeSuggestedFilename acuteTables.toUnicodeData clapperName (codePoints "mp4") =
      .ok (isSafeSuggestedFilename acuteTables (Utf16.encode clapperName) (codePoints "mp4")) ∧
    ∃ fallback header, Filename.fallbackFilename Filename.someJob (codePoints "mp4") = .ok fallback ∧
      Filename.contentDispositionHeader clapperName fallback = .ok header ∧
      parseContentDispositionFilename (some (Utf16.encode header)) (Utf16.encode clapperName) =
        some (Utf16.encode clapperName) := by
  have hscalars (s : Str) (h : s.all Filename.isScalar = true) : Scalars s :=
    fun c hc => scalar_iff.mp (List.all_eq_true.mp h c hc)
  have hname : Scalars clapperName := hscalars _ (by decide)
  have hstem : Filename.sanitizeStem acuteTables.toUnicodeData (some clapperTitle) =
      some (0x1F3AC :: List.replicate 79 0x61) := by decide +kernel
  obtain ⟨hstems, hchecks, hheaders⟩ := filename_rules_agree acuteTables
  refine ⟨?_, hchecks _ _ hname (by decide),
    hheaders _ _ _ hname (by decide) (by decide +kernel)⟩
  rw [hstems _ (hscalars _ (by decide)), hstem]
  rfl

end FetchNow.WebFilename
