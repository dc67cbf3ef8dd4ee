import FetchNow.Downloads.SanitizedStems

/-!
# Which suggested filenames pass their own check

A stem is checked by sanitizing it again; whether it comes out unchanged depends on the title.
-/
namespace FetchNow

open Text Transactions Separators

namespace Filename

variable {data : UnicodeData} {s t raw stem ext : Str} {c : ℕ}

/-! ## Names -/

section Names

variable {container name : Str} {id : JobUuid} {title : Option Str} {kind : MediaKind}

/-- The characters of containers and of fallback names. -/
def isNameChar (c : ℕ) : Bool := isAsciiDigit c || 97 ≤ c && c ≤ 122 || c = 45 || c = dot

theorem isNameChar_bounds (h : isNameChar c = true) :
    48 ≤ c ∧ c ≤ 57 ∨ 97 ≤ c ∧ c ≤ 122 ∨ c = 45 ∨ c = 46 := by
  simp only [isNameChar, isAsciiDigit, Bool.or_eq_true, Bool.and_eq_true, decide_eq_true_eq] at h
  have hdot : dot = 46 := rfl
  omega

theorem isNameChar_spec (h : isNameChar c = true) :
    32 ≤ c ∧ c < 127 ∧ c ∉ forbidden ∧ (codePoints "\"\\\r\n").contains c = false := by
  have hbounds := isNameChar_bounds h
  have hbad : ∀ d ∈ forbidden ++ codePoints "\"\\\r\n", isNameChar d = false := by decide
  refine ⟨by omega, by omega, ?_, ?_⟩
  · intro hmem
    rw [hbad c (List.mem_append_left _ hmem)] at h
    cases h
  · rw [← Bool.not_eq_true, List.contains_iff_mem]
    intro hmem
    rw [hbad c (List.mem_append_right _ hmem)] at h
    cases h

theorem container_spec (h : ext ∈ allowedContainers) :
    2 ≤ ext.length ∧ ext.length ≤ 4 ∧ ext.all isNameChar = true ∧ dot ∉ ext ∧
      validatedContainer ext = .ok ext := by
  have hall : ∀ ext ∈ allowedContainers, 2 ≤ ext.length ∧ ext.length ≤ 4 ∧
      ext.all isNameChar = true ∧ dot ∉ ext ∧
      (lower (stripped ext) = ext ∧ matchesContainer ext = true) := by decide +kernel
  obtain ⟨hlong, hshort, hchars, hdot, hlower, hmatches⟩ := hall ext h
  refine ⟨hlong, hshort, hchars, hdot, ?_⟩
  simp only [validatedContainer, hlower, require_true (⟨hmatches, h⟩ : _ ∧ _), ok_bind]
  rfl

theorem validatedContainer_eq_ok (h : validatedContainer container = .ok ext) :
    ext ∈ allowedContainers := by
  obtain ⟨_, hallowed, h⟩ := bind_eq_ok.mp h
  cases h
  exact (require_eq_ok.mp hallowed).2

def fallbackName (id : JobUuid) (ext : Str) : Str := codePoints "fetchnow-" ++ id.text ++ dot :: ext

theorem fallbackFilename_eq (h : ext ∈ allowedContainers) :
    fallbackFilename id ext = .ok (fallbackName id ext) := by
  rw [fallbackFilename, (container_spec h).2.2.2.2]
  rfl

theorem lowerHexDigit_spec {d : ℕ} (h : d < 16) :
    isNameChar (lowerHexDigit d) = true ∧ isHexDigit (lowerHexDigit d) = true := by
  interval_cases d <;> decide

theorem hex_spec (id : JobUuid) : ∀ c ∈ id.digits.map lowerHexDigit,
    isNameChar c = true ∧ isHexDigit c = true := by
  intro c hc
  obtain ⟨d, hd, rfl⟩ := List.mem_map.mp hc
  exact lowerHexDigit_spec (id.hex d hd)

theorem fallbackName_chars (h : ext ∈ allowedContainers) :
    (fallbackName id ext).all isNameChar = true := by
  have hhex : ∀ s, s ⊆ id.digits.map lowerHexDigit → s.all isNameChar = true := by
    intro s hs
    rw [List.all_eq_true]
    exact fun c hc => (hex_spec id c (hs hc)).1
  have htake : ∀ m n, (((id.digits.map lowerHexDigit).drop m).take n).all isNameChar = true :=
    fun m n => hhex _ (List.Subset.trans (List.take_subset _ _) (List.drop_subset _ _))
  have hname : (codePoints "fetchnow-").all isNameChar = true := by decide
  have hdash : isNameChar (codePoint '-') = true := by decide
  have hdot : isNameChar dot = true := by decide
  have hlast := hhex _ (List.drop_subset 20 (id.digits.map lowerHexDigit))
  have hfirst := hhex _ (List.take_subset 8 (id.digits.map lowerHexDigit))
  simp only [fallbackName, JobUuid.text, List.all_append, List.all_cons, hname, hdash, hdot, hlast,
    hfirst, htake, (container_spec h).2.2.1, Bool.and_self]

theorem fallbackName_length (h : ext ∈ allowedContainers) :
    (fallbackName id ext).length ≤ 50 := by
  have hext := (container_spec h).2.1
  simp only [fallbackName, JobUuid.text, codePoints, List.length_append, List.length_cons,
    List.length_take, List.length_drop, List.length_map, id.length, String.length_toList]
  have hname : "fetchnow-".length = 9 := rfl
  omega

theorem isScalar_of_lt (h : c < 127) : isScalar c = true := by
  simp only [isScalar, Bool.or_eq_true, decide_eq_true_eq]
  omega

theorem utf8Bytes_of_lt (h : c < 127) : utf8Bytes c = 1 := if_pos (by omega)

theorem utf8Bytes_pos : 1 ≤ utf8Bytes c := by
  rw [utf8Bytes]
  split_ifs <;> omega

theorem utf8Size_of_lt (h : ∀ c ∈ s, c < 127) : utf8Size s = s.length := by
  induction s with
  | nil => rfl
  | cons c s ih =>
    obtain ⟨hc, hs⟩ := List.forall_mem_cons.mp h
    rw [utf8Size_cons, utf8Bytes_of_lt hc, ih hs, List.length_cons, Nat.add_comm]

theorem filenameBoundsOk_eq (hne : name ≠ []) (hchars : name.length ≤ maxFilenameChars)
    (hscalar : name.all isScalar = true) (hbytes : utf8Size name ≤ maxFilenameUtf8Bytes) :
    filenameBoundsOk name = .ok true := by
  have hpos : 1 ≤ utf8Size name := by
    obtain ⟨c, rest, rfl⟩ := List.exists_cons_of_ne_nil hne
    have hc := utf8Bytes_pos (c := c)
    rw [utf8Size_cons]
    omega
  rw [filenameBoundsOk, if_neg (by simp [hne]; omega), require_true hscalar]
  simp [hpos, hbytes]

/-- What holds of every name that is suggested. -/
structure Suggested (name ext : Str) : Prop where
  suffix : dot :: ext <:+ name
  chars : ∀ c ∈ name, isScalar c = true ∧ c ∉ forbidden ∧ 32 ≤ c
  length : name.length ≤ 85
  bytes : utf8Size name ≤ 185

namespace Suggested

variable (h : Suggested name ext)
include h

theorem ne_nil : name ≠ [] := by
  rintro rfl
  have hlen := h.suffix.length_le
  simp at hlen

theorem bounds : filenameBoundsOk name = .ok true := by
  have hlen := h.length
  have hbytes := h.bytes
  apply filenameBoundsOk_eq h.ne_nil
  · exact hlen.trans (by decide)
  · exact List.all_eq_true.mpr fun c hc => (h.chars c hc).1
  · exact hbytes.trans (by decide)

theorem check : CheckSuggestedFilename name := by
  have hmem : ∀ c ∈ forbidden, c ∉ name := fun c hc hname => (h.chars c hname).2.1 hc
  have hcontrol : ∀ c < 32, c ∉ name := by
    intro c hc hname
    have hlow := (h.chars c hname).2.2
    omega
  have hlen := h.length
  refine ⟨List.length_pos_of_ne_nil h.ne_nil, by omega, hmem _ (by decide), hmem _ (by decide),
    hcontrol _ (by decide), hcontrol _ (by decide)⟩

/-- The check of a stored name comes down to its stem. -/
theorem isSafe_iff (hcontainer : validatedContainer container = .ok ext)
    (hname : name = stem ++ dot :: ext) :
    isSafeSuggestedFilename data name container = .ok true ↔
      sanitizeStem data (some stem) = some stem ∨ matchesUuidFallback name = true := by
  have hbad : ¬ (name.any fun c => forbidden.contains c || c = 13 || c = 10) = true := by
    rw [List.any_eq_true]
    rintro ⟨c, hc, hbad⟩
    obtain ⟨-, hforbidden, hlow⟩ := h.chars c hc
    simp only [Bool.or_eq_true, List.contains_iff_mem, decide_eq_true_eq] at hbad
    rcases hbad with (hbad | rfl) | rfl
    · exact hforbidden hbad
    · omega
    · omega
  have hstem : name.take (name.length - (ext.length + 1)) = stem := by
    rw [hname]
    simp
  rw [isSafeSuggestedFilename, hcontainer, ok_bind, if_neg (not_not.mpr h.suffix), h.bounds,
    ok_bind, if_neg (by simp), if_neg hbad, hstem]
  by_cases hsame : sanitizeStem data (some stem) = some stem
  · rw [if_neg (not_not.mpr hsame.symm)]
    exact iff_of_true rfl (Or.inl hsame)
  · rw [if_pos (Ne.symm hsame)]
    constructor
    · exact fun hmatch => Or.inr (Except.ok.inj hmatch)
    · rintro (hstem | hmatch)
      · exact (hsame hstem).elim
      · exact congrArg Except.ok hmatch

end Suggested

theorem suggested_fallback (h : ext ∈ allowedContainers) : Suggested (fallbackName id ext) ext := by
  have hchars : ∀ c ∈ fallbackName id ext, isNameChar c = true :=
    List.all_eq_true.mp (fallbackName_chars h)
  have hlt : ∀ c ∈ fallbackName id ext, c < 127 := fun c hc => (isNameChar_spec (hchars c hc)).2.1
  have hlen := @fallbackName_length _ id h
  refine ⟨List.suffix_append _ _, ?_, by omega, ?_⟩
  · intro c hc
    obtain ⟨hlow, hhigh, hforbidden, -⟩ := isNameChar_spec (hchars c hc)
    exact ⟨isScalar_of_lt hhigh, hforbidden, hlow⟩
  · rw [utf8Size_of_lt hlt]
    omega

theorem Clean.char (h : Clean data.isOther s) (hc : c ∈ s) :
    isScalar c = true ∧ c ∉ forbidden ∧ 32 ≤ c := by
  obtain ⟨-, hforbidden, hother, -⟩ := cleanPoint_eq_some (h c hc)
  refine ⟨?_, hforbidden, ?_⟩
  · by_contra hscalar
    rw [data.other_not_scalar c (by simpa using hscalar)] at hother
    cases hother
  · by_contra hlow
    rw [data.other_control c (Or.inl (by omega))] at hother
    cases hother

theorem suggested_stem (h : Sanitized data stem) (hext : ext ∈ allowedContainers) :
    Suggested (stem ++ dot :: ext) ext := by
  obtain ⟨-, hshort, hall, -, -⟩ := container_spec hext
  have hextChars : ∀ c ∈ dot :: ext, isNameChar c = true :=
    List.forall_mem_cons.mpr ⟨by decide, List.all_eq_true.mp hall⟩
  have hsize : utf8Size (dot :: ext) = (dot :: ext).length :=
    utf8Size_of_lt fun c hc => (isNameChar_spec (hextChars c hc)).2.1
  have hchars := h.chars
  have hbytes := h.bytes
  have hmaxChars : maxStemChars = 80 := rfl
  have hmaxBytes : maxStemUtf8Bytes = 180 := rfl
  refine ⟨List.suffix_append _ _, ?_, ?_, ?_⟩
  · intro c hc
    rcases List.mem_append.mp hc with hc | hc
    · exact h.clean.char hc
    · obtain ⟨hlow, hhigh, hforbidden, -⟩ := isNameChar_spec (hextChars c hc)
      exact ⟨isScalar_of_lt hhigh, hforbidden, hlow⟩
  · rw [List.length_append, List.length_cons]
    omega
  · rw [utf8Size_append, hsize, List.length_cons]
    omega

/-! ## The fallback pattern -/

theorem matchEach_append {ps qs : List (ℕ → Bool)} (h : List.Forall₂ (fun p c => p c = true) ps s) :
    matchEach (ps ++ qs) (s ++ t) = matchEach qs t := by
  induction h with
  | nil => rfl
  | cons hp _ ih => rw [List.cons_append, List.cons_append, matchEach, if_pos hp, ih]

theorem exists_of_matchEach {ps : List (ℕ → Bool)} (h : matchEach ps s = some t) :
    ∃ u, s = u ++ t ∧ ∀ c ∈ u, ∃ p ∈ ps, p c = true := by
  induction ps generalizing s with
  | nil =>
    cases h
    exact ⟨[], rfl, by simp⟩
  | cons p ps ih =>
    cases s with
    | nil => cases h
    | cons c s =>
      rw [matchEach] at h
      split at h
      · rename_i hp
        obtain ⟨u, rfl, hu⟩ := ih h
        refine ⟨c :: u, rfl, List.forall_mem_cons.mpr ⟨⟨p, List.mem_cons_self, hp⟩, ?_⟩⟩
        intro d hd
        obtain ⟨q, hq, hqd⟩ := hu d hd
        exact ⟨q, List.mem_cons_of_mem _ hq, hqd⟩
      · cases h

theorem forall₂_replicate {p : ℕ → Bool} {n : ℕ} (hlen : s.length = n)
    (h : ∀ c ∈ s, p c = true) : List.Forall₂ (fun p c => p c = true) (List.replicate n p) s := by
  subst hlen
  induction s with
  | nil => exact .nil
  | cons c s ih =>
    obtain ⟨hc, hs⟩ := List.forall_mem_cons.mp h
    exact .cons hc (ih hs)

theorem uuidFallback_matches :
    List.Forall₂ (fun p c => p c = true) uuidFallbackTests
      (codePoints "fetchnow-" ++ id.text ++ [dot]) := by
  have hlen : (id.digits.map lowerHexDigit).length = 32 := by rw [List.length_map, id.length]
  have hpart : ∀ m n, m + n ≤ 32 → List.Forall₂ (fun p c => p c = true)
      (List.replicate n isHexDigit) (((id.digits.map lowerHexDigit).drop m).take n) := by
    intro m n hmn
    apply forall₂_replicate
    · rw [List.length_take, List.length_drop, hlen]
      omega
    · exact fun c hc => (hex_spec id c (List.drop_subset _ _ (List.take_subset _ _ hc))).2
  have hlast := hpart 20 12 (by omega)
  rw [List.take_of_length_le (by rw [List.length_drop, hlen])] at hlast
  have hname : List.Forall₂ (fun p c => p c = true) ((codePoints "fetchnow-").map isCaseless)
      (codePoints "fetchnow-") := by
    rw [List.forall₂_map_left_iff, List.forall₂_same]
    decide
  have hdash : isCaseless 45 (codePoint '-') = true := by decide
  simp only [uuidFallbackTests, JobUuid.text, List.append_assoc, List.cons_append]
  exact List.rel_append hname (List.rel_append (hpart 0 8 (by omega)) (.cons hdash
    (List.rel_append (hpart 8 4 (by omega)) (.cons hdash (List.rel_append (hpart 12 4 (by omega))
      (.cons hdash (List.rel_append (hpart 16 4 (by omega)) (.cons hdash
        (List.rel_append hlast (.cons (by decide) .nil))))))))))

theorem matchesUuidFallback_fallbackName (h : ext ∈ allowedContainers) :
    matchesUuidFallback (fallbackName id ext) = true := by
  have hmatch : matchEach uuidFallbackTests (fallbackName id ext) = some ext := by
    have happend := @matchEach_append _ ext _ [] (@uuidFallback_matches id)
    simpa [fallbackName, matchEach] using happend
  obtain ⟨hlong, hshort, hall, -, -⟩ := container_spec h
  have hchars : ∀ ext ∈ allowedContainers, ext.all isExtensionChar = true := by decide
  simp only [matchesUuidFallback, hmatch, Option.any_some, hchars ext h, Bool.and_true,
    Bool.and_eq_true, decide_eq_true_eq]
  omega

theorem ascii_of_test {p : ℕ → Bool} (hp : p ∈ uuidFallbackTests) (hc : p c = true) : c < 128 := by
  have hletter : ∀ letter < 128, isCaseless letter c = true → c < 128 := by
    intro letter hletter h
    simp only [isCaseless, Bool.or_eq_true, Bool.and_eq_true, decide_eq_true_eq] at h
    omega
  have hhex : isHexDigit c = true → c < 128 := by
    intro h
    simp only [isHexDigit, isAsciiDigit, Bool.or_eq_true, Bool.and_eq_true, decide_eq_true_eq] at h
    omega
  simp only [uuidFallbackTests, List.mem_append, List.mem_cons, List.mem_map, List.mem_replicate,
    List.not_mem_nil, or_false] at hp
  rcases hp with (((((⟨letter, hmem, rfl⟩ | ⟨-, rfl⟩) | rfl | ⟨-, rfl⟩) | rfl | ⟨-, rfl⟩) |
    rfl | ⟨-, rfl⟩) | rfl | ⟨-, rfl⟩) | rfl
  · have hall : ∀ letter ∈ codePoints "fetchnow-", letter < 128 := by decide
    exact hletter letter (hall letter hmem) hc
  all_goals first
    | exact hhex hc
    | exact hletter _ (by decide) hc

/-- Whatever has the form of a fallback name is in ASCII up to its extension. -/
theorem ascii_of_matchesUuidFallback (h : matchesUuidFallback (stem ++ dot :: ext) = true) :
    ∀ c ∈ stem, c < 128 := by
  obtain ⟨rest, hrest, hchars⟩ := (Option.any_eq_true _ _).mp h
  obtain ⟨u, hu, htests⟩ := exists_of_matchEach hrest
  have hascii : ∀ c ∈ u, c < 128 := by
    intro c hc
    obtain ⟨p, hp, hpc⟩ := htests c hc
    exact ascii_of_test hp hpc
  rcases List.append_eq_append_iff.mp hu with ⟨a, rfl, -⟩ | ⟨a, -, rfl⟩
  · exact fun c hc => hascii c (List.mem_append_left _ hc)
  · -- an extension has no full stop
    have hdot : isExtensionChar dot = true := by
      simp only [Bool.and_eq_true, List.all_eq_true] at hchars
      exact hchars.2 dot (by simp)
    exact absurd hdot (by decide)

/-! ## The header -/

theorem encodeByte_low {b : UInt8} (hc : c ∈ encodeByte b) : 32 ≤ c := by
  have hdigit : ∀ n, 32 ≤ upperHexDigit n := by
    intro n
    rw [upperHexDigit]
    split_ifs <;> omega
  rw [encodeByte] at hc
  split at hc
  · rename_i hattr
    rw [List.mem_singleton] at hc
    subst hc
    have hpunct : ∀ d ∈ codePoints "!#$&+-.^_`|~", 32 ≤ d := by decide
    simp only [isAttrChar, Bool.or_eq_true, Bool.and_eq_true, decide_eq_true_eq,
      List.contains_iff_mem] at hattr
    rcases hattr with ((hattr | hattr) | hattr) | hattr
    · omega
    · omega
    · omega
    · exact hpunct _ hattr
  · simp only [List.mem_cons, List.not_mem_nil, or_false] at hc
    rcases hc with rfl | rfl | rfl
    · decide
    · exact hdigit _
    · exact hdigit _

theorem encodeRfc8187_low {value : String} : ∀ c ∈ encodeRfc8187 value, 32 ≤ c := by
  have hmark : ∀ c ∈ extPrefix, 32 ≤ c := by decide
  intro c hc
  rcases List.mem_append.mp hc with hc | hc
  · exact hmark c hc
  · obtain ⟨b, -, hc⟩ := List.mem_flatMap.mp hc
    exact encodeByte_low hc

theorem asciiFilenameParameter_spec {fallback : Str} (h : isAsciiToken fallback = true) :
    ∃ asciiName, asciiFilenameParameter name fallback = .ok asciiName ∧
      isAsciiToken asciiName = true := by
  by_cases hname : isAsciiToken name = true
  · exact ⟨name, if_pos hname, hname⟩
  · refine ⟨fallback, ?_, h⟩
    rw [asciiFilenameParameter, if_neg hname, require_true h]
    rfl

theorem isAsciiToken_spec (h : isAsciiToken name = true) :
    ∀ c ∈ name, 32 ≤ c ∧ (codePoints "\"\\\r\n").contains c = false := by
  rw [isAsciiToken, Bool.and_eq_true, List.all_eq_true] at h
  intro c hc
  have htoken := h.2 c hc
  simp only [Bool.and_eq_true, Bool.not_eq_true', decide_eq_true_eq] at htoken
  exact ⟨htoken.1.1.2, htoken.2⟩

theorem isAsciiToken_fallbackName (h : ext ∈ allowedContainers) :
    isAsciiToken (fallbackName id ext) = true := by
  have hchars : ∀ c ∈ fallbackName id ext, isNameChar c = true :=
    List.all_eq_true.mp (fallbackName_chars h)
  have hne : fallbackName id ext ≠ [] := by simp [fallbackName]
  rw [isAsciiToken, Bool.and_eq_true, List.all_eq_true]
  refine ⟨by simpa using hne, ?_⟩
  intro c hc
  obtain ⟨hlow, hhigh, -, hquote⟩ := isNameChar_spec (hchars c hc)
  simp only [hquote, Bool.and_eq_true, decide_eq_true_eq, Bool.not_false]
  exact ⟨⟨⟨by omega, hlow⟩, by omega⟩, trivial⟩

/-- The header of a text that can be encoded and has no line breaks. -/
theorem contentDispositionHeader_eq {fallback : Str} (hscalar : name.all isScalar = true)
    (hbreaks : ¬ name.any [13, 10, 0].contains = true) (hfallback : isAsciiToken fallback = true) :
    ∃ asciiName, isAsciiToken asciiName = true ∧ contentDispositionHeader name fallback =
      .ok (codePoints "attachment; filename=\"" ++ asciiName ++ codePoints "\"; filename*=" ++
        encodeRfc8187 (String.ofList (name.map Char.ofNat))) := by
  obtain ⟨asciiName, hascii, htoken⟩ := @asciiFilenameParameter_spec name _ hfallback
  have hquotes : ¬ asciiName.any (codePoints "\"\\\r\n").contains = true := by
    rw [List.any_eq_true]
    rintro ⟨c, hc, hbad⟩
    rw [(isAsciiToken_spec htoken c hc).2] at hbad
    cases hbad
  have hlow : ∀ s : Str, (∀ c ∈ s, 32 ≤ c) → ¬ s.any [13, 10, 0].contains = true := by
    intro s hs
    rw [List.any_eq_true]
    rintro ⟨c, hc, hbad⟩
    have hcontrol : ∀ d ∈ [13, 10, 0], d < 32 := by decide
    have hlt := hcontrol c (List.contains_iff_mem.mp hbad)
    have hge := hs c hc
    omega
  have hheader : ∀ text : String, ¬ (codePoints "attachment; filename=\"" ++ asciiName ++
      codePoints "\"; filename*=" ++ encodeRfc8187 text).any [13, 10, 0].contains = true := by
    intro text
    apply hlow
    have hfixed : ∀ c ∈ codePoints "attachment; filename=\"" ++ codePoints "\"; filename*=",
        32 ≤ c := by decide
    intro c hc
    rcases List.mem_append.mp hc with hc | hc
    · rcases List.mem_append.mp hc with hc | hc
      · rcases List.mem_append.mp hc with hc | hc
        · exact hfixed c (List.mem_append_left _ hc)
        · exact (isAsciiToken_spec htoken c hc).1
      · exact hfixed c (List.mem_append_right _ hc)
    · exact encodeRfc8187_low c hc
  have htext : asString name = .ok (String.ofList (name.map Char.ofNat)) := by
    rw [asString, require_true hscalar]
    rfl
  exact ⟨asciiName, htoken, bind_eq_ok.mpr ⟨asciiName, hascii, bind_eq_ok.mpr ⟨(),
    require_true hquotes, bind_eq_ok.mpr ⟨(), require_true hbreaks, bind_eq_ok.mpr ⟨_, htext,
      bind_eq_ok.mpr ⟨(), require_true (hheader _), rfl⟩⟩⟩⟩⟩⟩

/-- The header of a suggested name is built without an error. -/
theorem contentDispositionHeader_eq_ok {fallback : Str} (h : Suggested name ext)
    (hfallback : isAsciiToken fallback = true) :
    ∃ header, contentDispositionHeader name fallback = .ok header := by
  have hscalar : name.all isScalar = true := List.all_eq_true.mpr fun c hc => (h.chars c hc).1
  have hbreaks : ¬ name.any [13, 10, 0].contains = true := by
    rw [List.any_eq_true]
    rintro ⟨c, hc, hbad⟩
    have hcontrol : ∀ d ∈ [13, 10, 0], d < 32 := by decide
    have hlt := hcontrol c (List.contains_iff_mem.mp hbad)
    have hge := (h.chars c hc).2.2
    omega
  obtain ⟨asciiName, -, hheader⟩ := contentDispositionHeader_eq hscalar hbreaks hfallback
  exact ⟨_, hheader⟩

/-! ## Suggested names -/

theorem suffix_clean : Clean data.isOther (kindSuffix kind) := by
  have hall : ∀ kind, ∀ c ∈ kindSuffix kind, c ∉ bidi ∧ c ∉ forbidden ∧ 32 ≤ c ∧ c < 127 ∧
      Text.isSpace c = false := by
    intro kind
    cases kind <;> decide
  intro c hc
  obtain ⟨hbidi, hforbidden, hlow, hhigh, hspace⟩ := hall kind c hc
  rw [cleanPoint, if_neg (not_or.mpr ⟨hbidi, hforbidden⟩), data.other_printable c hlow hhigh, hspace]
  rfl

theorem tidy_suffixed (h : Sanitized data stem) (hkind : kindSuffix kind ≠ []) :
    Tidy (stem ++ kindSuffix kind) := by
  have hsuffix : ∀ kind, kindSuffix kind ≠ [] → blank ∉ kindSuffix kind ∧
      (∀ c ∈ (kindSuffix kind).getLast?, isEnd c = false) := by
    intro kind
    cases kind <;> decide
  obtain ⟨hblank, hlast⟩ := hsuffix kind hkind
  refine ⟨h.tidy.single.append (single_of_not_mem hblank) (Or.inr ?_), ?_, ?_⟩
  · exact fun hhead => hblank (List.mem_of_head? hhead)
  · intro c hc
    cases hstem : stem with
    | nil =>
      have hname := h.name
      rw [hstem] at hname
      cases hname
    | cons d rest =>
      rw [hstem, List.cons_append] at hc
      cases hc
      exact h.tidy.head c (by rw [hstem]; rfl)
  · intro c hc
    rw [List.getLast?_append_of_ne_nil _ hkind] at hc
    exact hlast c hc

/-- The stem of a suggested name, and why it is in normal form. -/
theorem suffixedStem_spec {final : Str} (hstem : sanitizeStem data title = some stem)
    (h : suffixedStem data stem kind = some final) :
    Sanitized data final ∧ (kind = .normalVideo → final = stem) ∧
      (kind ≠ .normalVideo → data.nfc final = final) := by
  obtain ⟨raw, -, hraw⟩ := Option.bind_eq_some_iff.mp hstem
  have hsanitized : Sanitized data stem :=
    (@sanitized_of_eq_some data raw _ (by rw [sanitizeStem, Option.bind_some]; exact hraw)).1
  rw [suffixedStem] at h
  split at h
  · rename_i hkind
    cases h
    refine ⟨hsanitized, fun _ => rfl, fun hne => ?_⟩
    cases kind
    · exact (hne rfl).elim
    · cases hkind
    · cases hkind
  · rename_i hkind
    have hclean : Clean data.isOther (stem ++ kindSuffix kind) := by
      intro c hc
      rcases List.mem_append.mp hc with hc | hc
      · exact hsanitized.clean c hc
      · exact suffix_clean c hc
    refine ⟨(sanitized_of_eq_some h).1, ?_, fun _ => nfc_of_clean hclean
      (tidy_suffixed hsanitized hkind) h⟩
    rintro rfl
    exact (hkind rfl).elim

theorem suggestedFilenameFor_eq_ok (hcontainer : validatedContainer container = .ok ext) :
    suggestedFilenameFor data title container id kind = .ok (fallbackName id ext) ∧
        (kind = .normalVideo → sanitizeStem data title = none) ∨
      ∃ stem final, sanitizeStem data title = some stem ∧
        suffixedStem data stem kind = some final ∧
        suggestedFilenameFor data title container id kind = .ok (final ++ dot :: ext) := by
  have hext := validatedContainer_eq_ok hcontainer
  simp only [suggestedFilenameFor, hcontainer, fallbackFilename_eq hext, ok_bind]
  cases hstem : sanitizeStem data title with
  | none => exact Or.inl ⟨rfl, fun _ => rfl⟩
  | some stem =>
    cases hfinal : suffixedStem data stem kind with
    | none =>
      refine Or.inl ⟨by simp only [hfinal]; rfl, ?_⟩
      rintro rfl
      cases hfinal
    | some final =>
      refine Or.inr ⟨stem, final, rfl, hfinal, ?_⟩
      have hbounds := (suggested_stem (suffixedStem_spec hstem hfinal).1 hext).bounds
      simp only [hfinal, hbounds, ok_bind]
      rfl

/-- What is asked of a suggested name. -/
structure Accepted (data : UnicodeData) (name container : Str) (id : JobUuid) : Prop where
  safe : isSafeSuggestedFilename data name container = .ok true
  check : CheckSuggestedFilename name
  header : ∃ fallback header, fallbackFilename id container = .ok fallback ∧
    contentDispositionHeader name fallback = .ok header

/-- There is no title, or the text that is kept of it names a device up to its first full stop, or
the longest beginning of the text that fits names one or is in normal form. -/
def LeavesNormalForm (data : UnicodeData) (title : Option Str) : Prop :=
  ∀ raw, title = some raw →
    isReserved data ((keptText data raw).takeWhile (· ≠ dot)) = true ∨
      ∀ stem, IsStem (keptText data raw) stem → isReserved data stem = true ∨ data.nfc stem = stem

theorem leavesNormalForm_iff : LeavesNormalForm data title ↔
    ∀ stem, sanitizeStem data title = some stem → data.nfc stem = stem := by
  cases title with
  | none => simp [LeavesNormalForm, sanitizeStem]
  | some raw =>
    have htidy := (@reduced_spec data raw).2
    have hcut := isStem_cut htidy
    simp only [LeavesNormalForm, sanitizeStem_eq_some, Option.some.injEq, forall_eq',
      keptText_eq_reduced]
    constructor
    · rintro h stem ⟨-, hhead, -, hdevice, rfl⟩
      rw [hhead] at h
      have hstem := (h.resolve_left (by simp)) _ hcut
      rw [hdevice] at hstem
      exact hstem.resolve_left (by simp)
    · intro h
      by_contra hno
      simp only [not_or, not_forall, Bool.not_eq_true] at hno
      obtain ⟨hhead, stem, hstem, hdevice, hnfc⟩ := hno
      obtain rfl := hstem.unique hcut
      -- What is no name is empty, and the empty text is in normal form.
      have hname : ∀ s, Tidy s → isNoName s = true → s = [] := by
        intro s hs hname
        simp only [isNoName, Bool.or_eq_true, decide_eq_true_eq] at hname
        rcases hname with (hname | hname) | hname
        · exact hname
        · have hdot := hs.head dot (by rw [hname]; rfl)
          cases hdot
        · have hdot := hs.head dot (by rw [hname]; rfl)
          cases hdot
      have hnil : data.nfc [] = [] := data.nfc_ascii [] (by simp)
      have hnamed : ∀ s, Tidy s → cutBytes (cutChars (reduced data raw)) <+: s →
          isNoName s = false := by
        intro s hs hinitial
        by_contra hno
        rw [hname s hs (by simpa using hno), List.prefix_nil] at hinitial
        rw [hinitial] at hnfc
        exact hnfc hnil
      have hstemTidy := htidy.of_prefix hcut.1.initial hcut.1.last
      exact hnfc (h _ ⟨hnamed _ htidy hcut.1.initial, hhead, hnamed _ hstemTidy List.prefix_rfl,
        hdevice, rfl⟩)

theorem accepted_iff (hcontainer : validatedContainer container = .ok ext)
    (h : Suggested name ext) :
    Accepted data name container id ↔ isSafeSuggestedFilename data name container = .ok true := by
  constructor
  · exact fun haccepted => haccepted.safe
  · intro hsafe
    have hext := validatedContainer_eq_ok hcontainer
    obtain ⟨header, hheader⟩ :=
      contentDispositionHeader_eq_ok h (@isAsciiToken_fallbackName _ id hext)
    refine ⟨hsafe, h.check, _, header, ?_, hheader⟩
    rw [fallbackFilename, hcontainer]
    rfl

theorem accepted_fallback (hcontainer : validatedContainer container = .ok ext) :
    Accepted data (fallbackName id ext) container id := by
  have hext := validatedContainer_eq_ok hcontainer
  have hsuggested := @suggested_fallback _ id hext
  rw [accepted_iff hcontainer hsuggested,
    @Suggested.isSafe_iff _ (codePoints "fetchnow-" ++ id.text) _ _ _ hsuggested hcontainer rfl]
  exact Or.inr (matchesUuidFallback_fallbackName hext)

theorem accepted_stem_iff (hcontainer : validatedContainer container = .ok ext)
    (h : Sanitized data stem) :
    Accepted data (stem ++ dot :: ext) container id ↔ data.nfc stem = stem := by
  have hext := validatedContainer_eq_ok hcontainer
  have hsuggested := suggested_stem h hext
  rw [accepted_iff hcontainer hsuggested, hsuggested.isSafe_iff hcontainer rfl, h.sanitizeStem_iff]
  apply or_iff_left_of_imp
  intro hmatch
  exact data.nfc_ascii stem (ascii_of_matchesUuidFallback hmatch)

/-- The suggested name is accepted, and its stem sanitized to itself, exactly when the kind has a
suffix or what is left of the title is in normal form. -/
theorem suggested_accepted_iff (hcontainer : validatedContainer container = .ok ext) :
    (∃ name, suggestedFilenameFor data title container id kind = .ok name ∧
      (Accepted data name container id ↔
        (kind = .normalVideo → LeavesNormalForm data title))) ∧
    ((∀ stem, sanitizeStem data title = some stem →
        sanitizeStem data (some stem) = some stem) ↔ LeavesNormalForm data title) := by
  have hsanitized : ∀ stem, sanitizeStem data title = some stem → Sanitized data stem := by
    intro stem hstem
    obtain ⟨raw, rfl, -⟩ := Option.bind_eq_some_iff.mp hstem
    exact (sanitized_of_eq_some hstem).1
  constructor
  · rcases @suggestedFilenameFor_eq_ok data _ _ id title kind hcontainer
      with ⟨hname, hnone⟩ | ⟨stem, final, hstem, hfinal, hname⟩
    · refine ⟨_, hname, iff_of_true (accepted_fallback hcontainer) fun hkind => ?_⟩
      rw [leavesNormalForm_iff, hnone hkind]
      simp
    · obtain ⟨hfinalSanitized, hsame, hnfc⟩ := suffixedStem_spec hstem hfinal
      refine ⟨_, hname, ?_⟩
      rw [accepted_stem_iff hcontainer hfinalSanitized, leavesNormalForm_iff]
      by_cases hkind : kind = .normalVideo
      · rw [hsame hkind, hstem]
        simp [hkind]
      · exact iff_of_true (hnfc hkind) fun h => (hkind h).elim
  · rw [leavesNormalForm_iff]
    apply forall₂_congr
    intro stem hstem
    exact (hsanitized stem hstem).sanitizeStem_iff

end Names

/-! ## An e and an acute accent -/

section Acute

/-- Put an `e` in front of a text, together with an acute accent the text begins with. -/
def composeStep (c : ℕ) (s : Str) : Str :=
  if c = 0x65 ∧ s.head? = some 0x301 then 0xE9 :: s.tail else c :: s

def composeAcute (s : Str) : Str := s.foldr composeStep []

/-- No acute accent stands behind an `e`. -/
def Composed (s : Str) : Prop := s.IsChain fun a b => ¬ (a = 0x65 ∧ b = 0x301)

theorem composeAcute_cons : composeAcute (c :: s) = composeStep c (composeAcute s) := rfl

theorem composed_composeAcute : Composed (composeAcute s) := by
  induction s with
  | nil => exact .nil
  | cons c s ih =>
    rw [composeAcute_cons, composeStep]
    split
    · refine List.isChain_cons.mpr ⟨?_, ih.tail⟩
      rintro b - ⟨hb, -⟩
      cases hb
    · rename_i hno
      refine List.isChain_cons.mpr ⟨?_, ih⟩
      rintro b hb ⟨rfl, rfl⟩
      exact hno ⟨rfl, hb⟩

theorem composeAcute_eq_self (h : Composed s) : composeAcute s = s := by
  induction s with
  | nil => rfl
  | cons c s ih =>
    obtain ⟨hhead, hs⟩ := List.isChain_cons.mp h
    rw [composeAcute_cons, ih hs, composeStep, if_neg]
    rintro ⟨rfl, hacute⟩
    exact hhead 0x301 hacute ⟨rfl, rfl⟩

theorem mem_composeAcute (h : c ∈ composeAcute s) : c ∈ s ∨ c = 0xE9 := by
  induction s with
  | nil => cases h
  | cons d s ih =>
    rw [composeAcute_cons, composeStep] at h
    have hlift : c ∈ composeAcute s → c ∈ d :: s ∨ c = 0xE9 := by
      intro hc
      rcases ih hc with hs | he
      · exact Or.inl (List.mem_cons_of_mem _ hs)
      · exact Or.inr he
    split at h
    · rcases List.mem_cons.mp h with rfl | h
      · exact Or.inr rfl
      · exact hlift (List.mem_of_mem_tail h)
    · rcases List.mem_cons.mp h with rfl | h
      · exact Or.inl List.mem_cons_self
      · exact hlift h

theorem composeAcute_actsBetween (hlow : c < 0x65) : ActsBetween composeAcute c where
  split s t := by
    induction s with
    | nil =>
      have hne : ¬ (c = 0x65 ∧ (composeAcute t).head? = some 0x301) := by
        rintro ⟨rfl, -⟩
        omega
      rw [List.nil_append, composeAcute_cons, composeStep, if_neg hne]
      rfl
    | cons d s ih =>
      rw [List.cons_append, composeAcute_cons, ih, composeAcute_cons, composeStep, composeStep]
      cases hs : composeAcute s with
      | nil =>
        have hne : c ≠ 0x301 := by omega
        simp [hne]
      | cons e rest =>
        by_cases hcond : d = 0x65 ∧ e = 0x301
        · simp [hcond]
        · simp [hcond]
  mem s hc := by
    rcases mem_composeAcute hc with hs | rfl
    · exact hs
    · omega
  nonempty s hs := by
    cases s with
    | nil => rfl
    | cons d s =>
      rw [composeAcute_cons, composeStep] at hs
      split at hs <;> cases hs

/-- Tables for text in ASCII with acute accents and bidirectional marks. -/
def acuteData : UnicodeData where
  nfc := composeAcute
  isOther c := c < 32 || 127 ≤ c && c < 160 || bidi.contains c || !isScalar c
  upper s := s.map fun c => if 97 ≤ c ∧ c ≤ 122 then c - 32 else c
  other_control c hc := by
    rcases hc with hc | ⟨hlow, hhigh⟩
    · simp [hc]
    · simp [hlow, hhigh]
  other_not_scalar c hc := by simp [hc]
  other_printable c hlow hhigh := by
    have hbidi : ∀ d ∈ bidi, 127 ≤ d := by decide
    have hmem : c ∉ bidi := fun hc => by
      have hge := hbidi c hc
      omega
    have h32 : ¬ c < 32 := by omega
    have h127 : ¬ 127 ≤ c := by omega
    simp [hmem, h32, h127, isScalar_of_lt hhigh]
  nfc_nfc _ := composeAcute_eq_self composed_composeAcute
  nfc_infix s t hs ht := by
    apply composeAcute_eq_self
    have hcomposed : Composed s := hs ▸ composed_composeAcute
    exact List.IsChain.infix hcomposed ht
  nfc_ascii s hs := by
    apply composeAcute_eq_self
    apply List.Pairwise.isChain
    apply List.pairwise_of_forall_mem_list
    rintro a - b hb ⟨-, rfl⟩
    have hlt := hs _ hb
    omega
  nfc_clean s hs c hc := by
    rcases mem_composeAcute hc with hmem | rfl
    · exact hs c hmem
    · decide
  nfc_blank := composeAcute_actsBetween (by decide)
  nfc_dot := composeAcute_actsBetween (by decide)

def someJob : JobUuid := ⟨List.replicate 32 0, by decide, by decide⟩

/-- A title with what is deleted, and with a mark between an `e` and its accent behind the cut. -/
def longTitle : Str :=
  0x200E :: codePoints "Talk: \"one\"?  " ++ List.replicate 80 0x65 ++ [0x200E, 0x301]

theorem suggested_long_title :
    sanitizeStem acuteData (some longTitle) =
      some (codePoints "Talk one " ++ List.replicate 71 0x65) ∧
    (∃ name, suggestedFilenameFor acuteData (some longTitle) (codePoints "mp4") someJob
        .normalVideo = .ok name ∧ Accepted acuteData name (codePoints "mp4") someJob) ∧
    ∀ stem, sanitizeStem acuteData (some longTitle) = some stem →
      sanitizeStem acuteData (some stem) = some stem := by
  have hstem : sanitizeStem acuteData (some longTitle) =
      some (codePoints "Talk one " ++ List.replicate 71 0x65) := by decide +kernel
  have hleaves : LeavesNormalForm acuteData (some longTitle) := by
    rw [leavesNormalForm_iff, hstem]
    rintro stem ⟨⟩
    decide +kernel
  obtain ⟨⟨name, hname, haccepted⟩, hfixed⟩ :=
    @suggested_accepted_iff acuteData (codePoints "mp4") (codePoints "mp4") someJob (some longTitle)
      .normalVideo (by decide +kernel)
  exact ⟨hstem, ⟨name, hname, haccepted.mpr fun _ => hleaves⟩, hfixed.mpr hleaves⟩

/-- A mark between an `e` and its accent is deleted after normalization. -/
theorem mark_before_accent :
    (∃ name, suggestedFilenameFor acuteData (some [0x65, 0x200E, 0x301]) (codePoints "mp4") someJob
        .normalVideo = .ok name ∧ ¬ Accepted acuteData name (codePoints "mp4") someJob) ∧
    sanitizeStem acuteData (some [0x65, 0x200E, 0x301]) = some [0x65, 0x301] ∧
    sanitizeStem acuteData (some [0x65, 0x301]) = some [0xE9] := by
  have hsafe : isSafeSuggestedFilename acuteData ([0x65, 0x301] ++ codePoints ".mp4")
      (codePoints "mp4") = .ok false := by decide +kernel
  refine ⟨⟨[0x65, 0x301] ++ codePoints ".mp4", by decide +kernel, ?_⟩, by decide +kernel,
    by decide +kernel⟩
  intro haccepted
  have htrue := haccepted.safe
  rw [hsafe] at htrue
  cases htrue

end Acute

end Filename

end FetchNow
