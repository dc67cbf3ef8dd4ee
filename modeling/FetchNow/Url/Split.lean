import FetchNow.Basic
import Mathlib.Data.List.TakeWhile

/-!
# `urllib.parse`

`urlsplit` on lists of characters. What depends on the Unicode tables is a parameter.
-/
namespace FetchNow.Url

/-- The characters that delimit an authority or that `urlsplit` removes. -/
def delimiters : List Char := ['/', '?', '#', '@', ':', '[', ']', '%', '\t', '\r', '\n']

/-- `str.isascii`. -/
def isAscii (s : List Char) : Prop := ∀ c ∈ s, c.toNat < 128

/-- The functions of `str`, of the idna codec and of `urllib.parse` that read Unicode tables.
Lowering is idempotent, keeps delimiters as they are and keeps ASCII; the codec gives ASCII;
an authority in ASCII passes the check of its normal form. -/
structure Text where
  lower : List Char → List Char
  idna : List Char → Option (List Char)
  checkNetloc : List Char → Bool
  checkBracketedNetloc : List Char → Bool
  lower_lower : ∀ s, lower (lower s) = lower s
  lower_delimiters : ∀ s, ∀ c ∈ delimiters, c ∈ lower s ↔ c ∈ s
  lower_ascii : ∀ s, isAscii s → isAscii (lower s)
  idna_ascii : ∀ s t, idna s = some t → isAscii t
  checkNetloc_ascii : ∀ s, isAscii s → checkNetloc s = true

/-- The result of `urlsplit`, without the fragment. -/
structure SplitResult where
  scheme : List Char
  netloc : List Char
  path : List Char
  query : List Char
  deriving DecidableEq, Repr

variable {text : Text} {url s t : List Char} {split : SplitResult}

/-! ## `urlsplit` -/

def isC0OrSpace (c : Char) : Bool := c.toNat ≤ 32

/-- `_UNSAFE_URL_BYTES_TO_REMOVE`. -/
def isUnsafe (c : Char) : Bool := c = '\t' || c = '\r' || c = '\n'

def isSchemeChar (c : Char) : Bool := c.isAlphanum || c = '+' || c = '-' || c = '.'

/-- Leading control characters and spaces are stripped, unsafe characters removed. -/
def cleaned (url : List Char) : List Char :=
  (url.dropWhile isC0OrSpace).filter fun c => !isUnsafe c

def splitScheme (url : List Char) : List Char × List Char :=
  let scheme := url.takeWhile (· ≠ ':')
  if ':' ∈ url ∧ scheme.head?.any Char.isAlpha = true ∧ scheme.all isSchemeChar = true then
    (scheme.map Char.toLower, url.drop (scheme.length + 1))
  else ([], url)

/-- `_splitnetloc`, if the rest starts with `//`. -/
def splitNetloc : List Char → List Char × List Char
  | '/' :: '/' :: rest =>
    (rest.takeWhile fun c => c ≠ '/' ∧ c ≠ '?' ∧ c ≠ '#',
      rest.dropWhile fun c => c ≠ '/' ∧ c ≠ '?' ∧ c ≠ '#')
  | rest => ([], rest)

/-- `urlsplit`, absent where it raises `ValueError`. -/
def urlsplit (text : Text) (url : List Char) : Option SplitResult :=
  let (scheme, rest) := splitScheme (cleaned url)
  let (netloc, rest) := splitNetloc rest
  if ('[' ∈ netloc ∧ ']' ∉ netloc) ∨ (']' ∈ netloc ∧ '[' ∉ netloc) then none
  else if '[' ∈ netloc ∧ text.checkBracketedNetloc netloc = false then none
  else if text.checkNetloc netloc = false then none
  else
    let rest := rest.takeWhile (· ≠ '#')
    some { scheme, netloc, path := rest.takeWhile (· ≠ '?'),
           query := (rest.dropWhile (· ≠ '?')).drop 1 }

/-- `uses_params` -/
def usesParams : List (List Char) :=
  ["", "ftp", "hdl", "prospero", "http", "imap", "https", "shttp", "rtsp", "rtsps", "rtspu", "sip",
    "sips", "mms", "sftp", "tel"].map String.toList

namespace SplitResult

variable (split)

/-- The part of the authority after the last `@`. -/
def hostport : List Char := (split.netloc.reverse.takeWhile (· ≠ '@')).reverse

/-- `username is not None or password is not None`. -/
def hasUserinfo : Prop := '@' ∈ split.netloc

instance : Decidable split.hasUserinfo := inferInstanceAs (Decidable (_ ∈ _))

/-- `_hostinfo`. -/
def hostinfo : List Char × List Char :=
  let hostport := split.hostport
  if '[' ∈ hostport then
    let bracketed := (hostport.dropWhile (· ≠ '[')).drop 1
    (bracketed.takeWhile (· ≠ ']'),
      (((bracketed.dropWhile (· ≠ ']')).drop 1).dropWhile (· ≠ ':')).drop 1)
  else (hostport.takeWhile (· ≠ ':'), (hostport.dropWhile (· ≠ ':')).drop 1)

/-- The property `hostname`; a zone keeps its case. -/
def hostname (text : Text) : Option (List Char) :=
  let name := split.hostinfo.1
  if name = [] then none
  else some (text.lower (name.takeWhile (· ≠ '%')) ++ name.dropWhile (· ≠ '%'))

/-- The property `port`, absent where it raises `ValueError`. -/
def port : Option (Option ℕ) :=
  let digits := split.hostinfo.2
  if digits = [] then some none
  else if digits.all Char.isDigit = true ∧ Nat.ofDigitChars 10 digits 0 ≤ 65535 then
    some (some (Nat.ofDigitChars 10 digits 0))
  else none

/-- The path of `urlparse`, without the parameters its last segment may have. -/
def parsePath : List Char :=
  if split.scheme ∈ usesParams then
    let last := (split.path.reverse.takeWhile (· ≠ '/')).reverse
    split.path.take (split.path.length - last.length) ++ last.takeWhile (· ≠ ';')
  else split.path

end SplitResult

/-! ## Building a URL -/

def portText : Option ℕ → List Char
  | none => []
  | some port => ':' :: Nat.toDigits 10 port

def queryText (query : List Char) : List Char := if query = [] then [] else '?' :: query

/-- `f"{scheme}://{hostname}{port}{path}{query}"`. -/
def buildUrl (scheme hostname : List Char) (port : Option ℕ) (path query : List Char) : List Char :=
  scheme ++ ':' :: '/' :: '/' :: (hostname ++ portText port ++ path ++ queryText query)

/-- A scheme as `urlsplit` returns it. -/
structure ValidScheme (scheme : List Char) : Prop where
  starts : scheme.head?.any Char.isAlpha = true
  chars : scheme.all isSchemeChar = true
  lowered : scheme.map Char.toLower = scheme

/-- A host name has no delimiter in it. -/
def PlainHost (hostname : List Char) : Prop := hostname ≠ [] ∧ ∀ c ∈ hostname, c ∉ delimiters

instance (hostname : List Char) : Decidable (PlainHost hostname) :=
  decidable_of_iff (hostname ≠ [] ∧ hostname.all (fun c => decide (c ∉ delimiters)) = true)
    (by simp [PlainHost])

/-! ## Splitting what was built -/

section Build

variable {p : Char → Bool} {c : Char} {scheme hostname path query : List Char} {port : Option ℕ}

theorem takeWhile_stop (hs : ∀ d ∈ s, p d = true) (hc : p c = false) :
    (s ++ c :: t).takeWhile p = s := by
  rw [List.takeWhile_append_of_pos hs, List.takeWhile_cons_of_neg (by simp [hc]), List.append_nil]

theorem dropWhile_stop (hs : ∀ d ∈ s, p d = true) (hc : p c = false) :
    (s ++ c :: t).dropWhile p = c :: t := by
  rw [List.dropWhile_append_of_pos hs, List.dropWhile_cons_of_neg (by simp [hc])]

theorem takeWhile_all (hs : ∀ d ∈ s, p d = true) : s.takeWhile p = s :=
  List.takeWhile_eq_self_iff.mpr hs

theorem dropWhile_all (hs : ∀ d ∈ s, p d = true) : s.dropWhile p = [] :=
  List.dropWhile_eq_nil_iff.mpr hs

theorem PlainHost.ne (h : PlainHost hostname) (hc : c ∈ delimiters) :
    ∀ d ∈ hostname, d ≠ c := by
  rintro d hd rfl
  exact h.2 d hd hc

theorem isDigit_ne {d : Char} (hd : d.isDigit = true) (hc : c.isDigit = false) : d ≠ c := by
  rintro rfl
  rw [hd] at hc
  cases hc

theorem portText_ne (hc : c.isDigit = false) (hcolon : c ≠ ':') : ∀ d ∈ portText port, d ≠ c := by
  cases port with
  | none => exact fun d hd => absurd hd List.not_mem_nil
  | some n =>
    intro d hd
    rcases List.mem_cons.mp hd with rfl | hd
    · exact hcolon.symm
    · exact isDigit_ne (Nat.isDigit_of_mem_toDigits (by decide) (by decide) hd) hc

/-- The authority of a built URL has none of the other delimiters. -/
theorem authority_ne (hhost : PlainHost hostname) (hc : c ∈ delimiters) (hcolon : c ≠ ':')
    (hdigit : c.isDigit = false) : ∀ d ∈ hostname ++ portText port, d ≠ c := by
  intro d hd
  rcases List.mem_append.mp hd with hd | hd
  · exact hhost.ne hc d hd
  · exact portText_ne hdigit hcolon d hd

theorem validScheme_of_http (hscheme : scheme = "http".toList ∨ scheme = "https".toList) :
    ValidScheme scheme := by
  rcases hscheme with rfl | rfl <;> exact ⟨by decide, by decide, by decide⟩

theorem isSchemeChar_ne {d : Char} (hc : isSchemeChar c = true) (hd : isSchemeChar d = false) : c ≠ d := by
  rintro rfl
  rw [hc] at hd
  cases hd

theorem isUnsafe_iff : isUnsafe c = true ↔ c = '\t' ∨ c = '\r' ∨ c = '\n' := by
  simp [isUnsafe, or_assoc]

theorem ValidScheme.not_mem (h : ValidScheme scheme) (hc : isSchemeChar c = false) :
    ∀ d ∈ scheme, d ≠ c :=
  fun d hd => isSchemeChar_ne (List.all_eq_true.mp h.chars d hd) hc

theorem splitScheme_build (hscheme : ValidScheme scheme) :
    splitScheme (scheme ++ ':' :: t) = (scheme, t) := by
  have hname : (scheme ++ ':' :: t).takeWhile (· ≠ ':') = scheme := by
    apply takeWhile_stop _ (by decide)
    exact fun d hd => by simpa using hscheme.not_mem (c := ':') (by decide) d hd
  have hmem : ':' ∈ scheme ++ ':' :: t := by simp
  have hrest : (scheme ++ ':' :: t).drop (scheme.length + 1) = t := by simp
  simp only [splitScheme, hname, hmem, hscheme.starts, hscheme.chars, hscheme.lowered, hrest,
    true_and, if_true]

/-- A letter is nothing that is stripped or removed. -/
theorem isAlpha_spec (h : c.isAlpha = true) :
    isC0OrSpace c = false ∧ isSpace c = false ∧ isUnsafe c = false := by
  have hrange : (65 ≤ c.toNat ∧ c.toNat ≤ 90) ∨ (97 ≤ c.toNat ∧ c.toNat ≤ 122) :=
    isAlpha_iff.mp h
  refine ⟨?_, ?_, ?_⟩
  · simp only [isC0OrSpace, decide_eq_false_iff_not]
    omega
  · simp only [isSpace, Bool.or_eq_false_iff, Bool.and_eq_false_iff, decide_eq_false_iff_not]
    omega
  · by_contra hbad
    rcases isUnsafe_iff.mp (by simpa using hbad) with rfl | rfl | rfl <;> cases h

theorem ValidScheme.eq_cons (h : ValidScheme scheme) :
    ∃ first rest, scheme = first :: rest ∧ first.isAlpha = true := by
  cases scheme with
  | nil => exact absurd h.starts (by decide)
  | cons first rest => exact ⟨first, rest, rfl, by simpa using h.starts⟩

theorem cleaned_build (hscheme : ValidScheme scheme) (hsafe : ∀ c ∈ t, isUnsafe c = false) :
    cleaned (scheme ++ ':' :: t) = scheme ++ ':' :: t := by
  have hstart : (scheme ++ ':' :: t).dropWhile isC0OrSpace = scheme ++ ':' :: t := by
    obtain ⟨first, rest, rfl, halpha⟩ := hscheme.eq_cons
    exact List.dropWhile_cons_of_neg (by simp [(isAlpha_spec halpha).1])
  rw [cleaned, hstart, List.filter_eq_self]
  intro c hc
  rcases List.mem_append.mp hc with hc | hc
  · by_contra hbad
    rcases isUnsafe_iff.mp (by simpa using hbad) with rfl | rfl | rfl <;>
      exact hscheme.not_mem (by decide) _ hc rfl
  · rcases List.mem_cons.mp hc with rfl | hc
    · rfl
    · simp [hsafe c hc]

theorem splitNetloc_build (hhost : PlainHost hostname) (hpath : ∃ rest, path = '/' :: rest) :
    splitNetloc ('/' :: '/' :: (hostname ++ portText port ++ path ++ t)) =
      (hostname ++ portText port, path ++ t) := by
  obtain ⟨rest, rfl⟩ := hpath
  have hne : ∀ d ∈ hostname ++ portText port, decide (d ≠ '/' ∧ d ≠ '?' ∧ d ≠ '#') = true := by
    intro d hd
    have hslash := authority_ne hhost (c := '/') (by decide) (by decide) (by decide) d hd
    have hquestion := authority_ne hhost (c := '?') (by decide) (by decide) (by decide) d hd
    have hhash := authority_ne hhost (c := '#') (by decide) (by decide) (by decide) d hd
    simp [hslash, hquestion, hhash]
  simp only [splitNetloc, List.append_assoc, List.cons_append] at hne ⊢
  rw [← List.append_assoc, takeWhile_stop hne (by decide), dropWhile_stop hne (by decide)]

theorem portText_ascii : isAscii (portText port) := by
  cases port with
  | none => exact fun c hc => absurd hc List.not_mem_nil
  | some n =>
    intro c hc
    rcases List.mem_cons.mp hc with rfl | hc
    · decide
    · have hdigit := Nat.isDigit_of_mem_toDigits (b := 10) (by decide) (by decide) hc
      have hnine : c.toNat ≤ 57 := (Char.isDigit_iff_toNat.mp hdigit).2
      omega

/-- `urlsplit` reads the parts of a built URL back. -/
theorem urlsplit_build (hscheme : ValidScheme scheme)
    (hhost : PlainHost hostname) (hascii : isAscii hostname) (hpath : ∃ rest, path = '/' :: rest)
    (hsafe : ∀ c ∈ path ++ query, isUnsafe c = false) :
    urlsplit text (buildUrl scheme hostname port path query) = some
      { scheme, netloc := hostname ++ portText port
        path := ((path ++ queryText query).takeWhile (· ≠ '#')).takeWhile (· ≠ '?')
        query := (((path ++ queryText query).takeWhile (· ≠ '#')).dropWhile (· ≠ '?')).drop 1 } := by
  have hunsafe : ∀ c ∈ '/' :: '/' :: (hostname ++ portText port ++ path ++ queryText query),
      isUnsafe c = false := by
    intro c hc
    by_contra hbad
    have hcases := isUnsafe_iff.mp (by simpa using hbad)
    have hdelim : c ∈ delimiters ∧ c ≠ ':' ∧ c.isDigit = false ∧ c ≠ '/' ∧ c ≠ '?' := by
      rcases hcases with rfl | rfl | rfl <;> decide
    obtain ⟨hmem, hcolon, hdigit, hslash, hquestion⟩ := hdelim
    have hauthority : c ∉ hostname ++ portText port := fun hc =>
      authority_ne hhost hmem hcolon hdigit c hc rfl
    simp only [List.mem_cons, List.mem_append, hslash, false_or] at hc hauthority
    rcases hc with ((hc | hc) | hc) | hc
    · exact hauthority (.inl hc)
    · exact hauthority (.inr hc)
    · exact hbad (hsafe c (List.mem_append_left _ hc))
    · unfold queryText at hc
      split at hc
      · exact absurd hc List.not_mem_nil
      · rcases List.mem_cons.mp hc with rfl | hc
        · exact hquestion rfl
        · exact hbad (hsafe c (List.mem_append_right _ hc))
  have hopen : '[' ∉ hostname ++ portText port := fun hmem =>
    authority_ne hhost (c := '[') (by decide) (by decide) (by decide) _ hmem rfl
  have hclose : ']' ∉ hostname ++ portText port := fun hmem =>
    authority_ne hhost (c := ']') (by decide) (by decide) (by decide) _ hmem rfl
  have hnetloc : text.checkNetloc (hostname ++ portText port) = true := by
    apply text.checkNetloc_ascii
    intro c hc
    rcases List.mem_append.mp hc with hc | hc
    · exact hascii c hc
    · exact portText_ascii c hc
  simp only [urlsplit, buildUrl, cleaned_build hscheme hunsafe, splitScheme_build hscheme,
    splitNetloc_build hhost hpath, hopen, hclose, hnetloc, false_and, or_self, if_false]
  rfl

theorem hostinfo_of_netloc (hhost : PlainHost hostname)
    (hnetloc : split.netloc = hostname ++ portText port) :
    split.hostinfo = (hostname, (portText port).drop 1) := by
  have hat : split.hostport = hostname ++ portText port := by
    rw [SplitResult.hostport, hnetloc, takeWhile_all, List.reverse_reverse]
    intro d hd
    simpa using authority_ne hhost (c := '@') (by decide) (by decide) (by decide) d
      (List.mem_reverse.mp hd)
  have hbracket : '[' ∉ hostname ++ portText port := fun hmem =>
    authority_ne hhost (c := '[') (by decide) (by decide) (by decide) _ hmem rfl
  have hcolon : ∀ d ∈ hostname, decide (d ≠ ':') = true := fun d hd => by
    simpa using hhost.ne (by decide) d hd
  simp only [SplitResult.hostinfo, hat, hbracket, if_false]
  cases port with
  | none =>
    simp only [portText, List.append_nil, takeWhile_all hcolon, dropWhile_all hcolon,
      List.drop_nil]
  | some n =>
    simp only [portText, takeWhile_stop hcolon (by decide : decide (':' ≠ ':') = false),
      dropWhile_stop hcolon (by decide : decide (':' ≠ ':') = false)]

theorem hostname_of_netloc (hhost : PlainHost hostname)
    (hnetloc : split.netloc = hostname ++ portText port) :
    split.hostname text = some (text.lower hostname) := by
  have hzone : ∀ d ∈ hostname, decide (d ≠ '%') = true := fun d hd => by
    simpa using hhost.ne (by decide) d hd
  simp only [SplitResult.hostname, hostinfo_of_netloc hhost hnetloc, hhost.1, if_false, takeWhile_all hzone,
    dropWhile_all hzone, List.append_nil]

theorem port_of_netloc (hhost : PlainHost hostname) (hport : ∀ n ∈ port, n ≤ 65535)
    (hnetloc : split.netloc = hostname ++ portText port) : split.port = some port := by
  have hinfo := hostinfo_of_netloc hhost hnetloc
  cases port with
  | none => simp [SplitResult.port, hinfo, portText]
  | some n =>
    have hdigits : (Nat.toDigits 10 n).all Char.isDigit = true :=
      List.all_eq_true.mpr fun d hd => Nat.isDigit_of_mem_toDigits (by decide) (by decide) hd
    simp only [SplitResult.port, hinfo, portText, List.drop_one, List.tail_cons,
      Nat.toDigits_ne_nil, if_false, hdigits, Nat.ofDigitChars_ten_toDigits, true_and,
      hport n rfl, if_true]

end Build

/-! ## Stripping does not change the scheme -/

section Strip

variable {p : Char → Bool} {c : Char} {a b : SplitResult}

theorem takeWhile_append_mem (hs : c ∈ s) (hc : p c = false) :
    (s ++ t).takeWhile p = s.takeWhile p := by
  induction s with
  | nil => exact absurd hs List.not_mem_nil
  | cons d s ih =>
    by_cases hd : p d = true
    · have hmem : c ∈ s := by
        rcases List.mem_cons.mp hs with rfl | hs
        · rw [hc] at hd
          cases hd
        · exact hs
      rw [List.cons_append, List.takeWhile_cons_of_pos hd, ih hmem, List.takeWhile_cons_of_pos hd]
    · rw [List.cons_append, List.takeWhile_cons_of_neg hd, List.takeWhile_cons_of_neg hd]

theorem splitScheme_append (ht : ':' ∉ t) (h : (splitScheme (s ++ t)).1 ≠ []) :
    (splitScheme s).1 = (splitScheme (s ++ t)).1 := by
  by_cases hmem : ':' ∈ s
  · have hsame : (s ++ t).takeWhile (· ≠ ':') = s.takeWhile (· ≠ ':') :=
      takeWhile_append_mem hmem (by decide)
    simp only [splitScheme, hsame, hmem, List.mem_append, true_or, true_and]
    split <;> rfl
  · have hnot : ':' ∉ s ++ t := by simp [hmem, ht]
    simp [splitScheme, hnot] at h

/-- A URL with a scheme starts with a letter after what `urlsplit` strips. -/
theorem starts_of_scheme (h : (splitScheme (cleaned url)).1 ≠ []) :
    ∃ c t, url.dropWhile isC0OrSpace = c :: t ∧ c.isAlpha = true := by
  simp only [splitScheme] at h
  split at h
  case isFalse => exact absurd rfl h
  rename_i hcond
  obtain ⟨-, hany, -⟩ := hcond
  obtain ⟨c, hhead, halpha⟩ := (Option.any_eq_true _ _).mp hany
  cases hrest : url.dropWhile isC0OrSpace with
  | nil => simp [cleaned, hrest] at hhead
  | cons d t =>
    have hd : isC0OrSpace d = false := by
      have hfirst := List.head?_dropWhile_not isC0OrSpace url
      rw [hrest] at hfirst
      simpa using hfirst
    have hsafe : isUnsafe d = false := by
      by_contra hbad
      rcases isUnsafe_iff.mp (by simpa using hbad) with rfl | rfl | rfl <;> cases hd
    refine ⟨d, t, rfl, ?_⟩
    have hcleaned : cleaned url = d :: t.filter fun c => !isUnsafe c := by
      rw [cleaned, hrest, List.filter_cons_of_pos (by simp [hsafe])]
    rw [hcleaned] at hhead
    by_cases hcolon : d = ':'
    · subst hcolon
      simp at hhead
    · rw [List.takeWhile_cons_of_pos (by simpa using hcolon)] at hhead
      obtain rfl : d = c := by simpa using hhead
      exact halpha

theorem splitScheme_strip (h : (splitScheme (cleaned url)).1 ≠ []) :
    (splitScheme (cleaned (strip url))).1 = (splitScheme (cleaned url)).1 := by
  obtain ⟨c, t, hrest, halpha⟩ := starts_of_scheme h
  obtain ⟨hc0, hspace, hsafe⟩ := isAlpha_spec halpha
  have hprefix : ∀ d ∈ url.takeWhile isC0OrSpace, isC0OrSpace d = true :=
    fun d => List.mem_takeWhile_imp
  have hurl : url = url.takeWhile isC0OrSpace ++ c :: t := by
    rw [← hrest, List.takeWhile_append_dropWhile]
  set q := url.takeWhile isC0OrSpace
  have hstrip : strip url = q.dropWhile isSpace ++ c :: rstrip t := by
    rw [strip, hurl, dropWhile_append_stop hspace, rstrip_append hspace]
  have hleft : cleaned (strip url) = (c :: rstrip t).filter fun c => !isUnsafe c := by
    rw [hstrip, cleaned, dropWhile_append_stop hc0, dropWhile_all, List.nil_append]
    exact fun d hd => hprefix d ((List.dropWhile_sublist _).subset hd)
  obtain ⟨v, hv, hspaces⟩ := rstrip_spec t
  have hright : cleaned url = ((c :: rstrip t).filter fun c => !isUnsafe c) ++
      v.filter fun c => !isUnsafe c := by
    rw [cleaned, hrest, ← List.filter_append, List.cons_append, ← hv]
  have hcolon : ':' ∉ v.filter fun c => !isUnsafe c := by
    intro hmem
    cases hspaces ':' (List.mem_of_mem_filter hmem)
  rw [hleft, hright]
  exact splitScheme_append hcolon (hright ▸ h)

theorem scheme_eq (h : urlsplit text url = some split) :
    split.scheme = (splitScheme (cleaned url)).1 := by
  simp only [urlsplit] at h
  split at h
  · cases h
  split at h
  · cases h
  split at h
  · cases h
  · cases h
    rfl

/-- Surrounding white space does not change the scheme of a URL that has one. -/
theorem urlsplit_strip_scheme (ha : urlsplit text url = some a) (hscheme : a.scheme ≠ [])
    (hb : urlsplit text (strip url) = some b) : b.scheme = a.scheme := by
  rw [scheme_eq ha] at hscheme ⊢
  rw [scheme_eq hb, splitScheme_strip hscheme]

/-- With an authority, the path is empty or starts with a slash. -/
theorem path_of_urlsplit (h : urlsplit text url = some split) (hnetloc : split.netloc ≠ []) :
    split.path = [] ∨ ∃ rest, split.path = '/' :: rest := by
  simp only [urlsplit] at h
  split at h
  · cases h
  split at h
  · cases h
  split at h
  · cases h
  cases h
  dsimp only at hnetloc ⊢
  unfold splitNetloc at hnetloc ⊢
  split
  · rename_i rest _
    cases hrest : rest.dropWhile fun c => c ≠ '/' ∧ c ≠ '?' ∧ c ≠ '#' with
    | nil => exact .inl rfl
    | cons d t =>
      have hfirst := List.head?_dropWhile_not (fun c => decide (c ≠ '/' ∧ c ≠ '?' ∧ c ≠ '#')) rest
      rw [hrest] at hfirst
      by_cases hslash : d = '/'
      · subst hslash
        refine .inr ⟨(t.takeWhile (· ≠ '#')).takeWhile (· ≠ '?'), ?_⟩
        rw [List.takeWhile_cons_of_pos (by decide), List.takeWhile_cons_of_pos (by decide)]
      · left
        by_cases hhash : d = '#'
        · subst hhash
          rw [List.takeWhile_cons_of_neg (by decide)]
          rfl
        · have hquestion : d = '?' := by
            by_contra hne
            simp [hslash, hhash, hne] at hfirst
          subst hquestion
          rw [List.takeWhile_cons_of_pos (by decide), List.takeWhile_cons_of_neg (by decide)]
  · rename_i rest hrest
    split at hnetloc
    · rename_i hsome
      exact absurd hsome (hrest _)
    · exact absurd rfl hnetloc

theorem parsePath_slash (h : ∃ rest, split.path = '/' :: rest) :
    ∃ rest, split.parsePath = '/' :: rest := by
  obtain ⟨rest, hrest⟩ := h
  have hlast : ((split.path.reverse.takeWhile (· ≠ '/')).reverse).length < split.path.length := by
    have hreverse : split.path.reverse.length = split.path.length := List.length_reverse
    rw [List.length_reverse, ← hreverse]
    refine lt_of_le_of_ne (List.takeWhile_sublist _).length_le fun heq => ?_
    have hall := List.takeWhile_eq_self_iff.mp ((List.takeWhile_sublist _).eq_of_length heq)
    have hslash := hall '/' (by simp [hrest])
    simp at hslash
  obtain ⟨n, hn⟩ : ∃ n, split.path.length -
      ((split.path.reverse.takeWhile (· ≠ '/')).reverse).length = n + 1 :=
    ⟨_, (Nat.succ_pred_eq_of_pos (Nat.sub_pos_of_lt hlast)).symm⟩
  unfold SplitResult.parsePath
  dsimp only
  rw [hn, hrest]
  split
  · exact ⟨_, rfl⟩
  · exact ⟨rest, rfl⟩

end Strip

end FetchNow.Url
