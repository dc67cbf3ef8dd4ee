import FetchNow.Url.Destination

/-!
# The canonical URL is read back

A URL without its query is stored and parsed again. What the second parse makes of it depends on
the end of the path and on the length bound.
-/
namespace FetchNow.Url

open Transactions

variable {text : Text} {raw hostname scheme path s t : List Char} {port : Option ℕ}
  {allowedSchemes : List (List Char)} {allowedPorts : List ℕ} {maxLength : ℕ}
  {parsed reparsed : ParsedURL} {split : SplitResult} {settings : UrlSettings}

/-! ## The canonical URL -/

def upperHexDigit (n : ℕ) : Char := Char.ofNat (if n < 10 then 48 + n else 55 + n)

/-- What `quote` keeps, with `.-_` declared safe. -/
def isUnreserved (c : Char) : Bool := c.isAlphanum || c = '_' || c = '.' || c = '-' || c = '~'

def quote (s : List Char) : List Char :=
  s.flatMap fun c =>
    if isUnreserved c then [c]
    else (String.utf8EncodeChar c).flatMap fun byte =>
      ['%', upperHexDigit (byte.toNat / 16), upperHexDigit (byte.toNat % 16)]

def canonicalHostForUrl (hostname : List Char) : List Char :=
  if ':' ∈ hostname then '[' :: hostname ++ [']'] else quote hostname

/-- `_build_canonical`; `urlunparse` of a result that has an authority. -/
def buildCanonical (scheme hostname : List Char) (port : Option ℕ) (path : List Char) : List Char :=
  buildUrl scheme hostname port (if path = [] then ['/'] else path) []

def ParsedURL.canonicalWithoutQuery (parsed : ParsedURL) : List Char :=
  buildCanonical parsed.scheme (canonicalHostForUrl parsed.hostname) parsed.port parsed.path

/-- Labels as the idna codec asks for. -/
def LabelsOk (hostname : List Char) : Prop :=
  ∀ label ∈ hostname.splitOn '.', 0 < label.length ∧ label.length < 64

instance (hostname : List Char) : Decidable (LabelsOk hostname) :=
  inferInstanceAs (Decidable (∀ label ∈ hostname.splitOn '.', _))

/-- The idna codec leaves an ASCII name as it is. -/
def EncodesAscii (text : Text) : Prop :=
  ∀ s, isAscii s → LabelsOk s → text.idna s = some s

/-- What the names of the registry have in common. -/
structure RegularHost (hostname : List Char) : Prop where
  plain : PlainHost hostname
  unreserved : hostname.all isUnreserved = true
  stripped : hostname.rdropWhile (· = '.') = hostname
  dots : ¬ ['.', '.'] <:+: hostname ∧ hostname.head? ≠ some '.'
  labels : LabelsOk hostname

instance (hostname : List Char) : Decidable (RegularHost hostname) :=
  decidable_of_iff (PlainHost hostname ∧ hostname.all isUnreserved = true ∧
      hostname.rdropWhile (· = '.') = hostname ∧
      (¬ ['.', '.'] <:+: hostname ∧ hostname.head? ≠ some '.') ∧ LabelsOk hostname)
    ⟨fun ⟨h₁, h₂, h₃, h₄, h₅⟩ => ⟨h₁, h₂, h₃, h₄, h₅⟩, fun ⟨h₁, h₂, h₃, h₄, h₅⟩ =>
      ⟨h₁, h₂, h₃, h₄, h₅⟩⟩

/-- The host is an exact host of a provider. -/
def IsRegistryHost (settings : UrlSettings) (hostname : List Char) : Prop :=
  ∃ provider ∈ (ProviderRegistry.fromSettings settings).providers,
    hostname ∈ provider.exactHostnames.names

theorem IsRegistryHost.regular (h : IsRegistryHost settings hostname) : RegularHost hostname := by
  obtain ⟨provider, hprovider, hname⟩ := h
  have hall : ∀ name ∈ (ProviderRegistry.fromSettings settings).providers.flatMap
      (·.exactHostnames.names), RegularHost name := by
    simp only [ProviderRegistry.fromSettings, vk, rutube, ok, dzen, List.flatMap_cons,
      List.flatMap_nil]
    decide +kernel
  exact hall hostname (List.mem_flatMap.mpr ⟨provider, hprovider, hname⟩)

theorem isUnreserved_ascii {c : Char} (h : isUnreserved c = true) : c.toNat < 128 := by
  simp only [isUnreserved, Bool.or_eq_true, decide_eq_true_eq, isAlphanum_iff] at h
  rcases h with (((h | rfl) | rfl) | rfl) | rfl
  · omega
  all_goals decide

namespace RegularHost

variable (h : RegularHost hostname)
include h

theorem ascii : isAscii hostname :=
  fun c hc => isUnreserved_ascii (List.all_eq_true.mp h.unreserved c hc)

theorem quote_eq : quote hostname = hostname := by
  have hkept : ∀ s : List Char, s.all isUnreserved = true → quote s = s := by
    intro s hs
    induction s with
    | nil => rfl
    | cons c s ih =>
      rw [List.all_cons, Bool.and_eq_true] at hs
      rw [quote, List.flatMap_cons, if_pos hs.1, ← quote, ih hs.2]
      rfl
  exact hkept hostname h.unreserved

theorem canonicalHost_eq : canonicalHostForUrl hostname = hostname := by
  rw [canonicalHostForUrl, if_neg h.plain.no_colon, h.quote_eq]

theorem normalizedHost_eq (hidna : EncodesAscii text) (hlower : text.lower hostname = hostname) :
    normalizedHost text hostname = .ok hostname := by
  have hpercent : '%' ∉ hostname := fun hmem => h.plain.2 '%' hmem (by decide)
  simp only [normalizedHost, if_neg h.plain.no_colon, idnaHostname, h.stripped,
    require_true h.plain.1, require_true hpercent, hidna hostname h.ascii h.labels, hlower,
    require_true (⟨h.plain.1, h.dots⟩ : _ ∧ _), ok_bind]

end RegularHost

/-! ## What `urlsplit` returns -/

theorem toLower_spec (c : Char) : (c.isUpper = true ∧ c.toLower.isLower = true) ∨
    (c.isUpper = false ∧ c.toLower = c) := by
  by_cases h : c.isUpper = true
  · left
    have hrange := isUpper_iff.mp h
    have hshift := toLower_toNat h
    refine ⟨h, isLower_iff.mpr ?_⟩
    omega
  · right
    exact ⟨eq_false_of_ne_true h, toLower_eq_self (eq_false_of_ne_true h)⟩

theorem isLower_not_upper {c : Char} (h : c.isLower = true) : c.isUpper = false := by
  rw [Bool.eq_false_iff, ne_eq, isUpper_iff]
  have hrange := isLower_iff.mp h
  omega

theorem toLower_toLower (c : Char) : c.toLower.toLower = c.toLower := by
  rcases toLower_spec c with ⟨-, hlower⟩ | ⟨hupper, hsame⟩
  · rcases toLower_spec c.toLower with ⟨hup, -⟩ | ⟨-, hsame⟩
    · rw [isLower_not_upper hlower] at hup
      cases hup
    · exact hsame
  · rw [hsame, hsame]

theorem isAlpha_toLower {c : Char} (h : c.isAlpha = true) : c.toLower.isAlpha = true := by
  rcases toLower_spec c with ⟨-, hlower⟩ | ⟨-, hsame⟩
  · exact isAlpha_iff.mpr (.inr (isLower_iff.mp hlower))
  · rwa [hsame]

theorem map_toLower_chars (h : s.all isSchemeChar = true) :
    (s.map Char.toLower).all isSchemeChar = true := by
  rw [List.all_map, List.all_eq_true] at *
  intro c hc
  rcases toLower_spec c with ⟨-, hlower⟩ | ⟨-, hsame⟩
  · have halphanum := isAlphanum_iff.mpr (.inl (.inr (isLower_iff.mp hlower)))
    simp [isSchemeChar, halphanum]
  · rw [Function.comp_apply, hsame]
    exact h c hc

theorem validScheme_of_urlsplit (h : urlsplit text s = some split) (hne : split.scheme ≠ []) :
    ValidScheme split.scheme := by
  rw [scheme_eq h] at hne ⊢
  rw [splitScheme] at hne ⊢
  split at hne
  · rename_i hcond
    rw [if_pos hcond]
    obtain ⟨-, hstart, hchars⟩ := hcond
    refine ⟨?_, map_toLower_chars hchars,
      by simp only [List.map_map, Function.comp_def, toLower_toLower]⟩
    obtain ⟨first, hfirst, halpha⟩ := (Option.any_eq_true _ _).mp hstart
    simp only [List.head?_map, hfirst, Option.map_some, Option.any_some, isAlpha_toLower halpha]
  · exact (hne rfl).elim

theorem path_chars_of_urlsplit (h : urlsplit text s = some split) :
    ∀ c ∈ split.path, c ≠ '?' ∧ c ≠ '#' := by
  simp only [urlsplit] at h
  split at h
  · cases h
  split at h
  · cases h
  split at h
  · cases h
  cases h
  intro c hc
  refine ⟨by simpa using List.mem_takeWhile_imp hc, ?_⟩
  simpa using List.mem_takeWhile_imp ((List.takeWhile_sublist _).subset hc)

/-- The last segment of a path, and what is in front of it. -/
theorem last_segment (path : List Char) : ∃ front, ∃ last : List Char, path = front ++ last ∧
    last = (path.reverse.takeWhile (· ≠ '/')).reverse ∧ '/' ∉ last ∧
    (front = [] ∨ ∃ before, front = before ++ ['/']) := by
  refine ⟨(path.reverse.dropWhile (· ≠ '/')).reverse, _, ?_, rfl, ?_, ?_⟩
  · rw [← List.reverse_append, List.takeWhile_append_dropWhile, List.reverse_reverse]
  · intro hmem
    have hslash := List.mem_takeWhile_imp (List.mem_reverse.mp hmem)
    simp at hslash
  · cases hrest : path.reverse.dropWhile (· ≠ '/') with
    | nil => exact Or.inl rfl
    | cons c rest =>
      have hfirst := List.head?_dropWhile_not (fun c => decide (c ≠ '/')) path.reverse
      rw [hrest] at hfirst
      obtain rfl : c = '/' := by simpa using hfirst
      exact Or.inr ⟨rest.reverse, by simp⟩

theorem takeWhile_segment {front last : List Char} (hlast : '/' ∉ last)
    (hfront : front = [] ∨ ∃ before, front = before ++ ['/']) :
    ((front ++ last).reverse.takeWhile (· ≠ '/')).reverse = last := by
  have hchars : ∀ c ∈ last.reverse, decide (c ≠ '/') = true := by
    intro c hc
    rw [decide_eq_true_eq]
    rintro rfl
    exact hlast (List.mem_reverse.mp hc)
  rcases hfront with rfl | ⟨before, rfl⟩
  · rw [List.nil_append, takeWhile_all hchars, List.reverse_reverse]
  · have hreverse : (before ++ ['/'] ++ last).reverse = last.reverse ++ '/' :: before.reverse := by
      simp
    rw [hreverse, takeWhile_stop hchars (by decide), List.reverse_reverse]

/-- Parameters are cut from the last segment of a path only. -/
theorem parsePath_cut {split : SplitResult} (hscheme : split.scheme ∈ usesParams)
    {front last : List Char} (hpath : split.path = front ++ last) (hlast : '/' ∉ last)
    (hfront : front = [] ∨ ∃ before, front = before ++ ['/']) :
    split.parsePath = front ++ last.takeWhile (· ≠ ';') := by
  have hsegment := takeWhile_segment hlast hfront
  rw [← hpath] at hsegment
  simp only [SplitResult.parsePath, if_pos hscheme, hsegment]
  simp [hpath]

theorem parsePath_sublist (split : SplitResult) : split.parsePath.Sublist split.path := by
  by_cases hscheme : split.scheme ∈ usesParams
  · obtain ⟨front, last, hpath, -, hlast, hfront⟩ := last_segment split.path
    rw [parsePath_cut hscheme hpath hlast hfront, hpath]
    exact (List.Sublist.refl _).append (List.takeWhile_sublist _)
  · rw [SplitResult.parsePath, if_neg hscheme]

/-- A path that was parsed has no parameters left. -/
theorem parsePath_parsePath {again : SplitResult} (hscheme : again.scheme = split.scheme)
    (hpath : again.path = split.parsePath) : again.parsePath = split.parsePath := by
  by_cases hparams : split.scheme ∈ usesParams
  · obtain ⟨front, last, hsplit, -, hlast, hfront⟩ := last_segment split.path
    have hcut := parsePath_cut hparams hsplit hlast hfront
    rw [hcut] at hpath ⊢
    have hslash : '/' ∉ last.takeWhile (· ≠ ';') :=
      fun hmem => hlast ((List.takeWhile_sublist _).subset hmem)
    rw [parsePath_cut (hscheme ▸ hparams) hpath hslash hfront]
    congr 1
    apply takeWhile_all
    intro c hc
    exact List.mem_takeWhile_imp (p := fun c => decide (c ≠ ';')) hc
  · have hplain := hparams
    rw [← hscheme] at hplain
    rw [SplitResult.parsePath, if_neg hplain, hpath]

/-! ## Parsing, in parts -/

def pathOrSlash (split : SplitResult) : List Char :=
  if split.parsePath = [] then ['/'] else split.parsePath

/-- What `parse_and_normalize` went through when it accepted a URL. -/
structure Accepts (text : Text) (allowedSchemes : List (List Char)) (allowedPorts : List ℕ)
    (maxLength : ℕ) (candidate : List Char) (split : SplitResult) (host : List Char)
    (port : Option ℕ) (parsed : ParsedURL) : Prop where
  nonempty : candidate ≠ []
  bounded : candidate.length ≤ maxLength
  absolute : ¬ ['/', '/'] <+: candidate
  splits : urlsplit text candidate = some split
  authority : split.scheme ≠ [] ∧ split.netloc ≠ []
  allowed : split.scheme ∈ allowedSchemes
  anonymous : ¬ split.hasUserinfo
  named : split.hostname text = some host
  normalized : normalizedHost text host = .ok parsed.hostname
  ported : split.port = some port
  normalizedPort : normalizePort split.scheme port allowedPorts = .ok parsed.port
  clean : ¬ (pathOrSlash split).any isControl ∧ ¬ split.query.any isControl
  scheme_eq : parsed.scheme = split.scheme
  path_eq : parsed.path = pathOrSlash split
  query_eq : parsed.query = split.query

theorem parseAndNormalize_eq_ok :
    parseAndNormalize text raw allowedSchemes allowedPorts maxLength = .ok parsed ↔
      ∃ split host port, Accepts text allowedSchemes allowedPorts maxLength (strip raw) split host
        port parsed := by
  constructor
  · intro h
    simp only [parseAndNormalize, bind_eq_ok, require_eq_ok] at h
    obtain ⟨_, hne, _, hlen, _, habs, h⟩ := h
    split at h
    · cases h
    rename_i split hsplit
    simp only [bind_eq_ok, require_eq_ok] at h
    obtain ⟨_, _, _, hauthority, _, hallowed, _, hanonymous, h⟩ := h
    split at h
    · cases h
    rename_i host hhost
    obtain ⟨normalized, hnormalized, h⟩ := bind_eq_ok.mp h
    split at h
    · cases h
    rename_i port hport
    simp only [bind_eq_ok, require_eq_ok] at h
    obtain ⟨normalizedPort, hnormalizedPort, _, hclean, h⟩ := h
    cases h
    exact ⟨split, host, port, hne, hlen, habs, hsplit, hauthority, hallowed, hanonymous, hhost,
      hnormalized, hport, hnormalizedPort, hclean, rfl, rfl, rfl⟩
  · rintro ⟨split, host, port, h⟩
    have hscheme : ¬ ((split.scheme = [] ∨ split.netloc = []) ∧ split.scheme ≠ [] ∧
        split.scheme ∉ allowedSchemes) := fun hbad => hbad.2.2 h.allowed
    have hclean := h.clean
    simp only [pathOrSlash] at hclean
    simp only [parseAndNormalize, require_true h.nonempty, require_true h.bounded,
      require_true h.absolute, h.splits, require_true hscheme, require_true h.authority,
      require_true h.allowed, require_true h.anonymous, h.named, h.normalized, h.ported,
      h.normalizedPort, require_true hclean, ok_bind]
    congr 1
    cases parsed
    simp only [ParsedURL.mk.injEq]
    exact ⟨h.scheme_eq.symm, trivial, trivial, h.path_eq.symm, h.query_eq.symm⟩

theorem normalizePort_again {normalized : Option ℕ}
    (h : normalizePort scheme port allowedPorts = .ok normalized) :
    normalizePort scheme normalized allowedPorts = .ok normalized := by
  cases port with
  | none =>
    obtain ⟨_, hdefault, h⟩ := bind_eq_ok.mp h
    cases h
    exact bind_eq_ok.mpr ⟨(), hdefault, rfl⟩
  | some n =>
    obtain ⟨_, hallowed, h⟩ := bind_eq_ok.mp h
    rw [require_eq_ok] at hallowed
    by_cases hdefault : n = defaultPort scheme
    · rw [if_pos hdefault] at h
      cases h
      exact bind_eq_ok.mpr ⟨(), require_true (hdefault ▸ hallowed), rfl⟩
    · rw [if_neg hdefault] at h
      cases h
      refine bind_eq_ok.mpr ⟨(), require_true hallowed, ?_⟩
      rw [if_neg hdefault]

/-- The port that is written into the canonical URL. -/
def writtenPort (scheme : List Char) (port : Option ℕ) : Option ℕ :=
  if port = some (defaultPort scheme) then none else port

theorem normalizePort_eq_written {normalized : Option ℕ}
    (h : normalizePort scheme port allowedPorts = .ok normalized) :
    normalized = writtenPort scheme port := by
  cases port with
  | none =>
    obtain ⟨_, _, h⟩ := bind_eq_ok.mp h
    cases h
    simp [writtenPort]
  | some n =>
    obtain ⟨_, _, h⟩ := bind_eq_ok.mp h
    cases h
    simp [writtenPort]

namespace Accepts

variable {host : List Char} (h : Accepts text allowedSchemes allowedPorts maxLength s split host
  port parsed)
include h

theorem path_slash : ∃ rest, parsed.path = '/' :: rest := by
  rw [h.path_eq, pathOrSlash]
  by_cases hempty : split.parsePath = []
  · rw [if_pos hempty]
    exact ⟨[], rfl⟩
  · rw [if_neg hempty]
    rcases path_of_urlsplit h.splits h.authority.2 with hnil | hslash
    · have hsub := parsePath_sublist split
      rw [hnil, List.sublist_nil] at hsub
      exact (hempty hsub).elim
    · exact parsePath_slash hslash

theorem path_chars : ∀ c ∈ parsed.path, c ≠ '?' ∧ c ≠ '#' ∧ isControl c = false := by
  intro c hc
  rw [h.path_eq] at hc
  have hcontrol : isControl c = false := by
    by_contra hbad
    exact h.clean.1 (List.any_eq_true.mpr ⟨c, hc, by simpa using hbad⟩)
  have hdelim : c ≠ '?' ∧ c ≠ '#' := by
    rw [pathOrSlash] at hc
    split at hc
    · rw [List.mem_singleton] at hc
      subst hc
      exact ⟨by decide, by decide⟩
    · exact path_chars_of_urlsplit h.splits c ((parsePath_sublist split).subset hc)
  exact ⟨hdelim.1, hdelim.2, hcontrol⟩

/-- The path of a URL is the path of whatever has it as its path. -/
theorem path_again {again : SplitResult} (hscheme : again.scheme = split.scheme)
    (hpath : again.path = parsed.path) : pathOrSlash again = parsed.path := by
  have hsame : again.parsePath = parsed.path := by
    rw [h.path_eq] at hpath ⊢
    rw [pathOrSlash] at hpath ⊢
    by_cases hempty : split.parsePath = []
    · rw [if_pos hempty] at hpath ⊢
      by_cases hparams : again.scheme ∈ usesParams
      · exact @parsePath_cut _ hparams ['/'] []  hpath (by simp)
          (Or.inr ⟨[], rfl⟩)
      · rw [SplitResult.parsePath, if_neg hparams, hpath]
    · rw [if_neg hempty] at hpath ⊢
      exact parsePath_parsePath hscheme hpath
  obtain ⟨rest, hrest⟩ := h.path_slash
  rw [pathOrSlash, hsame, if_neg (by simp [hrest])]

end Accepts

/-! ## Parsing the canonical URL -/

theorem canonical_eq (hhost : RegularHost parsed.hostname)
    (hpath : ∃ rest, parsed.path = '/' :: rest) :
    parsed.canonicalWithoutQuery =
      buildUrl parsed.scheme parsed.hostname parsed.port parsed.path [] := by
  obtain ⟨rest, hrest⟩ := hpath
  rw [ParsedURL.canonicalWithoutQuery, buildCanonical, hhost.canonicalHost_eq,
    if_neg (by simp [hrest])]

theorem strip_buildUrl (hscheme : ValidScheme scheme) :
    strip (buildUrl scheme hostname port ('/' :: t) []) =
      buildUrl scheme hostname port ('/' :: rstrip t) [] := by
  obtain ⟨first, rest, rfl, halpha⟩ := hscheme.eq_cons
  have hstart : ∀ path, (buildUrl (first :: rest) hostname port path []).dropWhile isSpace =
      buildUrl (first :: rest) hostname port path [] := by
    intro path
    exact List.dropWhile_cons_of_neg (by simp [(isAlpha_spec halpha).2.1])
  have hsplit : ∀ t, buildUrl (first :: rest) hostname port ('/' :: t) [] =
      (first :: rest ++ ':' :: '/' :: '/' :: (hostname ++ portText port)) ++ '/' :: t := by
    intro t
    simp [buildUrl, queryText]
  rw [strip, hstart, hsplit, rstrip_append (by decide), ← hsplit]

theorem urlsplit_canonical (hscheme : ValidScheme scheme) (hhost : RegularHost hostname)
    (hslash : ∃ rest, path = '/' :: rest)
    (hchars : ∀ c ∈ path, c ≠ '?' ∧ c ≠ '#' ∧ isControl c = false) :
    urlsplit text (buildUrl scheme hostname port path []) =
      some ⟨scheme, hostname ++ portText port, path, []⟩ := by
  have hquestion : ∀ c ∈ path, decide (c ≠ '?') = true := fun c hc => by simp [(hchars c hc).1]
  have hhash : ∀ c ∈ path, decide (c ≠ '#') = true := fun c hc => by simp [(hchars c hc).2.1]
  have hsafe : ∀ c ∈ path ++ [], isUnsafe c = false := by
    intro c hc
    rw [List.append_nil] at hc
    exact isUnsafe_of_not_control (hchars c hc).2.2
  rw [urlsplit_build hscheme hhost.plain hhost.ascii hslash hsafe]
  simp only [queryText, if_true, List.append_nil, takeWhile_all hhash, takeWhile_all hquestion,
    dropWhile_all hquestion, List.drop_nil]

/-- The second parse yields the first one's result, without a query. -/
def FixedPoint (text : Text) (allowedSchemes : List (List Char)) (allowedPorts : List ℕ)
    (maxLength : ℕ) (parsed : ParsedURL) : Prop :=
  ∃ reparsed, parseAndNormalize text parsed.canonicalWithoutQuery allowedSchemes allowedPorts
      maxLength = .ok reparsed ∧
    reparsed.scheme = parsed.scheme ∧ reparsed.hostname = parsed.hostname ∧
    reparsed.port = parsed.port ∧ reparsed.path = parsed.path ∧
    reparsed.canonicalWithoutQuery = parsed.canonicalWithoutQuery ∧ reparsed.query = []

/-- The path of the raw URL does not end in white space, and what is rebuilt from its scheme, its
host, its port and its path is not too long. -/
def StaysParsable (text : Text) (maxLength : ℕ) (raw : List Char) : Prop :=
  ∃ split host asciiHost port, urlsplit text (strip raw) = some split ∧
    split.hostname text = some host ∧ normalizedHost text host = .ok asciiHost ∧
    split.port = some port ∧ (∀ c ∈ split.parsePath.getLast?, isSpace c = false) ∧
    (buildUrl split.scheme asciiHost (writtenPort split.scheme port)
      (pathOrSlash split) []).length ≤ maxLength

namespace Accepts

variable {host : List Char} (h : Accepts text allowedSchemes allowedPorts maxLength s split host
  port parsed)
include h

theorem validScheme : ValidScheme parsed.scheme := by
  rw [h.scheme_eq]
  exact validScheme_of_urlsplit h.splits h.authority.1

theorem port_le : ∀ n ∈ parsed.port, n ≤ 65535 :=
  fun n hn => ((normalizePort_sound h.normalizedPort (Url.port_le h.ported)).1 n hn).2

/-- What was accepted is accepted again from its canonical URL, if that is not too long. -/
theorem again (hhost : RegularHost parsed.hostname) (hidna : EncodesAscii text)
    (hbound : (buildUrl parsed.scheme parsed.hostname parsed.port parsed.path []).length ≤
      maxLength) :
    Accepts text allowedSchemes allowedPorts maxLength
      (buildUrl parsed.scheme parsed.hostname parsed.port parsed.path [])
      ⟨parsed.scheme, parsed.hostname ++ portText parsed.port, parsed.path, []⟩ parsed.hostname
      parsed.port { parsed with query := [] } := by
  have hlower := (normalizedHost_sound h.normalized).1.2
  have hsplits := @urlsplit_canonical text _ _ _ parsed.port h.validScheme hhost
    h.path_slash h.path_chars
  obtain ⟨first, rest, hfirst, halpha⟩ := h.validScheme.eq_cons
  refine ⟨?_, hbound, ?_, hsplits, ⟨?_, ?_⟩, ?_, ?_, ?_, hhost.normalizedHost_eq hidna hlower,
    ?_, ?_, ⟨?_, ?_⟩, rfl, ?_, rfl⟩
  · simp [buildUrl, hfirst]
  · rw [buildUrl, hfirst, List.cons_append, List.cons_prefix_cons]
    rintro ⟨rfl, -⟩
    cases halpha
  · simp [hfirst]
  · simp [hhost.plain.1]
  · rw [h.scheme_eq]
    exact h.allowed
  · exact fun hmem => authority_ne hhost.plain (by decide) (by decide) (by decide) _ hmem rfl
  · rw [hostname_of_netloc hhost.plain rfl, hlower]
  · exact port_of_netloc hhost.plain h.port_le rfl
  · rw [h.scheme_eq]
    exact normalizePort_again h.normalizedPort
  · rw [h.path_again h.scheme_eq rfl, List.any_eq_true]
    rintro ⟨c, hc, hcontrol⟩
    rw [(h.path_chars c hc).2.2] at hcontrol
    cases hcontrol
  · simp
  · exact (h.path_again h.scheme_eq rfl).symm

theorem staysParsable_iff (hs : s = strip raw) : StaysParsable text maxLength raw ↔
    (∀ c ∈ split.parsePath.getLast?, isSpace c = false) ∧
      (buildUrl parsed.scheme parsed.hostname parsed.port parsed.path []).length ≤ maxLength := by
  have hbuild : buildUrl parsed.scheme parsed.hostname parsed.port parsed.path [] =
      buildUrl split.scheme parsed.hostname (writtenPort split.scheme port)
        (pathOrSlash split) [] := by
    rw [h.scheme_eq, h.path_eq, normalizePort_eq_written h.normalizedPort]
  rw [hbuild]
  subst hs
  constructor
  · rintro ⟨split', host', asciiHost, port', hsplit, hhost, hascii, hport, hspace, hbound⟩
    rw [h.splits] at hsplit
    cases hsplit
    rw [h.named] at hhost
    cases hhost
    rw [h.normalized] at hascii
    cases hascii
    rw [h.ported] at hport
    cases hport
    exact ⟨hspace, hbound⟩
  · rintro ⟨hspace, hbound⟩
    exact ⟨split, host, parsed.hostname, port, h.splits, h.named, h.normalized, h.ported, hspace,
      hbound⟩

end Accepts

namespace Accepts

variable {host : List Char} (h : Accepts text allowedSchemes allowedPorts maxLength s split host
  port parsed)
include h

/-- The end of the path that was read is the end of the path that is written. -/
theorem ends_iff (hpath : parsed.path = '/' :: t) :
    (∀ c ∈ split.parsePath.getLast?, isSpace c = false) ↔ rstrip t = t := by
  rw [h.path_eq, pathOrSlash] at hpath
  by_cases hempty : split.parsePath = []
  · rw [if_pos hempty] at hpath
    cases hpath
    simp [hempty, rstrip]
  · rw [if_neg hempty] at hpath
    rw [hpath]
    constructor
    · intro hlast
      apply rstrip_eq_self
      exact fun c hc => hlast c (List.mem_getLast?_cons hc)
    · intro hkept c hc
      rcases List.eq_nil_or_concat t with rfl | ⟨front, d, rfl⟩
      · obtain rfl : '/' = c := by simpa using hc
        decide
      · rw [List.concat_eq_append] at *
        by_contra hspace
        have hlt := length_rstrip_lt (t := front ++ [d]) (c := c) (by simpa [List.getLast?_cons] using hc)
          (by simpa using hspace)
        rw [hkept] at hlt
        exact lt_irrefl _ hlt

/-- A path that loses its end is not read back. -/
theorem rstrip_of_path (hhost : RegularHost hostname) (hscheme : ValidScheme scheme)
    {written : Option ℕ} (hs : s = buildUrl scheme hostname written ('/' :: rstrip t) [])
    (hchars : ∀ c ∈ '/' :: t, c ≠ '?' ∧ c ≠ '#' ∧ isControl c = false)
    (hpath : parsed.path = '/' :: t) : rstrip t = t := by
  obtain ⟨v, hv, -⟩ := rstrip_spec t
  have hsub : (rstrip t).Sublist t := by
    conv_rhs => rw [hv]
    exact List.sublist_append_left _ _
  have hsplit := @urlsplit_canonical text _ _ _ written hscheme hhost ⟨_, rfl⟩
    fun c hc => hchars c ((hsub.cons_cons '/').subset hc)
  rw [← hs, h.splits] at hsplit
  cases hsplit
  have hle : parsed.path.length ≤ ('/' :: rstrip t).length := by
    rw [h.path_eq, pathOrSlash]
    split
    · simp
    · exact (parsePath_sublist _).length_le
  rw [hpath, List.length_cons, List.length_cons] at hle
  exact hsub.eq_of_length_le (by omega)

end Accepts

/-- An accepted URL of a registered host is a fixed point exactly when its path does not end in
white space and the canonical URL is within the length bound. -/
theorem fixedPoint_iff (hidna : EncodesAscii text)
    (hparsed : parseAndNormalize text raw allowedSchemes allowedPorts maxLength = .ok parsed)
    (hregistry : IsRegistryHost settings parsed.hostname) :
    FixedPoint text allowedSchemes allowedPorts maxLength parsed ↔
      StaysParsable text maxLength raw := by
  have hhost := hregistry.regular
  obtain ⟨split, host, port, h⟩ := parseAndNormalize_eq_ok.mp hparsed
  rw [h.staysParsable_iff rfl]
  have hcanonical := canonical_eq hhost h.path_slash
  obtain ⟨rest, hrest⟩ := h.path_slash
  have hstrip : strip parsed.canonicalWithoutQuery =
      buildUrl parsed.scheme parsed.hostname parsed.port ('/' :: rstrip rest) [] := by
    rw [hcanonical, hrest, strip_buildUrl h.validScheme]
  rw [h.ends_iff hrest]
  constructor
  · rintro ⟨reparsed, hreparsed, -, -, -, hpath, -, -⟩
    obtain ⟨split', host', port', h'⟩ := parseAndNormalize_eq_ok.mp hreparsed
    have hkept : rstrip rest = rest := by
      apply h'.rstrip_of_path hhost h.validScheme hstrip _ (hpath.trans hrest)
      rw [← hrest]
      exact h.path_chars
    have hbound := h'.bounded
    rw [hstrip, hkept, ← hrest] at hbound
    exact ⟨hkept, hbound⟩
  · rintro ⟨hkept, hbound⟩
    rw [hkept, ← hrest] at hstrip
    have hagain := h.again hhost hidna hbound
    rw [← hstrip] at hagain
    refine ⟨_, parseAndNormalize_eq_ok.mpr ⟨_, _, _, hagain⟩, rfl, rfl, rfl, rfl, rfl, rfl⟩

section Sample

theorem mem_map_toLower {c : Char} (hc : c ∈ delimiters) : c ∈ s.map Char.toLower ↔ c ∈ s := by
  have hcase : (delimiters.all fun d => !d.isUpper && !d.isLower) = true := by decide
  obtain ⟨hupper, hlower⟩ : c.isUpper = false ∧ c.isLower = false := by
    simpa using List.all_eq_true.mp hcase c hc
  rw [List.mem_map]
  constructor
  · rintro ⟨d, hd, rfl⟩
    rcases toLower_spec d with ⟨-, hd'⟩ | ⟨-, hsame⟩
    · rw [hlower] at hd'
      cases hd'
    · rwa [hsame]
  · intro hmem
    refine ⟨c, hmem, ?_⟩
    rcases toLower_spec c with ⟨hc', -⟩ | ⟨-, hsame⟩
    · rw [hupper] at hc'
      cases hc'
    · exact hsame

theorem isAscii_map_toLower (h : isAscii s) : isAscii (s.map Char.toLower) := by
  intro c hc
  obtain ⟨d, hd, rfl⟩ := List.mem_map.mp hc
  rcases toLower_spec d with ⟨-, hlower⟩ | ⟨-, hsame⟩
  · have halphanum := isAlphanum_iff.mpr (.inl (.inr (isLower_iff.mp hlower)))
    exact isUnreserved_ascii (by simp [isUnreserved, halphanum])
  · rw [hsame]
    exact h d hd

/-- The functions of `str` and of the codec on ASCII text. -/
def asciiText : Text where
  lower := List.map Char.toLower
  idna s := if s.all (fun c => c.toNat < 128) = true ∧ LabelsOk s then some s else none
  checkNetloc s := s.all fun c => c.toNat < 128
  checkBracketedNetloc _ := true
  lower_lower s := by simp only [List.map_map, Function.comp_def, toLower_toLower]
  lower_delimiters _ _ hc := mem_map_toLower hc
  lower_ascii _ h := isAscii_map_toLower h
  idna_ascii s t h := by
    split at h
    · rename_i hascii
      cases h
      intro c hc
      simpa using List.all_eq_true.mp hascii.1 c hc
    · cases h
  checkNetloc_ascii s h := by
    rw [List.all_eq_true]
    exact fun c hc => by simpa using h c hc

theorem encodesAscii_asciiText : EncodesAscii asciiText := by
  intro s hascii hlabels
  have hall : s.all (fun c => c.toNat < 128) = true := by
    rw [List.all_eq_true]
    exact fun c hc => by simpa using hascii c hc
  exact if_pos ⟨hall, hlabels⟩

def allProviders : UrlSettings where
  urlAllowedSchemes := [http, https]
  urlAllowedPorts := [80, 443]
  urlMaxLength := 4096
  urlMaxRedirects := 5
  providerVkEnabled := true
  providerRutubeEnabled := true
  providerOkEnabled := true
  providerDzenEnabled := true
  outboundAllowedContentTypes := ["text/html".toList]
  outboundProbeBodyBytes := 65536
  outboundMaxResponseBytes := 1048576
  schemes := http_or_https

def watchUrl : ParsedURL := ⟨https, "vk.com".toList, none, "/video-1_2".toList, "t=3".toList⟩

theorem isRegistryHost_vk : IsRegistryHost allProviders "vk.com".toList :=
  ⟨vk allProviders, by simp [ProviderRegistry.fromSettings], by simp [vk]⟩

end Sample

theorem fixedPoint_watch_url :
    FixedPoint asciiText [https] [443] 4096 watchUrl ↔
      StaysParsable asciiText 4096 "https://vk.com/video-1_2?t=3".toList :=
  fixedPoint_iff encodesAscii_asciiText (by decide +kernel)
    isRegistryHost_vk

/-- The blank in front of the query is lost with it. -/
theorem blank_before_query :
    parseAndNormalize asciiText "https://vk.com/video-1_2 ?t=3".toList [https] [443] 4096 =
      .ok { watchUrl with path := "/video-1_2 ".toList } ∧
    IsRegistryHost allProviders "vk.com".toList ∧
    ¬ FixedPoint asciiText [https] [443] 4096 { watchUrl with path := "/video-1_2 ".toList } := by
  have hparse : parseAndNormalize asciiText "https://vk.com/video-1_2 ?t=3".toList [https] [443]
      4096 = .ok { watchUrl with path := "/video-1_2 ".toList } := by decide +kernel
  refine ⟨hparse, isRegistryHost_vk, ?_⟩
  have hagain : parseAndNormalize asciiText
      (ParsedURL.canonicalWithoutQuery { watchUrl with path := "/video-1_2 ".toList }) [https]
      [443] 4096 = .ok { watchUrl with query := [] } := by decide +kernel
  rintro ⟨reparsed, hreparsed, -, -, -, hpath, -⟩
  rw [hagain] at hreparsed
  cases hreparsed
  revert hpath
  decide

end FetchNow.Url
