import FetchNow.Theory.Segments
import FetchNow.Url.Canonical

/-!
# Admission of URLs

What `parse_and_normalize` raises, and whether the fetchers' URL means the host that was checked.
-/
namespace FetchNow.Url

open Transactions

variable {text : Text} {raw hostname asciiHost scheme path query s t : List Char} {port : Option ℕ}
  {allowedSchemes : List (List Char)} {allowedPorts : List ℕ} {maxLength : ℕ}
  {parsed : ParsedURL} {split : SplitResult} {host : List Char}

/-- The URL of a request names the parts of the URL that was parsed. -/
structure ReadsBack (text : Text) (parsed : ParsedURL) (split : SplitResult) : Prop where
  splits : urlsplit text
    (buildUrl parsed.scheme parsed.hostname parsed.port parsed.path parsed.query) = some split
  scheme : split.scheme = parsed.scheme
  hostname : split.hostname text = some parsed.hostname
  port : split.port = some parsed.port
  path : split.path = parsed.path
  query : split.query = parsed.query

structure ParsedURL.WellFormed (text : Text) (allowedSchemes : List (List Char))
    (allowedPorts : List ℕ) (parsed : ParsedURL) : Prop where
  scheme : parsed.scheme ∈ allowedSchemes
  port : parsed.port.getD (defaultPort parsed.scheme) ∈ allowedPorts
  lowered : text.lower parsed.hostname = parsed.hostname
  ascii : isAscii parsed.hostname
  clean : '%' ∉ parsed.hostname ∧ '@' ∉ parsed.hostname
  labels : [] ∉ parsed.hostname.splitOn '.'
  path : ∃ rest, parsed.path = '/' :: rest
  readsBack : ∃ split, ReadsBack text parsed split

/-- A validation error or a well-formed value; nothing else is raised. -/
def Catalogued (text : Text) (allowedSchemes : List (List Char)) (allowedPorts : List ℕ) :
    Except UrlError ParsedURL → Prop
  | .error (.validation _ _) => True
  | .error _ => False
  | .ok parsed => parsed.WellFormed text allowedSchemes allowedPorts

/-! ## The condition -/

/-- `urlsplit` is reached. -/
def ReachesSplit (maxLength : ℕ) (candidate : List Char) : Prop :=
  candidate ≠ [] ∧ candidate.length ≤ maxLength ∧ ¬ ['/', '/'] <+: candidate

/-- The checks on a URL, up to those on the form of its host. -/
structure Checked (text : Text) (allowedSchemes : List (List Char)) (allowedPorts : List ℕ)
    (maxLength : ℕ) (candidate : List Char) (split : SplitResult) (host : List Char) : Prop where
  reached : ReachesSplit maxLength candidate
  splits : urlsplit text candidate = some split
  authority : split.scheme ≠ [] ∧ split.netloc ≠ []
  allowed : split.scheme ∈ allowedSchemes
  anonymous : ¬ split.hasUserinfo
  named : split.hostname text = some host
  ported : ∃ port, split.port = some port ∧ port.getD (defaultPort split.scheme) ∈ allowedPorts
  clean : ¬ (pathOrSlash split).any isControl ∧ ¬ split.query.any isControl

/-- A host without its final dots has an IDNA form that is no evident misspelling. -/
structure Encodes (text : Text) (host asciiHost : List Char) : Prop where
  nonempty : host.rdropWhile (· = '.') ≠ []
  percent : '%' ∉ host.rdropWhile (· = '.')
  encoded : ∃ encoded, text.idna (host.rdropWhile (· = '.')) = some encoded ∧
    asciiHost = text.lower encoded
  labels : asciiHost ≠ [] ∧ ¬ ['.', '.'] <:+: asciiHost ∧ asciiHost.head? ≠ some '.'

/-- The host is no IPv6 address, and its IDNA form has no delimiter and no final dot. -/
def HostReadable (text : Text) (host : List Char) : Prop :=
  ':' ∉ host ∧ ∀ asciiHost, Encodes text host asciiHost →
    (∀ c ∈ asciiHost, c ∉ delimiters) ∧ asciiHost.getLast? ≠ some '.'

theorem idnaHostname_eq_ok : idnaHostname text host = .ok asciiHost ↔ Encodes text host asciiHost := by
  constructor
  · intro h
    simp only [idnaHostname, bind_eq_ok, require_eq_ok] at h
    obtain ⟨_, hne, _, hpercent, h⟩ := h
    split at h
    · cases h
    rename_i encoded hencoded
    simp only [bind_eq_ok, require_eq_ok] at h
    obtain ⟨_, hlabels, h⟩ := h
    cases h
    exact ⟨hne, hpercent, ⟨encoded, hencoded, rfl⟩, hlabels⟩
  · rintro ⟨hne, hpercent, ⟨encoded, hencoded, rfl⟩, hlabels⟩
    simp only [idnaHostname, require_true hne, require_true hpercent, hencoded,
      require_true hlabels, ok_bind]

theorem normalizePort_of_allowed (h : port.getD (defaultPort scheme) ∈ allowedPorts) :
    normalizePort scheme port allowedPorts = .ok (writtenPort scheme port) := by
  cases port with
  | none => exact bind_eq_ok.mpr ⟨(), require_true h, by simp [writtenPort]⟩
  | some n => exact bind_eq_ok.mpr ⟨(), require_true h, by simp [writtenPort]⟩

theorem Checked.accepts
    (h : Checked text allowedSchemes allowedPorts maxLength s split host)
    (hname : normalizedHost text host = .ok hostname) :
    ∃ port parsed, Accepts text allowedSchemes allowedPorts maxLength s split host port parsed ∧
      parsed.hostname = hostname := by
  obtain ⟨port, hport, hallowed⟩ := h.ported
  refine ⟨port, ⟨split.scheme, hostname, writtenPort split.scheme port, pathOrSlash split,
    split.query⟩, ?_, rfl⟩
  exact ⟨h.reached.1, h.reached.2.1, h.reached.2.2, h.splits, h.authority, h.allowed, h.anonymous,
    h.named, hname, hport, normalizePort_of_allowed hallowed, h.clean, rfl, rfl, rfl⟩

namespace Accepts

variable (h : Accepts text allowedSchemes allowedPorts maxLength s split host port parsed)
include h

theorem port_allowed : port.getD (defaultPort split.scheme) ∈ allowedPorts := by
  have hnormalized := h.normalizedPort
  cases port with
  | none =>
    obtain ⟨_, hdefault, -⟩ := bind_eq_ok.mp hnormalized
    exact require_eq_ok.mp hdefault
  | some n =>
    obtain ⟨_, hallowed, -⟩ := bind_eq_ok.mp hnormalized
    exact require_eq_ok.mp hallowed

theorem checked : Checked text allowedSchemes allowedPorts maxLength s split host :=
  ⟨⟨h.nonempty, h.bounded, h.absolute⟩, h.splits, h.authority, h.allowed, h.anonymous, h.named,
    ⟨port, h.ported, h.port_allowed⟩, h.clean⟩

/-- The port that is written stands for the port that was allowed. -/
theorem effective_port : parsed.port.getD (defaultPort parsed.scheme) ∈ allowedPorts := by
  have hallowed := h.port_allowed
  rw [normalizePort_eq_written h.normalizedPort, h.scheme_eq, writtenPort]
  split
  · rename_i hdefault
    rw [hdefault] at hallowed
    exact hallowed
  · exact hallowed

end Accepts

/-! ## What is raised -/

/-- Whatever is raised is a validation error, unless `urlsplit` raises. -/
theorem avoids_parseAndNormalize
    (h : ReachesSplit maxLength (strip raw) → (urlsplit text (strip raw)).isSome) :
    Avoids (fun e => ∀ code reason, e ≠ .validation code reason)
      (parseAndNormalize text raw allowedSchemes allowedPorts maxLength) := by
  have hvalidation : ∀ code, ¬ ∀ code' reason, validationError code ≠ .validation code' reason :=
    fun code hbad => hbad code none rfl
  refine Avoids.require_bind (hvalidation _) fun hne => ?_
  refine Avoids.require_bind (hvalidation _) fun hlen => ?_
  refine Avoids.require_bind (hvalidation _) fun habs => ?_
  obtain ⟨split, hsplit⟩ := Option.isSome_iff_exists.mp (h ⟨hne, hlen, habs⟩)
  rw [hsplit]
  refine Avoids.require_bind (hvalidation _) fun _ => ?_
  refine Avoids.require_bind (hvalidation _) fun _ => ?_
  refine Avoids.require_bind (hvalidation _) fun _ => ?_
  refine Avoids.require_bind (hvalidation _) fun _ => ?_
  cases split.hostname text with
  | none => exact avoids_error.mpr (hvalidation _)
  | some host =>
    refine Avoids.bind ?_ fun name _ => ?_
    · rw [normalizedHost]
      split
      · exact avoids_ok
      · refine Avoids.require_bind (hvalidation _) fun _ => ?_
        refine Avoids.require_bind (hvalidation _) fun _ => ?_
        split
        · exact avoids_error.mpr (hvalidation _)
        · exact Avoids.require_bind (hvalidation _) fun _ => avoids_ok
    · cases split.port with
      | none => exact avoids_error.mpr (hvalidation _)
      | some port =>
        refine Avoids.bind ?_ fun written _ => ?_
        · cases port <;> exact Avoids.require_bind (hvalidation _) fun _ => avoids_ok
        · exact Avoids.require_bind (hvalidation _) fun _ => avoids_ok

theorem parseAndNormalize_of_none (hreached : ReachesSplit maxLength (strip raw))
    (hsplit : urlsplit text (strip raw) = none) :
    parseAndNormalize text raw allowedSchemes allowedPorts maxLength = .error .valueError := by
  obtain ⟨hne, hlen, habs⟩ := hreached
  simp only [parseAndNormalize, require_true hne, require_true hlen, require_true habs, hsplit,
    ok_bind]

/-! ## The host that is read back -/

theorem hostinfo_sublist (split : SplitResult) : split.hostinfo.1.Sublist split.netloc := by
  have hport : split.hostport.Sublist split.netloc := by
    have htail := List.takeWhile_sublist (l := split.netloc.reverse) (p := (· ≠ '@'))
    simpa [SplitResult.hostport] using htail.reverse
  refine List.Sublist.trans ?_ hport
  simp only [SplitResult.hostinfo]
  split
  · exact (List.takeWhile_sublist _).trans ((List.drop_sublist _ _).trans (List.dropWhile_sublist _))
  · exact List.takeWhile_sublist _

/-- The case of a name does not matter to the delimiters in it. -/
theorem mem_hostname {c : Char} (h : split.hostname text = some host) (hc : c ∈ delimiters) :
    c ∈ host ↔ c ∈ split.hostinfo.1 := by
  simp only [SplitResult.hostname] at h
  split at h
  · cases h
  · cases h
    conv_rhs => rw [← List.takeWhile_append_dropWhile (p := (· ≠ '%')) (l := split.hostinfo.1)]
    rw [List.mem_append, List.mem_append, text.lower_delimiters _ c hc]

theorem netloc_chars (h : urlsplit text s = some split) :
    ∀ c ∈ split.netloc, (c ≠ '/' ∧ c ≠ '?' ∧ c ≠ '#') ∧ isUnsafe c = false := by
  intro c hc
  simp only [urlsplit] at h
  split at h
  · cases h
  split at h
  · cases h
  split at h
  · cases h
  cases h
  dsimp only [splitNetloc] at hc
  have hrest : ∀ d ∈ (splitScheme (cleaned s)).2, isUnsafe d = false := by
    intro d hd
    have hmem : d ∈ cleaned s := by
      simp only [splitScheme] at hd
      split at hd
      · exact List.mem_of_mem_drop hd
      · exact hd
    simpa using (List.mem_filter.mp hmem).2
  split at hc
  · rename_i rest hparts
    refine ⟨by simpa using List.mem_takeWhile_imp hc, hrest c ?_⟩
    rw [hparts]
    exact List.mem_cons_of_mem _ (List.mem_cons_of_mem _ ((List.takeWhile_sublist _).subset hc))
  · cases hc

/-- The authority of a URL ends where its path begins. -/
theorem netloc_eq (hscheme : ValidScheme scheme)
    (hhost : ∀ c ∈ s, (c ≠ '/' ∧ c ≠ '?' ∧ c ≠ '#') ∧ isUnsafe c = false)
    (ht : ∀ c ∈ t, isUnsafe c = false)
    (h : urlsplit text (scheme ++ ':' :: '/' :: '/' :: (s ++ '/' :: t)) = some split) :
    split.netloc = s ∧ ('[' ∈ s ↔ ']' ∈ s) := by
  have hsafe : ∀ c ∈ '/' :: '/' :: (s ++ '/' :: t), isUnsafe c = false := by
    intro c hc
    simp only [List.mem_cons, List.mem_append] at hc
    rcases hc with rfl | rfl | hc | rfl | hc
    · rfl
    · rfl
    · exact (hhost c hc).2
    · rfl
    · exact ht c hc
  have hne : ∀ c ∈ s, decide (c ≠ '/' ∧ c ≠ '?' ∧ c ≠ '#') = true := by
    intro c hc
    rw [decide_eq_true_eq]
    exact (hhost c hc).1
  have hparts : splitNetloc ('/' :: '/' :: (s ++ '/' :: t)) = (s, '/' :: t) := by
    rw [splitNetloc, takeWhile_stop hne (by decide), dropWhile_stop hne (by decide)]
  simp only [urlsplit, cleaned_build hscheme hsafe, splitScheme_build hscheme, hparts] at h
  split at h
  · cases h
  rename_i hbrackets
  split at h
  · cases h
  split at h
  · cases h
  cases h
  refine ⟨rfl, ?_⟩
  rw [not_or, not_and_not_right, not_and_not_right] at hbrackets
  exact ⟨hbrackets.1, hbrackets.2⟩

/-- A host that is read back from a URL without userinfo has no bracket and no colon. -/
theorem plain_of_hostinfo (hat : '@' ∉ split.netloc)
    (hbrackets : '[' ∈ split.netloc ↔ ']' ∈ split.netloc)
    (hname : ']' ∈ split.netloc → ']' ∈ split.hostinfo.1) :
    '[' ∉ split.netloc ∧ ']' ∉ split.netloc ∧ ':' ∉ split.hostinfo.1 := by
  have hport : split.hostport = split.netloc := by
    rw [SplitResult.hostport, takeWhile_all, List.reverse_reverse]
    intro c hc
    rw [decide_eq_true_eq]
    rintro rfl
    exact hat (List.mem_reverse.mp hc)
  have hopen : '[' ∉ split.netloc := by
    intro hopen
    have hclose := hname (hbrackets.mp hopen)
    simp only [SplitResult.hostinfo, hport, if_pos hopen] at hclose
    simpa using List.mem_takeWhile_imp hclose
  refine ⟨hopen, fun hclose => hopen (hbrackets.mpr hclose), fun hcolon => ?_⟩
  simp only [SplitResult.hostinfo, hport, if_neg hopen] at hcolon
  simpa using List.mem_takeWhile_imp hcolon

/-! ## Admission -/

theorem query_chars_of_urlsplit (h : urlsplit text s = some split) : '#' ∉ split.query := by
  simp only [urlsplit] at h
  split at h
  · cases h
  split at h
  · cases h
  split at h
  · cases h
  cases h
  intro hmem
  have hrest := (List.dropWhile_sublist _).subset (List.mem_of_mem_drop hmem)
  simpa using List.mem_takeWhile_imp hrest

namespace Accepts

variable (h : Accepts text allowedSchemes allowedPorts maxLength s split host port parsed)
include h

theorem query_chars : ∀ c ∈ parsed.query, c ≠ '#' ∧ isControl c = false := by
  rw [h.query_eq]
  intro c hc
  refine ⟨?_, ?_⟩
  · rintro rfl
    exact query_chars_of_urlsplit h.splits hc
  · by_contra hbad
    exact h.clean.2 (List.any_eq_true.mpr ⟨c, hc, by simpa using hbad⟩)

theorem safe : ∀ c ∈ parsed.path ++ parsed.query, isUnsafe c = false := by
  intro c hc
  apply isUnsafe_of_not_control
  rcases List.mem_append.mp hc with hc | hc
  · exact (h.path_chars c hc).2.2
  · exact (h.query_chars c hc).2

theorem safe_request : ∀ c ∈ parsed.path ++ queryText parsed.query, isUnsafe c = false := by
  intro c hc
  rcases List.mem_append.mp hc with hc | hc
  · exact h.safe c (List.mem_append_left _ hc)
  · rw [queryText] at hc
    split at hc
    · cases hc
    · rcases List.mem_cons.mp hc with rfl | hc
      · rfl
      · exact h.safe c (List.mem_append_right _ hc)

/-- The path and the query are read back. -/
theorem path_and_query : ((parsed.path ++ queryText parsed.query).takeWhile (· ≠ '#')) =
      parsed.path ++ queryText parsed.query ∧
    (parsed.path ++ queryText parsed.query).takeWhile (· ≠ '?') = parsed.path ∧
    ((parsed.path ++ queryText parsed.query).dropWhile (· ≠ '?')).drop 1 = parsed.query := by
  have hquestion : ∀ c ∈ parsed.path, decide (c ≠ '?') = true := fun c hc => by
    simp [(h.path_chars c hc).1]
  have hhash : ∀ c ∈ parsed.path ++ queryText parsed.query, decide (c ≠ '#') = true := by
    intro c hc
    rw [decide_eq_true_eq]
    rcases List.mem_append.mp hc with hc | hc
    · exact (h.path_chars c hc).2.1
    · rw [queryText] at hc
      split at hc
      · cases hc
      · rcases List.mem_cons.mp hc with rfl | hc
        · decide
        · exact (h.query_chars c hc).1
  refine ⟨takeWhile_all hhash, ?_⟩
  by_cases hempty : parsed.query = []
  · rw [queryText, if_pos hempty, List.append_nil, takeWhile_all hquestion, dropWhile_all hquestion,
      hempty]
    exact ⟨rfl, rfl⟩
  · rw [queryText, if_neg hempty, takeWhile_stop hquestion (by decide),
      dropWhile_stop hquestion (by decide)]
    exact ⟨rfl, rfl⟩

/-- A plain host is read back. -/
theorem readsBack (hhost : PlainHost parsed.hostname) (hascii : isAscii parsed.hostname) :
    ∃ split, ReadsBack text parsed split := by
  have hsplits := @urlsplit_build text _ _ _ _ parsed.port h.validScheme hhost hascii h.path_slash
    h.safe
  obtain ⟨hhash, hpath, hquery⟩ := h.path_and_query
  have hlower := (normalizedHost_sound h.normalized).1.2
  rw [hhash, hpath, hquery] at hsplits
  refine ⟨_, hsplits, rfl, ?_, ?_, rfl, rfl⟩
  · rw [hostname_of_netloc hhost rfl, hlower]
  · exact port_of_netloc hhost h.port_le rfl

/-- A host that is read back is plain. -/
theorem plainHost {again : SplitResult} (hread : ReadsBack text parsed again)
    (hclean : '%' ∉ parsed.hostname ∧ '@' ∉ parsed.hostname) : PlainHost parsed.hostname := by
  have hdigits : ∀ c ∈ delimiters, c ≠ ':' → ∀ d ∈ portText parsed.port, d ≠ c := by
    intro c hc hcolon
    have hdigit : (delimiters.all fun d => !d.isDigit) = true := by decide
    exact portText_ne (by simpa using List.all_eq_true.mp hdigit c hc) hcolon
  have hsub : ∀ c ∈ delimiters, c ∈ parsed.hostname → c ∈ again.netloc := fun c hc hmem =>
    (hostinfo_sublist again).subset ((mem_hostname hread.hostname hc).mp hmem)
  have hname : ∀ c ∈ parsed.hostname, (c ≠ '/' ∧ c ≠ '?' ∧ c ≠ '#') ∧ isUnsafe c = false := by
    intro c hc
    by_cases hdelim : c ∈ delimiters
    · exact netloc_chars hread.splits c (hsub c hdelim hc)
    · refine ⟨⟨?_, ?_, ?_⟩, ?_⟩
      · rintro rfl
        exact hdelim (by decide)
      · rintro rfl
        exact hdelim (by decide)
      · rintro rfl
        exact hdelim (by decide)
      · by_contra hunsafe
        rcases isUnsafe_iff.mp (by simpa using hunsafe) with rfl | rfl | rfl <;>
          exact hdelim (by decide)
  have hauthority : ∀ c ∈ parsed.hostname ++ portText parsed.port,
      (c ≠ '/' ∧ c ≠ '?' ∧ c ≠ '#') ∧ isUnsafe c = false := by
    intro c hc
    rcases List.mem_append.mp hc with hc | hc
    · exact hname c hc
    · refine ⟨⟨hdigits '/' (by decide) (by decide) c hc, hdigits '?' (by decide) (by decide) c hc,
        hdigits '#' (by decide) (by decide) c hc⟩, ?_⟩
      by_contra hunsafe
      rcases isUnsafe_iff.mp (by simpa using hunsafe) with rfl | rfl | rfl <;>
        exact hdigits _ (by decide) (by decide) _ hc rfl
  obtain ⟨rest, hrest⟩ := h.path_slash
  have hsafe : ∀ c ∈ rest ++ queryText parsed.query, isUnsafe c = false := by
    intro c hc
    apply h.safe_request
    rw [hrest]
    exact List.mem_cons_of_mem _ hc
  have hsplits := hread.splits
  have hbuild : buildUrl parsed.scheme parsed.hostname parsed.port parsed.path parsed.query =
      parsed.scheme ++ ':' :: '/' :: '/' :: ((parsed.hostname ++ portText parsed.port) ++
        '/' :: (rest ++ queryText parsed.query)) := by
    simp [buildUrl, hrest]
  rw [hbuild] at hsplits
  obtain ⟨hnetloc, hbrackets⟩ := netloc_eq h.validScheme hauthority hsafe hsplits
  have hmem : ∀ c ∈ delimiters, c ≠ ':' → c ∈ again.netloc → c ∈ parsed.hostname := by
    intro c hc hcolon hin
    rw [hnetloc, List.mem_append] at hin
    exact hin.resolve_right fun hport => hdigits c hc hcolon c hport rfl
  obtain ⟨hopen, hclose, hcolon⟩ := plain_of_hostinfo
    (fun hat => hclean.2 (hmem '@' (by decide) (by decide) hat)) (hnetloc ▸ hbrackets)
    fun hclose => (mem_hostname hread.hostname (by decide)).mp
      (hmem ']' (by decide) (by decide) hclose)
  refine ⟨?_, ?_⟩
  · exact (normalizedHost_sound h.normalized).1.1
  · intro c hc hdelim
    obtain ⟨⟨hslash, hquestion, hhash⟩, hunsafe⟩ := hname c hc
    have hcases := hdelim
    simp only [delimiters, List.mem_cons, List.not_mem_nil, or_false] at hcases
    rcases hcases with rfl | rfl | rfl | rfl | rfl | rfl | rfl | rfl | rfl | rfl | rfl
    · exact hslash rfl
    · exact hquestion rfl
    · exact hhash rfl
    · exact hclean.2 hc
    · exact hcolon ((mem_hostname hread.hostname hdelim).mp hc)
    · exact hopen (hsub _ hdelim hc)
    · exact hclose (hsub _ hdelim hc)
    · exact hclean.1 hc
    all_goals cases hunsafe

end Accepts

/-- Without a delimiter and a final dot, the name that was checked is the name that is read. -/
theorem Accepts.wellFormed
    (h : Accepts text allowedSchemes allowedPorts maxLength s split host port parsed)
    (hhost : HostReadable text host) : parsed.WellFormed text allowedSchemes allowedPorts := by
  have hnormalized := h.normalized
  rw [normalizedHost, if_neg hhost.1, idnaHostname_eq_ok] at hnormalized
  obtain ⟨hplain, hlast⟩ := hhost.2 _ hnormalized
  obtain ⟨hne, hdots, hhead⟩ := hnormalized.labels
  obtain ⟨⟨_, hlower⟩, hcases⟩ := normalizedHost_sound h.normalized
  have hascii : isAscii parsed.hostname := by
    apply hcases.resolve_left
    exact fun hcolon => hplain ':' hcolon (by decide)
  refine ⟨h.scheme_eq ▸ h.allowed, h.effective_port, hlower, hascii, ⟨?_, ?_⟩, ?_, h.path_slash,
    h.readsBack ⟨hne, hplain⟩ hascii⟩
  · exact fun hmem => hplain '%' hmem (by decide)
  · exact fun hmem => hplain '@' hmem (by decide)
  · rw [Segments.nil_mem_splitOn]
    rintro (hnil | hfirst | hinfix | hfinal)
    · exact hne hnil
    · exact hhead hfirst
    · exact hdots hinfix
    · exact hlast hfinal

theorem ParsedURL.WellFormed.hostReadable
    (hformed : parsed.WellFormed text allowedSchemes allowedPorts)
    (h : Accepts text allowedSchemes allowedPorts maxLength s split host port parsed) :
    ':' ∉ host ∧ (∀ c ∈ parsed.hostname, c ∉ delimiters) ∧ parsed.hostname.getLast? ≠ some '.' := by
  obtain ⟨again, hread⟩ := hformed.readsBack
  have hplain := h.plainHost hread hformed.clean
  refine ⟨?_, hplain.2, ?_⟩
  · intro hcolon
    have hnormalized := h.normalized
    rw [normalizedHost, if_pos hcolon, Except.ok.injEq] at hnormalized
    refine hplain.2 ':' ?_ (by decide)
    rw [← hnormalized, text.lower_delimiters _ _ (by decide)]
    exact hcolon
  · intro hlast
    exact hformed.labels (Segments.nil_mem_splitOn.mpr (.inr (.inr (.inr hlast))))

/-- Admission fails in the catalogued way exactly when `urlsplit` does not raise on what reaches it
and the host of what passes the other checks can be written into a URL. -/
theorem catalogued_iff : Catalogued text allowedSchemes allowedPorts
      (parseAndNormalize text raw allowedSchemes allowedPorts maxLength) ↔
    (ReachesSplit maxLength (strip raw) → (urlsplit text (strip raw)).isSome) ∧
    ∀ split host, Checked text allowedSchemes allowedPorts maxLength (strip raw) split host →
      HostReadable text host := by
  constructor
  · intro h
    refine ⟨fun hreached => ?_, fun split host hchecked => ?_⟩
    · rw [Option.isSome_iff_ne_none]
      intro hnone
      rw [parseAndNormalize_of_none hreached hnone] at h
      exact h
    · have hformed : ∀ name, normalizedHost text host = .ok name → ':' ∉ host ∧
          (∀ c ∈ name, c ∉ delimiters) ∧ name.getLast? ≠ some '.' := by
        intro name hname
        obtain ⟨port, parsed, haccepts, rfl⟩ := hchecked.accepts hname
        rw [parseAndNormalize_eq_ok.mpr ⟨split, host, port, haccepts⟩] at h
        exact ParsedURL.WellFormed.hostReadable h haccepts
      have hcolon : ':' ∉ host := fun hmem => (hformed _ (if_pos hmem)).1 hmem
      refine ⟨hcolon, fun asciiHost hencodes => ?_⟩
      refine (hformed asciiHost ?_).2
      rw [normalizedHost, if_neg hcolon, idnaHostname_eq_ok]
      exact hencodes
  · rintro ⟨hsplits, hreadable⟩
    cases hresult : parseAndNormalize text raw allowedSchemes allowedPorts maxLength with
    | error e =>
      have havoids := avoids_parseAndNormalize hsplits e hresult
      push Not at havoids
      obtain ⟨code, reason, rfl⟩ := havoids
      exact trivial
    | ok parsed =>
      obtain ⟨split, host, port, haccepts⟩ := parseAndNormalize_eq_ok.mp hresult
      exact haccepts.wellFormed (hreadable split host haccepts.checked)

/-- A bracket that is not closed. -/
theorem open_bracket_raises : ¬ ∀ (text : Text) (raw : List Char)
    (allowedSchemes : List (List Char)) (allowedPorts : List ℕ) (maxLength : ℕ),
    Catalogued text allowedSchemes allowedPorts
      (parseAndNormalize text raw allowedSchemes allowedPorts maxLength) := by
  intro h
  have hraised : parseAndNormalize asciiText "http://[".toList [http, https] [80, 443] 4096 =
      .error .valueError := by
    decide +kernel
  have hcatalogued := h asciiText "http://[".toList [http, https] [80, 443] 4096
  rw [hraised] at hcatalogued
  exact hcatalogued

end FetchNow.Url
