import FetchNow.Theory.Transactions
import FetchNow.Url.Split
import Mathlib.Data.List.DropRight
import Mathlib.Data.List.Infix

/-!
# Validation of URLs

Parsing, the classification of destinations and the registry of providers.
-/
namespace FetchNow.Url

open Transactions

/-- The public codes of `URLValidationError`. -/
inductive UrlErrorCode where
  | invalidUrl
  | unsupportedScheme
  | unsupportedProvider
  | blockedDestination
  | redirectLimitExceeded
  | invalidRedirect
  | sourceUnavailable
  | sourceTimeout
  | responseTooLarge
  | unsupportedContentType
  | internalError
  deriving DecidableEq, Repr

def UrlErrorCode.value : UrlErrorCode → String
  | invalidUrl => "INVALID_URL"
  | unsupportedScheme => "UNSUPPORTED_SCHEME"
  | unsupportedProvider => "UNSUPPORTED_PROVIDER"
  | blockedDestination => "BLOCKED_DESTINATION"
  | redirectLimitExceeded => "REDIRECT_LIMIT_EXCEEDED"
  | invalidRedirect => "INVALID_REDIRECT"
  | sourceUnavailable => "SOURCE_UNAVAILABLE"
  | sourceTimeout => "SOURCE_TIMEOUT"
  | responseTooLarge => "RESPONSE_TOO_LARGE"
  | unsupportedContentType => "UNSUPPORTED_CONTENT_TYPE"
  | internalError => "INTERNAL_ERROR"

/-- What validation and fetching raise: `URLValidationError`, a `ResolutionError` for an unsafe
target, or `ValueError`. -/
inductive UrlError where
  | validation (code : UrlErrorCode) (internalReason : Option String)
  | resolution (internalReason : String)
  | valueError
  deriving DecidableEq, Repr

/-- `raise_validation_error` without an internal reason. -/
def validationError (code : UrlErrorCode) : UrlError := .validation code none

variable {text : Text} {raw hostname scheme : List Char} {allowedSchemes : List (List Char)}
  {allowedPorts : List ℕ} {maxLength : ℕ}

/-! ## Parsing -/

def http : List Char := "http".toList

def https : List Char := "https".toList

structure ParsedURL where
  scheme : List Char
  hostname : List Char
  port : Option ℕ
  path : List Char
  query : List Char
  deriving DecidableEq, Repr

def idnaHostname (text : Text) (rawHost : List Char) : Except UrlError (List Char) := do
  let host := rawHost.rdropWhile (· = '.')
  require (host ≠ []) (validationError .invalidUrl)
  require ('%' ∉ host) (validationError .invalidUrl)
  match text.idna host with
  | none => .error (validationError .invalidUrl)
  | some encoded => do
    let asciiHost := text.lower encoded
    require (asciiHost ≠ [] ∧ ¬ ['.', '.'] <:+: asciiHost ∧ asciiHost.head? ≠ some '.')
      (validationError .invalidUrl)
    .ok asciiHost

/-- A host with a colon counts as IPv6; it is on no list of host names. -/
def normalizedHost (text : Text) (host : List Char) : Except UrlError (List Char) :=
  if ':' ∈ host then .ok (text.lower host) else idnaHostname text host

def defaultPort (scheme : List Char) : ℕ := if scheme = https then 443 else 80

def normalizePort (scheme : List Char) (port : Option ℕ) (allowedPorts : List ℕ) :
    Except UrlError (Option ℕ) :=
  match port with
  | none => do
    require (defaultPort scheme ∈ allowedPorts) (validationError .invalidUrl)
    .ok none
  | some port => do
    require (port ∈ allowedPorts) (validationError .invalidUrl)
    .ok (if port = defaultPort scheme then none else some port)

def isControl (c : Char) : Bool := c.toNat < 32

/-- `parse_and_normalize`. -/
def parseAndNormalize (text : Text) (raw : List Char) (allowedSchemes : List (List Char))
    (allowedPorts : List ℕ) (maxLength : ℕ) : Except UrlError ParsedURL := do
  let candidate := strip raw
  require (candidate ≠ []) (validationError .invalidUrl)
  require (candidate.length ≤ maxLength) (validationError .invalidUrl)
  require (¬ ['/', '/'] <+: candidate) (validationError .unsupportedScheme)
  match urlsplit text candidate with
  | none => .error .valueError
  | some parsed => do
    require (¬ ((parsed.scheme = [] ∨ parsed.netloc = []) ∧ parsed.scheme ≠ [] ∧
      parsed.scheme ∉ allowedSchemes)) (validationError .unsupportedScheme)
    require (parsed.scheme ≠ [] ∧ parsed.netloc ≠ []) (validationError .invalidUrl)
    require (parsed.scheme ∈ allowedSchemes) (validationError .unsupportedScheme)
    require (¬ parsed.hasUserinfo) (validationError .invalidUrl)
    match parsed.hostname text with
    | none => .error (validationError .invalidUrl)
    | some host => do
      let normalizedHost ← normalizedHost text host
      match parsed.port with
      | none => .error (validationError .invalidUrl)
      | some port => do
        let normalizedPort ← normalizePort parsed.scheme port allowedPorts
        let path := if parsed.parsePath = [] then ['/'] else parsed.parsePath
        require (¬ path.any isControl ∧ ¬ parsed.query.any isControl) (validationError .invalidUrl)
        .ok { scheme := parsed.scheme, hostname := normalizedHost, port := normalizedPort, path,
              query := parsed.query }

/-- What parsing promises. -/
structure ParsedURL.Sound (text : Text) (allowedSchemes : List (List Char))
    (allowedPorts : List ℕ) (parsed : ParsedURL) : Prop where
  scheme : parsed.scheme ∈ allowedSchemes
  hostname : parsed.hostname ≠ [] ∧ text.lower parsed.hostname = parsed.hostname
  ascii : ':' ∈ parsed.hostname ∨ isAscii parsed.hostname
  port : (∀ port ∈ parsed.port, port ∈ allowedPorts ∧ port ≤ 65535) ∧
    (parsed.port = none → defaultPort parsed.scheme ∈ allowedPorts)
  path : ∃ rest, parsed.path = '/' :: rest
  safe : ∀ c ∈ parsed.path ++ parsed.query, isUnsafe c = false

theorem idnaHostname_sound (h : idnaHostname text raw = .ok hostname) :
    (hostname ≠ [] ∧ text.lower hostname = hostname) ∧ isAscii hostname := by
  simp only [idnaHostname, bind_eq_ok] at h
  obtain ⟨_, _, _, _, h⟩ := h
  split at h
  · cases h
  · rename_i encoded hencoded
    simp only [bind_eq_ok, require_eq_ok] at h
    obtain ⟨_, ⟨hne, _⟩, h⟩ := h
    cases h
    exact ⟨⟨hne, text.lower_lower _⟩, text.lower_ascii _ (text.idna_ascii _ _ hencoded)⟩

theorem normalizedHost_sound (h : normalizedHost text raw = .ok hostname) :
    (hostname ≠ [] ∧ text.lower hostname = hostname) ∧ (':' ∈ hostname ∨ isAscii hostname) := by
  unfold normalizedHost at h
  split at h
  · rename_i hcolon
    cases h
    have hmem : ':' ∈ text.lower raw := (text.lower_delimiters raw ':' (by decide)).mpr hcolon
    exact ⟨⟨List.ne_nil_of_mem hmem, text.lower_lower _⟩, .inl hmem⟩
  · obtain ⟨hhost, hascii⟩ := idnaHostname_sound h
    exact ⟨hhost, .inr hascii⟩

theorem normalizePort_sound {port normalized : Option ℕ}
    (h : normalizePort scheme port allowedPorts = .ok normalized) (hport : ∀ n ∈ port, n ≤ 65535) :
    (∀ n ∈ normalized, n ∈ allowedPorts ∧ n ≤ 65535) ∧
      (normalized = none → defaultPort scheme ∈ allowedPorts) := by
  unfold normalizePort at h
  split at h
  · simp only [bind_eq_ok, require_eq_ok] at h
    obtain ⟨_, hdefault, h⟩ := h
    cases h
    exact ⟨fun _ h => absurd h (Option.not_mem_none _), fun _ => hdefault⟩
  · rename_i n
    simp only [bind_eq_ok, require_eq_ok] at h
    obtain ⟨_, hallowed, h⟩ := h
    cases h
    split
    · rename_i heq
      exact ⟨fun _ h => absurd h (Option.not_mem_none _), fun _ => heq ▸ hallowed⟩
    · refine ⟨?_, fun h => absurd h (by simp)⟩
      rintro _ ⟨⟩
      exact ⟨hallowed, hport n rfl⟩

theorem port_le {split : SplitResult} {port : Option ℕ} (h : split.port = some port) :
    ∀ n ∈ port, n ≤ 65535 := by
  simp only [SplitResult.port] at h
  split at h
  · cases h
    exact fun _ h => absurd h (Option.not_mem_none _)
  · split at h
    · rename_i hvalid
      cases h
      rintro _ ⟨⟩
      exact hvalid.2
    · cases h

theorem isUnsafe_of_not_control {c : Char} (h : isControl c = false) : isUnsafe c = false := by
  by_contra hbad
  rcases isUnsafe_iff.mp (by simpa using hbad) with rfl | rfl | rfl <;> cases h

theorem parseAndNormalize_sound {parsed : ParsedURL}
    (h : parseAndNormalize text raw allowedSchemes allowedPorts maxLength = .ok parsed) :
    parsed.Sound text allowedSchemes allowedPorts ∧
      ∃ split, urlsplit text (strip raw) = some split ∧ split.scheme = parsed.scheme := by
  simp only [parseAndNormalize, bind_eq_ok, require_eq_ok] at h
  obtain ⟨_, _, _, _, _, _, h⟩ := h
  split at h
  · cases h
  rename_i split hsplit
  simp only [bind_eq_ok, require_eq_ok] at h
  obtain ⟨_, _, _, ⟨_, hnetloc⟩, _, hscheme, _, _, h⟩ := h
  split at h
  · cases h
  obtain ⟨host, hnormalized, h⟩ := bind_eq_ok.mp h
  obtain ⟨hhost, hascii⟩ := normalizedHost_sound hnormalized
  split at h
  · cases h
  rename_i port hport
  simp only [bind_eq_ok, require_eq_ok] at h
  obtain ⟨normalizedPort, hnormalizedPort, _, ⟨hpath, hquery⟩, h⟩ := h
  cases h
  refine ⟨⟨hscheme, hhost, hascii, normalizePort_sound hnormalizedPort (port_le hport), ?_, ?_⟩,
    split, hsplit, rfl⟩
  · dsimp only
    split
    · exact ⟨[], rfl⟩
    · rename_i hne
      rcases path_of_urlsplit hsplit hnetloc with hempty | hslash
      · exact absurd (by simp [SplitResult.parsePath, hempty]) hne
      · exact parsePath_slash hslash
  · intro c hc
    apply isUnsafe_of_not_control
    by_contra hcontrol
    rw [Bool.not_eq_false] at hcontrol
    rcases List.mem_append.mp hc with hc | hc
    · exact hpath (List.any_eq_true.mpr ⟨c, hc, hcontrol⟩)
    · exact hquery (List.any_eq_true.mpr ⟨c, hc, hcontrol⟩)

end FetchNow.Url
