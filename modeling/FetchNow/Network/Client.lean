import FetchNow.Theory.Exchanges
import FetchNow.Url.Destination
import Mathlib.Algebra.GroupWithZero.Nat

/-!
# Outbound requests

`SafeHTTPClient` with its redirects. The environment answers DNS lookups and HTTP requests.
-/
namespace FetchNow.Network

open Exchanges Transactions Url

inductive HttpMethod where
  | head
  | get
  deriving DecidableEq, Repr

/-- What the client reads of a response: its status, three headers and the sizes of the chunks of
the body, which may end in an error. A second pass over the body yields a byte or not, or raises. -/
structure Response where
  statusCode : ℕ
  location : Option (List Char)
  contentType : Option (List Char)
  contentLength : Option ℕ
  chunks : List ℕ
  failure : Option UrlErrorCode
  secondPass : Except UrlError Bool

inductive Question where
  | resolve (hostname : List Char)
  | send (method : HttpMethod) (url : List Char)
  deriving DecidableEq, Repr

/-- The resolver and `_send` answer or raise. -/
def Answer : Question → Type
  | .resolve _ => Except UrlError (List Address)
  | .send _ _ => Except UrlError Response

abbrev Net (α : Type) := Prog Question Answer UrlError α

abbrev NetTrace := Trace Question Answer

/-- The library functions that requests depend on. `urljoin` raises `ValueError` where it is
absent. -/
structure Library where
  text : Text
  ip : IpTables
  urljoin : List Char → List Char → Option (List Char)

def resolve (hostname : List Char) : Net (List Address) :=
  .ask (.resolve hostname) Prog.ofExcept

def send (method : HttpMethod) (url : List Char) : Net Response :=
  .ask (.send method url) Prog.ofExcept

/-! ## Checks -/

/-- `_connect_time_dns_check`. -/
def connectTimeDnsCheck (lib : Library) (hostname : List Char) : Net Unit := do
  let preflight ← resolve hostname
  Prog.require (preflight ≠ []) (.validation .blockedDestination (some "DNS_EMPTY_SET"))
  Prog.ofExcept (assertAddressesAllowed lib.ip preflight)
  let connectTime ← resolve hostname
  Prog.require (connectTime ≠ []) (.validation .blockedDestination (some "DNS_EMPTY_SET"))
  Prog.ofExcept (assertAddressesAllowed lib.ip connectTime)
  Prog.require (∃ address ∈ preflight, address ∈ connectTime)
    (.validation .blockedDestination (some "DNS_SET_MISMATCH"))

def redirectStatuses : List ℕ := [301, 302, 303, 307, 308]

/-- `_resolve_redirect`. -/
def resolveRedirect (lib : Library) (settings : UrlSettings) (currentUrl : List Char)
    (location : Option (List Char)) (currentScheme : List Char) : Except UrlError (List Char) := do
  let loc := strip (location.getD [])
  require (loc ≠ []) (validationError .invalidRedirect)
  let authorityCandidate := loc.takeWhile (· ≠ '/')
  require (':' ∉ authorityCandidate ∨ ∃ parts ∈ urlsplit lib.text loc,
    (parts.scheme = http ∨ parts.scheme = https) ∧ parts.netloc ≠ [])
    (validationError .invalidRedirect)
  match lib.urljoin currentUrl loc with
  | none => .error (validationError .invalidRedirect)
  | some joined =>
    match urlsplit lib.text joined with
    | none => .error (validationError .invalidRedirect)
    | some parts => do
      require (parts.scheme ≠ [] ∧ parts.netloc ≠ []) (validationError .invalidRedirect)
      require (¬ parts.hasUserinfo) (validationError .invalidRedirect)
      require (¬ (currentScheme = https ∧ parts.scheme = http)) (validationError .invalidRedirect)
      require (joined.length ≤ settings.urlMaxLength) (validationError .invalidRedirect)
      .ok joined

def normalizeContentType (text : Text) (value : Option (List Char)) : Option (List Char) :=
  match value with
  | none => none
  | some value =>
    let mime := text.lower (strip (value.takeWhile (· ≠ ';')))
    if mime = [] then none else some mime

/-! ## Wrapper targets -/

/-- `SafeDocumentTarget`: over https, on the default port. -/
structure SafeDocumentTarget (text : Text) where
  hostname : List Char
  path : List Char
  query : List Char
  lowered : hostname ≠ [] ∧ text.lower hostname = hostname
  ascii : ':' ∈ hostname ∨ isAscii hostname
  slash : ∃ rest, path = '/' :: rest
  safe : ∀ c ∈ path ++ query, isUnsafe c = false

/-- `request_url`. -/
def SafeDocumentTarget.requestUrl {text : Text} (target : SafeDocumentTarget text) : List Char :=
  buildUrl https target.hostname none target.path target.query

/-- `_map_parse_error`. Other exceptions pass. -/
def mapParseError : UrlError → UrlError
  | .validation code _ => .resolution code.value
  | e => e

/-- `WrapperSafetyValidator.validate`. -/
def WrapperSafetyValidator.validate (lib : Library) (settings : UrlSettings) (rawUrl : List Char) :
    Net (SafeDocumentTarget lib.text) :=
  match h : parseAndNormalize lib.text rawUrl [https] [443] settings.urlMaxLength with
  | .error e => .raise (mapParseError e)
  | .ok parsed => do
    Prog.require (parsed.scheme = https) (.resolution "WRAPPER_NON_HTTPS")
    Prog.require (parsed.port = none) (.resolution "WRAPPER_NON_DEFAULT_PORT")
    Prog.require (¬ isReservedHostname lib.text parsed.hostname) (.resolution "RESERVED_HOSTNAME")
    Prog.require (¬ looksLikeNonstandardIpv4 lib.text parsed.hostname)
      (.resolution "NONSTANDARD_IPV4")
    Prog.require (parseIpLiteral lib.text lib.ip parsed.hostname = none) (.resolution "IP_LITERAL")
    Prog.mapError mapParseError do
      let addresses ← resolve parsed.hostname
      Prog.ofExcept (assertAddressesAllowed lib.ip addresses)
    have hsound := (parseAndNormalize_sound h).1
    .ret { hostname := parsed.hostname, path := parsed.path, query := parsed.query,
           lowered := hsound.hostname, ascii := hsound.ascii, slash := hsound.path,
           safe := hsound.safe }

/-! ## Fetching a document -/

structure RedirectHop where
  fromHostname : List Char
  toHostname : List Char
  statusCode : ℕ
  deriving DecidableEq, Repr

structure SafeDocumentResponse where
  statusCode : ℕ
  contentType : List Char
  bodyBytesRead : ℕ
  finalScheme : List Char
  finalHostname : List Char
  finalPath : List Char
  redirectHops : List RedirectHop
  deriving DecidableEq, Repr

/-- `_read_document_body`. -/
def readDocumentBody (settings : UrlSettings) (response : Response) : Except UrlError ℕ := do
  let hard := settings.outboundMaxResponseBytes
  require (∀ length ∈ response.contentLength, length ≤ hard) (validationError .responseTooLarge)
  require (response.chunks.sum ≤ hard) (validationError .responseTooLarge)
  match response.failure with
  | some code => .error (validationError code)
  | none => .ok response.chunks.sum

def documentContentTypes : List (List Char) :=
  ["text/html".toList, "application/xhtml+xml".toList, "application/json".toList]

structure FetchState (text : Text) where
  current : SafeDocumentTarget text
  hops : List RedirectHop
  seenUrls : List (List Char)

def allowedHostnames (text : Text) (allowed : HostNames) : List (List Char) :=
  allowed.names.map (normalizeHost text)

def invalidRedirect (reason : String) : UrlError := .validation .invalidRedirect (some reason)

def maxRedirects (settings : UrlSettings) : ℕ := min settings.urlMaxRedirects 20

/-- A revalidator that raises a domain error fails closed. -/
def mapRevalidateError : UrlError → UrlError
  | .validation code reason => .validation code reason
  | _ => invalidRedirect "REVALIDATE_FAILED"

/-- The redirect of `_fetch_document_inner`. -/
def followDocumentRedirect (lib : Library) (settings : UrlSettings) (allowed : List (List Char))
    (s : FetchState lib.text) (response : Response) : Net (FetchState lib.text) := do
  Prog.require (s.hops.length < maxRedirects settings) (validationError .redirectLimitExceeded)
  let nextRaw ← Prog.ofExcept
    (resolveRedirect lib settings s.current.requestUrl response.location https)
  match (urlsplit lib.text nextRaw).bind (SplitResult.hostname · lib.text) with
  | none => .raise (validationError .invalidRedirect)
  | some nextHost => do
    Prog.require (normalizeHost lib.text nextHost ∈ allowed) (invalidRedirect "HOST_NOT_ALLOWED")
    let nxt ← Prog.mapError mapRevalidateError
      (WrapperSafetyValidator.validate lib settings nextRaw)
    Prog.require (normalizeHost lib.text nxt.hostname ∈ allowed)
      (invalidRedirect "HOST_NOT_ALLOWED")
    let hop := { fromHostname := s.current.hostname, toHostname := nxt.hostname,
                 statusCode := response.statusCode }
    .ret { s with current := nxt, hops := s.hops ++ [hop] }

/-- A response of `_fetch_document_inner` that is no redirect. -/
def readDocument (lib : Library) (settings : UrlSettings) (s : FetchState lib.text)
    (response : Response) : Except UrlError SafeDocumentResponse :=
  match normalizeContentType lib.text response.contentType with
  | none => .error (validationError .unsupportedContentType)
  | some contentType => do
    require (contentType ∈ documentContentTypes) (validationError .unsupportedContentType)
    require (200 ≤ response.statusCode ∧ response.statusCode < 300)
      (validationError .sourceUnavailable)
    let bodyBytesRead ← readDocumentBody settings response
    .ok { statusCode := response.statusCode, contentType, bodyBytesRead, finalScheme := https,
          finalHostname := s.current.hostname, finalPath := s.current.path,
          redirectHops := s.hops }

/-- One turn of the loop of `_fetch_document_inner`. -/
def fetchStep (lib : Library) (settings : UrlSettings) (allowed : List (List Char))
    (s : FetchState lib.text) : Net (FetchState lib.text ⊕ SafeDocumentResponse) := do
  Prog.require (normalizeHost lib.text s.current.hostname ∈ allowed)
    (invalidRedirect "HOST_NOT_ALLOWED")
  let requestUrl := s.current.requestUrl
  Prog.require (requestUrl ∉ s.seenUrls) (validationError .redirectLimitExceeded)
  let s := { s with seenUrls := requestUrl :: s.seenUrls }
  connectTimeDnsCheck lib s.current.hostname
  let response ← send .get requestUrl
  if response.statusCode ∈ redirectStatuses then do
    let s ← followDocumentRedirect lib settings allowed s response
    .ret (.inl s)
  else do
    let document ← Prog.ofExcept (readDocument lib settings s response)
    .ret (.inr document)

/-- `_fetch_document_inner`, revalidating with the wrapper validator. -/
def fetchDocumentInner (lib : Library) (settings : UrlSettings) (initial : SafeDocumentTarget lib.text)
    (allowed : HostNames) (fuel : ℕ) : Net (Option SafeDocumentResponse) := do
  let allowed := allowedHostnames lib.text allowed
  Prog.require (allowed ≠ []) (invalidRedirect "EMPTY_ALLOWLIST")
  Prog.require (normalizeHost lib.text initial.hostname ∈ allowed)
    (invalidRedirect "HOST_NOT_ALLOWED")
  Prog.iterate (fetchStep lib settings allowed) fuel { current := initial, hops := [], seenUrls := [] }

/-- What is no `URLValidationError` becomes `INTERNAL_ERROR`. -/
def mapInternalError : UrlError → UrlError
  | .validation code reason => .validation code reason
  | _ => validationError .internalError

/-- `SafeHTTPClient.fetch_document`. -/
def fetchDocument (lib : Library) (settings : UrlSettings) (initial : SafeDocumentTarget lib.text)
    (allowed : HostNames) (fuel : ℕ) : Net (Option SafeDocumentResponse) :=
  Prog.mapError mapInternalError (fetchDocumentInner lib settings initial allowed fuel)

/-! ## Probing -/

/-- `URLValidationResult`. -/
structure URLValidationResult (text : Text) (settings : UrlSettings) where
  providerId : String
  providerDisplayName : String
  url : ParsedURL
  headFallbackStatuses : List ℕ
  sound : url.Sound text settings.urlAllowedSchemes settings.urlAllowedPorts

/-- `_validate_inner` and the errors `URLValidator.validate` maps. -/
def URLValidator.validate (lib : Library) (settings : UrlSettings) (registry : ProviderRegistry)
    (rawUrl : List Char) : Net (URLValidationResult lib.text settings) :=
  Prog.mapError mapInternalError <|
    match h : parseAndNormalize lib.text rawUrl settings.urlAllowedSchemes settings.urlAllowedPorts
        settings.urlMaxLength with
    | .error e => .raise e
    | .ok parsed => do
      Prog.require (¬ isReservedHostname lib.text parsed.hostname)
        (validationError .blockedDestination)
      Prog.require (¬ looksLikeNonstandardIpv4 lib.text parsed.hostname)
        (validationError .blockedDestination)
      match parseIpLiteral lib.text lib.ip parsed.hostname with
      | some literal => do
        Prog.ofExcept (assertAddressesAllowed lib.ip [literal])
        .raise (validationError .unsupportedProvider)
      | none => do
        let provider ← Prog.ofExcept (registry.resolve lib.text parsed.hostname)
        let addresses ← resolve parsed.hostname
        Prog.ofExcept (assertAddressesAllowed lib.ip addresses)
        .ret { providerId := provider.id, providerDisplayName := provider.displayName, url := parsed,
               headFallbackStatuses := provider.headFallbackStatuses,
               sound := (parseAndNormalize_sound h).1 }

/-- `_request_url`. -/
def URLValidationResult.requestUrl {text : Text} {settings : UrlSettings}
    (validated : URLValidationResult text settings) : List Char :=
  buildUrl validated.url.scheme validated.url.hostname validated.url.port validated.url.path
    validated.url.query

structure SafeHTTPResponse where
  statusCode : ℕ
  contentType : Option (List Char)
  contentLength : Option ℕ
  bodyBytesRead : ℕ
  finalScheme : List Char
  finalHostname : List Char
  finalPath : List Char
  providerId : String
  providerDisplayName : String
  methodUsed : HttpMethod
  redirectHops : List RedirectHop
  deriving DecidableEq, Repr

structure ProbeState (text : Text) (settings : UrlSettings) where
  current : URLValidationResult text settings
  hops : List RedirectHop
  activeMethod : HttpMethod
  seenAttempts : List (HttpMethod × List Char)

/-- `_enforce_content_type`. -/
def enforceContentType (settings : UrlSettings) (contentType : Option (List Char))
    (requirePresent : Bool) : Except UrlError Unit :=
  match contentType with
  | none => require (requirePresent = false) (validationError .unsupportedContentType)
  | some contentType =>
    require (contentType ∈ settings.outboundAllowedContentTypes)
      (validationError .unsupportedContentType)

/-- `_read_body_limited`: stops at the soft limit if that is below the hard one. -/
def readBodyLimited (settings : UrlSettings) (response : Response) : Except UrlError ℕ :=
  let soft := settings.outboundProbeBodyBytes
  let hard := settings.outboundMaxResponseBytes
  let rec go (total : ℕ) : List ℕ → Except UrlError ℕ
    | [] =>
      match response.failure with
      | some code => .error (validationError code)
      | none => .ok total
    | chunk :: rest => do
      let total := total + chunk
      require (total ≤ hard) (validationError .responseTooLarge)
      if total < min soft hard then go total rest
      else if soft < hard then .ok total
      else do
        let extra ← response.secondPass
        require (extra = false) (validationError .responseTooLarge)
        .ok total
  go 0 response.chunks

/-- The redirect of `_probe_inner`. -/
def followProbeRedirect (lib : Library) (settings : UrlSettings) (registry : ProviderRegistry)
    (originProvider : String) (s : ProbeState lib.text settings) (response : Response) :
    Net (ProbeState lib.text settings) := do
  Prog.require (s.hops.length < maxRedirects settings) (validationError .redirectLimitExceeded)
  let nextRaw ← Prog.ofExcept
    (resolveRedirect lib settings s.current.requestUrl response.location s.current.url.scheme)
  let nxt ← URLValidator.validate lib settings registry nextRaw
  Prog.require (nxt.providerId = originProvider) (validationError .unsupportedProvider)
  let hop := { fromHostname := s.current.url.hostname, toHostname := nxt.url.hostname,
               statusCode := response.statusCode }
  .ret { s with current := nxt, hops := s.hops ++ [hop],
                activeMethod := if response.statusCode = 303 then .get else s.activeMethod }

/-- A response of `_probe_inner` that is neither a redirect nor a reason to fall back. -/
def readProbe (lib : Library) (settings : UrlSettings) (s : ProbeState lib.text settings)
    (response : Response) : Except UrlError SafeHTTPResponse := do
  let contentType := normalizeContentType lib.text response.contentType
  let bodyBytesRead ← match s.activeMethod with
    | .get => do
      enforceContentType settings contentType true
      require (response.statusCode < 400) (validationError .sourceUnavailable)
      readBodyLimited settings response
    | .head => do
      enforceContentType settings contentType false
      require (response.statusCode < 400) (validationError .sourceUnavailable)
      .ok 0
  require (200 ≤ response.statusCode ∧ response.statusCode < 300)
    (validationError .sourceUnavailable)
  .ok { statusCode := response.statusCode, contentType, contentLength := response.contentLength,
        bodyBytesRead, finalScheme := s.current.url.scheme,
        finalHostname := s.current.url.hostname, finalPath := s.current.url.path,
        providerId := s.current.providerId, providerDisplayName := s.current.providerDisplayName,
        methodUsed := s.activeMethod, redirectHops := s.hops }

/-- One turn of the loop of `_probe_inner`. -/
def probeStep (lib : Library) (settings : UrlSettings) (registry : ProviderRegistry)
    (originProvider : String) (headFallback : List ℕ) (s : ProbeState lib.text settings) :
    Net (ProbeState lib.text settings ⊕ SafeHTTPResponse) := do
  let requestUrl := s.current.requestUrl
  Prog.require ((s.activeMethod, requestUrl) ∉ s.seenAttempts)
    (validationError .redirectLimitExceeded)
  let s := { s with seenAttempts := (s.activeMethod, requestUrl) :: s.seenAttempts }
  connectTimeDnsCheck lib s.current.url.hostname
  let response ← send s.activeMethod requestUrl
  if response.statusCode ∈ redirectStatuses then do
    let s ← followProbeRedirect lib settings registry originProvider s response
    .ret (.inl s)
  else if s.activeMethod = .head ∧ response.statusCode ∈ headFallback then
    .ret (.inl { s with activeMethod := .get })
  else do
    let result ← Prog.ofExcept (readProbe lib settings s response)
    .ret (.inr result)

/-- `_probe_inner`. -/
def probeInner (lib : Library) (settings : UrlSettings) (registry : ProviderRegistry)
    (rawUrl : List Char) (method : HttpMethod) (fuel : ℕ) : Net (Option SafeHTTPResponse) := do
  let initial ← URLValidator.validate lib settings registry rawUrl
  Prog.iterate (probeStep lib settings registry initial.providerId initial.headFallbackStatuses) fuel
    { current := initial, hops := [], activeMethod := method, seenAttempts := [] }

/-- `SafeHTTPClient.probe`. -/
def probe (lib : Library) (settings : UrlSettings) (registry : ProviderRegistry)
    (rawUrl : List Char) (method : HttpMethod) (fuel : ℕ) : Net (Option SafeHTTPResponse) :=
  Prog.mapError mapInternalError (probeInner lib settings registry rawUrl method fuel)

end FetchNow.Network
