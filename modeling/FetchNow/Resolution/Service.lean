import FetchNow.MediaInspection.Models
import FetchNow.Network.Confinement
import FetchNow.Url.Canonical
import FetchNow.Url.CanonicalIdentity

/-!
# Wrapper resolution

`ResolutionService` with its registry of resolvers. The environment answers DNS lookups and says
what the resolvers return; what a resolver fetches happens within its answer.
-/
namespace FetchNow.Resolution

open Exchanges Transactions Url Network

inductive ResolutionErrorKind where
  | wrapperUnsupported
  | wrapperUnresolved
  | resolvedProviderUnsupported
  | resolutionLoop
  | resolutionLimitExceeded
  | unsafeResolutionTarget
  | internalError
  deriving DecidableEq, Repr

def isReasonChar (c : Char) : Bool := c.isUpper || c.isDigit || c = '_'

/-- `sanitize_internal_reason`. -/
def sanitizeInternalReason (raw : Option String) : Option String :=
  raw.map fun raw =>
    match raw.toList with
    | [] => "REDACTED_INTERNAL_REASON"
    | c :: rest =>
      if c.isUpper && rest.length ≤ 63 && rest.all isReasonChar then raw
      else "REDACTED_INTERNAL_REASON"

structure ResolutionError where
  kind : ResolutionErrorKind
  internalReason : Option String
  deriving DecidableEq, Repr

def resolutionError (kind : ResolutionErrorKind) (internalReason : Option String) :
    ResolutionError := ⟨kind, sanitizeInternalReason internalReason⟩

/-- What the orchestration raises before `resolve` has mapped it: any other subclass of `Exception`
by its name. -/
inductive Failure where
  | resolution (error : ResolutionError)
  | wrapperRegistry
  | exception (typeName : String)
  deriving DecidableEq, Repr

def failure (kind : ResolutionErrorKind) (internalReason : Option String) : Failure :=
  .resolution (resolutionError kind internalReason)

/-- `_map_url_error`, for an error that an `except URLValidationError` sees. -/
def mapUrlError : UrlError → Failure
  | .validation .unsupportedProvider _ =>
    failure .resolvedProviderUnsupported (some UrlErrorCode.unsupportedProvider.value)
  | .validation code _ => failure .unsafeResolutionTarget (some code.value)
  | .resolution reason => failure .unsafeResolutionTarget (some reason)
  | .valueError => .exception "ValueError"

/-! ## Resolvers -/

inductive MetadataValue where
  | bool (value : Bool)
  | int (value : ℤ)
  | other
  deriving DecidableEq, Repr

/-- A strategy and a key that are no strings are absent. -/
structure WrapperResolveOutcome where
  candidateUrl : Option (List Char)
  strategy : Option String
  metadata : Option (List (Option (List Char) × MetadataValue))

/-- What a resolver raises. -/
inductive ResolverFailure where
  | resolution (error : ResolutionError)
  | validation (code : UrlErrorCode)
  | exception
  deriving DecidableEq, Repr

/-- The snapshot of a resolver that the registry has taken. -/
structure WrapperResolverRegistration where
  resolverId : String
  wrapperType : String
  exactHostnames : List (List Char)
  deriving DecidableEq, Repr

/-- No two resolvers own the same host. -/
structure WrapperResolverRegistry where
  registrations : List WrapperResolverRegistration
  owned : ∀ registration ∈ registrations, registration.exactHostnames ≠ []
  disjoint : registrations.Pairwise fun a b => ∀ host ∈ a.exactHostnames, host ∉ b.exactHostnames

def WrapperResolverRegistry.find (registry : WrapperResolverRegistry) (text : Text)
    (hostname : List Char) : Option WrapperResolverRegistration :=
  registry.registrations.find? fun registration =>
    normalizeHost text hostname ∈ registration.exactHostnames

inductive Question (text : Text) where
  | net (question : Network.Question)
  | isMatch (registration : WrapperResolverRegistration) (target : SafeDocumentTarget text)
  | call (registration : WrapperResolverRegistration) (target : SafeDocumentTarget text)

/-- `matches` may raise anything. -/
def Answer {text : Text} : Question text → Type
  | .net question => Network.Answer question
  | .isMatch _ _ => Except Failure Bool
  | .call _ _ => Except ResolverFailure WrapperResolveOutcome

abbrev Res (text : Text) (α : Type) := Prog (Question text) Answer Failure α

abbrev ResTrace (text : Text) := Trace (Question text) (@Answer text)

/-- The settings and registries of a service. The validator has the service's own registry. -/
structure ResolutionService where
  lib : Library
  tables : Unicode
  settings : UrlSettings
  wrapperResolutionMaxDepth : ℕ
  wrappers : WrapperResolverRegistry

namespace ResolutionService

variable (service : ResolutionService)

def providers : ProviderRegistry := .fromSettings service.settings

def lookup {α : Type} (p : Net α) : Res service.lib.text α :=
  Prog.mapError mapUrlError (p.embed .net fun _ a => a)

def askMatch (registration : WrapperResolverRegistration)
    (target : SafeDocumentTarget service.lib.text) : Res service.lib.text Bool :=
  .ask (.isMatch registration target) fun
    | .ok matched => .ret matched
    | .error raised => .raise raised

/-- The other registrations of `match`. -/
def checkOthers (target : SafeDocumentTarget service.lib.text) :
    List WrapperResolverRegistration → Res service.lib.text Unit
  | [] => .ret ()
  | other :: rest => do
    let matched ← service.askMatch other target
    Prog.require (matched = false) .wrapperRegistry
    checkOthers target rest

/-- `WrapperResolverRegistry.match`. -/
def matchWrapper (target : SafeDocumentTarget service.lib.text) :
    Res service.lib.text (Option WrapperResolverRegistration) :=
  match service.wrappers.find service.lib.text target.hostname with
  | none => .ret none
  | some registration => do
    let matched ← service.askMatch registration target
    if matched = false then .ret none
    else do
      service.checkOthers target (service.wrappers.registrations.filter (· ≠ registration))
      .ret (some registration)

/-- `registration.resolver.resolve`, with the errors that the orchestration makes of its own. -/
def callResolver (registration : WrapperResolverRegistration)
    (target : SafeDocumentTarget service.lib.text) : Res service.lib.text WrapperResolveOutcome :=
  .ask (.call registration target) fun
    | .ok outcome => .ret outcome
    | .error (.resolution error) => .raise (failure error.kind error.internalReason)
    | .error (.validation code) => .raise (mapUrlError (.validation code none))
    | .error .exception => .raise (failure .wrapperUnresolved (some "RESOLVER_EXCEPTION"))

end ResolutionService

/-! ## Hops -/

structure ResolutionHop where
  resolverId : String
  wrapperType : String
  sourceCanonical : List Char
  targetCanonical : List Char
  strategy : String
  metadata : List (List Char × MetadataValue)
  deriving DecidableEq, Repr

def forbiddenMetadataKeys : List (List Char) :=
  ["password", "passwd", "secret", "token", "authorization", "cookie", "set-cookie", "query",
    "location", "url", "body", "header", "headers", "cookie_jar", "auth", "api_key", "apikey",
    "access_token", "refresh_token", "signature", "signed"].map String.toList

/-- The characters that a value adds to the size of its key. -/
def metadataSize : MetadataValue → Option ℕ
  | .bool _ => some 5
  | .int value => some (toString value).length
  | .other => none

/-- The loop of `freeze_resolution_metadata`, absent where it raises `ValueError`. -/
def freezeItems (text : Text) (items : List (List Char × MetadataValue)) (serialized : ℕ) :
    List (Option (List Char) × MetadataValue) → Option (List (List Char × MetadataValue))
  | [] => some items
  | (key, value) :: rest => do
    let key := text.lower (strip (← key))
    let size ← metadataSize value
    let serialized := serialized + key.length + size
    if key ≠ [] ∧ key.length ≤ 32 ∧ isSafeToken (String.ofList key) = true ∧
        key ∉ forbiddenMetadataKeys ∧ serialized ≤ 256 ∧ key ∉ items.map Prod.fst then
      freezeItems text (items ++ [(key, value)]) serialized rest
    else none

def freezeResolutionMetadata (text : Text) :
    Option (List (Option (List Char) × MetadataValue)) →
      Option (List (List Char × MetadataValue))
  | none => some []
  | some raw =>
    if 8 < raw.length then none
    else (freezeItems text [] 0 raw).map fun items =>
      items.mergeSort fun a b => decide (a.1 ≤ b.1)

def requireAuditToken (value : Option String) : Option String :=
  value.filter fun value => isSafeToken value

/-- The hop of a resolver's answer, absent where an audit token is unsafe. -/
def hopOf (text : Text) (registration : WrapperResolverRegistration)
    (outcome : WrapperResolveOutcome) (sourceCanonical targetCanonical : List Char) :
    Option ResolutionHop := do
  let metadata ← freezeResolutionMetadata text outcome.metadata
  let resolverId ← requireAuditToken (some registration.resolverId)
  let wrapperType ← requireAuditToken (some registration.wrapperType)
  let strategy ← requireAuditToken outcome.strategy
  some { resolverId, wrapperType, sourceCanonical, targetCanonical, strategy, metadata }

/-! ## Results -/

structure NormalizedMediaURL where
  scheme : List Char
  hostname : List Char
  port : Option ℕ
  path : List Char
  query : List Char
  providerId : String
  canonical : List Char
  deriving DecidableEq, Repr

structure Validated where
  providerId : String
  providerDisplayName : String
  url : NormalizedMediaURL
  headFallbackStatuses : List ℕ
  deriving DecidableEq, Repr

def Validated.of {text : Text} {settings : UrlSettings}
    (validated : URLValidationResult text settings) : Validated where
  providerId := validated.providerId
  providerDisplayName := validated.providerDisplayName
  url :=
    { scheme := validated.url.scheme, hostname := validated.url.hostname
      port := validated.url.port, path := validated.url.path, query := validated.url.query
      providerId := validated.providerId, canonical := validated.url.canonicalWithoutQuery }
  headFallbackStatuses := validated.headFallbackStatuses

inductive ResolutionProvenance where
  | directProvider
  | wrapperResolved
  deriving DecidableEq, Repr

structure ResolutionResult where
  submittedUrl : List Char
  validated : Validated
  providerId : String
  providerDisplayName : String
  canonicalProviderUrl : List Char
  wrapperType : Option String
  provenance : ResolutionProvenance
  resolutionChain : List ResolutionHop
  deriving DecidableEq, Repr

def toCodes (s : List Char) : Str := s.map codePoint

def ofCodes (s : Str) : List Char := s.map Char.ofNat

/-- `build_public_canonical_url`. -/
def buildPublicCanonicalUrl (scheme : List Char) (hostname : Str) (port : Option ℕ)
    (canonicalPath : Str) : Except ProviderIdentity.IdentityError (List Char) := do
  let host ← ProviderIdentity.normalizeHostname hostname
  let path := if canonicalPath.head? = some (codePoint '/') then canonicalPath
    else codePoint '/' :: canonicalPath
  let scheme := Text.lower (Text.stripped (toCodes scheme))
  require (scheme = codePoints "http" ∨ scheme = codePoints "https") ⟨"IDENTITY_URL_SCHEME"⟩
  .ok (buildUrl (ofCodes scheme) (ofCodes host) port (ofCodes path) [])

namespace ResolutionService

variable (service : ResolutionService)

/-- `_with_stable_provider_identity`. -/
def withStableProviderIdentity (validated : Validated) : Except Failure Validated :=
  if validated.providerId ∉ ["vk", "rutube", "ok", "dzen"] then .ok validated
  else
    match service.providers.find service.lib.text validated.url.hostname with
    | none => .ok validated
    | some provider =>
      match ProviderIdentity.parseStableProviderIdentity service.tables validated.providerId
          (toCodes validated.url.hostname) (toCodes validated.url.path)
          (ProviderIdentity.hostnames provider) with
      | .error _ => .ok validated
      | .ok identity =>
        match buildPublicCanonicalUrl validated.url.scheme identity.hostname validated.url.port
            identity.canonicalPath with
        | .error _ => .error (.exception "ProviderIdentityError")
        | .ok canonical =>
          if toCodes validated.url.path = identity.canonicalPath ∧
              toCodes validated.url.hostname = identity.hostname ∧
              validated.url.canonical = canonical then .ok validated
          else .ok
            { validated with
              url := { validated.url with
                hostname := ofCodes identity.hostname, path := ofCodes identity.canonicalPath
                canonical := canonical } }

def parseForClassification (rawUrl : List Char) : Except Failure ParsedURL :=
  match parseAndNormalize service.lib.text rawUrl service.settings.urlAllowedSchemes
      service.settings.urlAllowedPorts service.settings.urlMaxLength with
  | .ok parsed => .ok parsed
  | .error e => .error (mapUrlError (mapParseError e))

/-- `SafeDocumentTarget.canonical_without_query`. -/
def canonicalOf (target : SafeDocumentTarget service.lib.text) : List Char :=
  buildCanonical https (canonicalHostForUrl target.hostname) none target.path

def internalUrlFingerprint (scheme hostname : List Char) (port : Option ℕ)
    (path query : List Char) : List Char :=
  let effectivePort := port.getD (if scheme = https then 443 else 80)
  Sha256.hexdigest <| String.ofList <|
    service.lib.text.lower scheme ++ '|' :: (rstripDots (service.lib.text.lower hostname) ++
      '|' :: (Nat.toDigits 10 effectivePort ++ '|' ::
        ((if path = [] then ['/'] else path) ++ '|' :: query)))

def targetFingerprint (target : SafeDocumentTarget service.lib.text) : List Char :=
  service.internalUrlFingerprint https target.hostname none target.path target.query

/-- `path_lower.endswith((".m3u8", ".mpd"))`. -/
def isManifestPath (path : List Char) : Bool :=
  ".m3u8".toList.isSuffixOf (service.lib.text.lower path) ||
    ".mpd".toList.isSuffixOf (service.lib.text.lower path)

/-- The loop of `_resolve_wrapper_chain`: the URL to resolve next, the hops so far and the
fingerprints of the URLs that were resolved. -/
structure ChainState where
  currentRaw : List Char
  chain : List ResolutionHop
  seen : List (List Char)

/-- What the loop makes of a provider's URL. -/
def finishChain (rawUrl candidate : List Char) (wrapperType : String) (chain : List ResolutionHop)
    (hop : ResolutionHop) : Res service.lib.text ResolutionResult := do
  let validated ← service.lookup
    (URLValidator.validate service.lib service.settings service.providers candidate)
  let validated ← Prog.ofExcept (service.withStableProviderIdentity (.of validated))
  .ret
    { submittedUrl := rawUrl, validated, providerId := validated.providerId
      providerDisplayName := validated.providerDisplayName
      canonicalProviderUrl := validated.url.canonical, wrapperType := some wrapperType
      provenance := .wrapperResolved
      resolutionChain := chain ++ [{ hop with targetCanonical := validated.url.canonical }] }

/-- What the loop makes of a resolver's answer. -/
def afterCall (rawUrl : List Char) (s : ChainState) (wrapper : SafeDocumentTarget service.lib.text)
    (registration : WrapperResolverRegistration) (outcome : WrapperResolveOutcome) :
    Res service.lib.text (ChainState ⊕ ResolutionResult) := do
  let candidate := strip (outcome.candidateUrl.getD [])
  Prog.require (candidate ≠ []) (failure .wrapperUnresolved none)
  let parsed ← Prog.ofExcept (service.parseForClassification candidate)
  Prog.require (parsed.scheme = https)
    (failure .unsafeResolutionTarget (some "WRAPPER_HTTP_CANDIDATE"))
  Prog.require (service.isManifestPath parsed.path = false)
    (failure .resolvedProviderUnsupported (some "MEDIA_MANIFEST_URL"))
  match hopOf service.lib.text registration outcome (service.canonicalOf wrapper)
      parsed.canonicalWithoutQuery with
  | none => .raise (failure .internalError (some "UNSAFE_AUDIT_TOKEN"))
  | some hop =>
    match service.providers.find service.lib.text parsed.hostname with
    | some _ => do
      let result ← service.finishChain rawUrl candidate registration.wrapperType s.chain hop
      .ret (.inr result)
    | none =>
      match service.wrappers.find service.lib.text parsed.hostname with
      | some _ => do
        let seen := service.targetFingerprint wrapper :: s.seen
        Prog.require (service.internalUrlFingerprint parsed.scheme parsed.hostname parsed.port
          parsed.path parsed.query ∉ seen) (failure .resolutionLoop none)
        .ret (.inl { currentRaw := candidate, chain := s.chain ++ [hop], seen })
      | none => .raise (failure .resolvedProviderUnsupported none)

/-- A turn of the loop. -/
def chainStep (rawUrl : List Char) (s : ChainState) :
    Res service.lib.text (ChainState ⊕ ResolutionResult) := do
  Prog.require (s.chain.length < service.wrapperResolutionMaxDepth)
    (failure .resolutionLimitExceeded none)
  let wrapper ← service.lookup
    (WrapperSafetyValidator.validate service.lib service.settings s.currentRaw)
  Prog.require (service.targetFingerprint wrapper ∉ s.seen) (failure .resolutionLoop none)
  let registration ← service.matchWrapper wrapper
  match registration with
  | none =>
    if (service.wrappers.find service.lib.text wrapper.hostname).isSome then
      .raise (failure .wrapperUnsupported (some "WRAPPER_SHAPE_MISMATCH"))
    else .raise (failure .resolvedProviderUnsupported none)
  | some registration => do
    let outcome ← service.callResolver registration wrapper
    service.afterCall rawUrl s wrapper registration outcome

/-- `_resolve_inner`; a run that uses up its fuel returns nothing. -/
def resolveInner (rawUrl : List Char) (fuel : ℕ) :
    Res service.lib.text (Option ResolutionResult) := do
  let parsed ← Prog.ofExcept (service.parseForClassification rawUrl)
  Prog.require (¬ isReservedHostname service.lib.text parsed.hostname)
    (failure .unsafeResolutionTarget (some "RESERVED_HOSTNAME"))
  Prog.require (¬ looksLikeNonstandardIpv4 service.lib.text parsed.hostname)
    (failure .unsafeResolutionTarget (some "NONSTANDARD_IPV4"))
  Prog.require (parseIpLiteral service.lib.text service.lib.ip parsed.hostname = none)
    (failure .unsafeResolutionTarget (some "IP_LITERAL"))
  match service.providers.find service.lib.text parsed.hostname with
  | some _ => do
    let validated ← service.lookup
      (URLValidator.validate service.lib service.settings service.providers rawUrl)
    let validated ← Prog.ofExcept (service.withStableProviderIdentity (.of validated))
    .ret <| some
      { submittedUrl := rawUrl, validated, providerId := validated.providerId
        providerDisplayName := validated.providerDisplayName
        canonicalProviderUrl := validated.url.canonical, wrapperType := none
        provenance := .directProvider, resolutionChain := [] }
  | none =>
    match service.wrappers.find service.lib.text parsed.hostname with
    | none => .raise (failure .wrapperUnsupported none)
    | some _ => Prog.iterate (service.chainStep rawUrl) fuel ⟨rawUrl, [], []⟩

/-- The handlers of `resolve`. -/
def mapFailure : Failure → ResolutionError
  | .resolution error => error
  | .wrapperRegistry => resolutionError .internalError (some "WRAPPER_REGISTRY")
  | .exception typeName =>
    resolutionError .internalError
      (some (String.ofList ((typeName.toList.map Char.toUpper).take 64)))

def resolve (rawUrl : List Char) (fuel : ℕ) :
    Prog (Question service.lib.text) Answer ResolutionError (Option ResolutionResult) :=
  Prog.mapError mapFailure (service.resolveInner rawUrl fuel)

end ResolutionService

end FetchNow.Resolution
