import FetchNow.Url.Parse
import Mathlib.Algebra.Group.Nat.Defs

/-!
# Destinations

Which addresses may be contacted, and which hosts belong to which provider.
-/
namespace FetchNow.Url

open Transactions

/-! ## Addresses -/

/-- `IPv4Address` and `IPv6Address`. -/
inductive Address where
  | v4 (bits : BitVec 32)
  | v6 (bits : BitVec 128) (scopeId : Option String)
  deriving DecidableEq, Repr

/-- The parser and the range tables of the `ipaddress` module. -/
structure IpTables where
  ipAddress : List Char → Option Address
  isUnspecified : Address → Bool
  isLoopback : Address → Bool
  isPrivate : Address → Bool
  isLinkLocal : Address → Bool
  isMulticast : Address → Bool
  isReserved : Address → Bool
  isGlobal : Address → Bool

variable {text : Text} {ip : IpTables} {hostname : List Char} {addresses : List Address}

/-- `ipv4_mapped`. -/
def ipv4Mapped (bits : BitVec 128) : Option (BitVec 32) :=
  if bits.toNat / 2 ^ 32 = 0xFFFF then some (bits.setWidth 32) else none

def metadataEndpoint : Address := .v4 0xA9FEA9FE#32

def isBlockedClass (ip : IpTables) (address : Address) : Bool :=
  address = metadataEndpoint || ip.isUnspecified address || ip.isLoopback address ||
    ip.isPrivate address || ip.isLinkLocal address || ip.isMulticast address ||
    ip.isReserved address || !ip.isGlobal address

def isBlockedDestination (ip : IpTables) : Address → Bool
  | .v4 bits => isBlockedClass ip (.v4 bits)
  | .v6 bits scopeId =>
    match ipv4Mapped bits with
    | some mapped => isBlockedClass ip (.v4 mapped)
    | none => isBlockedClass ip (.v6 bits scopeId)

def assertAddressesAllowed (ip : IpTables) (addresses : List Address) : Except UrlError Unit := do
  require (addresses ≠ []) (validationError .blockedDestination)
  require (∀ address ∈ addresses, isBlockedDestination ip address = false)
    (validationError .blockedDestination)

theorem assertAddressesAllowed_eq_ok (h : assertAddressesAllowed ip addresses = .ok ()) :
    addresses ≠ [] ∧ ∀ address ∈ addresses, isBlockedDestination ip address = false := by
  simp only [assertAddressesAllowed, bind_eq_ok, require_eq_ok] at h
  obtain ⟨_, hne, hallowed⟩ := h
  exact ⟨hne, hallowed⟩

/-! ## Names that are addresses -/

def rstripDots (host : List Char) : List Char := host.rdropWhile (· = '.')

def reservedHostnames : List (List Char) :=
  ["localhost".toList, "localhost.localdomain".toList, "ip6-localhost".toList,
    "ip6-loopback".toList]

def isReservedHostname (text : Text) (hostname : List Char) : Bool :=
  text.lower (rstripDots hostname) ∈ reservedHostnames

def isHexDigit (c : Char) : Bool := c.isDigit || ('a' ≤ c && c ≤ 'f') || ('A' ≤ c && c ≤ 'F')

/-- `_HEX_IPV4_RE`. -/
def matchesHexIpv4 : List Char → Bool
  | '0' :: 'x' :: digits => digits ≠ [] && digits.all isHexDigit
  | _ => false

/-- `_DECIMAL_IPV4_RE`. -/
def matchesDecimalIpv4 (host : List Char) : Bool :=
  host ≠ [] && host.length ≤ 10 && host.all Char.isDigit

/-- `_DOTTED_IPV4_RE`. -/
def matchesDottedIpv4 (host : List Char) : Bool :=
  let parts := host.splitOn '.'
  2 ≤ parts.length && parts.length ≤ 4 &&
    parts.all fun part => part ≠ [] && part.length ≤ 4 && part.all Char.isDigit

def looksLikeNonstandardIpv4 (text : Text) (hostname : List Char) : Bool :=
  let host := text.lower (rstripDots hostname)
  if matchesHexIpv4 host then true
  else if matchesDecimalIpv4 host then true
  else if !matchesDottedIpv4 host then false
  else
    let parts := host.splitOn '.'
    parts.length ≠ 4 || parts.any fun part =>
      (part ≠ ['0'] && part.head? = some '0') || 255 < Nat.ofDigitChars 10 part 0

def parseIpLiteral (text : Text) (ip : IpTables) (hostname : List Char) : Option Address :=
  let host := rstripDots hostname
  let host := if host.head? = some '[' ∧ host.getLast? = some ']' then host.tail.dropLast else host
  if looksLikeNonstandardIpv4 text host then none else ip.ipAddress host

/-! ## Host names -/

/-- `hostname.lower().rstrip(".")`. -/
def normalizeHost (text : Text) (hostname : List Char) : List Char := rstripDots (text.lower hostname)

/-- A lowered name without delimiters but for its trailing dots is plain. -/
theorem plainHost_of_normalizeHost (hlowered : hostname ≠ [] ∧ text.lower hostname = hostname)
    (hplain : ∀ c ∈ normalizeHost text hostname, c ∉ delimiters) : PlainHost hostname := by
  refine ⟨hlowered.1, ?_⟩
  rw [normalizeHost, hlowered.2, rstripDots] at hplain
  intro c hc hdelim
  have hsplit := List.rdropWhile_append_rtakeWhile (p := fun c => decide (c = '.')) (l := hostname)
  rw [← hsplit] at hc
  rcases List.mem_append.mp hc with hc | hc
  · exact hplain c hc hdelim
  · have hdot : c = '.' := by simpa using List.mem_rtakeWhile_imp hc
    subst hdot
    exact absurd hdelim (by decide)

theorem PlainHost.normalizeHost (h : PlainHost hostname) :
    ∀ c ∈ normalizeHost text hostname, c ∉ delimiters := by
  intro c hc hdelim
  have hlower : c ∈ text.lower hostname := (List.rdropWhile_prefix _ _).subset hc
  exact h.2 c ((text.lower_delimiters _ c hdelim).mp hlower) hdelim

theorem PlainHost.no_colon (h : PlainHost hostname) : ':' ∉ hostname :=
  fun hmem => h.2 ':' hmem (by decide)

/-- Host names in a set, as `frozenset({..})` in the source. -/
structure HostNames where
  names : List (List Char)
  plain : ∀ name ∈ names, PlainHost name

/-! ## Providers -/

structure ProviderDescriptor where
  id : String
  displayName : String
  exactHostnames : HostNames
  enabled : Bool
  headFallbackStatuses : List ℕ

structure UrlSettings where
  urlAllowedSchemes : List (List Char)
  urlAllowedPorts : List ℕ
  urlMaxLength : ℕ
  urlMaxRedirects : ℕ
  providerVkEnabled : Bool
  providerRutubeEnabled : Bool
  providerOkEnabled : Bool
  providerDzenEnabled : Bool
  outboundAllowedContentTypes : List (List Char)
  outboundProbeBodyBytes : ℕ
  outboundMaxResponseBytes : ℕ
  schemes : ∀ scheme ∈ urlAllowedSchemes, scheme = http ∨ scheme = https

theorem http_or_https : ∀ scheme ∈ [http, https], scheme = http ∨ scheme = https := by simp

def vk (settings : UrlSettings) : ProviderDescriptor where
  id := "vk"
  displayName := "VK"
  exactHostnames :=
    { names := ["vk.com".toList, "www.vk.com".toList, "m.vk.com".toList, "vk.ru".toList,
        "www.vk.ru".toList, "m.vk.ru".toList, "vkvideo.ru".toList, "www.vkvideo.ru".toList,
        "m.vkvideo.ru".toList]
      plain := by decide }
  enabled := settings.providerVkEnabled
  headFallbackStatuses := [418, 405, 501]

def rutube (settings : UrlSettings) : ProviderDescriptor where
  id := "rutube"
  displayName := "Rutube"
  exactHostnames :=
    { names := ["rutube.ru".toList, "www.rutube.ru".toList]
      plain := by decide }
  enabled := settings.providerRutubeEnabled
  headFallbackStatuses := [405, 501]

def ok (settings : UrlSettings) : ProviderDescriptor where
  id := "ok"
  displayName := "OK"
  exactHostnames :=
    { names := ["ok.ru".toList, "www.ok.ru".toList, "m.ok.ru".toList, "mobile.ok.ru".toList,
        "odnoklassniki.ru".toList, "www.odnoklassniki.ru".toList, "m.odnoklassniki.ru".toList,
        "mobile.odnoklassniki.ru".toList]
      plain := by decide }
  enabled := settings.providerOkEnabled
  headFallbackStatuses := [405, 501]

def dzen (settings : UrlSettings) : ProviderDescriptor where
  id := "dzen"
  displayName := "Dzen"
  exactHostnames :=
    { names := ["dzen.ru".toList, "www.dzen.ru".toList, "zen.yandex.ru".toList,
        "www.zen.yandex.ru".toList]
      plain := by decide }
  enabled := settings.providerDzenEnabled
  headFallbackStatuses := [405, 501]

structure ProviderRegistry where
  providers : List ProviderDescriptor

def ProviderRegistry.fromSettings (settings : UrlSettings) : ProviderRegistry where
  providers := [vk settings, rutube settings, ok settings, dzen settings]

def ProviderRegistry.find (registry : ProviderRegistry) (text : Text) (hostname : List Char) :
    Option ProviderDescriptor :=
  (registry.providers.find? fun provider =>
    normalizeHost text hostname ∈ provider.exactHostnames.names).filter (·.enabled)

/-- `ProviderRegistry.resolve`. -/
def ProviderRegistry.resolve (registry : ProviderRegistry) (text : Text) (hostname : List Char) :
    Except UrlError ProviderDescriptor :=
  match registry.find text hostname with
  | some provider => .ok provider
  | none => .error (validationError .unsupportedProvider)

/-- The host is registered for a provider of this id. -/
def ProviderRegistry.Registered (registry : ProviderRegistry) (text : Text) (id : String)
    (hostname : List Char) : Prop :=
  ∃ provider ∈ registry.providers, provider.id = id ∧
    normalizeHost text hostname ∈ provider.exactHostnames.names

variable {registry : ProviderRegistry} {provider : ProviderDescriptor}

theorem ProviderRegistry.resolve_eq_ok :
    registry.resolve text hostname = .ok provider ↔ registry.find text hostname = some provider := by
  unfold ProviderRegistry.resolve
  cases registry.find text hostname <;> simp

theorem ProviderRegistry.registered_of_find (h : registry.find text hostname = some provider) :
    registry.Registered text provider.id hostname := by
  obtain ⟨hfind, -⟩ := Option.filter_eq_some_iff.mp h
  have hmem := List.mem_of_find?_eq_some hfind
  have hhost := List.find?_some hfind
  exact ⟨provider, hmem, rfl, by simpa using hhost⟩

end FetchNow.Url
