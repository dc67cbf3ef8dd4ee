import FetchNow.Resolution.Service
import FetchNow.Url.Admission

/-!
# Resolution ends with a connected chain

No run calls more resolvers than the depth allows or one of them twice for the same URL, and the
hops of a result lead from the submitted URL to the provider's.
-/
namespace FetchNow.Resolution

open Exchanges Transactions Url Network

variable {service : ResolutionService} {raw rawUrl candidate : List Char} {parsed parsed' : ParsedURL}
  {hop : ResolutionHop} {chain : List ResolutionHop} {a b c : List Char}

/-! ## Chains -/

/-- Every hop starts where the one before it ended. -/
def Connected (source : List Char) : List ResolutionHop → List Char → Prop
  | [], target => source = target
  | hop :: rest, target => hop.sourceCanonical = source ∧ Connected hop.targetCanonical rest target

theorem Connected.snoc (h : Connected a chain b) (hsource : hop.sourceCanonical = b)
    (htarget : hop.targetCanonical = c) : Connected a (chain ++ [hop]) c := by
  induction chain generalizing a with
  | nil =>
    obtain rfl : a = b := h
    exact ⟨hsource, htarget⟩
  | cons first rest ih => exact ⟨h.1, ih h.2⟩

/-! ## URLs -/

/-- What a URL is parsed to, under whatever schemes and ports. -/
def ParsesTo (service : ResolutionService) (raw : List Char) (parsed : ParsedURL) : Prop :=
  ∃ schemes ports, parseAndNormalize service.lib.text raw schemes ports
    service.settings.urlMaxLength = .ok parsed

theorem ParsesTo.unique (h : ParsesTo service raw parsed) (h' : ParsesTo service raw parsed') :
    parsed = parsed' := by
  obtain ⟨_, _, h⟩ := h
  obtain ⟨_, _, h'⟩ := h'
  obtain ⟨split, host, port, h⟩ := parseAndNormalize_eq_ok.mp h
  obtain ⟨split', host', port', h'⟩ := parseAndNormalize_eq_ok.mp h'
  obtain rfl : split = split' := Option.some.inj (h.splits.symm.trans h'.splits)
  obtain rfl : host = host' := Option.some.inj (h.named.symm.trans h'.named)
  obtain rfl : port = port' := Option.some.inj (h.ported.symm.trans h'.ported)
  have hhost : parsed.hostname = parsed'.hostname :=
    Except.ok.inj (h.normalized.symm.trans h'.normalized)
  have hport : parsed.port = parsed'.port := by
    rw [normalizePort_eq_written h.normalizedPort, normalizePort_eq_written h'.normalizedPort]
  have hscheme := h.scheme_eq.trans h'.scheme_eq.symm
  have hpath := h.path_eq.trans h'.path_eq.symm
  have hquery := h.query_eq.trans h'.query_eq.symm
  cases parsed
  cases parsed'
  simp only [ParsedURL.mk.injEq]
  exact ⟨hscheme, hhost, hport, hpath, hquery⟩

theorem parsesTo_of_classification (h : service.parseForClassification raw = .ok parsed) :
    ParsesTo service raw parsed := by
  rw [ResolutionService.parseForClassification] at h
  split at h
  · rename_i hparsed
    cases h
    exact ⟨_, _, hparsed⟩
  · cases h

/-- A wrapper's target is what its URL was parsed to, over https on the default port. -/
structure TargetOf (service : ResolutionService) (raw : List Char)
    (target : SafeDocumentTarget service.lib.text) (parsed : ParsedURL) : Prop where
  parses : ParsesTo service raw parsed
  scheme : parsed.scheme = https
  port : parsed.port = none
  hostname : target.hostname = parsed.hostname
  path : target.path = parsed.path
  query : target.query = parsed.query

theorem TargetOf.canonical {target : SafeDocumentTarget service.lib.text}
    (h : TargetOf service raw target parsed) :
    service.canonicalOf target = parsed.canonicalWithoutQuery := by
  rw [ResolutionService.canonicalOf, ParsedURL.canonicalWithoutQuery, h.scheme, h.port, h.hostname,
    h.path]

theorem targetOf_of_canEnd {target : SafeDocumentTarget service.lib.text}
    (h : (WrapperSafetyValidator.validate service.lib service.settings raw).CanEnd (.ok target)) :
    ∃ parsed, TargetOf service raw target parsed := by
  have hwp : (WrapperSafetyValidator.validate service.lib service.settings raw).wp
      (fun _ _ => True) (fun r _ => ∀ target, r = .ok target →
        ∃ parsed, TargetOf service raw target parsed) [] := by
    unfold WrapperSafetyValidator.validate
    split
    · rintro target ⟨⟩
    · rename_i parsed hparsed
      refine Prog.wp_require_then (fun _ => nofun) fun hscheme => ?_
      refine Prog.wp_require_then (fun _ => nofun) fun hport => ?_
      refine Prog.wp_require_then (fun _ => nofun) fun _ => ?_
      refine Prog.wp_require_then (fun _ => nofun) fun _ => ?_
      refine Prog.wp_require_then (fun _ => nofun) fun _ => ?_
      refine Prog.wp_bind.mpr (Prog.wp_mapError.mpr ?_)
      refine wp_resolve_then (fun _ _ => trivial) (fun e => nofun) fun addresses => ?_
      apply Prog.wp_ofExcept.mpr
      cases assertAddressesAllowed service.lib.ip addresses with
      | error e => exact nofun
      | ok _ =>
        rintro target ⟨⟩
        exact ⟨parsed, ⟨_, _, hparsed⟩, hscheme, hport, rfl, rfl, rfl⟩
  exact Prog.canEnd_of_wp hwp h target rfl

theorem validatedFrom_of_canEnd
    {validated : URLValidationResult service.lib.text service.settings}
    (h : (URLValidator.validate service.lib service.settings service.providers raw).CanEnd
      (.ok validated)) :
    ValidatedFrom service.providers raw validated := by
  have hwp : (URLValidator.validate service.lib service.settings service.providers raw).wp
      (fun _ _ => True) (fun r _ => ∀ validated, r = .ok validated →
        ValidatedFrom service.providers raw validated) [] := by
    apply wp_validate fun _ _ => trivial
    · rintro validated _ _ hvalidated _ ⟨⟩
      exact hvalidated
    · exact fun e _ _ => nofun
  exact Prog.canEnd_of_wp hwp h validated rfl

/-! ## Providers -/

/-- The provider is enabled and has the host itself among its exact hosts. -/
def OwnedBy (service : ResolutionService) (providerId : String) (hostname : List Char) : Prop :=
  ∃ provider ∈ service.providers.providers, provider.enabled = true ∧ provider.id = providerId ∧
    hostname ∈ provider.exactHostnames.names

theorem find_spec {registry : ProviderRegistry} {text : Text} {hostname : List Char}
    {provider : ProviderDescriptor} (h : registry.find text hostname = some provider) :
    provider ∈ registry.providers ∧ provider.enabled = true ∧
      normalizeHost text hostname ∈ provider.exactHostnames.names := by
  obtain ⟨hfind, henabled⟩ := Option.filter_eq_some_iff.mp h
  exact ⟨List.mem_of_find?_eq_some hfind, henabled, by simpa using List.find?_some hfind⟩

theorem normalizeHost_eq_self {text : Text} {hostname : List Char}
    (hlower : text.lower hostname = hostname) (hdot : hostname.getLast? ≠ some '.') :
    normalizeHost text hostname = hostname := by
  rw [normalizeHost, hlower, rstripDots, List.rdropWhile_eq_self_iff]
  intro hne
  rw [List.getLast?_eq_some_getLast hne] at hdot
  simpa using hdot

theorem ofCodes_toCodes (s : List Char) : ofCodes (toCodes s) = s := by
  have hsame : Char.ofNat ∘ codePoint = id := funext fun c => Char.ofNat_toNat c
  rw [ofCodes, toCodes, List.map_map, hsame, List.map_id]

/-- The host of an identity is among those it was checked against. -/
theorem identity_hostname {tables : Unicode} {provider : ProviderDescriptor} {providerId : String}
    {hostname path : Str} {identity : ProviderIdentity.StableProviderIdentity}
    (hknown : providerId ∈ ["vk", "rutube", "ok", "dzen"])
    (hmem : provider ∈ service.providers.providers)
    (h : ProviderIdentity.parseStableProviderIdentity tables providerId hostname path
      (ProviderIdentity.hostnames provider) = .ok identity) :
    identity.hostname ∈ ProviderIdentity.hostnames provider := by
  obtain ⟨id, rfl⟩ : ∃ id : ProviderIdentity.ProviderID, providerId = id.value := by
    simp only [List.mem_cons, List.not_mem_nil, or_false] at hknown
    rcases hknown with rfl | rfl | rfl | rfl
    · exact ⟨.vk, rfl⟩
    · exact ⟨.rutube, rfl⟩
    · exact ⟨.ok, rfl⟩
    · exact ⟨.dzen, rfl⟩
  obtain ⟨host, mediaId, -, hhost, -, -, rfl⟩ := ProviderIdentity.parse_eq_ok_iff.mp h
  cases id with
  | vk | rutube | ok => exact hhost
  | dzen => exact ProviderIdentity.canonicalHost_registered hmem hhost

/-- The host of a provider's URL has no dot at its end, once it is encoded, or the URL has a stable
identity, which is written without it. -/
def HostKept (service : ResolutionService) (raw : List Char) : Prop :=
  ∀ parsed provider, ParsesTo service raw parsed →
    service.providers.find service.lib.text parsed.hostname = some provider →
      parsed.hostname.getLast? ≠ some '.' ∨
        ∃ identity, ProviderIdentity.parseStableProviderIdentity service.tables provider.id
          (toCodes parsed.hostname) (toCodes parsed.path) (ProviderIdentity.hostnames provider) =
            .ok identity

theorem known_of_registered {provider : ProviderDescriptor}
    (h : provider ∈ service.providers.providers) : provider.id ∈ ["vk", "rutube", "ok", "dzen"] := by
  simp only [ResolutionService.providers, ProviderRegistry.fromSettings, List.mem_cons,
    List.not_mem_nil, or_false] at h
  rcases h with rfl | rfl | rfl | rfl <;> simp [vk, rutube, ok, dzen]

theorem OwnedBy.no_dot {providerId : String} {hostname : List Char}
    (h : OwnedBy service providerId hostname) : hostname.getLast? ≠ some '.' := by
  obtain ⟨provider, hmem, -, -, hname⟩ := h
  have hregular := IsRegistryHost.regular ⟨provider, hmem, hname⟩
  intro hlast
  have hstripped := hregular.stripped
  rw [List.rdropWhile_eq_self_iff] at hstripped
  obtain ⟨front, rfl⟩ := List.getLast?_eq_some_iff.mp hlast
  exact hstripped (by simp) (by simp)

/-- A validated result names the provider that has its host, up to the dot that the lookup drops. -/
theorem owned_iff_of_stable {validated : URLValidationResult service.lib.text service.settings}
    {result : Validated} (hfrom : ValidatedFrom service.providers raw validated)
    (h : service.withStableProviderIdentity (.of validated) = .ok result) :
    OwnedBy service result.providerId result.url.hostname ↔ HostKept service raw := by
  obtain ⟨hparsed, provider, hfind, hid⟩ := hfrom
  obtain ⟨hmem, henabled, hhost⟩ := find_spec hfind
  have hparses : ParsesTo service raw validated.url := ⟨_, _, hparsed⟩
  rw [ResolutionService.withStableProviderIdentity] at h
  split at h
  · rename_i hunknown
    change validated.providerId ∉ _ at hunknown
    rw [hid] at hunknown
    exact absurd (known_of_registered hmem) hunknown
  split at h
  · rename_i hnone
    rw [show (Validated.of validated).url.hostname = validated.url.hostname from rfl, hfind] at hnone
    cases hnone
  rename_i provider' hfind'
  obtain rfl : provider = provider' := Option.some.inj (hfind.symm.trans hfind')
  rw [show (Validated.of validated).providerId = provider.id from hid,
    show (Validated.of validated).url.hostname = validated.url.hostname from rfl,
    show (Validated.of validated).url.path = validated.url.path from rfl] at h
  cases hidentity : ProviderIdentity.parseStableProviderIdentity service.tables provider.id
      (toCodes validated.url.hostname) (toCodes validated.url.path)
      (ProviderIdentity.hostnames provider) with
  | error e =>
    rw [hidentity] at h
    cases h
    constructor
    · intro howned parsed provider' hparses' _
      rw [hparses'.unique hparses]
      exact .inl howned.no_dot
    · intro hkept
      rcases hkept _ _ hparses hfind with hdot | ⟨identity, hok⟩
      · refine ⟨provider, hmem, henabled, hid.symm, ?_⟩
        rwa [normalizeHost_eq_self validated.sound.hostname.2 hdot] at hhost
      · rw [hidentity] at hok
        cases hok
  | ok identity =>
    have hregistered := identity_hostname (known_of_registered hmem) hmem hidentity
    have hkept : HostKept service raw := by
      intro parsed provider' hparses' hfind'
      obtain rfl := hparses'.unique hparses
      obtain rfl : provider = provider' := Option.some.inj (hfind.symm.trans hfind')
      exact .inr ⟨identity, hidentity⟩
    refine iff_of_true ?_ hkept
    obtain ⟨name, hname, heq⟩ := List.mem_map.mp hregistered
    have hnamed : ofCodes identity.hostname ∈ provider.exactHostnames.names := by
      rw [← heq]
      change ofCodes (toCodes name) ∈ _
      rwa [ofCodes_toCodes]
    rw [hidentity] at h
    dsimp only at h
    split at h
    · cases h
    split at h
    · rename_i hsame
      cases h
      refine ⟨provider, hmem, henabled, hid.symm, ?_⟩
      rwa [← hsame.2.1, ofCodes_toCodes] at hnamed
    · cases h
      exact ⟨provider, hmem, henabled, rfl, hnamed⟩

/-! ## What a run has asked -/

variable {text : Text} {trace trace' newer : ResTrace text}

/-- The targets that resolvers were called with, newest first. -/
def calls (trace : ResTrace text) : List (SafeDocumentTarget text) :=
  trace.filterMap fun x => match x.1 with
    | .call _ target => some target
    | _ => none

/-- The candidates that resolvers have returned. -/
def candidates (trace : ResTrace text) : List (List Char) :=
  trace.filterMap fun x => match x with
    | ⟨.call _ _, .ok outcome⟩ => some (strip (outcome.candidateUrl.getD []))
    | _ => none

/-- Nothing but lookups and matches lies between. -/
def SameCalls (trace' trace : ResTrace text) : Prop :=
  calls trace' = calls trace ∧ candidates trace' = candidates trace

theorem SameCalls.refl : SameCalls trace trace := ⟨rfl, rfl⟩

theorem SameCalls.trans {trace'' : ResTrace text} (h : SameCalls trace'' trace')
    (h' : SameCalls trace' trace) : SameCalls trace'' trace :=
  ⟨h.1.trans h'.1, h.2.trans h'.2⟩

theorem sameCalls_append (h : ∀ x ∈ newer, ∃ q, x.1 = Question.net q) :
    SameCalls (newer ++ trace) trace := by
  induction newer with
  | nil => exact SameCalls.refl
  | cons x newer ih =>
    obtain ⟨hx, hnewer⟩ := List.forall_mem_cons.mp h
    obtain ⟨q, hq⟩ := hx
    obtain ⟨question, answer⟩ := x
    subst hq
    exact ih hnewer

section Asking

variable {α : Type} {trace : ResTrace service.lib.text} {target : SafeDocumentTarget service.lib.text}
  {registration : WrapperResolverRegistration}

theorem wp_lookup {p : Net α} {post : Except Failure α → ResTrace service.lib.text → Prop}
    (h : ∀ r trace', SameCalls trace' trace → p.CanEnd r → post (r.mapError mapUrlError) trace') :
    (service.lookup p).wp (fun _ _ => True) post trace := by
  refine Prog.wp_mapError.mpr (Prog.wp_embed (fun _ _ => trivial) ?_)
  intro r newer hnewer hend
  exact h r _ (sameCalls_append hnewer) hend

theorem wp_askMatch {post : Except Failure Bool → ResTrace service.lib.text → Prop}
    (h : ∀ r trace', SameCalls trace' trace → post r trace') :
    (service.askMatch registration target).wp (fun _ _ => True) post trace := by
  refine ⟨trivial, ?_⟩
  rintro (e | matched)
  · exact h _ _ ⟨rfl, rfl⟩
  · exact h _ _ ⟨rfl, rfl⟩

theorem wp_checkOthers {others : List WrapperResolverRegistration}
    {post : Except Failure Unit → ResTrace service.lib.text → Prop}
    (h : ∀ r trace', SameCalls trace' trace → post r trace') :
    (service.checkOthers target others).wp (fun _ _ => True) post trace := by
  induction others generalizing trace with
  | nil => exact h _ _ SameCalls.refl
  | cons other rest ih =>
    refine Prog.wp_bind.mpr (wp_askMatch fun r trace' hsame => ?_)
    cases r with
    | error e => exact h _ _ hsame
    | ok matched =>
      refine Prog.wp_require_then (fun _ => h _ _ hsame) fun _ => ih ?_
      exact fun r trace'' hsame' => h r trace'' (hsame'.trans hsame)

theorem wp_matchWrapper
    {post : Except Failure (Option WrapperResolverRegistration) → ResTrace service.lib.text → Prop}
    (h : ∀ r trace', SameCalls trace' trace → post r trace') :
    (service.matchWrapper target).wp (fun _ _ => True) post trace := by
  rw [ResolutionService.matchWrapper]
  split
  · exact h _ _ SameCalls.refl
  · refine Prog.wp_bind.mpr (wp_askMatch fun r trace' hsame => ?_)
    cases r with
    | error e => exact h _ _ hsame
    | ok matched =>
      change (if matched = false then _ else _ : Res service.lib.text _).wp _ _ _
      split
      · exact h _ _ hsame
      · refine Prog.wp_bind.mpr (wp_checkOthers fun r trace'' hsame' => ?_)
        cases r with
        | error e => exact h _ _ (hsame'.trans hsame)
        | ok _ => exact h _ _ (hsame'.trans hsame)

theorem wp_callResolver
    {post : Except Failure WrapperResolveOutcome → ResTrace service.lib.text → Prop}
    (herror : ∀ e trace', calls trace' = target :: calls trace → post (.error e) trace')
    (hok : ∀ outcome trace', calls trace' = target :: calls trace →
      candidates trace' = strip (outcome.candidateUrl.getD []) :: candidates trace →
        post (.ok outcome) trace') :
    (service.callResolver registration target).wp (fun _ _ => True) post trace := by
  refine ⟨trivial, ?_⟩
  rintro (e | outcome)
  · cases e <;> exact herror _ _ rfl
  · exact hok _ _ rfl rfl

end Asking

/-! ## A turn -/

/-- Host, path and query of a URL, for which a final dot of the host and an empty path make no
difference; a wrapper's is https on the default port. -/
def effectiveUrl (service : ResolutionService) (target : SafeDocumentTarget service.lib.text) :
    List Char × List Char × List Char :=
  (rstripDots (service.lib.text.lower target.hostname),
    if target.path = [] then ['/'] else target.path, target.query)

/-- No more calls than the depth, and none of them for the same URL. -/
structure Bounded (service : ResolutionService) (trace : ResTrace service.lib.text) : Prop where
  depth : (calls trace).length ≤ service.wrapperResolutionMaxDepth
  distinct : ((calls trace).map service.targetFingerprint).Nodup

theorem Bounded.same {trace trace' : ResTrace service.lib.text} (h : Bounded service trace)
    (hsame : SameCalls trace' trace) : Bounded service trace' := by
  refine ⟨?_, ?_⟩
  · rw [hsame.1]
    exact h.depth
  · rw [hsame.1]
    exact h.distinct

/-- A result names the provider of its host, and its hops lead from the submitted URL to it. -/
structure ResolutionResult.Sound (service : ResolutionService) (rawUrl : List Char)
    (result : ResolutionResult) : Prop where
  provider : OwnedBy service result.providerId result.validated.url.hostname
  direct : result.resolutionChain = [] ↔ result.provenance = .directProvider
  connected : result.provenance ≠ .directProvider → ∃ origin, ParsesTo service rawUrl origin ∧
    Connected origin.canonicalWithoutQuery result.resolutionChain result.canonicalProviderUrl

/-- The URL that a run resolved last. -/
def lastUrl (rawUrl : List Char) (trace : ResTrace text) : List Char :=
  (candidates trace).headD rawUrl

/-- How a run ends. -/
structure Resolved (service : ResolutionService) (rawUrl : List Char) {ε : Type}
    (r : Except ε (Option ResolutionResult)) (trace : ResTrace service.lib.text) : Prop where
  bounded : Bounded service trace
  ends : r ≠ .ok none
  sound : ∀ result, r = .ok (some result) →
    (result.Sound service rawUrl ↔ HostKept service (lastUrl rawUrl trace))

theorem Resolved.raise {ε : Type} {e : ε} {trace : ResTrace service.lib.text}
    (h : Bounded service trace) : Resolved service rawUrl (.error e) trace := ⟨h, nofun, nofun⟩

theorem Resolved.mapError {ε ε' : Type} {g : ε → ε'} {r : Except ε (Option ResolutionResult)}
    {trace : ResTrace service.lib.text} (h : Resolved service rawUrl r trace) :
    Resolved service rawUrl (r.mapError g) trace := by
  cases r with
  | error e => exact .raise h.bounded
  | ok result =>
    refine ⟨h.bounded, fun hnone => h.ends ?_, fun result' hresult => h.sound result' ?_⟩
    · cases hnone
      rfl
    · cases hresult
      rfl

/-- The hops lead to the URL that is resolved next, and the resolved ones are remembered. -/
structure ChainInv (service : ResolutionService) (rawUrl : List Char)
    (s : ResolutionService.ChainState) (trace : ResTrace service.lib.text) : Prop where
  bounded : Bounded service trace
  seen : s.seen = (calls trace).map service.targetFingerprint
  length : s.chain.length = (calls trace).length
  linked : ∀ parsed, ParsesTo service s.currentRaw parsed → ∃ origin,
    ParsesTo service rawUrl origin ∧
      Connected origin.canonicalWithoutQuery s.chain parsed.canonicalWithoutQuery

/-- A resolver has just been called for the URL that the hops lead to. -/
structure Called (service : ResolutionService) (rawUrl : List Char)
    (s : ResolutionService.ChainState) (wrapper : SafeDocumentTarget service.lib.text)
    (trace : ResTrace service.lib.text) : Prop where
  bounded : Bounded service trace
  seen : service.targetFingerprint wrapper :: s.seen = (calls trace).map service.targetFingerprint
  length : s.chain.length + 1 = (calls trace).length
  linked : ∃ origin, ParsesTo service rawUrl origin ∧
    Connected origin.canonicalWithoutQuery s.chain (service.canonicalOf wrapper)

section Turns

variable {s : ResolutionService.ChainState} {wrapper : SafeDocumentTarget service.lib.text}
  {registration : WrapperResolverRegistration} {outcome : WrapperResolveOutcome}
  {trace trace' : ResTrace service.lib.text}

theorem ChainInv.called (h : ChainInv service rawUrl s trace)
    (hdepth : s.chain.length < service.wrapperResolutionMaxDepth)
    (hnew : service.targetFingerprint wrapper ∉ s.seen)
    (htarget : TargetOf service s.currentRaw wrapper parsed)
    (hcalls : calls trace' = wrapper :: calls trace) : Called service rawUrl s wrapper trace' := by
  have hlength := h.length
  refine ⟨⟨?_, ?_⟩, ?_, ?_, ?_⟩
  · rw [hcalls, List.length_cons]
    omega
  · rw [hcalls, List.map_cons, List.nodup_cons, ← h.seen]
    refine ⟨hnew, ?_⟩
    rw [h.seen]
    exact h.bounded.distinct
  · rw [hcalls, List.map_cons, h.seen]
  · rw [hcalls, List.length_cons, hlength]
  · obtain ⟨origin, horigin, hconnected⟩ := h.linked parsed htarget.parses
    rw [htarget.canonical]
    exact ⟨origin, horigin, hconnected⟩

theorem hopOf_spec {source target : List Char}
    (h : hopOf text registration outcome source target = some hop) :
    hop.sourceCanonical = source ∧ hop.targetCanonical = target := by
  simp only [hopOf, Option.bind_eq_bind, Option.bind_eq_some_iff, Option.some.injEq] at h
  obtain ⟨_, _, _, _, _, _, _, _, rfl⟩ := h
  exact ⟨rfl, rfl⟩

theorem wp_finishChain {wrapperType : String} (h : Called service rawUrl s wrapper trace)
    (hsource : hop.sourceCanonical = service.canonicalOf wrapper)
    (hlast : candidates trace = candidate :: candidates trace') :
    (service.finishChain rawUrl candidate wrapperType s.chain hop).wp (fun _ _ => True)
      (fun r trace => Resolved service rawUrl (r.map some) trace) trace := by
  refine Prog.wp_bind.mpr (wp_lookup fun r later hsame hend => ?_)
  have hbounded := h.bounded.same hsame
  cases r with
  | error e => exact .raise hbounded
  | ok validated =>
    refine Prog.wp_ofExcept_then (fun e _ => .raise hbounded) fun stable hstable => ?_
    have howned := owned_iff_of_stable (validatedFrom_of_canEnd hend) hstable
    have hurl : lastUrl rawUrl later = candidate := by
      rw [lastUrl, hsame.2, hlast, List.headD_cons]
    refine ⟨hbounded, nofun, ?_⟩
    rintro result ⟨⟩
    rw [hurl, ← howned]
    refine ⟨ResolutionResult.Sound.provider, fun hprovider => ⟨hprovider, by simp, fun _ => ?_⟩⟩
    obtain ⟨origin, horigin, hconnected⟩ := h.linked
    exact ⟨origin, horigin, hconnected.snoc hsource rfl⟩

theorem wp_afterCall (h : Called service rawUrl s wrapper trace)
    (hlast : candidates trace = strip (outcome.candidateUrl.getD []) :: candidates trace') :
    (service.afterCall rawUrl s wrapper registration outcome).wp (fun _ _ => True)
      (Prog.turn (ChainInv service rawUrl)
        (fun s => service.wrapperResolutionMaxDepth - s.chain.length)
        (Resolved service rawUrl) s) trace := by
  refine Prog.wp_require_then (fun _ => .raise h.bounded) fun _ => ?_
  refine Prog.wp_ofExcept_then (fun e _ => .raise h.bounded) fun parsed hparsed => ?_
  refine Prog.wp_require_then (fun _ => .raise h.bounded) fun _ => ?_
  refine Prog.wp_require_then (fun _ => .raise h.bounded) fun _ => ?_
  split
  · exact .raise h.bounded
  rename_i hop hhop
  obtain ⟨hsource, htarget⟩ := hopOf_spec hhop
  split
  · refine Prog.wp_bind.mpr (Prog.wp_mono (wp_finishChain h hsource hlast) ?_)
    rintro (e | result) later hresolved
    · exact .raise hresolved.bounded
    · exact hresolved
  · split
    · refine Prog.wp_require_then (fun _ => .raise h.bounded) fun _ => ?_
      have hlength := h.length
      have hdepth := h.bounded.depth
      refine ⟨⟨h.bounded, h.seen, ?_, ?_⟩, ?_⟩
      · rw [List.length_append, List.length_singleton, hlength]
      · intro again hagain
        obtain rfl := hagain.unique (parsesTo_of_classification hparsed)
        obtain ⟨origin, horigin, hconnected⟩ := h.linked
        exact ⟨origin, horigin, hconnected.snoc hsource htarget⟩
      · have hgrown : (s.chain ++ [hop]).length = s.chain.length + 1 := by simp
        dsimp only
        omega
    · exact .raise h.bounded

/-- A turn calls at most one resolver, for a URL that none was called for. -/
theorem wp_chainStep (h : ChainInv service rawUrl s trace) :
    (service.chainStep rawUrl s).wp (fun _ _ => True)
      (Prog.turn (ChainInv service rawUrl)
        (fun s => service.wrapperResolutionMaxDepth - s.chain.length)
        (Resolved service rawUrl) s) trace := by
  refine Prog.wp_require_then (fun _ => .raise h.bounded) fun hdepth => ?_
  refine Prog.wp_bind.mpr (wp_lookup fun r trace₁ hsame₁ hend => ?_)
  have hbounded₁ := h.bounded.same hsame₁
  cases r with
  | error e => exact .raise hbounded₁
  | ok wrapper =>
    obtain ⟨parsed, htarget⟩ := targetOf_of_canEnd hend
    refine Prog.wp_require_then (fun _ => .raise hbounded₁) fun hnew => ?_
    refine Prog.wp_bind.mpr (wp_matchWrapper fun r trace₂ hsame₂ => ?_)
    have hsame := hsame₂.trans hsame₁
    have hbounded₂ := h.bounded.same hsame
    rcases r with e | _ | registration
    · exact .raise hbounded₂
    · change (if _ then _ else _ : Res service.lib.text _).wp _ _ _
      split
      · exact .raise hbounded₂
      · exact .raise hbounded₂
    · refine Prog.wp_bind.mpr (wp_callResolver ?_ ?_)
      · intro e trace₃ hcalls
        rw [hsame.1] at hcalls
        exact .raise (h.called hdepth hnew htarget hcalls).bounded
      · intro outcome trace₃ hcalls hlast
        rw [hsame.1] at hcalls
        exact wp_afterCall (h.called hdepth hnew htarget hcalls) hlast

end Turns

/-! ## Runs -/

theorem wp_resolveInner {fuel : ℕ} (hfuel : service.wrapperResolutionMaxDepth < fuel) :
    (service.resolveInner rawUrl fuel).wp (fun _ _ => True) (Resolved service rawUrl) [] := by
  have hbounded : Bounded service [] := ⟨Nat.zero_le _, List.nodup_nil⟩
  refine Prog.wp_ofExcept_then (fun e _ => .raise hbounded) fun parsed hparsed => ?_
  refine Prog.wp_require_then (fun _ => .raise hbounded) fun _ => ?_
  refine Prog.wp_require_then (fun _ => .raise hbounded) fun _ => ?_
  refine Prog.wp_require_then (fun _ => .raise hbounded) fun _ => ?_
  split
  · refine Prog.wp_bind.mpr (wp_lookup fun r later hsame hend => ?_)
    have hbounded' := hbounded.same hsame
    cases r with
    | error e => exact .raise hbounded'
    | ok validated =>
      refine Prog.wp_ofExcept_then (fun e _ => .raise hbounded') fun stable hstable => ?_
      have howned := owned_iff_of_stable (validatedFrom_of_canEnd hend) hstable
      have hurl : lastUrl rawUrl later = rawUrl := by
        rw [lastUrl, hsame.2]
        rfl
      refine ⟨hbounded', nofun, ?_⟩
      rintro result ⟨⟩
      rw [hurl, ← howned]
      exact ⟨ResolutionResult.Sound.provider, fun hprovider =>
        ⟨hprovider, by simp, fun hwrapped => absurd rfl hwrapped⟩⟩
  · split
    · exact .raise hbounded
    · refine Prog.wp_iterate (fun s trace h => wp_chainStep h) ⟨hbounded, rfl, rfl, ?_⟩
        (.inl (Nat.lt_of_le_of_lt (Nat.sub_le _ _) hfuel))
      exact fun origin horigin => ⟨origin, horigin, rfl⟩

theorem resolved_run {fuel : ℕ} (hfuel : service.wrapperResolutionMaxDepth < fuel)
    (env : ResTrace service.lib.text → (q : Question service.lib.text) → Answer q) :
    Resolved service rawUrl ((service.resolve rawUrl fuel).run env []).1
      ((service.resolve rawUrl fuel).run env []).2 := by
  have hwp : (service.resolve rawUrl fuel).wp (fun _ _ => True) (Resolved service rawUrl) [] :=
    Prog.wp_mapError.mpr (Prog.wp_mono (wp_resolveInner hfuel) fun _ _ h => h.mapError)
  exact (Prog.run_of_wp hwp trivial).1

/-- The fingerprint is one of the effective URL, so no two calls share that either. -/
theorem Bounded.effective {trace : ResTrace service.lib.text} (h : Bounded service trace) :
    ((calls trace).map (effectiveUrl service)).Nodup := by
  have hdistinct := h.distinct
  have hparts : service.targetFingerprint =
      (fun url : List Char × List Char × List Char => Sha256.hexdigest <| String.ofList <|
        service.lib.text.lower https ++ '|' :: (url.1 ++ '|' :: (Nat.toDigits 10 443 ++ '|' ::
          (url.2.1 ++ '|' :: url.2.2)))) ∘ effectiveUrl service := rfl
  rw [hparts, ← List.map_map] at hdistinct
  refine List.Pairwise.of_map _ (fun a b hne heq => hne ?_) hdistinct
  rw [heq]

/-- Every run ends within the depth, with no resolver called twice for one URL, nor for two of the
same fingerprint. What it returns is sound exactly when the host that was resolved last is kept. -/
theorem resolution_ends_connected {fuel : ℕ} (hfuel : service.wrapperResolutionMaxDepth < fuel)
    (env : ResTrace service.lib.text → (q : Question service.lib.text) → Answer q) :
    let r := (service.resolve rawUrl fuel).run env []
    (calls r.2).length ≤ service.wrapperResolutionMaxDepth ∧
    ((calls r.2).map service.targetFingerprint).Nodup ∧
    ((calls r.2).map (effectiveUrl service)).Nodup ∧ r.1 ≠ .ok none ∧
    ∀ result, r.1 = .ok (some result) →
      (result.Sound service rawUrl ↔ HostKept service (lastUrl rawUrl r.2)) := by
  have h := @resolved_run service rawUrl fuel hfuel env
  exact ⟨h.bounded.depth, h.bounded.distinct, h.bounded.effective, h.ends, h.sound⟩

section Sample

/-- The codec takes the ideographic full stop for a dot. -/
def sampleText : Text :=
  { Network.sampleText with
    idna := fun s => if s.all fun c => c.toNat < 128 then some s
      else if s = "vk.com。".toList then some "vk.com.".toList else none
    idna_ascii := fun s t h => by
      split at h
      · rename_i hascii
        cases h
        intro c hc
        simpa using List.all_eq_true.mp hascii c hc
      · split at h
        · cases h
          simp [isAscii]
        · cases h }

def sampleRegistration : WrapperResolverRegistration where
  resolverId := "yandex_video_preview"
  wrapperType := "yandex_video_preview"
  exactHostnames := ["yandex.ru".toList]

def sampleService : ResolutionService where
  lib := { sampleLibrary with text := sampleText }
  tables := ⟨fun _ => none, fun _ => false⟩
  settings := sampleSettings
  wrapperResolutionMaxDepth := 2
  wrappers := ⟨[sampleRegistration], by simp [sampleRegistration], by simp⟩

/-- Every name is at 8.8.8.8 and every wrapper leads to one video. -/
def sampleAnswers (_ : ResTrace sampleService.lib.text) :
    (q : Question sampleService.lib.text) → Answer q
  | .net (.resolve _) => .ok [.v4 0x08080808#32]
  | .net (.send _ _) => .error (.resolution "UNUSED")
  | .isMatch _ _ => .ok true
  | .call _ _ =>
    .ok ⟨some "https://vk.com/video-1_2".toList, some "yandex_target_video_url", none⟩

end Sample

theorem resolution_ends_connected_sample :
    let url := "https://yandex.ru/video/preview/1".toList
    let r := (sampleService.resolve url 3).run sampleAnswers []
    (calls r.2).length = 1 ∧ ∃ result, r.1 = .ok (some result) ∧
      result.Sound sampleService url := by
  intro url r
  obtain ⟨-, -, -, -, hsound⟩ := @resolution_ends_connected sampleService url 3 (by decide)
    sampleAnswers
  have hcalls : (calls r.2).length = 1 := by decide +kernel
  have hreturned : r.1.toOption.join.isSome = true := by decide +kernel
  have hlast : lastUrl url r.2 = "https://vk.com/video-1_2".toList := by decide +kernel
  have hread : ParsesTo sampleService "https://vk.com/video-1_2".toList
      ⟨https, "vk.com".toList, none, "/video-1_2".toList, []⟩ :=
    ⟨[https], [443], by decide +kernel⟩
  have hkept : HostKept sampleService (lastUrl url r.2) := by
    intro parsed provider hparses _
    rw [hlast] at hparses
    rw [hparses.unique hread]
    exact .inl (by decide)
  refine ⟨hcalls, ?_⟩
  cases hrun : r.1 with
  | error e =>
    rw [hrun] at hreturned
    cases hreturned
  | ok returned =>
    cases returned with
    | none =>
      rw [hrun] at hreturned
      cases hreturned
    | some result => exact ⟨result, rfl, (hsound result hrun).mpr hkept⟩

/-- A host that ends in an ideographic full stop is looked up without the dot it is encoded to. -/
theorem ideographic_stop_unowned : ¬ ∀ (service : ResolutionService) (rawUrl : List Char) (fuel : ℕ)
    (env : ResTrace service.lib.text → (q : Question service.lib.text) → Answer q)
    (result : ResolutionResult), service.wrapperResolutionMaxDepth < fuel →
      ((service.resolve rawUrl fuel).run env []).1 = .ok (some result) →
        result.Sound service rawUrl := by
  intro h
  have hhost : ((sampleService.resolve "https://vk.com。/feed".toList 3).run sampleAnswers []).1.map
      (Option.map fun result => result.validated.url.hostname) = .ok (some "vk.com.".toList) := by
    decide +kernel
  cases hrun : ((sampleService.resolve "https://vk.com。/feed".toList 3).run sampleAnswers []).1 with
  | error e =>
    rw [hrun] at hhost
    cases hhost
  | ok returned =>
    rw [hrun] at hhost
    cases returned with
    | none => cases hhost
    | some result =>
      have hdot : result.validated.url.hostname = "vk.com.".toList :=
        Option.some.inj (Except.ok.inj hhost)
      have hsound := h sampleService _ 3 sampleAnswers result (by decide) hrun
      apply hsound.provider.no_dot
      rw [hdot]
      decide

end FetchNow.Resolution
