import FetchNow.Network.Client

/-!
# Outbound requests stay confined

Every request goes to an allowed host that was looked up twice just before.
-/
namespace FetchNow.Network

open Exchanges Transactions Url

variable {lib : Library} {settings : UrlSettings} {registry : ProviderRegistry} {α : Type}
  {hostname scheme rawUrl url : List Char} {trace older newer : NetTrace}
  {allow : NetTrace → Question → Prop}

/-! ## Requests of a trace -/

/-- The requests sent, newest first. -/
def sends (trace : NetTrace) : List (HttpMethod × List Char) :=
  trace.filterMap fun x => match x.1 with
    | .resolve _ => none
    | .send method url => some (method, url)

@[simp] theorem sends_resolve {a : Answer (.resolve hostname)} :
    sends (⟨.resolve hostname, a⟩ :: trace) = sends trace := rfl

@[simp] theorem sends_send {method : HttpMethod} {a : Answer (.send method url)} :
    sends (⟨.send method url, a⟩ :: trace) = (method, url) :: sends trace := rfl

/-- The two newest answers are for the host: neither is empty, no address of either is blocked and
they share one. -/
def Checked (ip : IpTables) (hostname : List Char) (trace : NetTrace) : Prop :=
  ∃ (preflight connectTime : List Address) (older : NetTrace),
    trace = ⟨.resolve hostname, .ok connectTime⟩ :: ⟨.resolve hostname, .ok preflight⟩ :: older ∧
      preflight ≠ [] ∧ connectTime ≠ [] ∧
      (∀ address ∈ preflight ++ connectTime, isBlockedDestination ip address = false) ∧
      ∃ address ∈ preflight, address ∈ connectTime

/-- At most so many requests are sent, and with as much fuel the loop ends. -/
def Ends (bound fuel : ℕ) (r : Except UrlError (Option α)) (trace : NetTrace) : Prop :=
  (sends trace).length ≤ bound ∧ (bound ≤ fuel → r ≠ .ok none)

theorem Ends.mapError {bound fuel : ℕ} {r : Except UrlError (Option α)} {g : UrlError → UrlError}
    (h : Ends bound fuel r trace) : Ends bound fuel (r.mapError g) trace := by
  refine ⟨h.1, fun hfuel hnone => ?_⟩
  cases r with
  | error e => cases hnone
  | ok a => exact h.2 hfuel hnone

/-- What `urlsplit` reports of a URL. -/
def Contacts (text : Text) (url scheme hostname : List Char) (port : Option ℕ) : Prop :=
  ∃ split, urlsplit text url = some split ∧ split.scheme = scheme ∧
    split.hostname text = some hostname ∧ split.port = some port

theorem contacts_buildUrl {text : Text} {port : Option ℕ} {path query : List Char}
    (hscheme : scheme = http ∨ scheme = https) (hhost : PlainHost hostname)
    (hlower : text.lower hostname = hostname) (hascii : ':' ∈ hostname ∨ isAscii hostname)
    (hport : ∀ n ∈ port, n ≤ 65535) (hpath : ∃ rest, path = '/' :: rest)
    (hsafe : ∀ c ∈ path ++ query, isUnsafe c = false) :
    Contacts text (buildUrl scheme hostname port path query) scheme hostname port := by
  have hascii : isAscii hostname := hascii.resolve_left hhost.no_colon
  refine ⟨_, urlsplit_build (validScheme_of_http hscheme) hhost hascii hpath hsafe, rfl, ?_,
    port_of_netloc hhost hport rfl⟩
  rw [hostname_of_netloc hhost rfl, hlower]

theorem wp_send_then {method : HttpMethod} {f : Response → Net α}
    {post : Except UrlError α → NetTrace → Prop} (hallow : allow trace (.send method url))
    (herror : ∀ e trace', sends trace' = (method, url) :: sends trace → post (.error e) trace')
    (hok : ∀ response trace', sends trace' = (method, url) :: sends trace →
      (f response).wp allow post trace') : (send method url >>= f).wp allow post trace := by
  refine Prog.wp_bind.mpr ⟨hallow, fun answer => Prog.wp_ofExcept.mpr ?_⟩
  cases answer with
  | error e => exact herror e _ rfl
  | ok response => exact hok response _ rfl

/-! ## Programs that only look up -/

section Lookups

variable (hresolve : ∀ trace hostname, allow trace (.resolve hostname))
include hresolve

theorem wp_resolve {post : Except UrlError (List Address) → NetTrace → Prop}
    (h : ∀ answer, post answer (⟨.resolve hostname, answer⟩ :: trace)) :
    (resolve hostname).wp allow post trace :=
  ⟨hresolve _ _, fun answer => Prog.wp_ofExcept.mpr (h answer)⟩

theorem wp_resolve_then {f : List Address → Net α} {post : Except UrlError α → NetTrace → Prop}
    (herror : ∀ e, post (.error e) (⟨.resolve hostname, .error e⟩ :: trace))
    (hok : ∀ addresses, (f addresses).wp allow post (⟨.resolve hostname, .ok addresses⟩ :: trace)) :
    (resolve hostname >>= f).wp allow post trace := by
  apply Prog.wp_bind.mpr
  apply wp_resolve hresolve
  rintro (e | addresses)
  · exact herror e
  · exact hok addresses

theorem wp_connectTimeDnsCheck {post : Except UrlError Unit → NetTrace → Prop}
    (hok : ∀ trace', sends trace' = sends trace → Checked lib.ip hostname trace' →
      post (.ok ()) trace')
    (herror : ∀ e trace', sends trace' = sends trace → post (.error e) trace') :
    (connectTimeDnsCheck lib hostname).wp allow post trace := by
  refine wp_resolve_then hresolve (fun e => herror e _ rfl) fun preflight => ?_
  refine Prog.wp_require_then (fun _ => herror _ _ rfl) fun _ => ?_
  refine Prog.wp_ofExcept_then (fun e _ => herror e _ rfl) fun _ hpreflight => ?_
  refine wp_resolve_then hresolve (fun e => herror e _ rfl) fun connectTime => ?_
  refine Prog.wp_require_then (fun _ => herror _ _ rfl) fun _ => ?_
  refine Prog.wp_ofExcept_then (fun e _ => herror e _ rfl) fun _ hconnect => ?_
  refine Prog.wp_require (fun hshared => ?_) fun _ => herror _ _ rfl
  obtain ⟨hpreflightNe, hpreflightAllowed⟩ := assertAddressesAllowed_eq_ok hpreflight
  obtain ⟨hconnectNe, hconnectAllowed⟩ := assertAddressesAllowed_eq_ok hconnect
  refine hok _ rfl ⟨preflight, connectTime, trace, rfl, hpreflightNe, hconnectNe, ?_, hshared⟩
  intro address haddress
  rcases List.mem_append.mp haddress with h | h
  · exact hpreflightAllowed address h
  · exact hconnectAllowed address h

theorem wp_wrapperValidate {post : Except UrlError (SafeDocumentTarget lib.text) → NetTrace → Prop}
    (h : ∀ r trace', sends trace' = sends trace → post r trace') :
    (WrapperSafetyValidator.validate lib settings rawUrl).wp allow post trace := by
  unfold WrapperSafetyValidator.validate
  split
  · exact h _ _ rfl
  · refine Prog.wp_require_then (fun _ => h _ _ rfl) fun _ => ?_
    refine Prog.wp_require_then (fun _ => h _ _ rfl) fun _ => ?_
    refine Prog.wp_require_then (fun _ => h _ _ rfl) fun _ => ?_
    refine Prog.wp_require_then (fun _ => h _ _ rfl) fun _ => ?_
    refine Prog.wp_require_then (fun _ => h _ _ rfl) fun _ => ?_
    refine Prog.wp_bind.mpr (Prog.wp_mapError.mpr ?_)
    refine wp_resolve_then hresolve (fun e => h _ _ rfl) fun addresses => ?_
    apply Prog.wp_ofExcept.mpr
    cases assertAddressesAllowed lib.ip addresses <;> exact h _ _ rfl

/-- What a validated URL was parsed from, and its provider. -/
def ValidatedFrom (registry : ProviderRegistry) (rawUrl : List Char)
    (validated : URLValidationResult lib.text settings) : Prop :=
  parseAndNormalize lib.text rawUrl settings.urlAllowedSchemes settings.urlAllowedPorts
      settings.urlMaxLength = .ok validated.url ∧
    ∃ provider, registry.find lib.text validated.url.hostname = some provider ∧
      validated.providerId = provider.id

theorem wp_validate
    {post : Except UrlError (URLValidationResult lib.text settings) → NetTrace → Prop}
    (hok : ∀ validated trace', sends trace' = sends trace →
      ValidatedFrom registry rawUrl validated → post (.ok validated) trace')
    (herror : ∀ e trace', sends trace' = sends trace → post (.error e) trace') :
    (URLValidator.validate lib settings registry rawUrl).wp allow post trace := by
  apply Prog.wp_mapError.mpr
  split
  · exact herror _ _ rfl
  rename_i parsed hparsed
  refine Prog.wp_require_then (fun _ => herror _ _ rfl) fun _ => ?_
  refine Prog.wp_require_then (fun _ => herror _ _ rfl) fun _ => ?_
  split
  · refine Prog.wp_ofExcept_then (fun e _ => herror _ _ rfl) fun _ _ => ?_
    exact herror _ _ rfl
  · refine Prog.wp_ofExcept_then (fun e _ => herror _ _ rfl) fun provider hprovider => ?_
    refine wp_resolve_then hresolve (fun e => herror _ _ rfl) fun addresses => ?_
    refine Prog.wp_ofExcept_then (fun e _ => herror _ _ rfl) fun _ _ => ?_
    exact hok _ _ rfl ⟨hparsed, provider, ProviderRegistry.resolve_eq_ok.mp hprovider, rfl⟩

end Lookups

/-! ## Documents -/

variable {allowed : HostNames} {target initial : SafeDocumentTarget lib.text} {fuel : ℕ}

/-- What `fetch_document` may ask: it sends to allowed hosts over https on the default port, just
after the host was checked. -/
def DocumentRequest (lib : Library) (allowed : HostNames) (trace : NetTrace) : Question → Prop
  | .resolve _ => True
  | .send _ url => ∃ hostname, normalizeHost lib.text hostname ∈ allowedHostnames lib.text allowed ∧
      Contacts lib.text url https hostname none ∧ Checked lib.ip hostname trace

theorem SafeDocumentTarget.contacts
    (h : normalizeHost lib.text target.hostname ∈ allowedHostnames lib.text allowed) :
    Contacts lib.text target.requestUrl https target.hostname none := by
  obtain ⟨name, hname, heq⟩ := List.mem_map.mp h
  have hplain : PlainHost target.hostname := by
    apply plainHost_of_normalizeHost target.lowered
    rw [← heq]
    exact (allowed.plain name hname).normalizeHost
  exact contacts_buildUrl (.inr rfl) hplain target.lowered.2 target.ascii (by simp) target.slash
    target.safe

/-- Every turn of the loop but the last is a redirect. -/
def FetchInv (settings : UrlSettings) (s : FetchState lib.text) (trace : NetTrace) : Prop :=
  s.hops.length ≤ maxRedirects settings ∧ (sends trace).length = s.hops.length

theorem wp_followDocumentRedirect {s : FetchState lib.text} {response : Response}
    {allowedHosts : List (List Char)} {post : Except UrlError (FetchState lib.text) → NetTrace → Prop}
    (hresolve : ∀ trace hostname, allow trace (.resolve hostname))
    (hok : ∀ s' trace', sends trace' = sends trace → s.hops.length < maxRedirects settings →
      s'.hops.length = s.hops.length + 1 → post (.ok s') trace')
    (herror : ∀ e trace', sends trace' = sends trace → post (.error e) trace') :
    (followDocumentRedirect lib settings allowedHosts s response).wp allow post trace := by
  refine Prog.wp_require_then (fun _ => herror _ _ rfl) fun hhops => ?_
  refine Prog.wp_ofExcept_then (fun e _ => herror _ _ rfl) fun nextRaw _ => ?_
  split
  · exact herror _ _ rfl
  · refine Prog.wp_require_then (fun _ => herror _ _ rfl) fun _ => ?_
    refine Prog.wp_bind.mpr (Prog.wp_mapError.mpr (wp_wrapperValidate hresolve ?_))
    rintro (e | nxt) trace' htrace
    · exact herror _ _ htrace
    · refine Prog.wp_require_then (fun _ => herror _ _ htrace) fun _ => ?_
      exact hok _ _ htrace hhops List.length_append

theorem wp_fetchStep {s : FetchState lib.text} (hinv : FetchInv settings s trace) :
    (fetchStep lib settings (allowedHostnames lib.text allowed) s).wp (DocumentRequest lib allowed)
      (Prog.turn (FetchInv settings) (fun s => maxRedirects settings - s.hops.length)
        (Ends (maxRedirects settings + 1) fuel) s) trace := by
  have hresolve : ∀ trace hostname, DocumentRequest lib allowed trace (.resolve hostname) :=
    fun _ _ => trivial
  obtain ⟨hhops, hsends⟩ := hinv
  have hend : ∀ (r : Except UrlError (Option SafeDocumentResponse)) trace', r ≠ .ok none →
      (sends trace').length ≤ (sends trace).length + 1 →
      Ends (maxRedirects settings + 1) fuel r trace' :=
    fun r trace' hr hle => ⟨by omega, fun _ => hr⟩
  refine Prog.wp_require_then (fun _ => hend _ _ (by simp) (by omega)) fun hallowed => ?_
  refine Prog.wp_require_then (fun _ => hend _ _ (by simp) (by omega)) fun _ => ?_
  refine Prog.wp_bind.mpr (wp_connectTimeDnsCheck hresolve ?_ ?_)
  · intro trace' htrace hchecked
    have hrequest : DocumentRequest lib allowed trace' (.send .get s.current.requestUrl) :=
      ⟨_, hallowed, SafeDocumentTarget.contacts hallowed, hchecked⟩
    have hone {newer : NetTrace} (hsent : sends newer = (.get, s.current.requestUrl) :: sends trace') :
        (sends newer).length = (sends trace).length + 1 := by
      rw [hsent, htrace, List.length_cons]
    refine wp_send_then hrequest (fun e sent hsent => ?_) fun response sent hsent => ?_
    · exact hend _ _ (by simp) (hone hsent).le
    · split
      · refine Prog.wp_bind.mpr (wp_followDocumentRedirect hresolve ?_ ?_)
        · intro s' last hlast hlt hlength
          dsimp only at hlt hlength
          have hcount := hone (hlast.trans hsent)
          refine ⟨⟨by omega, by omega⟩, ?_⟩
          dsimp only
          omega
        · intro e last hlast
          exact hend _ _ (by simp) (hone (hlast.trans hsent)).le
      · refine Prog.wp_ofExcept_then (fun e _ => ?_) fun document _ => ?_
        · exact hend _ _ (by simp) (hone hsent).le
        · exact hend _ _ (by simp) (hone hsent).le
  · intro e trace' htrace
    exact hend _ _ (by simp) (by rw [htrace]; omega)

theorem wp_fetchDocumentInner :
    (fetchDocumentInner lib settings initial allowed fuel).wp (DocumentRequest lib allowed)
      (Ends (maxRedirects settings + 1) fuel) [] := by
  refine Prog.wp_require_then (fun _ => ⟨by simp [sends], by simp⟩) fun _ => ?_
  refine Prog.wp_require_then (fun _ => ⟨by simp [sends], by simp⟩) fun _ => ?_
  refine Prog.wp_iterate (I := FetchInv settings) (m := fun s => maxRedirects settings - s.hops.length)
    (fun s trace hinv => wp_fetchStep hinv) ⟨Nat.zero_le _, rfl⟩ ?_
  by_cases hfuel : maxRedirects settings < fuel
  · exact .inl (by simpa using hfuel)
  · refine .inr fun s trace hinv => ⟨?_, fun h => absurd h (by omega)⟩
    have hhops := hinv.1
    have hsends := hinv.2
    omega

theorem wp_fetchDocument :
    (fetchDocument lib settings initial allowed fuel).wp (DocumentRequest lib allowed)
      (Ends (maxRedirects settings + 1) fuel) [] :=
  Prog.wp_mapError.mpr (Prog.wp_mono wp_fetchDocumentInner fun _ _ h => h.mapError)

/-! ## Probes -/

variable {origin : String} {headFallback : List ℕ} {s : ProbeState lib.text settings}
  {method : HttpMethod}

def SentOverHttps (text : Text) (trace : NetTrace) : Prop :=
  ∃ sent ∈ sends trace, ∃ split, urlsplit text sent.2 = some split ∧ split.scheme = https

/-- What `probe` may ask: it sends to registered hosts of the first provider with an allowed scheme
and port, never from https to http, just after the host was checked. -/
def ProbeRequest (lib : Library) (settings : UrlSettings) (registry : ProviderRegistry)
    (origin : String) (trace : NetTrace) : Question → Prop
  | .resolve _ => True
  | .send _ url => ∃ hostname scheme port, registry.Registered lib.text origin hostname ∧
      scheme ∈ settings.urlAllowedSchemes ∧
      (∀ n ∈ port, n ∈ settings.urlAllowedPorts) ∧
      (port = none → defaultPort scheme ∈ settings.urlAllowedPorts) ∧
      Contacts lib.text url scheme hostname port ∧ Checked lib.ip hostname trace ∧
      (SentOverHttps lib.text trace → scheme = https)

theorem URLValidationResult.contacts {validated : URLValidationResult lib.text settings}
    (h : registry.Registered lib.text origin validated.url.hostname) :
    Contacts lib.text validated.requestUrl validated.url.scheme validated.url.hostname
      validated.url.port := by
  obtain ⟨provider, -, -, hname⟩ := h
  have hsound := validated.sound
  have hplain : PlainHost validated.url.hostname :=
    plainHost_of_normalizeHost hsound.hostname (provider.exactHostnames.plain _ hname).2
  exact contacts_buildUrl (settings.schemes _ hsound.scheme) hplain hsound.hostname.2 hsound.ascii
    (fun n hn => (hsound.port.1 n hn).2) hsound.path hsound.safe

theorem resolveRedirect_eq_ok {currentUrl currentScheme joined : List Char}
    {location : Option (List Char)}
    (h : resolveRedirect lib settings currentUrl location currentScheme = .ok joined) :
    ∃ parts, urlsplit lib.text joined = some parts ∧ parts.scheme ≠ [] ∧
      ¬ (currentScheme = https ∧ parts.scheme = http) := by
  simp only [resolveRedirect, bind_eq_ok, require_eq_ok] at h
  obtain ⟨_, _, _, _, h⟩ := h
  split at h
  · cases h
  split at h
  · cases h
  rename_i parts hparts
  simp only [bind_eq_ok, require_eq_ok] at h
  obtain ⟨_, ⟨hscheme, _⟩, _, _, _, hdowngrade, _, _, h⟩ := h
  cases h
  exact ⟨parts, hparts, hscheme, hdowngrade⟩

/-- A redirect does not leave https. -/
theorem https_kept {joined currentUrl currentScheme : List Char} {location : Option (List Char)}
    {validated : URLValidationResult lib.text settings}
    (hredirect : resolveRedirect lib settings currentUrl location currentScheme = .ok joined)
    (hvalidated : ValidatedFrom registry joined validated) (hhttps : currentScheme = https) :
    validated.url.scheme = https := by
  obtain ⟨parts, hparts, hne, hdowngrade⟩ := resolveRedirect_eq_ok hredirect
  obtain ⟨-, split, hsplit, hscheme⟩ := parseAndNormalize_sound hvalidated.1
  have hsame : validated.url.scheme = parts.scheme :=
    hscheme.symm.trans (urlsplit_strip_scheme hparts hne hsplit)
  rcases settings.schemes _ validated.sound.scheme with hhttp | h
  · exact absurd ⟨hhttps, hsame.symm.trans hhttp⟩ hdowngrade
  · exact h

def getCount : HttpMethod → ℕ
  | .head => 0
  | .get => 1

/-- Every turn of the loop but the last is a redirect or turns to GET. -/
structure ProbeInv (registry : ProviderRegistry) (origin : String)
    (s : ProbeState lib.text settings) (trace : NetTrace) : Prop where
  hops : s.hops.length ≤ maxRedirects settings
  sent : (sends trace).length ≤ s.hops.length + getCount s.activeMethod
  registered : registry.Registered lib.text origin s.current.url.hostname
  https : SentOverHttps lib.text trace → s.current.url.scheme = https

/-- The redirects and the turn to GET that are left. -/
def turnsLeft (s : ProbeState lib.text settings) : ℕ :=
  maxRedirects settings - s.hops.length + (1 - getCount s.activeMethod)

theorem ValidatedFrom.registered {validated : URLValidationResult lib.text settings}
    (h : ValidatedFrom registry rawUrl validated) :
    registry.Registered lib.text validated.providerId validated.url.hostname := by
  obtain ⟨-, provider, hfind, hid⟩ := h
  rw [hid]
  exact ProviderRegistry.registered_of_find hfind

theorem wp_followProbeRedirect {response : Response}
    {post : Except UrlError (ProbeState lib.text settings) → NetTrace → Prop}
    (hresolve : ∀ trace hostname, allow trace (.resolve hostname))
    (hok : ∀ s' trace', sends trace' = sends trace → s.hops.length < maxRedirects settings →
      s'.hops.length = s.hops.length + 1 → getCount s.activeMethod ≤ getCount s'.activeMethod →
      registry.Registered lib.text origin s'.current.url.hostname →
      (s.current.url.scheme = https → s'.current.url.scheme = https) → post (.ok s') trace')
    (herror : ∀ e trace', sends trace' = sends trace → post (.error e) trace') :
    (followProbeRedirect lib settings registry origin s response).wp allow post trace := by
  refine Prog.wp_require_then (fun _ => herror _ _ rfl) fun hhops => ?_
  refine Prog.wp_ofExcept_then (fun e _ => herror _ _ rfl) fun nextRaw hnext => ?_
  refine Prog.wp_bind.mpr (wp_validate hresolve ?_ herror)
  intro nxt trace' htrace hvalidated
  refine Prog.wp_require_then (fun _ => herror _ _ htrace) fun horigin => ?_
  refine hok _ _ htrace hhops List.length_append ?_ (horigin ▸ hvalidated.registered)
    (https_kept hnext hvalidated)
  dsimp only
  split
  · cases s.activeMethod <;> decide
  · exact le_rfl

theorem wp_probeStep (hinv : ProbeInv registry origin s trace) :
    (probeStep lib settings registry origin headFallback s).wp
      (ProbeRequest lib settings registry origin)
      (Prog.turn (ProbeInv registry origin) turnsLeft (Ends (maxRedirects settings + 2) fuel) s)
      trace := by
  have hresolve : ∀ trace hostname, ProbeRequest lib settings registry origin trace
      (.resolve hostname) := fun _ _ => trivial
  obtain ⟨hhops, hsent', hregistered, hhttps⟩ := hinv
  have hget : getCount s.activeMethod ≤ 1 := by cases s.activeMethod <;> decide
  have hend : ∀ (r : Except UrlError (Option SafeHTTPResponse)) trace', r ≠ .ok none →
      (sends trace').length ≤ (sends trace).length + 1 →
      Ends (maxRedirects settings + 2) fuel r trace' :=
    fun r trace' hr hle => ⟨by omega, fun _ => hr⟩
  refine Prog.wp_require_then (fun _ => hend _ _ (by simp) (by omega)) fun _ => ?_
  refine Prog.wp_bind.mpr (wp_connectTimeDnsCheck hresolve ?_ ?_)
  · intro trace' htrace hchecked
    have hcontacts := URLValidationResult.contacts hregistered
    have hsound := s.current.sound
    have hrequest : ProbeRequest lib settings registry origin trace'
        (.send s.activeMethod s.current.requestUrl) := by
      refine ⟨_, _, _, hregistered, hsound.scheme, fun n hn => (hsound.port.1 n hn).1,
        hsound.port.2, hcontacts, hchecked, ?_⟩
      rw [SentOverHttps, htrace]
      exact hhttps
    have hone {newer : NetTrace}
        (hsent : sends newer = (s.activeMethod, s.current.requestUrl) :: sends trace') :
        (sends newer).length = (sends trace).length + 1 := by
      rw [hsent, htrace, List.length_cons]
    have hkept {newer : NetTrace}
        (hsent : sends newer = (s.activeMethod, s.current.requestUrl) :: sends trace') :
        SentOverHttps lib.text newer → s.current.url.scheme = https := by
      rintro ⟨sent, hmem, split, hsplit, hscheme⟩
      rw [hsent] at hmem
      rcases List.mem_cons.mp hmem with rfl | hmem
      · obtain ⟨own, hown, hownScheme, -⟩ := hcontacts
        rw [hown] at hsplit
        cases hsplit
        exact hownScheme.symm.trans hscheme
      · exact hhttps ⟨sent, htrace ▸ hmem, split, hsplit, hscheme⟩
    refine wp_send_then hrequest (fun e sent hsent => ?_) fun response sent hsent => ?_
    · exact hend _ _ (by simp) (hone hsent).le
    · split
      · refine Prog.wp_bind.mpr (wp_followProbeRedirect hresolve ?_ ?_)
        · intro s' last hlast hlt hlength hmethod hregistered' hhttps'
          dsimp only at hlt hlength hmethod hhttps'
          have hcount := hone (hlast.trans hsent)
          refine ⟨⟨by omega, by omega, hregistered', fun h => hhttps' (hkept (hlast.trans hsent) h)⟩,
            ?_⟩
          unfold turnsLeft
          omega
        · intro e last hlast
          exact hend _ _ (by simp) (hone (hlast.trans hsent)).le
      · split
        · rename_i hfallback
          have hhead : s.activeMethod = .head := hfallback.1
          have hcount := hone hsent
          rw [hhead, getCount] at hsent'
          refine ⟨⟨hhops, ?_, hregistered, hkept hsent⟩, ?_⟩
          · simp only [getCount]
            omega
          · simp only [turnsLeft, hhead, getCount]
            omega
        · refine Prog.wp_ofExcept_then (fun e _ => ?_) fun result _ => ?_
          · exact hend _ _ (by simp) (hone hsent).le
          · exact hend _ _ (by simp) (hone hsent).le
  · intro e trace' htrace
    exact hend _ _ (by simp) (by rw [htrace]; omega)

/-- The provider of the URL that is probed. -/
def OriginProvider (lib : Library) (settings : UrlSettings) (registry : ProviderRegistry)
    (rawUrl : List Char) (origin : String) : Prop :=
  ∃ parsed provider, parseAndNormalize lib.text rawUrl settings.urlAllowedSchemes
      settings.urlAllowedPorts settings.urlMaxLength = .ok parsed ∧
    registry.find lib.text parsed.hostname = some provider ∧ provider.id = origin

/-- Lookups, and sending what the provider of the probed URL allows. -/
def ProbeAllowed (lib : Library) (settings : UrlSettings) (registry : ProviderRegistry)
    (rawUrl : List Char) (trace : NetTrace) : Question → Prop
  | .resolve _ => True
  | q => ∃ origin, OriginProvider lib settings registry rawUrl origin ∧
      ProbeRequest lib settings registry origin trace q

theorem wp_probeLoop {initial : URLValidationResult lib.text settings}
    (hregistered : registry.Registered lib.text origin initial.url.hostname)
    (hempty : sends trace = []) :
    (Prog.iterate (probeStep lib settings registry origin headFallback) fuel
      { current := initial, hops := [], activeMethod := method, seenAttempts := [] }).wp
      (ProbeRequest lib settings registry origin) (Ends (maxRedirects settings + 2) fuel) trace := by
  refine Prog.wp_iterate (I := ProbeInv registry origin) (m := turnsLeft)
    (fun s trace hinv => wp_probeStep hinv) ⟨Nat.zero_le _, by simp [hempty], hregistered, ?_⟩ ?_
  · rintro ⟨sent, hmem, -⟩
    rw [hempty] at hmem
    exact absurd hmem List.not_mem_nil
  · by_cases hfuel : maxRedirects settings + 2 ≤ fuel
    · left
      simp only [turnsLeft, List.length_nil]
      omega
    · refine .inr fun s trace hinv => ⟨?_, fun h => absurd h hfuel⟩
      have hhops := hinv.hops
      have hsent := hinv.sent
      have hget : getCount s.activeMethod ≤ 1 := by cases s.activeMethod <;> decide
      omega

theorem wp_probeInner :
    (probeInner lib settings registry rawUrl method fuel).wp
      (ProbeAllowed lib settings registry rawUrl) (Ends (maxRedirects settings + 2) fuel) [] := by
  refine Prog.wp_bind.mpr (wp_validate (fun _ _ => trivial) ?_ ?_)
  · intro initial trace htrace hvalidated
    have hempty : sends trace = [] := htrace
    refine Prog.wp_allow (wp_probeLoop hvalidated.registered hempty) fun trace q hq => ?_
    obtain ⟨hparsed, provider, hfind, hid⟩ := hvalidated
    cases q with
    | resolve => trivial
    | send => exact ⟨_, ⟨_, provider, hparsed, hfind, hid.symm⟩, hq⟩
  · intro e trace htrace
    have hempty : sends trace = [] := htrace
    exact ⟨by simp [hempty], fun _ => by simp⟩

theorem wp_probe :
    (probe lib settings registry rawUrl method fuel).wp (ProbeAllowed lib settings registry rawUrl)
      (Ends (maxRedirects settings + 2) fuel) [] :=
  Prog.wp_mapError.mpr (Prog.wp_mono wp_probeInner fun _ _ h => h.mapError)

/-! ## Every run -/

variable {env : NetTrace → (q : Question) → Answer q} {p : Net (Option α)} {bound : ℕ}
  {r : Except UrlError (Option α)}

theorem run_spec (hwp : p.wp allow (Ends bound fuel) []) (hrun : p.run env [] = (r, trace)) :
    (∀ newer older q answer, trace = newer ++ ⟨q, answer⟩ :: older → allow older q) ∧
      Ends bound fuel r trace := by
  obtain ⟨hends, hallowed⟩ : Ends bound fuel (p.run env []).1 (p.run env []).2 ∧
    Prog.Allowed allow (p.run env []).2 := Prog.run_of_wp hwp trivial
  rw [hrun] at hends hallowed
  refine ⟨?_, hends⟩
  rintro newer older q answer rfl
  exact Prog.allowed_mid hallowed

/-- Whatever DNS and the servers answer, every request of a document fetch is a `DocumentRequest`
and every request of a probe a `ProbeRequest` for the provider of its URL, given what was answered
before; the requests are bounded and the loops end. -/
theorem outbound_confined (lib : Library) (settings : UrlSettings) (registry : ProviderRegistry)
    (env : NetTrace → (q : Question) → Answer q) (fuel : ℕ) :
    (∀ (initial : SafeDocumentTarget lib.text) (allowed : HostNames) (r : _) (trace : NetTrace),
      (fetchDocument lib settings initial allowed fuel).run env [] = (r, trace) →
      (∀ newer older method url answer, trace = newer ++ ⟨.send method url, answer⟩ :: older →
        DocumentRequest lib allowed older (.send method url)) ∧
      (sends trace).length ≤ min settings.urlMaxRedirects 20 + 1 ∧
      (min settings.urlMaxRedirects 20 + 1 ≤ fuel → r ≠ .ok none)) ∧
    (∀ (rawUrl : List Char) (method : HttpMethod) (r : _) (trace : NetTrace),
      (probe lib settings registry rawUrl method fuel).run env [] = (r, trace) →
      (∀ newer older method url answer, trace = newer ++ ⟨.send method url, answer⟩ :: older →
        ∃ origin, OriginProvider lib settings registry rawUrl origin ∧
          ProbeRequest lib settings registry origin older (.send method url)) ∧
      (sends trace).length ≤ min settings.urlMaxRedirects 20 + 2 ∧
      (min settings.urlMaxRedirects 20 + 2 ≤ fuel → r ≠ .ok none)) := by
  refine ⟨fun initial allowed r trace hrun => ?_, fun rawUrl method r trace hrun => ?_⟩
  · obtain ⟨hallowed, hends⟩ := run_spec wp_fetchDocument hrun
    exact ⟨fun newer older method url answer htrace => hallowed _ _ _ _ htrace, hends⟩
  · obtain ⟨hallowed, hends⟩ := run_spec wp_probe hrun
    exact ⟨fun newer older method url answer htrace => hallowed _ _ _ _ htrace, hends⟩

section Sample

def sampleText : Text where
  lower := id
  idna s := if s.all fun c => c.toNat < 128 then some s else none
  checkNetloc _ := true
  checkBracketedNetloc _ := true
  lower_lower _ := rfl
  lower_delimiters _ _ _ := Iff.rfl
  lower_ascii _ h := h
  idna_ascii s t h := by
    split at h
    · rename_i hascii
      cases h
      intro c hc
      simpa using List.all_eq_true.mp hascii c hc
    · cases h
  checkNetloc_ascii _ _ := rfl

def sampleLibrary : Library where
  text := sampleText
  ip :=
    { ipAddress := fun _ => none
      isUnspecified := fun _ => false
      isLoopback := fun _ => false
      isPrivate := fun _ => false
      isLinkLocal := fun _ => false
      isMulticast := fun _ => false
      isReserved := fun _ => false
      isGlobal := fun _ => true }
  urljoin _ loc := some loc

def sampleSettings : UrlSettings where
  urlAllowedSchemes := [http, https]
  urlAllowedPorts := [80, 443]
  urlMaxLength := 4096
  urlMaxRedirects := 5
  providerVkEnabled := true
  providerRutubeEnabled := true
  providerOkEnabled := true
  providerDzenEnabled := true
  outboundAllowedContentTypes := ["text/html".toList]
  outboundProbeBodyBytes := 65536
  outboundMaxResponseBytes := 1048576
  schemes := http_or_https

def sampleResponse : Response where
  statusCode := 200
  location := none
  contentType := some "text/html".toList
  contentLength := none
  chunks := [10]
  failure := none
  secondPass := .ok false

/-- HEAD is not allowed, and the start page has moved. -/
def sampleAnswer (method : HttpMethod) (url : List Char) : Response :=
  match method with
  | .head => { sampleResponse with statusCode := 405, chunks := [] }
  | .get =>
    if url = "https://vk.com/".toList then
      { sampleResponse with statusCode := 302, location := some "https://vk.com/video1".toList }
    else sampleResponse

/-- Every name is at 8.8.8.8. -/
def sampleEnv (_ : NetTrace) : (q : Question) → Answer q
  | .resolve _ => .ok [.v4 0x08080808#32]
  | .send method url => .ok (sampleAnswer method url)

def lookup : (q : Question) × Answer q :=
  ⟨.resolve "vk.com".toList, .ok [.v4 0x08080808#32]⟩

def sent (method : HttpMethod) (path : String) : (q : Question) × Answer q :=
  ⟨.send method ("https://vk.com".toList ++ path.toList),
    .ok (sampleAnswer method ("https://vk.com".toList ++ path.toList))⟩

def sampleTarget : SafeDocumentTarget sampleLibrary.text where
  hostname := "vk.com".toList
  path := ['/']
  query := []
  lowered := ⟨by decide, rfl⟩
  ascii := .inr (by simp [isAscii])
  slash := ⟨[], rfl⟩
  safe := by simp [isUnsafe]

end Sample

/-- A fetch and a probe that are redirected, the probe after its HEAD was refused. -/
theorem outbound_confined_redirected :
    DocumentRequest sampleLibrary (vk sampleSettings).exactHostnames
      [lookup, lookup, lookup, sent .get "/", lookup, lookup]
      (.send .get "https://vk.com/video1".toList) ∧
    ∃ origin, OriginProvider sampleLibrary sampleSettings (.fromSettings sampleSettings)
        "https://vk.com/".toList origin ∧
      ProbeRequest sampleLibrary sampleSettings (.fromSettings sampleSettings) origin
        [lookup, lookup, lookup, sent .get "/", lookup, lookup, sent .head "/", lookup, lookup,
          lookup]
        (.send .get "https://vk.com/video1".toList) := by
  have h := outbound_confined sampleLibrary sampleSettings (.fromSettings sampleSettings)
    sampleEnv 7
  exact ⟨(h.1 sampleTarget (vk sampleSettings).exactHostnames _ _ rfl).1 [] _ _ _
      (.ok sampleResponse) rfl,
    (h.2 "https://vk.com/".toList .head _ _ rfl).1 [] _ _ _ (.ok sampleResponse) rfl⟩

end FetchNow.Network
