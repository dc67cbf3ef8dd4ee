import FetchNow.Basic
import FetchNow.Text.Unicode
import FetchNow.Theory.Transactions
import Mathlib.Data.List.DropRight
import Mathlib.Data.List.Infix

/-!
# Stable provider-media identities

The path grammars of the providers. A path is read as the segments between its slashes, a final
slash apart; every grammar asks for some literal segments and for one that holds the media id.
-/
namespace FetchNow.ProviderIdentity

open Transactions FetchNow.Text

/-- `ProviderIdentityError`, with its reason. -/
structure IdentityError where
  reason : String
  deriving DecidableEq, Repr

structure StableProviderIdentity where
  providerId : String
  mediaId : Str
  hostname : Str
  canonicalPath : Str
  deriving DecidableEq, Repr

inductive ProviderID
  | vk
  | rutube
  | ok
  | dzen
  deriving DecidableEq, Repr

def ProviderID.value : ProviderID → String
  | vk => "vk"
  | rutube => "rutube"
  | ok => "ok"
  | dzen => "dzen"

def slash : ℕ := codePoint '/'

def hyphen : ℕ := codePoint '-'

def underscore : ℕ := codePoint '_'

def dot : ℕ := codePoint '.'

/-! ## Host names -/

def isHostChar (c : ℕ) : Bool := 97 ≤ c && c ≤ 122 || 48 ≤ c && c ≤ 57

/-- `_SAFE_HOST` -/
def isSafeHost (host : Str) : Bool :=
  host.head?.any isHostChar && host.getLast?.any isHostChar && host.length ≤ 253 &&
    host.all fun c => isHostChar c || c == dot || c == hyphen

def normalizeHostname (hostname : Str) : Except IdentityError Str := do
  let host := (lower (stripped hostname)).rdropWhile (· == dot)
  require (host ≠ [] ∧ isSafeHost host) ⟨"UNSAFE_HOSTNAME"⟩
  require (slash ∉ host ∧ codePoint '\\' ∉ host ∧ ¬ [dot, dot] <:+: host ∧ codePoint ':' ∉ host ∧
    codePoint '%' ∉ host) ⟨"UNSAFE_HOSTNAME"⟩
  .ok host

/-- `_DZEN_HOST_CANONICAL` -/
def dzenHostCanonical (host : Str) : Str :=
  if host = codePoints "www.dzen.ru" then codePoints "dzen.ru"
  else if host = codePoints "www.zen.yandex.ru" then codePoints "zen.yandex.ru"
  else host

/-! ## Paths -/

/-- The segments of a path, without the empty one behind a final slash. -/
def segments (path : Str) : Option (List Str) :=
  match path.splitOn slash with
  | [] :: segs => some (if segs.getLast? = some [] then segs.dropLast else segs)
  | _ => none

/-- `_FORBIDDEN_PATH_MARKERS` -/
def forbiddenPathMarkers : List Str :=
  ["/video_ext.php", "/video_ext", "/embed", ".m3u8", ".mpd", ".mp4", ".webm"].map codePoints

def isForbidden (path : Str) : Bool :=
  forbiddenPathMarkers.any fun marker => marker <:+: lower path

def isDecimals (tables : Unicode) (s : Str) : Bool := s ≠ [] && s.all (isDecimal tables)

/-- `(-?\\d+)_(\\d+)` -/
def isVkId (tables : Unicode) (s : Str) : Bool :=
  match splitOnce underscore s with
  | none => false
  | some (owner, video) =>
    isDecimals tables (if owner.head? = some hyphen then owner.tail else owner) &&
      isDecimals tables video

/-- `_VK_STABLE_PATH` -/
def vkStable (tables : Unicode) : List Str → Option Str
  | [seg] =>
    if codePoints "video" <+: seg ∧ isVkId tables (seg.drop 5) then some (seg.drop 5)
    else if codePoints "clip" <+: seg ∧ isVkId tables (seg.drop 4) then some (seg.drop 4)
    else none
  | _ => none

def isRutubeChar (c : ℕ) : Bool :=
  65 ≤ c && c ≤ 90 || 97 ≤ c && c ≤ 122 || 48 ≤ c && c ≤ 57 || c == underscore || c == hyphen

/-- A class repeated between one and `bound` times. -/
def isToken (bound : ℕ) (inClass : ℕ → Bool) (s : Str) : Bool :=
  s ≠ [] && s.length ≤ bound && s.all inClass

/-- `_RUTUBE_STABLE_PATH` -/
def rutubeStable : List Str → Option Str
  | [kind, id] =>
    if (kind = codePoints "video" ∨ kind = codePoints "shorts") ∧ isToken 64 isRutubeChar id then
      some id
    else none
  | _ => none

/-- `_OK_STABLE_PATH` -/
def okStable (tables : Unicode) (segs : List Str) : Option Str :=
  let lead := segs.dropLast
  let id := segs.getLast?.getD []
  if (lead = [codePoints "video"] ∨ lead = [codePoints "videoembed"] ∨
      lead = ["web-api", "video", "moviePlayer"].map codePoints) ∧
      isToken 32 (fun c => isDecimal tables c || c == hyphen) id then
    some id
  else none

/-- What `re.IGNORECASE` compares: both dotless and dotted i count as i, the long s as s and the
Kelvin sign as k. -/
def fold (c : ℕ) : ℕ :=
  if 65 ≤ c ∧ c ≤ 90 then c + 32
  else if c = 0x130 ∨ c = 0x131 then 105
  else if c = 0x17F then 115
  else if c = 0x212A then 107
  else c

def folds (s : Str) (literal : String) : Prop := s.map fold = codePoints literal

instance {s : Str} {literal : String} : Decidable (folds s literal) :=
  inferInstanceAs (Decidable (_ = _))

def isDzenChar (c : ℕ) : Bool :=
  97 ≤ fold c && fold c ≤ 122 || 48 ≤ fold c && fold c ≤ 57 || fold c == hyphen

/-- `(?:[a-z0-9-]+)-([a-z0-9-]{1,64})`: the greedy part takes all but what follows the last hyphen
that something follows. -/
def slugId (s : Str) : Option Str :=
  match s.reverse with
  | [] => none
  | c :: rest =>
    match splitOnce hyphen rest with
    | none => none
    | some (idRev, slug) =>
      let id := idRev.reverse ++ [c]
      if isToken 64 isDzenChar id ∧ slug ≠ [] ∧ slug.all isDzenChar then some id else none

/-- The Dzen grammar behind the optional `video/`. -/
def dzenTail : List Str → Option Str
  | [kind, id] =>
    if (folds kind "watch" ∨ folds kind "shorts" ∨ folds kind "media") ∧ isToken 64 isDzenChar id
    then some id else none
  | [media, channel, last] => if folds media "media" ∧ channel ≠ [] then slugId last else none
  | [media, word, channel, last] =>
    if folds media "media" ∧ folds word "id" ∧ channel ≠ [] then slugId last else none
  | _ => none

/-- `_DZEN_STABLE_PATH` -/
def dzenStable : List Str → Option Str
  | [] => none
  | seg :: segs => if folds seg "video" then dzenTail segs else dzenTail (seg :: segs)

/-- The branches of `parse_stable_provider_identity`. -/
def identify (tables : Unicode) (providerId : String) (host rawPath : Str) :
    Except IdentityError StableProviderIdentity :=
  if providerId = ProviderID.vk.value then
    match (segments rawPath).bind (vkStable tables) with
    | none => .error ⟨"VK_PATH_INVALID"⟩
    | some mediaId => .ok ⟨providerId, mediaId, host, codePoints "/video" ++ mediaId⟩
  else if providerId = ProviderID.rutube.value then
    match (segments rawPath).bind rutubeStable with
    | none => .error ⟨"RUTUBE_PATH_INVALID"⟩
    | some mediaId => .ok ⟨providerId, mediaId, host, codePoints "/video/" ++ mediaId ++ [slash]⟩
  else if providerId = ProviderID.ok.value then
    match (segments rawPath).bind (okStable tables) with
    | none => .error ⟨"OK_PATH_INVALID"⟩
    | some mediaId => .ok ⟨providerId, mediaId, host, codePoints "/video/" ++ mediaId⟩
  else if providerId = ProviderID.dzen.value then
    match (segments rawPath).bind dzenStable with
    | none => .error ⟨"DZEN_PATH_INVALID"⟩
    | some written => do
      let mediaId := lower written
      require (mediaId ≠ []) ⟨"DZEN_PATH_INVALID"⟩
      .ok ⟨providerId, mediaId, dzenHostCanonical host, codePoints "/video/watch/" ++ mediaId⟩
  else .error ⟨"IDENTITY_PROVIDER_UNSUPPORTED"⟩

def parseStableProviderIdentity (tables : Unicode) (providerId : String) (hostname path : Str)
    (allowedHostnames : List Str) : Except IdentityError StableProviderIdentity := do
  let host ← normalizeHostname hostname
  require (host ∈ allowedHostnames) ⟨"HOST_NOT_OWNED"⟩
  let rawPath := if path = [] then [slash] else path
  require (isForbidden rawPath = false) ⟨"FORBIDDEN_MEDIA_PATH"⟩
  identify tables providerId host rawPath

/-- `_SAFE_MEDIA_ID` -/
def isSafeMediaId (s : Str) : Bool :=
  isToken 128 (fun c => 65 ≤ c && c ≤ 90 || 97 ≤ c && c ≤ 122 || 48 ≤ c && c ≤ 57 || c == dot ||
    c == underscore || c == codePoint ':' || c == hyphen) s

/-! ## The grammars, as the patterns state them -/

/-- The optional `video/` of the Dzen grammar. -/
def DzenLead (lead : List Str) : Prop := lead = [] ∨ ∃ seg, folds seg "video" ∧ lead = [seg]

/-- The channel of a Dzen article, with or without the word `id` before it. -/
def DzenChannel (segs : List Str) : Prop :=
  ∃ channel, channel ≠ [] ∧ (segs = [channel] ∨ ∃ word, folds word "id" ∧ segs = [word, channel])

/-- A path of these segments writes the media id. -/
inductive SegmentId (tables : Unicode) : ProviderID → List Str → Str → Prop
  | vk {kind sign owner video : Str} :
      kind = codePoints "video" ∨ kind = codePoints "clip" → sign = [] ∨ sign = [hyphen] →
      isDecimals tables owner → isDecimals tables video →
      SegmentId tables .vk [kind ++ (sign ++ owner ++ underscore :: video)]
        (sign ++ owner ++ underscore :: video)
  | rutube {kind id : Str} : kind = codePoints "video" ∨ kind = codePoints "shorts" →
      isToken 64 isRutubeChar id → SegmentId tables .rutube [kind, id] id
  | ok {lead : List Str} {id : Str} :
      lead = [codePoints "video"] ∨ lead = [codePoints "videoembed"] ∨
        lead = ["web-api", "video", "moviePlayer"].map codePoints →
      isToken 32 (fun c => isDecimal tables c || c == hyphen) id →
      SegmentId tables .ok (lead ++ [id]) id
  | dzen {lead : List Str} {kind id : Str} : DzenLead lead →
      folds kind "watch" ∨ folds kind "shorts" ∨ folds kind "media" →
      isToken 64 isDzenChar id → SegmentId tables .dzen (lead ++ [kind, id]) id
  | dzenSlug {lead channel : List Str} {media slug id : Str} : DzenLead lead →
      folds media "media" → DzenChannel channel → slug ≠ [] → slug.all isDzenChar →
      isToken 64 isDzenChar id → hyphen ∉ id.dropLast →
      SegmentId tables .dzen (lead ++ media :: (channel ++ [slug ++ hyphen :: id])) id

/-- The path writes the media id, between slashes. -/
def Writes (tables : Unicode) (provider : ProviderID) (path id : Str) : Prop :=
  ∃ segs, segments path = some segs ∧ SegmentId tables provider segs id

/-- An id the canonical path can carry: in ASCII (for Dzen the Kelvin sign may stand for a k), at
most as long as a media id may be, and none that makes a forbidden marker behind a slash. -/
def PlainId (provider : ProviderID) (id : Str) : Prop :=
  (∀ c ∈ id, c < 128 ∨ provider = .dzen ∧ c = 0x212A) ∧ id.length ≤ 128 ∧
    ¬ (provider = .dzen ∧ codePoints "embed" <+: lower id)

variable {tables : Unicode} {provider : ProviderID} {s t id seg path : Str} {segs : List Str} {c : ℕ}

theorem isDecimal_ascii (h : isDecimal tables c) : 48 ≤ c ∧ c ≤ 57 ∨ 128 ≤ c := by
  simp only [isDecimal, isAsciiDigit, Bool.or_eq_true, Bool.and_eq_true, decide_eq_true_eq] at h
  omega

theorem isDecimals_iff : isDecimals tables s ↔ s ≠ [] ∧ ∀ c ∈ s, isDecimal tables c := by
  simp [isDecimals]

/-- No ASCII character other than a digit occurs among decimals. -/
theorem not_mem_of_isDecimals (h : isDecimals tables s) (hc : c < 128)
    (hd : ¬ (48 ≤ c ∧ c ≤ 57)) : c ∉ s := by
  intro hin
  have hdec := isDecimal_ascii ((isDecimals_iff.mp h).2 c hin)
  omega

theorem head_of_isDecimals (h : isDecimals tables s) : s.head? ≠ some hyphen := by
  intro hhead
  exact not_mem_of_isDecimals h (by decide) (by decide) (List.mem_of_mem_head? hhead)

theorem isVkId_iff : isVkId tables s ↔ ∃ sign owner video, (sign = [] ∨ sign = [hyphen]) ∧
    isDecimals tables owner ∧ isDecimals tables video ∧ s = sign ++ owner ++ underscore :: video := by
  constructor
  · intro h
    simp only [isVkId] at h
    split at h
    · cases h
    · rename_i owner video hsplit
      obtain ⟨rfl, -⟩ := splitOnce_eq_some_iff.mp hsplit
      rw [Bool.and_eq_true] at h
      by_cases hsign : owner.head? = some hyphen
      · obtain ⟨rest, rfl⟩ : ∃ rest, owner = hyphen :: rest := by
          cases owner with
          | nil => cases hsign
          | cons c rest => exact ⟨rest, by simpa using hsign⟩
        rw [if_pos hsign] at h
        exact ⟨[hyphen], rest, video, Or.inr rfl, h.1, h.2, rfl⟩
      · rw [if_neg hsign] at h
        exact ⟨[], owner, video, Or.inl rfl, h.1, h.2, rfl⟩
  · rintro ⟨sign, owner, video, hsign, howner, hvideo, rfl⟩
    have hmem : underscore ∉ owner := not_mem_of_isDecimals howner (by decide) (by decide)
    rcases hsign with rfl | rfl
    · have hsplit : splitOnce underscore ([] ++ owner ++ underscore :: video) = some (owner, video) :=
        splitOnce_eq_some_iff.mpr ⟨rfl, hmem⟩
      simp only [isVkId, hsplit, if_neg (head_of_isDecimals howner), howner, hvideo, Bool.and_self]
    · have hne : underscore ∉ hyphen :: owner := by
        rw [List.mem_cons]
        rintro (he | hin)
        · exact absurd he (by decide)
        · exact hmem hin
      have hsplit : splitOnce underscore ([hyphen] ++ owner ++ underscore :: video) =
          some (hyphen :: owner, video) := splitOnce_eq_some_iff.mpr ⟨rfl, hne⟩
      simp only [isVkId, hsplit, List.head?_cons, if_true, List.tail_cons, howner, hvideo,
        Bool.and_self]

theorem vkStable_eq_some_iff : vkStable tables segs = some id ↔ SegmentId tables .vk segs id := by
  constructor
  · intro h
    match segs, h with
    | [seg], h =>
      simp only [vkStable] at h
      split_ifs at h with hvideo hclip
      · obtain ⟨⟨rest, rfl⟩, hid⟩ := hvideo
        obtain rfl : rest = id := Option.some.inj h
        obtain ⟨sign, owner, video, hsign, howner, hnumber, rfl⟩ := isVkId_iff.mp hid
        exact .vk (Or.inl rfl) hsign howner hnumber
      · obtain ⟨⟨rest, rfl⟩, hid⟩ := hclip
        obtain rfl : rest = id := Option.some.inj h
        obtain ⟨sign, owner, video, hsign, howner, hnumber, rfl⟩ := isVkId_iff.mp hid
        exact .vk (Or.inr rfl) hsign howner hnumber
  · intro h
    cases h with
    | vk hkind hsign howner hvideo =>
      have hid := isVkId_iff.mpr ⟨_, _, _, hsign, howner, hvideo, rfl⟩
      rcases hkind with rfl | rfl
      · exact if_pos ⟨List.prefix_append _ _, hid⟩
      · have hno : ∀ rest, ¬ codePoints "video" <+: codePoints "clip" ++ rest := by
          rintro rest ⟨more, hmore⟩
          cases hmore
        simp only [vkStable]
        rw [if_neg fun hv => hno _ hv.1]
        exact if_pos ⟨List.prefix_append _ _, hid⟩

theorem rutubeStable_eq_some_iff : rutubeStable segs = some id ↔
    SegmentId tables .rutube segs id := by
  constructor
  · intro h
    match segs, h with
    | [kind, id'], h =>
      simp only [rutubeStable] at h
      split_ifs at h with hk
      obtain rfl : id' = id := by simpa using h
      exact .rutube hk.1 hk.2
  · intro h
    cases h with
    | rutube hkind hid => exact if_pos ⟨hkind, hid⟩

theorem okStable_eq_some_iff : okStable tables segs = some id ↔ SegmentId tables .ok segs id := by
  constructor
  · intro h
    simp only [okStable] at h
    split_ifs at h with hk
    obtain ⟨hlead, hid⟩ := hk
    have hne : segs ≠ [] := by
      rintro rfl
      simp [isToken] at hid
    have hsplit := List.dropLast_append_getLast hne
    rw [List.getLast?_eq_some_getLast hne, Option.getD_some] at h hid
    generalize segs.getLast hne = last at h hid hsplit
    obtain rfl : last = id := Option.some.inj h
    rw [← hsplit]
    exact .ok hlead hid
  · intro h
    cases h with
    | ok hlead hid =>
      simp only [okStable, List.dropLast_concat, List.getLast?_concat, Option.getD_some]
      exact if_pos ⟨hlead, hid⟩

theorem slugId_eq_some_iff : slugId s = some id ↔ ∃ slug, s = slug ++ hyphen :: id ∧ slug ≠ [] ∧
    slug.all isDzenChar ∧ isToken 64 isDzenChar id ∧ hyphen ∉ id.dropLast := by
  constructor
  · intro h
    simp only [slugId] at h
    split at h
    · cases h
    · rename_i c rest hrev
      split at h
      · cases h
      · rename_i idRev slug hsplit
        split_ifs at h with hk
        obtain ⟨htoken, hne, hall⟩ := hk
        obtain ⟨rfl, hmem⟩ := splitOnce_eq_some_iff.mp hsplit
        obtain rfl : idRev.reverse ++ [c] = id := Option.some.inj h
        have hs : s = slug.reverse ++ hyphen :: (idRev.reverse ++ [c]) := by
          rw [← List.reverse_reverse s, hrev]
          simp
        exact ⟨slug.reverse, hs, by simpa using hne, by simpa using hall, htoken,
          by simpa using hmem⟩
  · rintro ⟨slug, rfl, hne, hall, htoken, hmem⟩
    obtain ⟨body, c, rfl⟩ : ∃ body c, id = body ++ [c] := by
      have hid : id ≠ [] := by
        rintro rfl
        simp [isToken] at htoken
      exact ⟨_, _, (List.dropLast_append_getLast hid).symm⟩
    have hrev : (slug ++ hyphen :: (body ++ [c])).reverse =
        c :: (body.reverse ++ hyphen :: slug.reverse) := by simp
    have hsplit : splitOnce hyphen (body.reverse ++ hyphen :: slug.reverse) =
        some (body.reverse, slug.reverse) :=
      splitOnce_eq_some_iff.mpr ⟨rfl, by simpa using hmem⟩
    simp only [slugId, hrev, hsplit, List.reverse_reverse]
    exact if_pos ⟨htoken, by simpa using hne, by simpa using hall⟩

/-- No word of the grammar is folded as another one. -/
theorem folds_unique {a b : String} (h : folds s a) (h' : folds s b)
    (hne : codePoints a ≠ codePoints b) : False := hne (h.symm.trans h')

/-- What the grammar asks for behind the lead. -/
theorem dzenTail_eq_some_iff : dzenTail segs = some id ↔
    (∃ kind, (folds kind "watch" ∨ folds kind "shorts" ∨ folds kind "media") ∧
      isToken 64 isDzenChar id ∧ segs = [kind, id]) ∨
    ∃ media channel last, folds media "media" ∧ DzenChannel channel ∧ slugId last = some id ∧
      segs = media :: (channel ++ [last]) := by
  constructor
  · intro h
    match segs, h with
    | [kind, id'], h =>
      simp only [dzenTail] at h
      split_ifs at h with hk
      obtain rfl : id' = id := Option.some.inj h
      exact Or.inl ⟨kind, hk.1, hk.2, rfl⟩
    | [media, channel, last], h =>
      simp only [dzenTail] at h
      split_ifs at h with hk
      exact Or.inr ⟨media, [channel], last, hk.1, ⟨channel, hk.2, Or.inl rfl⟩, h, rfl⟩
    | [media, word, channel, last], h =>
      simp only [dzenTail] at h
      split_ifs at h with hk
      exact Or.inr ⟨media, [word, channel], last, hk.1,
        ⟨channel, hk.2.2, Or.inr ⟨word, hk.2.1, rfl⟩⟩, h, rfl⟩
  · rintro (⟨kind, hkind, htoken, rfl⟩ | ⟨media, _, last, hmedia, ⟨channel, hne, rfl | ⟨word, hword,
      rfl⟩⟩, hslug, rfl⟩)
    · exact if_pos ⟨hkind, htoken⟩
    · exact (if_pos ⟨hmedia, hne⟩).trans hslug
    · exact (if_pos ⟨hmedia, hword, hne⟩).trans hslug

theorem dzenTail_head {more : List Str} (h : dzenTail (seg :: more) = some id) :
    ¬ folds seg "video" := by
  intro hvideo
  rcases dzenTail_eq_some_iff.mp h with ⟨kind, hkind, -, he⟩ | ⟨media, _, _, hmedia, -, -, he⟩
  · rw [List.cons.injEq] at he
    obtain ⟨rfl, -⟩ := he
    rcases hkind with hk | hk | hk <;> exact folds_unique hvideo hk (by decide)
  · rw [List.cons.injEq] at he
    obtain ⟨rfl, -⟩ := he
    exact folds_unique hvideo hmedia (by decide)

theorem dzenStable_iff_tail : dzenStable segs = some id ↔
    ∃ lead tail, DzenLead lead ∧ segs = lead ++ tail ∧ dzenTail tail = some id := by
  constructor
  · intro h
    match segs, h with
    | seg :: segs, h =>
      simp only [dzenStable] at h
      split_ifs at h with hvideo
      · exact ⟨[seg], segs, Or.inr ⟨seg, hvideo, rfl⟩, rfl, h⟩
      · exact ⟨[], seg :: segs, Or.inl rfl, rfl, h⟩
  · rintro ⟨lead, tail, hlead, hsegs, h⟩
    subst hsegs
    rcases hlead with rfl | ⟨seg, hvideo, rfl⟩
    · match tail, h with
      | seg :: more, h => exact (if_neg (dzenTail_head h)).trans h
    · exact (if_pos hvideo).trans h

theorem dzenStable_eq_some_iff : dzenStable segs = some id ↔
    SegmentId tables .dzen segs id := by
  rw [dzenStable_iff_tail]
  constructor
  · rintro ⟨lead, tail, hlead, rfl, h⟩
    rcases dzenTail_eq_some_iff.mp h with ⟨kind, hkind, htoken, rfl⟩ |
      ⟨media, channel, last, hmedia, hchannel, hslug, rfl⟩
    · exact .dzen hlead hkind htoken
    · obtain ⟨slug, rfl, hne, hall, htoken, hmem⟩ := slugId_eq_some_iff.mp hslug
      exact .dzenSlug hlead hmedia hchannel hne hall htoken hmem
  · intro h
    cases h with
    | dzen hlead hkind htoken =>
      exact ⟨_, _, hlead, rfl, dzenTail_eq_some_iff.mpr (Or.inl ⟨_, hkind, htoken, rfl⟩)⟩
    | dzenSlug hlead hmedia hchannel hne hall htoken hmem =>
      have hslug := slugId_eq_some_iff.mpr ⟨_, rfl, hne, hall, htoken, hmem⟩
      exact ⟨_, _, hlead, rfl,
        dzenTail_eq_some_iff.mpr (Or.inr ⟨_, _, _, hmedia, hchannel, hslug, rfl⟩)⟩

/-! ## What is accepted -/

/-- The identity a written media id stands for. -/
def identityOf (provider : ProviderID) (host id : Str) : StableProviderIdentity :=
  match provider with
  | .vk => ⟨provider.value, id, host, codePoints "/video" ++ id⟩
  | .rutube => ⟨provider.value, id, host, codePoints "/video/" ++ id ++ [slash]⟩
  | .ok => ⟨provider.value, id, host, codePoints "/video/" ++ id⟩
  | .dzen => ⟨provider.value, lower id, dzenHostCanonical host,
      codePoints "/video/watch/" ++ lower id⟩

theorem writes_root : ¬ Writes tables provider [slash] id := by
  rintro ⟨segs, hsegs, hid⟩
  obtain rfl : [] = segs := Option.some.inj hsegs
  generalize hempty : ([] : List Str) = segs at hid
  cases hid <;> simp at hempty

theorem lower_ne_nil (h : id ≠ []) : lower id ≠ [] := by
  cases id with
  | nil => exact absurd rfl h
  | cons c id =>
    simp only [lower, List.flatMap_cons, lowerPoint]
    split_ifs <;> simp

/-- A path's segments, read by a provider's matcher. -/
theorem writes_iff {stable : List Str → Option Str}
    (h : ∀ {segs id}, stable segs = some id ↔ SegmentId tables provider segs id) :
    (segments path).bind stable = some id ↔ Writes tables provider path id := by
  rw [Option.bind_eq_some_iff]
  simp only [h]
  rfl

theorem SegmentId.ne_nil (h : SegmentId tables provider segs id) : id ≠ [] := by
  cases h with
  | vk => simp
  | rutube _ hid | ok _ hid | dzen _ _ hid | dzenSlug _ _ _ _ _ hid _ =>
    rintro rfl
    simp [isToken] at hid

theorem Writes.ne_nil (h : Writes tables provider path id) : id ≠ [] := by
  obtain ⟨segs, -, hid⟩ := h
  exact hid.ne_nil

/-- The identity, if the path writes an id. -/
theorem match_eq_ok_iff {o : Option Str} {e : IdentityError} {I : StableProviderIdentity}
    {f : Str → StableProviderIdentity} :
    (match o with
      | none => Except.error e
      | some x => Except.ok (f x)) = .ok I ↔ ∃ x, o = some x ∧ I = f x := by
  cases o with
  | none => simp
  | some x => simp [eq_comm]

theorem identify_eq_ok_iff {host : Str} {I : StableProviderIdentity} :
    identify tables provider.value host path = .ok I ↔
      ∃ id, Writes tables provider path id ∧ I = identityOf provider host id := by
  cases provider with
  | vk =>
    have hwrites : ∀ {id}, (segments path).bind (vkStable tables) = some id ↔
        Writes tables .vk path id := writes_iff vkStable_eq_some_iff
    simp only [← hwrites]
    exact match_eq_ok_iff
  | rutube =>
    have hwrites : ∀ {id}, (segments path).bind rutubeStable = some id ↔
        Writes tables .rutube path id := writes_iff rutubeStable_eq_some_iff
    simp only [← hwrites]
    exact match_eq_ok_iff
  | ok =>
    have hwrites : ∀ {id}, (segments path).bind (okStable tables) = some id ↔
        Writes tables .ok path id := writes_iff okStable_eq_some_iff
    simp only [← hwrites]
    exact match_eq_ok_iff
  | dzen =>
    have hmatch : identify tables ProviderID.dzen.value host path =
        match (segments path).bind dzenStable with
        | none => .error ⟨"DZEN_PATH_INVALID"⟩
        | some written => require (lower written ≠ []) ⟨"DZEN_PATH_INVALID"⟩ >>= fun _ =>
          .ok (identityOf .dzen host written) := rfl
    have hwrites : ∀ {id}, (segments path).bind dzenStable = some id ↔
        Writes tables .dzen path id := writes_iff dzenStable_eq_some_iff
    rw [hmatch]
    simp only [← hwrites]
    cases hid : (segments path).bind dzenStable with
    | none => simp
    | some written =>
      have hne := (hwrites.mp hid).ne_nil
      simp only [require_true (lower_ne_nil hne), ok_bind, Except.ok.injEq, Option.some.injEq]
      exact ⟨fun hI => ⟨written, rfl, hI.symm⟩, fun ⟨_, hid, hI⟩ => hid ▸ hI.symm⟩

/-- The parser accepts the paths that write an id and hold no forbidden marker. -/
theorem parse_eq_ok_iff {allowed : List Str} {hostname : Str} {I : StableProviderIdentity} :
    parseStableProviderIdentity tables provider.value hostname path allowed = .ok I ↔
      ∃ host id, normalizeHostname hostname = .ok host ∧ host ∈ allowed ∧
        isForbidden path = false ∧ Writes tables provider path id ∧
        I = identityOf provider host id := by
  simp only [parseStableProviderIdentity, bind_eq_ok, require_eq_ok, identify_eq_ok_iff]
  by_cases hpath : path = []
  · subst hpath
    have hnil : ∀ id, ¬ Writes tables provider [] id := by
      rintro id ⟨segs, hsegs, hid⟩
      obtain rfl : [] = segs := Option.some.inj hsegs
      exact absurd ⟨_, rfl, hid⟩ (@writes_root tables provider id)
    constructor
    · rintro ⟨host, -, -, -, -, -, id, hid, -⟩
      exact absurd hid writes_root
    · rintro ⟨host, id, -, -, -, hid, -⟩
      exact absurd hid (hnil id)
  · simp only [if_neg hpath]
    constructor
    · rintro ⟨host, hnorm, -, hhost, -, hmarker, id, hid, hI⟩
      exact ⟨host, id, hnorm, hhost, hmarker, hid, hI⟩
    · rintro ⟨host, id, hnorm, hhost, hmarker, hid, hI⟩
      exact ⟨host, hnorm, (), hhost, (), hmarker, id, hid, hI⟩

/-! ## Host names are normalized once -/

theorem isHostChar_plain (h : isHostChar c) : 97 ≤ c ∧ c ≤ 122 ∨ 48 ≤ c ∧ c ≤ 57 := by
  simpa [isHostChar] using h

theorem isSafeHost_iff : isSafeHost s ↔ (∃ c, s.head? = some c ∧ isHostChar c) ∧
    (∃ c, s.getLast? = some c ∧ isHostChar c) ∧ s.length ≤ 253 ∧
    ∀ c ∈ s, isHostChar c ∨ c = dot ∨ c = hyphen := by
  simp only [isSafeHost, Bool.and_eq_true, Option.any_eq_true, decide_eq_true_eq,
    List.all_eq_true, Bool.or_eq_true, beq_iff_eq, and_assoc, or_assoc]

theorem lower_eq_self (h : ∀ c ∈ s, lowerPoint c = [c]) : lower s = s := by
  induction s with
  | nil => rfl
  | cons c s ih =>
    rw [lower, List.flatMap_cons, h c List.mem_cons_self]
    exact congrArg (c :: ·) (ih fun d hd => h d (List.mem_cons_of_mem _ hd))

theorem normalizeHostname_eq_ok_iff {host : Str} : normalizeHostname s = .ok host ↔
    host = (lower (stripped s)).rdropWhile (· == dot) ∧ host ≠ [] ∧ isSafeHost host ∧
      slash ∉ host ∧ codePoint '\\' ∉ host ∧ ¬ [dot, dot] <:+: host ∧ codePoint ':' ∉ host ∧
      codePoint '%' ∉ host := by
  simp only [normalizeHostname, bind_eq_ok, require_eq_ok, Except.ok.injEq]
  constructor
  · rintro ⟨-, ⟨hne, hsafe⟩, -, hchars, rfl⟩
    exact ⟨rfl, hne, hsafe, hchars⟩
  · rintro ⟨rfl, hne, hsafe, hchars⟩
    exact ⟨(), ⟨hne, hsafe⟩, (), hchars, rfl⟩

/-- A normalized host name is normalized as itself. -/
theorem normalizeHostname_idem {host : Str} (h : normalizeHostname s = .ok host) :
    normalizeHostname host = .ok host := by
  obtain ⟨-, hne, hsafe, hchars⟩ := normalizeHostname_eq_ok_iff.mp h
  obtain ⟨⟨first, hfirst, hfirstChar⟩, ⟨last, hlast, hlastChar⟩, -, hall⟩ := isSafeHost_iff.mp hsafe
  have hspace : ∀ c, isHostChar c → Text.isSpace c = false := by
    intro c hc
    have hb := isHostChar_plain hc
    simp only [Text.isSpace, isAsciiSpace, Bool.or_eq_false_iff, Bool.and_eq_false_iff,
      beq_eq_false_iff_ne, decide_eq_false_iff_not]
    omega
  have hstrip : stripped host = host := by
    apply stripped_eq_self
    · intro c hc
      rw [hfirst, Option.mem_some_iff] at hc
      exact hspace c (hc ▸ hfirstChar)
    · intro c hc
      rw [hlast, Option.mem_some_iff] at hc
      exact hspace c (hc ▸ hlastChar)
  have hlower : lower host = host := by
    apply lower_eq_self
    intro c hc
    have hb : 97 ≤ c ∧ c ≤ 122 ∨ 48 ≤ c ∧ c ≤ 57 ∨ c = 46 ∨ c = 45 := by
      rcases hall c hc with hchar | hdot | hhyphen
      · have hb := isHostChar_plain hchar
        omega
      · exact Or.inr (Or.inr (Or.inl hdot))
      · exact Or.inr (Or.inr (Or.inr hhyphen))
    simp only [lowerPoint]
    rw [if_neg (by omega), if_neg (by omega), if_neg (by omega)]
  have hdots : host.rdropWhile (· == dot) = host := by
    rw [List.rdropWhile_eq_self_iff]
    intro hl
    rw [List.getLast?_eq_some_getLast hl, Option.some.injEq] at hlast
    rw [hlast, beq_iff_eq]
    rintro rfl
    exact absurd hlastChar (by decide)
  rw [normalizeHostname_eq_ok_iff, hstrip, hlower, hdots]
  exact ⟨rfl, hne, hsafe, hchars⟩

end FetchNow.ProviderIdentity
