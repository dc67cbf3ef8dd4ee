import FetchNow.Audit.Json
import FetchNow.MediaInspection.Models
import FetchNow.Quota.Policy
import FetchNow.Theory.Calendar
import FetchNow.Theory.Texts
import Mathlib.Data.List.DropRight

/-!
# The codec of format snapshots

What is written into `selected_format_snapshot`, and how it is read. The rest of the development
sees a snapshot as its decoded parts.
-/
namespace FetchNow.SnapshotCodec

open Transactions Texts
open Audit (Json)

abbrev Str := Audit.Str

/-- What Python's library does here beyond what is modelled: case folding, the text of a float,
and the forms of ISO 8601 that `isoformat` does not write. -/
structure Library where
  casefold : Str → Str
  floatRepr : Option ℚ → Str
  otherIso : Str → Option (Option Timestamp)
  casefold_ascii : ∀ s : Str, (s.all fun c => c.toNat < 128) = true → casefold s = s.map Char.toLower

/-- The keys of a dict are distinct, in the order of their insertion. -/
abbrev Payload := List (Str × Json)

/-- `invalid` stands for what the decoder catches: `KeyError`, `TypeError` and `ValueError`. -/
inductive SnapshotError where
  | download (code : DownloadErrorCode) (internalReason : String)
  | invalid
  | overflowError
  deriving DecidableEq, Repr

def formatUnavailable (internalReason : String) : SnapshotError :=
  .download .formatUnavailable internalReason

variable {lib : Library} {payload s r : Payload} {fmt f : MediaFormat} {maxBytes : ℕ}

/-! ## Keys -/

def snapshotKeys : List Str :=
  ["formatOptionId", "container", "width", "height", "fps", "hasVideo", "hasAudio", "category",
    "videoCodec", "audioCodec", "approxBytes", "qualityLabel", "freeTierEligible", "mediaKind",
    "requiresPremium", "bitrateKbps"].map String.toList

def legacySnapshotKeys : List Str :=
  snapshotKeys.filter (· ∉ ["mediaKind", "requiresPremium", "bitrateKbps"].map String.toList)

def policyKey : Str := "effectiveDownloadPolicy".toList

def policyKeys : List Str :=
  ["tier", "downloadLimit", "quotaWindowSeconds", "deliveryRateBytesPerSecond", "premiumExpiresAt",
    "allowCombined", "allowAudioOnly", "allowVideoOnly", "authorizedIdentityId"].map String.toList

def legacyPolicyKeys : List Str :=
  policyKeys.filter (· ∉ ["allowCombined", "allowAudioOnly", "allowVideoOnly",
    "authorizedIdentityId"].map String.toList)

def forbiddenKeys : List Str :=
  ["url", "urls", "directUrl", "directUrls", "signedUrl", "downloadUrl", "streamUrl",
    "manifestUrl", "cookie", "cookies", "authorization", "token", "providerFormatToken",
    "provider_format_token", "accessToken", "password", "secret", "stderr", "stdout", "raw",
    "path", "filepath", "tempPath", "query", "fragment", "headers", "argv", "command"].map
    String.toList

/-- `set(payload) == keys`. -/
def HasKeys (payload : Payload) (keys : List Str) : Prop :=
  (∀ key ∈ payload.map Prod.fst, key ∈ keys) ∧ ∀ key ∈ keys, key ∈ payload.map Prod.fst

instance (payload : Payload) (keys : List Str) : Decidable (HasKeys payload keys) :=
  inferInstanceAs (Decidable (_ ∧ _))

/-- The key set is one of `allowed_key_sets`. -/
def AllowedKeys (payload : Payload) : Prop :=
  HasKeys payload legacySnapshotKeys ∨ HasKeys payload (policyKey :: legacySnapshotKeys) ∨
    HasKeys payload snapshotKeys ∨ HasKeys payload (policyKey :: snapshotKeys)

instance (payload : Payload) : Decidable (AllowedKeys payload) :=
  inferInstanceAs (Decidable (_ ∨ _))

def rejectKeys (lib : Library) : Payload → Except SnapshotError Unit
  | [] => .ok ()
  | (key, _) :: rest => do
    require (key ∉ forbiddenKeys ∧ lib.casefold key ∉ forbiddenKeys.map lib.casefold)
      (formatUnavailable "SNAPSHOT_FORBIDDEN_KEY")
    require (key ∈ snapshotKeys ∨ key = policyKey) (formatUnavailable "SNAPSHOT_UNKNOWN_KEY")
    rejectKeys lib rest

/-! ## The size of a payload -/

/-- `ESCAPE_DCT`, with `ensure_ascii=False`. -/
def escapeChar (c : Char) : Str :=
  if c = '"' then "\\\"".toList
  else if c = '\\' then "\\\\".toList
  else if c = '\n' then "\\n".toList
  else if c = '\r' then "\\r".toList
  else if c = '\t' then "\\t".toList
  else if c.toNat = 12 then "\\f".toList
  else if c.toNat = 8 then "\\b".toList
  else if c.toNat < 32 then "\\u".toList ++ writeDigits 16 4 c.toNat
  else [c]

def quoted (s : Str) : Str := '"' :: s.flatMap escapeChar ++ ['"']

mutual
/-- `json.dumps` with the separators `,` and `:`. -/
def dumps (lib : Library) : Json → Str
  | .null => "null".toList
  | .bool value => (if value then "true" else "false").toList
  | .int value => (toString value).toList
  | .float value => lib.floatRepr value
  | .str value => quoted value
  | .arr items => '[' :: dumpsItems lib items ++ [']']
  | .obj fields => '{' :: dumpsFields lib fields ++ ['}']

def dumpsItems (lib : Library) : List Json → Str
  | [] => []
  | [item] => dumps lib item
  | item :: items => dumps lib item ++ ',' :: dumpsItems lib items

def dumpsFields (lib : Library) : List (Str × Json) → Str
  | [] => []
  | [(key, value)] => quoted key ++ ':' :: dumps lib value
  | (key, value) :: fields => quoted key ++ ':' :: (dumps lib value ++ ',' :: dumpsFields lib fields)
end

def jsonByteSize (lib : Library) (payload : Json) : ℕ :=
  ((dumps lib payload).map Char.utf8Size).sum

def defaultMaxJsonBytes : ℕ := 4096

def maxStringLen : ℕ := 64

def maxDimension : ℕ := 16384

def maxFps : ℚ := 240

def maxApproxBytes : ℕ := 10 ^ 12

/-! ## Values -/

def requireBool : Json → Except SnapshotError Bool
  | .bool value => .ok value
  | _ => .error (formatUnavailable "SNAPSHOT_BOOL")

def requireOptionalInt (value : Json) (maximum : ℕ) : Except SnapshotError (Option ℕ) :=
  match value with
  | .null => .ok none
  | .int value => do
    require (0 ≤ value ∧ value ≤ maximum) (formatUnavailable "SNAPSHOT_INT_BOUNDS")
    .ok (some value.toNat)
  | _ => .error (formatUnavailable "SNAPSHOT_INT")

/-- `float(value)` raises `OverflowError` for an integer that rounds to 2 ^ 1024; the integers
within the bounds are floats. -/
def requireOptionalFloat (value : Json) (maximum : ℚ) : Except SnapshotError (Option ℚ) :=
  match value with
  | .null => .ok none
  | .int value => do
    require (value.natAbs < 2 ^ 1024 - 2 ^ 970) .overflowError
    require (0 ≤ value ∧ (value : ℚ) ≤ maximum) (formatUnavailable "SNAPSHOT_FLOAT_BOUNDS")
    .ok (some value)
  | .float (some value) => do
    require (0 ≤ value ∧ value ≤ maximum) (formatUnavailable "SNAPSHOT_FLOAT_BOUNDS")
    .ok (some value)
  | .float none => .error (formatUnavailable "SNAPSHOT_FLOAT_BOUNDS")
  | _ => .error (formatUnavailable "SNAPSHOT_FLOAT")

def requireString : Json → Except SnapshotError Str
  | .str value => do
    require (value ≠ [] ∧ value.length ≤ maxStringLen) (formatUnavailable "SNAPSHOT_STRING")
    require (value.all fun c => 32 ≤ c.toNat) (formatUnavailable "SNAPSHOT_STRING")
    .ok value
  | _ => .error (formatUnavailable "SNAPSHOT_STRING")

/-- The member of an enumeration with the given value. -/
def memberOf {α : Type} (members : List α) (value : α → String) (text : Str) :
    Except SnapshotError α :=
  match members.find? fun member => (value member).toList = text with
  | some member => .ok member
  | none => .error .invalid

def categoryOf : Str → Except SnapshotError FormatCategory :=
  memberOf [.progressive, .videoOnly, .audioOnly] FormatCategory.value

def mediaKindValue : MediaKind → String
  | .normalVideo => "normal_video"
  | .videoOnly => "video_only"
  | .audioOnly => "audio_only"

def mediaKindOf : Str → Except SnapshotError MediaKind :=
  memberOf [.normalVideo, .videoOnly, .audioOnly] mediaKindValue

def codecOf : Str → Except SnapshotError CodecFamily :=
  memberOf [.avc, .hevc, .vp8, .vp9, .av1, .aac, .opus, .mp3, .vorbis, .flac, .unknown, .none]
    CodecFamily.value

/-- `payload[key]`. -/
def item (payload : Payload) (key : String) : Except SnapshotError Json :=
  match Json.get payload key with
  | some value => .ok value
  | none => .error .invalid

/-! ## Formats -/

def intOrNull : Option ℕ → Json
  | none => .null
  | some value => .int value

def floatOrNull : Option ℚ → Json
  | none => .null
  | some value => .float (some value)

def formatPayload (fmt : MediaFormat) : Payload :=
  [("formatOptionId".toList, .str fmt.formatOptionId.toList),
    ("container".toList, .str fmt.container.toList),
    ("width".toList, intOrNull fmt.width),
    ("height".toList, intOrNull fmt.height),
    ("fps".toList, floatOrNull fmt.fps),
    ("hasVideo".toList, .bool fmt.hasVideo),
    ("hasAudio".toList, .bool fmt.hasAudio),
    ("category".toList, .str fmt.category.value.toList),
    ("videoCodec".toList, .str fmt.videoCodec.value.toList),
    ("audioCodec".toList, .str fmt.audioCodec.value.toList),
    ("approxBytes".toList, intOrNull fmt.approxBytes),
    ("qualityLabel".toList, .str fmt.qualityLabel.toList),
    ("freeTierEligible".toList, .bool fmt.freeTierEligible),
    ("mediaKind".toList, .str (mediaKindValue fmt.mediaKind).toList),
    ("requiresPremium".toList, .bool fmt.requiresPremium),
    ("bitrateKbps".toList, intOrNull fmt.bitrateKbps)]

def encodeSelectedFormatSnapshot (lib : Library) (fmt : MediaFormat) (maxBytes : ℕ) :
    Except SnapshotError Payload := do
  let payload := formatPayload fmt
  require (HasKeys payload snapshotKeys) (.download .internalError "SNAPSHOT_ENCODE_KEYS")
  require (jsonByteSize lib (.obj payload) ≤ maxBytes)
    (.download .internalError "SNAPSHOT_TOO_LARGE")
  .ok payload

/-- `MediaFormat(...)`, as the decoder calls it. -/
def construct (fmt : MediaFormat) : Except SnapshotError MediaFormat :=
  match fmt.postInit with
  | .ok fmt => .ok fmt
  | .error _ => .error .invalid

/-- The body of the `try` of the decoder. A snapshot of an older version has no media kind. -/
def readFormat (payload : Payload) (expectedFormatOptionId : Str) :
    Except SnapshotError MediaFormat := do
  let formatOptionId ← requireString (← item payload "formatOptionId")
  require (formatOptionId = expectedFormatOptionId) (formatUnavailable "SNAPSHOT_OPTION_MISMATCH")
  let category ← categoryOf (← requireString (← item payload "category"))
  let mediaKind ← mediaKindOf (← requireString
    ((Json.get payload "mediaKind").getD (.str (mediaKindValue .normalVideo).toList)))
  let container ← requireString (← item payload "container")
  let width ← requireOptionalInt (← item payload "width") maxDimension
  let height ← requireOptionalInt (← item payload "height") maxDimension
  let fps ← requireOptionalFloat (← item payload "fps") maxFps
  let hasVideo ← requireBool (← item payload "hasVideo")
  let hasAudio ← requireBool (← item payload "hasAudio")
  let videoCodec ← codecOf (← requireString (← item payload "videoCodec"))
  let audioCodec ← codecOf (← requireString (← item payload "audioCodec"))
  let approxBytes ← requireOptionalInt (← item payload "approxBytes") maxApproxBytes
  let qualityLabel ← requireString (← item payload "qualityLabel")
  let freeTierEligible ← requireBool (← item payload "freeTierEligible")
  let requiresPremium ← requireBool ((Json.get payload "requiresPremium").getD
    (.bool (decide (mediaKind ≠ .normalVideo))))
  let bitrateKbps ← requireOptionalInt ((Json.get payload "bitrateKbps").getD .null) 100000
  construct
    { formatOptionId := String.ofList formatOptionId, container := String.ofList container, width,
      height, fps, hasVideo, hasAudio, category, videoCodec, audioCodec, approxBytes,
      qualityLabel := String.ofList qualityLabel, freeTierEligible, mediaKind, requiresPremium,
      bitrateKbps }

/-- `except (KeyError, TypeError, ValueError)`. -/
def catchInvalid {α : Type} : Except SnapshotError α → Except SnapshotError α
  | .error .invalid => .error (formatUnavailable "SNAPSHOT_INVALID")
  | result => result

def decodeSelectedFormatSnapshot (lib : Library) (payload : Json) (expectedFormatOptionId : Str)
    (maxBytes : ℕ) : Except SnapshotError MediaFormat :=
  match payload with
  | .obj fields => do
    require (jsonByteSize lib (.obj fields) ≤ maxBytes) (formatUnavailable "SNAPSHOT_TOO_LARGE")
    if ¬ AllowedKeys fields then
      rejectKeys lib fields
      .error (formatUnavailable "SNAPSHOT_KEY_SET")
    else
      rejectKeys lib fields
      catchInvalid (readFormat fields expectedFormatOptionId)
  | _ => .error (formatUnavailable "SNAPSHOT_PAYLOAD_TYPE")

/-! ## Instants -/

def unixEpoch : ℤ := 719468

/-- The fields of `astimezone(UTC)`. -/
structure UtcFields where
  date : Calendar.Date
  hour : ℕ
  minute : ℕ
  second : ℕ
  microsecond : ℕ
  deriving DecidableEq, Repr

def utcFields (t : Timestamp) : UtcFields :=
  let seconds := t / 1000000
  let ofDay := (seconds % 86400).toNat
  { date := Calendar.ofDay (seconds / 86400 + unixEpoch)
    hour := ofDay / 3600
    minute := ofDay % 3600 / 60
    second := ofDay % 60
    microsecond := (t % 1000000).toNat }

/-- The years of a `datetime`. -/
def InRange (date : Calendar.Date) : Prop := 1 ≤ date.year ∧ date.year ≤ 9999

instance (date : Calendar.Date) : Decidable (InRange date) := inferInstanceAs (Decidable (_ ∧ _))

def fractionText (microsecond : ℕ) : Str :=
  if microsecond = 0 then [] else '.' :: writeDigits 10 6 microsecond

/-- `isoformat()`, without the offset. -/
def isoText (fields : UtcFields) : Str :=
  writeDigits 10 4 fields.date.year.toNat ++ '-' :: (writeDigits 10 2 fields.date.month.toNat ++
    '-' :: (writeDigits 10 2 fields.date.day.toNat ++ 'T' :: (writeDigits 10 2 fields.hour ++
      ':' :: (writeDigits 10 2 fields.minute ++ ':' :: (writeDigits 10 2 fields.second ++
        fractionText fields.microsecond)))))

def utcOffset : Str := "+00:00".toList

/-- `astimezone(UTC).isoformat().replace("+00:00", "Z")`. -/
def expiryText (t : Timestamp) : Except SnapshotError Str := do
  require (InRange (utcFields t).date) .overflowError
  .ok (replace utcOffset ['Z'] (isoText (utcFields t) ++ utcOffset))

def optionalExpiry : Option Timestamp → Except SnapshotError (Option Str)
  | none => .ok none
  | some expiresAt => (expiryText expiresAt).map some

def expect (c : Char) : Str → Option Str
  | [] => none
  | d :: rest => if d = c then some rest else none

def readFraction : Str → Option (ℕ × Str)
  | '.' :: rest => readDigits 10 6 0 rest
  | rest => some (0, rest)

/-- The offset from UTC, in seconds; absent without one. -/
def readOffset : Str → Option (Option ℤ)
  | [] => some none
  | sign :: rest => do
    let (hours, rest) ← readDigits 10 2 0 rest
    let rest ← expect ':' rest
    let (minutes, rest) ← readDigits 10 2 0 rest
    if rest ≠ [] then none
    else if sign = '+' then some (some (hours * 3600 + minutes * 60))
    else if sign = '-' then some (some (-(hours * 3600 + minutes * 60)))
    else none

/-- Text as `isoformat` writes it; the separator of date and time is any character. -/
def readIso (text : Str) : Option (UtcFields × Option ℤ) := do
  let (year, text) ← readDigits 10 4 0 text
  let text ← expect '-' text
  let (month, text) ← readDigits 10 2 0 text
  let text ← expect '-' text
  let (day, text) ← readDigits 10 2 0 text
  let (hour, text) ← readDigits 10 2 0 (text.drop 1)
  let text ← expect ':' text
  let (minute, text) ← readDigits 10 2 0 text
  let text ← expect ':' text
  let (second, text) ← readDigits 10 2 0 text
  let (microsecond, text) ← readFraction text
  let offset ← readOffset text
  some ({ date := ⟨year, month, day⟩, hour, minute, second, microsecond }, offset)

/-- The values that the constructor of `datetime` admits. -/
def UtcFields.Valid (fields : UtcFields) : Prop :=
  InRange fields.date ∧ Calendar.ofDay fields.date.toDay = fields.date ∧ fields.hour < 24 ∧
    fields.minute < 60 ∧ fields.second < 60

instance (fields : UtcFields) : Decidable fields.Valid := inferInstanceAs (Decidable (_ ∧ _))

def UtcFields.timestamp (fields : UtcFields) : Timestamp :=
  ((fields.date.toDay - unixEpoch) * 86400 + fields.hour * 3600 + fields.minute * 60 +
    fields.second) * 1000000 + fields.microsecond

/-- `datetime.fromisoformat`, absent where it raises `ValueError`; what it returns has no instant
without an offset. -/
def fromisoformat (lib : Library) (text : Str) : Option (Option Timestamp) :=
  match readIso text with
  | some (fields, offset) =>
    if fields.Valid ∧ ∀ o ∈ offset, o.natAbs < 86400 then
      some (offset.map fun o => fields.timestamp - seconds o)
    else none
  | none => lib.otherIso text

/-! ## Identities -/

/-- `str(uuid)`. -/
def uuidText (id : Uuid) : Str :=
  let hex := writeDigits 16 32 id
  hex.take 8 ++ '-' :: ((hex.drop 8).take 4 ++ '-' :: ((hex.drop 12).take 4 ++
    '-' :: ((hex.drop 16).take 4 ++ '-' :: hex.drop 20)))

def isBrace (c : Char) : Bool := c = '{' || c = '}'

/-- `uuid.UUID(text)`, absent where it raises `ValueError`. -/
def parseUuid (text : Str) : Option Uuid :=
  let hex := replace "uuid:".toList [] (replace "urn:".toList [] text)
  let hex := ((hex.dropWhile isBrace).rdropWhile isBrace).filter (· ≠ '-')
  if hex.length ≠ 32 then none else (readDigits 16 32 0 hex).map Prod.fst

/-- `uuid.UUID(str(value))`; the text of no other value is a UUID. -/
def uuidOf : Json → Option Uuid
  | .str text => parseUuid text
  | .int value => parseUuid (toString value).toList
  | _ => none

/-! ## Policies -/

def tierText : Tier → Str
  | .free => "free".toList
  | .premium => "premium".toList

def policyInvalid : SnapshotError := formatUnavailable "POLICY_SNAPSHOT_INVALID"

def optionalText : Option Str → Json
  | none => .null
  | some text => .str text

/-- `raw.get(key)`. -/
def field (raw : Payload) (key : String) : Json := (Json.get raw key).getD .null

def isNull : Json → Bool
  | .null => true
  | _ => false

def policyPayload (policy : EffectiveDownloadPolicy) (expiresAt : Option Str)
    (authorizedIdentityId : Option Uuid) : Payload :=
  [("tier".toList, .str (tierText policy.tier)),
    ("downloadLimit".toList, intOrNull policy.downloadLimit),
    ("quotaWindowSeconds".toList, intOrNull policy.quotaWindowSeconds),
    ("deliveryRateBytesPerSecond".toList, intOrNull policy.deliveryRateBytesPerSecond),
    ("premiumExpiresAt".toList, optionalText expiresAt),
    ("allowCombined".toList, .bool policy.allowCombined),
    ("allowAudioOnly".toList, .bool policy.allowAudioOnly),
    ("allowVideoOnly".toList, .bool policy.allowVideoOnly),
    ("authorizedIdentityId".toList, optionalText (authorizedIdentityId.map uuidText))]

/-- `type(value) is int and low <= value <= high`. -/
def boundedInt (value : Json) (low high : ℕ) : Except SnapshotError ℕ :=
  match value with
  | .int value => do
    require (low ≤ value ∧ value ≤ high) policyInvalid
    .ok value.toNat
  | _ => .error policyInvalid

def boundedRate : Json → Except SnapshotError (Option ℕ)
  | .null => .ok none
  | rate => (boundedInt rate 262144 67108864).map some

def decodeFreePolicy (limit window rate expiry identity : Json)
    (allowCombined allowAudioOnly allowVideoOnly : Bool) :
    Except SnapshotError EffectiveDownloadPolicy := do
  let limit ← boundedInt limit 1 100
  let window ← boundedInt window 60 604800
  let rate ← boundedRate rate
  require (isNull expiry ∧ isNull identity ∧ allowCombined = true ∧ allowAudioOnly = false ∧
    allowVideoOnly = false) policyInvalid
  .ok { tier := .free, downloadLimit := some limit, quotaWindowSeconds := some window,
        deliveryRateBytesPerSecond := rate, premiumExpiresAt := none, allowCombined := true,
        allowAudioOnly := false, allowVideoOnly := false }

def decodePremiumPolicy (lib : Library) (legacy : Bool) (limit window rate expiry identity : Json)
    (allowCombined allowAudioOnly allowVideoOnly : Bool) :
    Except SnapshotError EffectiveDownloadPolicy := do
  require (isNull limit ∧ isNull window ∧ isNull rate ∧ allowCombined = true) policyInvalid
  match expiry with
  | .str expiry => do
    require (expiry.length ≤ maxStringLen) policyInvalid
    match fromisoformat lib (replace ['Z'] utcOffset expiry) with
    | some (some expiresAt) => do
      require (legacy = false → (uuidOf identity).isSome) policyInvalid
      .ok { tier := .premium, downloadLimit := none, quotaWindowSeconds := none,
            deliveryRateBytesPerSecond := none, premiumExpiresAt := some expiresAt,
            allowCombined := true, allowAudioOnly, allowVideoOnly }
    | _ => .error policyInvalid
  | _ => .error policyInvalid

/-- The value under the policy key. -/
def decodePolicy (lib : Library) (raw : Payload) : Except SnapshotError EffectiveDownloadPolicy := do
  require (HasKeys raw legacyPolicyKeys ∨ HasKeys raw policyKeys)
    (formatUnavailable "POLICY_SNAPSHOT_KEY_SET")
  let legacy := decide (HasKeys raw legacyPolicyKeys)
  let get (key : String) (old : Json) := if legacy then old else field raw key
  let identity := get "authorizedIdentityId" .null
  match get "allowCombined" (.bool true), get "allowAudioOnly" (.bool false),
      get "allowVideoOnly" (.bool false) with
  | .bool allowCombined, .bool allowAudioOnly, .bool allowVideoOnly =>
    match field raw "tier" with
    | .str tier =>
      if tier = tierText .free then
        decodeFreePolicy (field raw "downloadLimit") (field raw "quotaWindowSeconds")
          (field raw "deliveryRateBytesPerSecond") (field raw "premiumExpiresAt") identity
          allowCombined allowAudioOnly allowVideoOnly
      else if tier = tierText .premium then
        decodePremiumPolicy lib legacy (field raw "downloadLimit") (field raw "quotaWindowSeconds")
          (field raw "deliveryRateBytesPerSecond") (field raw "premiumExpiresAt") identity
          allowCombined allowAudioOnly allowVideoOnly
      else .error policyInvalid
    | _ => .error policyInvalid
  | _, _, _ => .error policyInvalid

/-- `none` denotes a legacy job. -/
def decodeEffectivePolicySnapshot (lib : Library) (payload : Json) :
    Except SnapshotError (Option EffectiveDownloadPolicy) :=
  match payload with
  | .obj fields =>
    match (fields.lookup policyKey).getD .null with
    | .null => .ok none
    | .obj raw => (decodePolicy lib raw).map some
    | _ => .error (formatUnavailable "POLICY_SNAPSHOT_KEY_SET")
  | _ => .error (formatUnavailable "SNAPSHOT_PAYLOAD_TYPE")

/-- `result[key] = value`. -/
def setItem (payload : Payload) (key : Str) (value : Json) : Payload :=
  if key ∈ payload.map Prod.fst then
    payload.map fun entry => if entry.1 = key then (key, value) else entry
  else payload ++ [(key, value)]

/-- `str(payload.get("formatOptionId") or "")`, for a value that the decoder admits. -/
def ownFormatOptionId (payload : Payload) : Str :=
  match field payload "formatOptionId" with
  | .str text => text
  | _ => []

def attachEffectivePolicySnapshot (lib : Library) (payload : Payload)
    (policy : EffectiveDownloadPolicy) (authorizedIdentityId : Option Uuid) :
    Except SnapshotError Payload := do
  let _ ← decodeSelectedFormatSnapshot lib (.obj payload) (ownFormatOptionId payload)
    defaultMaxJsonBytes
  let expiresAt ← optionalExpiry policy.premiumExpiresAt
  let result := setItem payload policyKey
    (.obj (policyPayload policy expiresAt authorizedIdentityId))
  let _ ← decodeEffectivePolicySnapshot lib (.obj result)
  require (jsonByteSize lib (.obj result) ≤ defaultMaxJsonBytes)
    (.download .internalError "SNAPSHOT_TOO_LARGE")
  .ok result

def stripEffectivePolicySnapshot (payload : Payload) : Payload :=
  payload.filter fun entry => entry.1 ≠ policyKey

def decodeAuthorizedIdentityId (lib : Library) (payload : Json) :
    Except SnapshotError (Option Uuid) := do
  let policy ← decodeEffectivePolicySnapshot lib payload
  match policy.filter (·.tier = .premium), payload with
  | some _, .obj fields =>
    match (fields.lookup policyKey).getD .null with
    | .obj raw =>
      match field raw "authorizedIdentityId" with
      | .null => .ok none
      | value =>
        match uuidOf value with
        | some id => .ok (some id)
        | none => .error policyInvalid
    | _ => .ok none
  | _, _ => .ok none

end FetchNow.SnapshotCodec
