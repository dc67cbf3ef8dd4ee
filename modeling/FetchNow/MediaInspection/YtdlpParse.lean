import FetchNow.MediaInspection.Numbers
import FetchNow.Url.ProviderIdentity
import FetchNow.Url.Split

/-!
# The output of the inspector

`parse_ytdlp_json`: what an external tool reports on a medium becomes a draft, after its structure
and its identity were checked.
-/
namespace FetchNow.Ytdlp

open ProviderIdentity Text.Json
open Text (Interpreter Json)

inductive InspectFailure where
  | inspectionError (kind : InspectionErrorKind) (reason : String)
  | valueError
  | overflowError
  deriving DecidableEq

def reject {α : Type} (kind : InspectionErrorKind) (reason : String) : Except InspectFailure α :=
  .error (.inspectionError kind reason)

def require (c : Prop) [Decidable c] (kind : InspectionErrorKind) (reason : String) :
    Except InspectFailure Unit :=
  if c then .ok () else reject kind reason

/-- What is expected of the output, and the limits that are configured. -/
structure InspectArgs where
  expectedProviderId : String
  expectedCanonicalUrl : String
  expectedMediaId : Str
  allowedExtractorKeys : List Str
  allowedHostnames : List Str
  maxHeight : ℕ
  maxWidth : ℕ
  maxBytes : ℕ
  maxDuration : ℕ
  toolVersion : Option String
  maxJsonDepth : ℕ
  maxJsonNodes : ℕ
  maxMappingKeys : ℕ
  maxListLen : ℕ
  maxStringLen : ℕ
  maxFormatEntries : ℕ

/-- The draft with what it is bound to. -/
structure BoundDraft extends ExtractedMediaDraft where
  providerId : String
  canonicalProviderUrl : String
  mediaId : Str
  extractorKey : Str

/-- The interpreter, how deep its calls may be nested, and its URL parser. -/
structure Tool extends Interpreter where
  recursionLimit : ℕ
  urls : Url.Text

variable (py : Tool) (args : InspectArgs)

/-- A `str` in a draft. A lone surrogate is written as NUL there; no bound depends on it. -/
def textOfPoints (s : Str) : String := String.ofList (s.map Char.ofNat)

def asStr : Json → Option Str
  | .str text => some text
  | _ => none

/-! ## Structure -/

def structureLimits : Limits where
  rootDepth := 1
  maxDepth := args.maxJsonDepth
  maxNodes := args.maxJsonNodes
  maxMappingKeys := args.maxMappingKeys
  maxListLen := args.maxListLen
  maxStringLen := args.maxStringLen
  maxKeyLen := some args.maxStringLen
  recursionLimit := some py.recursionLimit

def excessReason : Excess → String
  | .nodes => "JSON_NODE_LIMIT"
  | .depth => "JSON_DEPTH_LIMIT"
  | .string => "JSON_STRING_LIMIT"
  | .mapping => "JSON_KEYS_LIMIT"
  | .list => "JSON_LIST_LIMIT"
  | .key => "JSON_KEY_LIMIT"
  | .nonfinite => "JSON_NONFINITE"
  | .recursion => "JSON_RECURSION"

def assertJsonStructure (root : Json) : Except InspectFailure Unit :=
  match walk (structureLimits py args) root 1 0 with
  | .ok _ => .ok ()
  | .error excess => reject .inspectionInvalidOutput (excessReason excess)

def rejectPlaylist (payload : Fields) : Except InspectFailure Unit := do
  require (asStr (get payload "_type") ≠ some (codePoints "playlist")) .inspectionPolicyRejected
    "PLAYLIST_REJECTED"
  match get payload "entries" with
  | .arr _ => reject .inspectionPolicyRejected "PLAYLIST_ENTRIES"
  | _ => .ok ()

/-! ## Extractor -/

/-- The labels that are there; each has to be a text that is not blank. -/
def extractorValues : List Json → Except InspectFailure (List Str)
  | [] => .ok []
  | .null :: rest => extractorValues rest
  | .str value :: rest => do
    require (Text.stripped value ≠ []) .inspectionInvalidOutput "EXTRACTOR_FIELD_INVALID"
    let values ← extractorValues rest
    return Text.lower (Text.stripped value) :: values
  | _ => reject .inspectionInvalidOutput "EXTRACTOR_FIELD_INVALID"

def isGeneric (value : Str) : Bool :=
  value ∈ ["generic", "default"].map codePoints || (codePoints "generic").isPrefixOf value

def extractorKey (allowed : List Str) (payload : Fields) : Except InspectFailure Str := do
  let values ← extractorValues [get payload "extractor_key", get payload "extractor"]
  require (values ≠ []) .inspectionInvalidOutput "MISSING_EXTRACTOR_KEY"
  require (¬values.any isGeneric) .inspectionProviderMismatch "GENERIC_EXTRACTOR"
  match values.dedup with
  | [key] => .ok key
  | unique =>
    match (unique.filter (· ∈ allowed)).dedup with
    | [key] => .ok key
    | _ => reject .inspectionProviderMismatch "EXTRACTOR_FIELD_CONFLICT"

/-! ## Identity -/

/-- The characters that a URL is parsed as. A lone surrogate is a character that no rule names. -/
def urlChars (s : Str) : List Char :=
  s.map fun c => if 0xD800 ≤ c ∧ c ≤ 0xDFFF then Char.ofNat 0xFFFD else Char.ofNat c

/-- `parse_stable_identity_from_url` -/
def parseStableIdentityFromUrl (rawUrl : Str) (providerId : String) (allowedHostnames : List Str) :
    Except IdentityError StableProviderIdentity :=
  match Url.urlsplit py.urls (urlChars rawUrl) with
  | none => .error ⟨"IDENTITY_URL_PARSE"⟩
  | some split =>
    if split.hasUserinfo then .error ⟨"IDENTITY_URL_CREDENTIALS"⟩
    else if py.urls.lower split.scheme ∉ ["http".toList, "https".toList] then
      .error ⟨"IDENTITY_URL_SCHEME"⟩
    else
      match split.port with
      | none => .error ⟨"IDENTITY_URL_PORT_INVALID"⟩
      | some port =>
        if ∃ number ∈ port, number ∉ [80, 443] then .error ⟨"IDENTITY_URL_PORT_UNTRUSTED"⟩
        else
          match split.hostname py.urls with
          | none => .error ⟨"IDENTITY_URL_HOST"⟩
          | some hostname =>
            parseStableProviderIdentity py.tables providerId (hostname.map codePoint)
              (split.parsePath.map codePoint) allowedHostnames

/-- `_map_identity_error` -/
def identityErrorKind (reason : String) : InspectionErrorKind :=
  if reason ∈ ["HOST_NOT_OWNED", "IDENTITY_URL_CREDENTIALS", "IDENTITY_URL_SCHEME",
      "IDENTITY_URL_PORT_UNTRUSTED"] then .inspectionProviderMismatch
  else if reason = "IDENTITY_PROVIDER_UNSUPPORTED" then .inspectionUnsupportedProvider
  else if reason ∈ ["IDENTITY_URL_PARSE", "IDENTITY_URL_HOST", "IDENTITY_URL_PORT_INVALID"] then
    .inspectionInvalidOutput
  else .inspectionPolicyRejected

/-- The media id of `parse_identity_from_url`. -/
def parseIdentityFromUrl (rawUrl : Str) : Except InspectFailure Str :=
  match parseStableIdentityFromUrl py rawUrl args.expectedProviderId args.allowedHostnames with
  | .ok identity => .ok identity.mediaId
  | .error e => reject (identityErrorKind e.reason) e.reason

/-- The media ids of the URLs that are there. -/
def urlMediaIds : List Json → Except InspectFailure (List Str)
  | [] => .ok []
  | .null :: rest => urlMediaIds rest
  | .str value :: rest => do
    let mediaId ← parseIdentityFromUrl py args value
    let mediaIds ← urlMediaIds rest
    return mediaId :: mediaIds
  | _ => reject .inspectionInvalidOutput "IDENTITY_URL_TYPE"

/-- `_SAFE_ID` -/
def isSafeId (s : Str) : Bool :=
  1 ≤ s.length && s.length ≤ 128 && s.all fun c =>
    65 ≤ c && c ≤ 90 || 97 ≤ c && c ≤ 122 || 48 ≤ c && c ≤ 57 ||
      c ∈ ['.', '_', ':', '-'].map codePoint

/-- A media id that a field gives. -/
def fieldMediaId : Json → Option Str
  | .str text => if isSafeId text then some text else none
  | .int n => if isSafeId (codePoints (toString n)) then some (codePoints (toString n)) else none
  | _ => none

def payloadMediaId (payload : Fields) : Except InspectFailure Str :=
  match fieldMediaId (get payload "id"), fieldMediaId (get payload "display_id") with
  | some id, _ => .ok id
  | none, some id => .ok id
  | none, none => reject .inspectionInvalidOutput "MISSING_MEDIA_ID"

def bindResultIdentity (payload : Fields) : Except InspectFailure Unit := do
  let mediaIds ← urlMediaIds py args [get payload "webpage_url", get payload "original_url"]
  require (mediaIds ≠ []) .inspectionProviderMismatch "MISSING_AUTHORITATIVE_IDENTITY"
  require (mediaIds.dedup.length = 1) .inspectionProviderMismatch "CONFLICTING_IDENTITY_FIELDS"
  require (mediaIds.head? = some args.expectedMediaId) .inspectionProviderMismatch
    "MEDIA_IDENTITY_MISMATCH"
  let payloadId ← payloadMediaId payload
  require (payloadId = args.expectedMediaId) .inspectionProviderMismatch "PAYLOAD_ID_MISMATCH"

/-! ## Numbers -/

/-- `float(value)` of an integer. -/
def floatOfInt (n : ℤ) : Except InspectFailure (Option ℚ) :=
  match intToFloat n with
  | some x => .ok (some x)
  | none => .error .overflowError

def finiteNumber : Json → Except InspectFailure (Option ℚ)
  | .int n => if 0 ≤ n then floatOfInt n else .ok none
  | .float (.finite x) => .ok (if 0 ≤ x then some x else none)
  | _ => .ok none

def finitePositiveNumber : Json → Except InspectFailure (Option ℚ)
  | .int n => if 0 < n then floatOfInt n else .ok none
  | .float (.finite x) => .ok (if 0 < x then some x else none)
  | _ => .ok none

def intDim (value : Json) (maximum : ℕ) : Except InspectFailure (Option ℕ) := do
  let number ← finiteNumber value
  return (number.map fun x => (truncate x).toNat).filter (· ≤ maximum)

/-! ## Sizes -/

def maxBitrateKbps : ℚ := 100000

def maxInt64 : ℕ := 2 ^ 63 - 1

def boundedBitrateKbps (value : Json) : Except InspectFailure (Option ℚ) := do
  let rate ← finitePositiveNumber value
  return rate.filter (· ≤ maxBitrateKbps)

/-- A number of bytes that is at least one and fits 64 bits. -/
def boundedBytes (size : ℚ) : Option ℕ :=
  let n := truncate size
  if n < 1 ∨ (maxInt64 : ℤ) < n then none else some n.toNat

def bytesFromReportedSize (value : Json) : Except InspectFailure (Option ℕ) := do
  let size ← finitePositiveNumber value
  return size.bind boundedBytes

/-- The product of two floats that are not negative. -/
def multiply (x y : ℚ) : PyFloat := roundToFloat (x * y)

/-- `bytes_from_bitrate`. The duration was cut off from a float and is none too large for one. -/
def bytesFromBitrate (durationSeconds : Option ℕ) (bitrateKbps : ℚ) : Option ℕ :=
  match durationSeconds with
  | none => none
  | some duration =>
    if duration = 0 ∨ bitrateKbps ≤ 0 ∨ maxBitrateKbps < bitrateKbps then none
    else
      let seconds := nearestFloat duration
      let maxRate : PyFloat :=
        match multiply 125 seconds with
        | .finite bytes => roundToFloat (2 ^ 63 / bytes)
        | _ => .finite 0
      if (PyFloat.finite bitrateKbps).gt maxRate then none
      else
        match multiply seconds bitrateKbps with
        | .finite kilobits =>
          match multiply kilobits 125 with
          | .finite estimated => if estimated < 1 then none else boundedBytes estimated
          | _ => none
        | _ => none

/-- `a or b`, where no rate is zero. -/
def firstRate (first second : Json) : Except InspectFailure (Option ℚ) := do
  match ← boundedBitrateKbps first with
  | some rate => return some rate
  | none => boundedBitrateKbps second

def bitrateForStream (hasVideo hasAudio : Bool) (tbr vbr abr : Json) :
    Except InspectFailure (Option ℚ) :=
  if hasVideo && hasAudio then boundedBitrateKbps tbr
  else if hasVideo then firstRate vbr tbr
  else if hasAudio then firstRate abr tbr
  else .ok none

def estimateFormatBytes (item : Fields) (hasVideo hasAudio : Bool) (durationSeconds : Option ℕ) :
    Except InspectFailure (Option ℕ) := do
  match ← bytesFromReportedSize (get item "filesize") with
  | some reported => return some reported
  | none =>
    match ← bytesFromReportedSize (get item "filesize_approx") with
    | some approx => return some approx
    | none =>
      let rate ← bitrateForStream hasVideo hasAudio (get item "tbr") (get item "vbr")
        (get item "abr")
      return rate.bind (bytesFromBitrate durationSeconds)

/-! ## Formats -/

def videoCodecMap : List (String × CodecFamily) :=
  [("none", .none), ("avc", .avc), ("avc1", .avc), ("h264", .avc), ("h.264", .avc),
    ("hevc", .hevc), ("h265", .hevc), ("h.265", .hevc), ("vp8", .vp8), ("vp9", .vp9),
    ("vp09", .vp9), ("av01", .av1), ("av1", .av1)]

def audioCodecMap : List (String × CodecFamily) :=
  [("none", .none), ("aac", .aac), ("mp4a", .aac), ("mp3", .mp3), ("opus", .opus),
    ("vorbis", .vorbis), ("flac", .flac)]

def normalizeCodec (table : List (String × CodecFamily)) : Option Str → CodecFamily
  | none => .none
  | some raw =>
    let token := Text.lower (Text.stripped raw)
    if token = [] ∨ token = codePoints "none" then .none
    else
      match table.find? fun entry => codePoints entry.1 = token with
      | some entry => entry.2
      | none =>
        match table.find? fun entry => (codePoints entry.1 ++ [codePoint '.']).isPrefixOf token with
        | some entry => entry.2
        | none => .unknown

def isLowerAlnum (c : ℕ) : Bool := 97 ≤ c && c ≤ 122 || 48 ≤ c && c ≤ 57

/-- `ext.strip().lower()`, if `_CONTAINER_RE` matches it. -/
def containerOf (ext : Json) : Option Str :=
  ((asStr ext).map fun ext => Text.lower (Text.stripped ext)).filter fun container =>
    1 ≤ container.length && container.length ≤ 16 && container.all isLowerAlnum

/-- The protocol, if `_PROTOCOL_RE` matches it. -/
def protocolOf (raw : Json) : Option Str :=
  ((asStr raw).map fun raw => Text.lower (Text.stripped raw)).filter fun protocol =>
    1 ≤ protocol.length && protocol.length ≤ 32 &&
      protocol.all fun c => isLowerAlnum c || c = codePoint '_'

structure Tracks where
  width : Option ℕ
  height : Option ℕ
  hasVideo : Bool
  hasAudio : Bool
  videoCodec : CodecFamily
  audioCodec : CodecFamily

/-- The tracks with their dimensions; a dimension makes a video of what has no video codec. -/
def tracksOf (item : Fields) (width height : Option ℕ) : Option Tracks :=
  let videoCodec := normalizeCodec videoCodecMap (asStr (get item "vcodec"))
  let audioCodec := normalizeCodec audioCodecMap (asStr (get item "acodec"))
  let dimensioned := width.isSome || height.isSome
  let hasVideo := videoCodec ≠ .none || dimensioned
  let hasAudio : Bool := audioCodec ≠ .none
  if hasVideo && !dimensioned then none
  else if !hasVideo && !hasAudio then none
  else some { width, height, hasVideo, hasAudio, audioCodec
              videoCodec := if dimensioned && videoCodec = .none then .unknown else videoCodec }

def bitrateSource (item : Fields) (tracks : Tracks) : Json :=
  if tracks.hasAudio && !tracks.hasVideo then get item "abr"
  else if tracks.hasVideo && !tracks.hasAudio then get item "tbr"
  else .null

def candidateOf (item : Fields) (container : Str) (tracks : Tracks) (fps : Option ℚ)
    (bitrate : Option ℚ) (approxBytes : Option ℕ) : InternalFormatCandidate where
  container := textOfPoints container
  width := tracks.width
  height := tracks.height
  fps
  hasVideo := tracks.hasVideo
  hasAudio := tracks.hasAudio
  videoCodec := tracks.videoCodec
  audioCodec := tracks.audioCodec
  approxBytes
  providerFormatToken :=
    ((asStr (get item "format_id")).filter fun token => 0 < token.length && token.length ≤ 64).map
      textOfPoints
  protocol := (protocolOf (get item "protocol")).map textOfPoints
  hasDrm := match get item "has_drm" with | .bool value => value | _ => false
  bitrateKbps := (bitrate.filter (· ≤ 100000)).map fun rate => (roundHalfEven rate).toNat

def readCandidate (durationSeconds : Option ℕ) (item : Fields) (container : Str)
    (tracks : Tracks) : Except InspectFailure (Option InternalFormatCandidate) := do
  let fps ← finiteNumber (get item "fps")
  if fps.any (240 < ·) then return none
  else
    let bitrate ← finiteNumber (bitrateSource item tracks)
    let approxBytes ← estimateFormatBytes item tracks.hasVideo tracks.hasAudio durationSeconds
    return if approxBytes.any (args.maxBytes < ·) then none
      else some (candidateOf item container tracks fps bitrate approxBytes)

/-- One turn of the loop of `_parse_formats`. -/
def parseFormat (durationSeconds : Option ℕ) :
    Json → Except InspectFailure (Option InternalFormatCandidate)
  | .obj item =>
    match containerOf (get item "ext") with
    | none => .ok none
    | some container => do
      let width ← intDim (get item "width") args.maxWidth
      let height ← intDim (get item "height") args.maxHeight
      match tracksOf item width height with
      | none => .ok none
      | some tracks => readCandidate args durationSeconds item container tracks
  | _ => .ok none

/-- `payload.get("formats")`, or the payload itself. -/
def rawFormats (payload : Fields) : Json :=
  match get payload "formats" with
  | .null => .arr [.obj payload]
  | formats => formats

def parseFormats (durationSeconds : Option ℕ) (payload : Fields) :
    Except InspectFailure (List InternalFormatCandidate) :=
  match rawFormats payload with
  | .arr formats => do
    require (formats.length ≤ args.maxFormatEntries) .inspectionInvalidOutput "FORMAT_ENTRY_LIMIT"
    let candidates ← formats.mapM (parseFormat args durationSeconds)
    return candidates.filterMap id
  | _ => reject .inspectionInvalidOutput "FORMATS_NOT_LIST"

/-! ## The output -/

def loadOutput (raw : List UInt8) : Except InspectFailure Json :=
  match py.loads raw with
  | .ok payload => .ok payload
  | .error .unicodeDecodeError => reject .inspectionInvalidOutput "STDOUT_NOT_UTF8"
  | .error .jsonDecodeError => reject .inspectionInvalidOutput "STDOUT_NOT_JSON"
  | .error .recursionError => reject .inspectionInvalidOutput "JSON_RECURSION"
  | .error .valueError => .error .valueError

/-- The checks of the payload before its numbers are read; the extractor. -/
def admission (payload : Fields) : Except InspectFailure Str := do
  assertJsonStructure py args (.obj payload)
  rejectPlaylist payload
  let allowed := args.allowedExtractorKeys.map Text.lower
  let extractor ← extractorKey allowed payload
  require (extractor ∈ allowed) .inspectionProviderMismatch "EXTRACTOR_NOT_ALLOWED"
  bindResultIdentity py args payload
  return extractor

def readDraft (payload : Fields) (extractor : Str) : Except InspectFailure BoundDraft := do
  let durationRaw ← finiteNumber (get payload "duration")
  require (∀ seconds ∈ durationRaw, seconds ≤ args.maxDuration) .inspectionPolicyRejected
    "DURATION_TOO_LONG"
  let durationSeconds := durationRaw.map fun seconds => (truncate seconds).toNat
  let candidates ← parseFormats args durationSeconds payload
  require (candidates ≠ []) .inspectionMediaUnavailable "NO_FORMAT_CANDIDATES"
  return { title := (asStr (get payload "title")).map textOfPoints, durationSeconds, candidates
           toolVersion := args.toolVersion, providerId := args.expectedProviderId
           canonicalProviderUrl := args.expectedCanonicalUrl, mediaId := args.expectedMediaId
           extractorKey := extractor }

def parseYtdlpJson (raw : List UInt8) : Except InspectFailure BoundDraft := do
  require (raw ≠ []) .inspectionInvalidOutput "EMPTY_STDOUT"
  match ← loadOutput py raw with
  | .obj payload => do
    let extractor ← admission py args payload
    readDraft args payload extractor
  | _ => reject .inspectionInvalidOutput "STDOUT_NOT_OBJECT"

end FetchNow.Ytdlp
