import FetchNow.MediaInspection.Numbers

/-!
# The probe of a muxed file

`parse_ffprobe_json`: what a prober reports on a file that was muxed, against what was expected of
it.
-/
namespace FetchNow.Ffprobe

open Text Text.Json

/-- A `DownloadError` has the code `MUXED_OUTPUT_INVALID` and a reason. -/
inductive ProbeFailure where
  | downloadError (reason : String)
  | recursionError
  | overflowError
  deriving DecidableEq

def require (c : Prop) [Decidable c] (reason : String) : Except ProbeFailure Unit :=
  if c then .ok () else .error (.downloadError reason)

structure MuxProbeResult where
  durationSeconds : PyFloat
  videoStreams : ℕ
  audioStreams : ℕ
  otherStreams : ℕ
  formatName : Str
  sizeBytes : ℤ
  deriving DecidableEq

structure ProbeArgs where
  expectedContainer : String
  expectedSizeBytes : ℤ
  expectedDurationSeconds : Option PyNumber
  durationToleranceSeconds : PyNumber
  maxBytes : ℤ
  maxJsonBytes : ℤ

/-! ## The structure -/

def walkLimits : Limits where
  rootDepth := 0
  maxDepth := 8
  maxNodes := 512
  maxMappingKeys := 64
  maxListLen := 32
  maxStringLen := 256
  maxKeyLen := none
  recursionLimit := none

def excessReason : Excess → String
  | .nodes => "JSON_NODE_LIMIT"
  | .depth => "JSON_DEPTH_LIMIT"
  | .string => "JSON_STRING_LIMIT"
  | .mapping => "JSON_KEY_LIMIT"
  | .list => "JSON_LIST_LIMIT"
  | .nonfinite => "JSON_NONFINITE"
  | .key | .recursion => "JSON_TYPE"

/-- `_walk_limits` -/
def checkLimits (root : Json) : Except ProbeFailure Unit :=
  match walk walkLimits root walkLimits.rootDepth 0 with
  | .ok _ => .ok ()
  | .error excess => .error (.downloadError (excessReason excess))

def containerHints (container : String) : List String :=
  if container = "mp4" then ["mp4", "mov,mp4,m4a,3gp,3g2,mj2", "isom", "iso5"]
  else if container = "webm" then ["webm", "matroska,webm"]
  else []

def videoCodecs (container : String) : List String :=
  if container = "mp4" then ["h264", "avc", "avc1"]
  else if container = "webm" then ["vp8", "vp9", "vp09", "av1", "av01"]
  else []

def audioCodecs (container : String) : List String :=
  if container = "mp4" then ["aac", "mp4a"]
  else if container = "webm" then ["opus", "vorbis"]
  else []

/-- `text in names` -/
def isNamed (text : Str) (names : List String) : Bool := names.any fun name => codePoints name = text

variable (py : Interpreter)

/-- `bool(value)` -/
def truthy : Json → Bool
  | .null => false
  | .bool value => value
  | .int value => value ≠ 0
  | .float value => value ≠ .finite 0
  | .str value => value ≠ []
  | .arr items => !items.isEmpty
  | .obj fields => !fields.isEmpty

/-- `str(value or "").lower()` -/
def fieldText (value : Json) : Str :=
  if truthy value then
    match value with
    | .str text => lower text
    | value => lower (py.repr value)
  else []

structure Counts where
  video : ℕ
  audio : ℕ
  other : ℕ
  deriving DecidableEq

/-- One turn of the loop over the streams. -/
def countStream (container : String) (counts : Counts) : Json → Except ProbeFailure Counts
  | .obj stream => do
    let codecType := fieldText py (get stream "codec_type")
    let codecName := fieldText py (get stream "codec_name")
    if codecType = codePoints "video" then
      require (isNamed codecName (videoCodecs container)) "PROBE_VIDEO_CODEC"
      .ok { counts with video := counts.video + 1 }
    else if codecType = codePoints "audio" then
      require (isNamed codecName (audioCodecs container)) "PROBE_AUDIO_CODEC"
      .ok { counts with audio := counts.audio + 1 }
    else .ok { counts with other := counts.other + 1 }
  | _ => .error (.downloadError "PROBE_STREAM_TYPE")

/-- The names of a format, which stand between commas. -/
def formatNames (formatName : Str) : List Str :=
  ((formatName.splitOn (codePoint ',')).map stripped).filter (· ≠ [])

def asObject : Json → Option Fields
  | .obj fields => some fields
  | _ => none

def asList : Json → Option (List Json)
  | .arr items => some items
  | _ => none

def orElse {α : Type} (value : Option α) (reason : String) : Except ProbeFailure α :=
  match value with
  | some value => .ok value
  | none => .error (.downloadError reason)

/-- `json.loads` of the bytes, within `try`. -/
def loadProbe (raw : List UInt8) : Except ProbeFailure Json :=
  match py.loads raw with
  | .ok payload => .ok payload
  | .error .recursionError => .error .recursionError
  | .error _ => .error (.downloadError "PROBE_JSON")

/-- The part of the bytes: they are there, and not too many. -/
def IsSized (raw : List UInt8) (args : ProbeArgs) : Prop :=
  raw ≠ [] ∧ 1 ≤ min 262144 args.maxJsonBytes ∧ (raw.length : ℤ) ≤ min 262144 args.maxJsonBytes

/-- From the bytes to the format: its fields, its name and the streams. -/
def readProbe (raw : List UInt8) (args : ProbeArgs) : Except ProbeFailure (Fields × Str × Counts) := do
  require (raw ≠ []) "PROBE_EMPTY"
  let jsonLimit := min 262144 args.maxJsonBytes
  require (1 ≤ jsonLimit ∧ (raw.length : ℤ) ≤ jsonLimit) "PROBE_TOO_LARGE"
  let payload ← loadProbe py raw
  checkLimits payload
  let payload ← orElse (asObject payload) "PROBE_ROOT"
  let streams ← orElse (asList (get payload "streams")) "PROBE_SHAPE"
  let fmt ← orElse (asObject (get payload "format")) "PROBE_SHAPE"
  require (streams.length ≤ 8) "PROBE_STREAM_LIMIT"
  require (videoCodecs args.expectedContainer ≠ [] ∧ audioCodecs args.expectedContainer ≠ [])
    "PROBE_CONTAINER"
  let counts ← streams.foldlM (countStream py args.expectedContainer) ⟨0, 0, 0⟩
  require (counts = ⟨1, 1, 0⟩) "PROBE_STREAMS"
  let formatName := fieldText py (get fmt "format_name")
  let allowed := containerHints args.expectedContainer
  require (allowed ≠ [] ∧ (formatNames formatName).any (isNamed · allowed)) "PROBE_CONTAINER"
  return (fmt, formatName, counts)

/-! ## The numbers -/

/-- `float(duration_raw)`, within `try`. -/
def readDuration : Json → Except ProbeFailure PyFloat
  | .bool value => .ok (.finite (if value then 1 else 0))
  | .int value =>
    match intToFloat value with
    | some value => .ok (.finite value)
    | none => .error .overflowError
  | .float value => .ok value
  | .str text => .ok ((py.float text).getD .nan)
  | .null | .arr _ | .obj _ => .ok .nan

def toFloat (x : PyNumber) : Except ProbeFailure PyFloat :=
  match x.toFloat with
  | some value => .ok value
  | none => .error .overflowError

def checkDuration (duration : PyFloat) (args : ProbeArgs) : Except ProbeFailure Unit :=
  match duration with
  | .finite value => do
    require (0 ≤ value) "PROBE_DURATION"
    match args.expectedDurationSeconds with
    | none => .ok ()
    | some expected => do
      let expected ← toFloat expected
      let tolerance ← toFloat args.durationToleranceSeconds
      require ((PyFloat.distance value expected).gt tolerance = false) "PROBE_DURATION_MISMATCH"
  | _ => .error (.downloadError "PROBE_DURATION")

/-- `int(size_raw)`; nothing stands for a `TypeError` or a `ValueError`. -/
def readSize : Json → Option ℤ
  | .bool value => some (if value then 1 else 0)
  | .int value => some value
  | .float (.finite value) => some (truncate value)
  | .str text => int py.tables 10 text
  | _ => none

/-- The size that counts as reported, which is the expected one where there is none. -/
def reportedSize (size : Json) (args : ProbeArgs) : Except ProbeFailure ℤ :=
  match size with
  | .null => .ok args.expectedSizeBytes
  | size => do
    let reported ← orElse (readSize py size) "PROBE_SIZE"
    require (reported = args.expectedSizeBytes) "PROBE_SIZE_MISMATCH"
    .ok reported

def checkSize (size : Json) (args : ProbeArgs) : Except ProbeFailure ℤ := do
  require (¬(args.expectedSizeBytes ≤ 0 ∨ args.maxBytes < args.expectedSizeBytes)) "PROBE_SIZE"
  let reported ← reportedSize py size args
  require (¬(reported ≤ 0 ∨ args.maxBytes < reported)) "PROBE_SIZE"
  .ok reported

def parseFfprobeJson (raw : List UInt8) (args : ProbeArgs) :
    Except ProbeFailure MuxProbeResult := do
  let (fmt, formatName, counts) ← readProbe py raw args
  let durationSeconds ← readDuration py (get fmt "duration")
  checkDuration durationSeconds args
  let sizeBytes ← checkSize py (get fmt "size") args
  return { durationSeconds, videoStreams := counts.video, audioStreams := counts.audio
           otherStreams := counts.other, formatName, sizeBytes }

/-! ## The intended files -/

/-- A stream of a codec type with one of the codecs. -/
def IsStream (codecType : String) (codecs : List String) (stream : Json) : Prop :=
  ∃ fields, stream = .obj fields ∧ fieldText py (get fields "codec_type") = codePoints codecType ∧
    isNamed (fieldText py (get fields "codec_name")) codecs = true

/-- One video and one audio stream with codecs of the container, and no other stream. -/
def TwoStreams (container : String) (streams : List Json) : Prop :=
  ∃ video audio, IsStream py "video" (videoCodecs container) video ∧
    IsStream py "audio" (audioCodecs container) audio ∧
      (streams = [video, audio] ∨ streams = [audio, video])

/-- The document reports the structure that is expected, with this format. -/
structure Reports (raw : List UInt8) (args : ProbeArgs) (fmt : Fields) : Prop where
  sized : IsSized raw args
  document : ∃ payload streams, py.loads raw = .ok (.obj payload) ∧
    WithinLimits walkLimits (.obj payload) ∧ get payload "streams" = .arr streams ∧
      get payload "format" = .obj fmt ∧ TwoStreams py args.expectedContainer streams
  container : ∃ name ∈ formatNames (fieldText py (get fmt "format_name")),
    isNamed name (containerHints args.expectedContainer) = true

/-- The float that a duration is read as; a text is read by `float`. -/
def durationValue : Json → Option ℚ
  | .bool value => some (if value then 1 else 0)
  | .int value => intToFloat value
  | .float (.finite value) => some value
  | .str text =>
    match py.float text with
    | some (.finite value) => some value
    | _ => none
  | _ => none

/-- Not further from the expected duration than the tolerance, as floats are subtracted. -/
def Near (args : ProbeArgs) (duration : ℚ) : Prop :=
  ∀ expected ∈ args.expectedDurationSeconds, ∃ e tolerance, expected.toFloat = some e ∧
    args.durationToleranceSeconds.toFloat = some tolerance ∧
      (PyFloat.distance duration e).le tolerance = true

/-- The number that a size is; a text is read by `int`. -/
def sizeValue : Json → Option ℚ
  | .bool value => some (if value then 1 else 0)
  | .int value => some value
  | .float (.finite value) => some value
  | .str text => (int py.tables 10 text).map fun n => (n : ℚ)
  | _ => none

/-- A size that is reported is the expected one, which is between one and the maximum. -/
def SizeIs (args : ProbeArgs) (size : Json) : Prop :=
  1 ≤ args.expectedSizeBytes ∧ args.expectedSizeBytes ≤ args.maxBytes ∧
    (size = .null ∨ sizeValue py size = some (args.expectedSizeBytes : ℚ))

/-- The files that are to be accepted. -/
def IsIntended (raw : List UInt8) (args : ProbeArgs) : Prop :=
  ∃ fmt, Reports py raw args fmt ∧
    (∃ duration, durationValue py (get fmt "duration") = some duration ∧ 0 ≤ duration ∧
      Near args duration) ∧ SizeIs py args (get fmt "size")

/-- No other exception is raised, and exactly the intended files are accepted. -/
def Catalogued (raw : List UInt8) (args : ProbeArgs) : Prop :=
  (∀ e, parseFfprobeJson py raw args = .error e → ∃ reason, e = .downloadError reason) ∧
    ((∃ result, parseFfprobeJson py raw args = .ok result) ↔ IsIntended py raw args)

end FetchNow.Ffprobe
