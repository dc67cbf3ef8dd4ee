import FetchNow.Downloads.Models
import FetchNow.Theory.Sha256
import Mathlib.Data.Int.Log
import Mathlib.Data.List.Infix
import Mathlib.Data.Prod.Lex
import Mathlib.Data.Rat.Floor
import Mathlib.Data.String.Basic

/-!
# Media formats

The candidates that an extractor reports and the formats that are offered to a client.
-/
namespace FetchNow

open Transactions

/-- The settings that the inspection of a medium and the selection of a format read. -/
structure MediaSettings where
  mediaInspectionMaxFormats : Nat
  mediaInspectionMaxTitleLength : Nat
  mediaInspectionMaxHeight : Nat
  mediaInspectionMaxWidth : Nat
  maxSourceDurationSeconds : Nat
  maxSourceFileBytes : Nat
  mediaMuxingEnabled : Bool
  mediaMuxingMaxVideoCandidates : Nat
  mediaMuxingMaxAudioCandidates : Nat
  mediaMuxingMaxDerivedOptions : Nat
  deriving DecidableEq, Repr

inductive FormatCategory where
  | progressive
  | videoOnly
  | audioOnly
  deriving DecidableEq, Repr

def FormatCategory.value : FormatCategory → String
  | progressive => "progressive"
  | videoOnly => "video_only"
  | audioOnly => "audio_only"

inductive CodecFamily where
  | avc
  | hevc
  | vp8
  | vp9
  | av1
  | aac
  | opus
  | mp3
  | vorbis
  | flac
  | unknown
  | none
  deriving DecidableEq, Repr

def CodecFamily.value : CodecFamily → String
  | avc => "avc"
  | hevc => "hevc"
  | vp8 => "vp8"
  | vp9 => "vp9"
  | av1 => "av1"
  | aac => "aac"
  | opus => "opus"
  | mp3 => "mp3"
  | vorbis => "vorbis"
  | flac => "flac"
  | unknown => "unknown"
  | none => "none"

/-- A frame rate is the value of a finite float. -/
structure InternalFormatCandidate where
  container : String
  width : Option Nat
  height : Option Nat
  fps : Option Rat
  hasVideo : Bool
  hasAudio : Bool
  videoCodec : CodecFamily
  audioCodec : CodecFamily
  approxBytes : Option Nat
  providerFormatToken : Option String
  protocol : Option String
  hasDrm : Bool
  bitrateKbps : Option Nat
  deriving DecidableEq, Repr

structure ExtractedMediaDraft where
  title : Option String
  durationSeconds : Option Nat
  candidates : List InternalFormatCandidate
  toolVersion : Option String
  deriving DecidableEq, Repr

structure MediaFormat where
  formatOptionId : String
  container : String
  width : Option Nat
  height : Option Nat
  fps : Option Rat
  hasVideo : Bool
  hasAudio : Bool
  category : FormatCategory
  videoCodec : CodecFamily
  audioCodec : CodecFamily
  approxBytes : Option Nat
  qualityLabel : String
  freeTierEligible : Bool
  mediaKind : MediaKind
  requiresPremium : Bool
  bitrateKbps : Option Nat
  deriving DecidableEq, Repr

structure MediaMetadata where
  providerId : String
  canonicalProviderUrl : String
  mediaId : String
  title : Option String
  durationSeconds : Option Nat
  formats : List MediaFormat
  extractionTool : String
  extractionToolVersion : Option String
  muxingRequired : Bool
  deriving DecidableEq, Repr

/-! ## Texts -/

/-- `_SAFE_TOKEN`. -/
def isSafeToken (value : String) : Bool :=
  match value.toList with
  | [] => false
  | c :: rest => c.isLower && rest.length ≤ 63 && rest.all fun c => c.isLower || c.isDigit || c = '_'

def requireSafeToken (value fieldName : String) : Except Raised Unit :=
  require (isSafeToken value = true) (.valueError ("unsafe " ++ fieldName))

/-- Characters of `[A-Za-z0-9._:-]`. -/
def isIdChar (c : Char) : Bool := c.isAlphanum || c ∈ ['.', '_', ':', '-']

/-- `_SAFE_MEDIA_ID`. -/
def isSafeMediaId (value : String) : Bool :=
  1 ≤ value.toList.length && value.toList.length ≤ 128 && value.toList.all isIdChar

/-- `require_finite_non_negative`, with the value of a number that is finite. -/
def requireFiniteNonNegative (value : Option Rat) (fieldName : String) (maximum : Option Rat) :
    Except Raised Unit := do
  require (∀ v ∈ value, 0 ≤ v) (.valueError ("invalid " ++ fieldName))
  require (∀ v ∈ value, ∀ m ∈ maximum, v ≤ m)
    (.valueError (fieldName ++ " exceeds policy maximum"))

/-- `_CONTROL_CHARS`. -/
def isControlChar (c : Char) : Bool :=
  let n := c.toNat
  n ≤ 8 || n = 11 || n = 12 || (14 ≤ n && n ≤ 31) || n = 127

/-- Replace every run of blanks and line breaks by one blank. -/
def collapseBlanks : List Char → List Char
  | [] => []
  | c :: cs =>
    let isBlank (c : Char) : Bool := c ∈ [' ', '\n', '\r']
    if isBlank c then
      if cs.head?.any isBlank then collapseBlanks cs else ' ' :: collapseBlanks cs
    else c :: collapseBlanks cs

def sanitizeTitle (raw : Option String) (maxLength : Nat) : Option String :=
  raw.bind fun raw =>
    let kept := (raw.toList.filter (!isControlChar ·)).map fun c => if c = '\t' then ' ' else c
    let cleaned := strip (collapseBlanks (strip kept))
    let cut := if maxLength < cleaned.length then rstrip (cleaned.take maxLength) else cleaned
    if cut = [] then none else some (String.ofList cut)

/-! ## What the constructors check -/

/-- The category that goes with a media kind. -/
def MediaKind.category : MediaKind → FormatCategory
  | normalVideo => .progressive
  | videoOnly => .videoOnly
  | audioOnly => .audioOnly

/-- `MediaFormat.__post_init__`. -/
def MediaFormat.postInit (f : MediaFormat) : Except Raised MediaFormat := do
  requireSafeToken f.formatOptionId "format_option_id"
  requireSafeToken f.container "container"
  requireSafeToken f.qualityLabel "quality_label"
  requireFiniteNonNegative (f.width.map (↑)) "width" none
  requireFiniteNonNegative (f.height.map (↑)) "height" none
  requireFiniteNonNegative f.fps "fps" (some 240)
  requireFiniteNonNegative (f.approxBytes.map (↑)) "approx_bytes" none
  requireFiniteNonNegative (f.bitrateKbps.map (↑)) "bitrate_kbps" (some 100000)
  require (f.mediaKind = .normalVideo → f.hasVideo = true ∧ f.hasAudio = true)
    (.valueError "normal video requires audio and video")
  require (f.mediaKind = .videoOnly → f.hasVideo = true ∧ f.hasAudio = false)
    (.valueError "video-only kind requires only video")
  require (f.mediaKind = .audioOnly → f.hasAudio = true ∧ f.hasVideo = false)
    (.valueError "audio-only kind requires only audio")
  require (f.category = f.mediaKind.category) (.valueError "format category must match media kind")
  require (f.requiresPremium = decide (f.mediaKind ≠ .normalVideo))
    (.valueError "Premium requirement must match media kind")
  require (f.hasVideo = true → f.width ≠ none ∨ f.height ≠ none)
    (.valueError "video format requires dimensions or explicit null policy")
  require (f.hasVideo = true ∨ f.hasAudio = true)
    (.valueError "format must include audio or video")
  .ok f

/-- The value of a check that is followed by others. -/
theorem then_eq_ok {α : Type} {check : Except Raised Unit} {rest : Except Raised α} {a : α}
    (h : (check >>= fun _ => rest) = .ok a) : rest = .ok a := by
  obtain ⟨_, _, h⟩ := bind_eq_ok.mp h
  exact h

theorem MediaFormat.eq_of_postInit {f f' : MediaFormat} (h : f.postInit = .ok f') : f' = f := by
  unfold postInit at h
  iterate 15 replace h := then_eq_ok h
  exact (Except.ok.inj h).symm

def isToolVersionChar (c : Char) : Bool := c.isAlphanum || c ∈ ['.', '_', '+', '-']

/-- `MediaMetadata.__post_init__`. -/
def MediaMetadata.postInit (metadata : MediaMetadata) : Except Raised MediaMetadata := do
  requireSafeToken metadata.providerId "provider_id"
  requireSafeToken metadata.extractionTool "extraction_tool"
  let url := metadata.canonicalProviderUrl.toList
  require ('?' ∉ url ∧ '#' ∉ url ∧ "://".toList <:+: url)
    (.valueError "canonical_provider_url must be scheme URL without query/fragment")
  require (isSafeMediaId metadata.mediaId = true) (.valueError "unsafe media_id")
  require (∀ version ∈ metadata.extractionToolVersion, version.toList ≠ [] ∧
    version.toList.length ≤ 64 ∧ version.toList.all isToolVersionChar = true)
    (.valueError "unsafe extraction_tool_version")
  requireFiniteNonNegative (metadata.durationSeconds.map (↑)) "duration_seconds" none
  .ok metadata

theorem MediaMetadata.eq_of_postInit {metadata metadata' : MediaMetadata}
    (h : metadata.postInit = .ok metadata') : metadata' = metadata := by
  unfold postInit at h
  iterate 6 replace h := then_eq_ok h
  exact (Except.ok.inj h).symm

/-! ## Option ids -/

/-- `round`, to even on a tie. -/
def roundHalfEven (x : Rat) : Int :=
  let n := x.floor
  if x - n < 1 / 2 then n else if 1 / 2 < x - n then n + 1 else if n % 2 = 0 then n else n + 1

/-- The float nearest to a non-negative number. -/
def nearestFloat (x : Rat) : Rat :=
  if x = 0 then 0
  else
    let ulp : Rat := 2 ^ (Int.log 2 x - 52)
    roundHalfEven (x / ulp) * ulp

def fpsMilli (fps : Option Rat) : Int := fps.elim 0 fun fps => roundHalfEven (nearestFloat (fps * 1000))

/-- `str(value if value is not None else "")`. -/
def textOf (value : Option Nat) : String := value.elim "" toString

/-- `_token_digest`. -/
def tokenDigest (token : Option String) : String :=
  String.ofList ((Sha256.hexdigest ("fetchnow-fmt-token-v1\x00" ++ token.getD "")).take 12)

/-- `fmt_` and the start of a digest. -/
def optionIdOf (material : String) : String :=
  String.ofList ('f' :: 'm' :: 't' :: '_' :: (Sha256.hexdigest material).take 28)

theorem isSafeToken_optionIdOf (material : String) : isSafeToken (optionIdOf material) = true := by
  have hdigits : ∀ c ∈ (Sha256.hexdigest material).take 28,
      (c.isLower || c.isDigit || decide (c = '_')) = true := by
    intro c hc
    have hall : Sha256.digits.all (fun c => c.isLower || c.isDigit || decide (c = '_')) = true := by
      decide
    exact List.all_eq_true.mp hall c (Sha256.hexdigest_mem (List.mem_of_mem_take hc))
  have hlength := List.length_take_le 28 (Sha256.hexdigest material)
  rw [optionIdOf, isSafeToken, String.toList_ofList]
  simp only [List.all_cons, List.length_cons, Bool.and_eq_true, decide_eq_true_eq,
    List.all_eq_true]
  exact ⟨⟨by decide, by omega⟩, by decide, by decide, by decide, hdigits⟩

def qualityLabelFor (height : Option Nat) (hasVideo : Bool) : String :=
  if hasVideo then
    match height with
    | none => "unknown"
    | some height =>
      match [2160, 1440, 1080, 720, 480, 360, 240, 144].find? (· ≤ height) with
      | some label => "p" ++ toString label
      | none => "low"
  else "audio"

/-- `_category_for`. -/
def categoryFor (hasVideo hasAudio : Bool) : FormatCategory :=
  if hasVideo && hasAudio then .progressive else if hasVideo then .videoOnly else .audioOnly

/-- `_CONTAINER_RE` of the projection and of the selection. -/
def isContainer (value : String) : Bool :=
  1 ≤ value.toList.length && value.toList.length ≤ 8 &&
    value.toList.all fun c => c.isLower || c.isDigit

def formatOptionIdFor (candidate : InternalFormatCandidate) (qualityLabel : String) : String :=
  optionIdOf ("fetchnow-fmt-option-v1\x00" ++ "|".intercalate
    [qualityLabel, candidate.container, candidate.videoCodec.value, candidate.audioCodec.value,
      (categoryFor candidate.hasVideo candidate.hasAudio).value, textOf candidate.width,
      textOf candidate.height, toString (fpsMilli candidate.fps), textOf candidate.approxBytes,
      tokenDigest candidate.providerFormatToken])

/-- The checks with which both the projection and the selection begin. -/
def boundedCandidate (settings : MediaSettings) (candidate : InternalFormatCandidate) : Bool :=
  (candidate.hasVideo || candidate.hasAudio) && isContainer candidate.container &&
    candidate.height.all (· ≤ settings.mediaInspectionMaxHeight) &&
    candidate.width.all (· ≤ settings.mediaInspectionMaxWidth) &&
    candidate.approxBytes.all (· ≤ settings.maxSourceFileBytes)

/-- The maxima that `parse_ytdlp_json` enforces. -/
structure InternalFormatCandidate.WithinLimits (settings : MediaSettings)
    (candidate : InternalFormatCandidate) : Prop where
  height : ∀ h ∈ candidate.height, h ≤ settings.mediaInspectionMaxHeight
  width : ∀ w ∈ candidate.width, w ≤ settings.mediaInspectionMaxWidth
  approxBytes : ∀ n ∈ candidate.approxBytes, n ≤ settings.maxSourceFileBytes

end FetchNow
