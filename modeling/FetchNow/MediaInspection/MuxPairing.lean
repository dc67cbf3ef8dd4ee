import FetchNow.MediaInspection.Models
import FetchNow.Theory.Merging
import Mathlib.Data.List.Sort

/-! Pairing of video-only with audio-only streams. -/
namespace FetchNow

open Transactions Merging

structure DerivedMuxOption where
  publicFormat : MediaFormat
  video : InternalFormatCandidate
  audio : InternalFormatCandidate
  outputContainer : String
  deriving DecidableEq, Repr

def muxOptionIdFor (video audio : InternalFormatCandidate) (outputContainer qualityLabel : String) :
    String :=
  optionIdOf ("fetchnow-fmt-mux-option-v1\x00" ++ "|".intercalate
    ["muxed", qualityLabel, outputContainer, video.videoCodec.value, audio.audioCodec.value,
      textOf video.width, textOf video.height, toString (fpsMilli video.fps),
      textOf video.approxBytes, textOf audio.approxBytes, tokenDigest video.providerFormatToken,
      tokenDigest audio.providerFormatToken])

def mp4Video : List CodecFamily := [.avc]

def mp4Audio : List CodecFamily := [.aac]

def webmVideo : List CodecFamily := [.vp8, .vp9, .av1]

def webmAudio : List CodecFamily := [.opus, .vorbis]

def outputPolicyFor (video audio : InternalFormatCandidate) : Option String :=
  if video.container = "mp4" ∧ audio.container ∈ ["m4a", "mp4"] ∧ video.videoCodec ∈ mp4Video ∧
      audio.audioCodec ∈ mp4Audio then some "mp4"
  else if video.container = "webm" ∧ audio.container ∈ ["webm", "ogg", "opus"] ∧
      video.videoCodec ∈ webmVideo ∧ audio.audioCodec ∈ webmAudio then some "webm"
  else none

/-- The check of the transport and of the token that video and audio share. -/
def usableSource (candidate : InternalFormatCandidate) : Bool :=
  !candidate.hasDrm && candidate.protocol.all (· ∈ ["http", "https"]) &&
    candidate.providerFormatToken.any (· ≠ "")

def usableVideo (candidate : InternalFormatCandidate) : Bool :=
  candidate.hasVideo && !candidate.hasAudio && usableSource candidate &&
    candidate.videoCodec ∉ [.none, .unknown] && candidate.height.isSome &&
    if candidate.container = "mp4" then candidate.videoCodec ∈ mp4Video
    else if candidate.container = "webm" then candidate.videoCodec ∈ webmVideo
    else false

def usableAudio (candidate : InternalFormatCandidate) : Bool :=
  candidate.hasAudio && !candidate.hasVideo && usableSource candidate &&
    candidate.audioCodec ∉ [.none, .unknown] &&
    if candidate.container ∈ ["m4a", "mp4"] then candidate.audioCodec ∈ mp4Audio
    else if candidate.container ∈ ["webm", "ogg", "opus"] then candidate.audioCodec ∈ webmAudio
    else false

def videoSortKey (candidate : InternalFormatCandidate) : Int ×ₗ Int ×ₗ String :=
  toLex (-(candidate.height.getD 0 : Int), toLex (-(candidate.width.getD 0 : Int),
    tokenDigest candidate.providerFormatToken))

def audioSortKey (candidate : InternalFormatCandidate) : Nat ×ₗ String ×ₗ String :=
  toLex (candidate.approxBytes.getD (10 ^ 18), toLex (tokenDigest candidate.providerFormatToken,
    candidate.container))

def maxInt64 : Nat := 2 ^ 63 - 1

/-- `sum_approx_bytes`. -/
def sumApproxBytes (left right : Option Nat) : Option Nat := do
  let left ← left
  let right ← right
  if left < 1 ∨ right < 1 ∨ maxInt64 < left + right then none else some (left + right)

/-- `_binding_equivalent` of derived options. -/
def muxBindingEquivalent (left right : DerivedMuxOption) : Bool :=
  left.outputContainer = right.outputContainer &&
    left.video.providerFormatToken = right.video.providerFormatToken &&
    left.audio.providerFormatToken = right.audio.providerFormatToken &&
    left.publicFormat = right.publicFormat

/-- The option for a video, with the first audio that goes with it. -/
def muxOption (settings : MediaSettings) (audios : List InternalFormatCandidate)
    (video : InternalFormatCandidate) : Except Raised (Option DerivedMuxOption) :=
  match audios.findSome? fun audio => (outputPolicyFor video audio).map (audio, ·) with
  | none => .ok none
  | some (audio, output) =>
    let label := qualityLabelFor video.height true
    let approx := sumApproxBytes video.approxBytes audio.approxBytes
    if approx.any (settings.maxSourceFileBytes < ·) then .ok none
    else do
      let publicFormat ← MediaFormat.postInit
        { formatOptionId := muxOptionIdFor video audio output label
          container := output, width := video.width, height := video.height, fps := video.fps
          hasVideo := true, hasAudio := true, category := .progressive
          videoCodec := video.videoCodec, audioCodec := audio.audioCodec, approxBytes := approx
          qualityLabel := label, freeTierEligible := true, mediaKind := .normalVideo
          requiresPremium := false, bitrateKbps := none }
      .ok (some ⟨publicFormat, video, audio, output⟩)

def DerivedMuxOption.sortKey (option : DerivedMuxOption) : Int ×ₗ String :=
  toLex (-(option.video.height.getD 0 : Int), option.publicFormat.formatOptionId)

def deriveMuxOptions (candidates : List InternalFormatCandidate) (settings : MediaSettings) :
    Except Raised (List DerivedMuxOption) :=
  if settings.mediaMuxingEnabled then
    let videos := ((candidates.filter usableVideo).insertionSort fun a b =>
      videoSortKey a ≤ videoSortKey b).take settings.mediaMuxingMaxVideoCandidates
    let audios := ((candidates.filter usableAudio).insertionSort fun a b =>
      audioSortKey a ≤ audioSortKey b).take settings.mediaMuxingMaxAudioCandidates
    if videos = [] ∨ audios = [] then .ok []
    else do
      let prepared ← videos.mapM (muxOption settings audios)
      let unique ← collect (·.publicFormat.formatOptionId) muxBindingEquivalent
        (.inspectionError .inspectionPolicyRejected "MUX_OPTION_AMBIGUOUS") []
        ((prepared.filterMap id).insertionSort fun a b =>
          a.publicFormat.formatOptionId ≤ b.publicFormat.formatOptionId)
      .ok ((unique.insertionSort fun a b => a.sortKey ≤ b.sortKey).take
        settings.mediaMuxingMaxDerivedOptions)
  else .ok []

section

variable {settings : MediaSettings} {candidates candidates' : List InternalFormatCandidate}
  {derived : List DerivedMuxOption} {option : DerivedMuxOption}

/-- Only usable streams matter. -/
theorem deriveMuxOptions_congr (hvideo : candidates.filter usableVideo = candidates'.filter usableVideo)
    (haudio : candidates.filter usableAudio = candidates'.filter usableAudio) :
    deriveMuxOptions candidates settings = deriveMuxOptions candidates' settings := by
  rw [deriveMuxOptions, deriveMuxOptions, hvideo, haudio]

/-- A finished option: an ordinary video with sound. -/
structure DerivedMuxOption.Finished (option : DerivedMuxOption) : Prop where
  category : option.publicFormat.category = .progressive
  mediaKind : option.publicFormat.mediaKind = .normalVideo
  tracks : option.publicFormat.hasVideo = true ∧ option.publicFormat.hasAudio = true
  free : option.publicFormat.freeTierEligible = true
  container : option.publicFormat.container = option.outputContainer

theorem muxOption_finished {audios : List InternalFormatCandidate} {video : InternalFormatCandidate}
    (h : muxOption settings audios video = .ok (some option)) : option.Finished := by
  unfold muxOption at h
  split at h
  · cases h
  simp only at h
  split at h
  · cases h
  obtain ⟨publicFormat, hformat, h⟩ := bind_eq_ok.mp h
  cases h
  obtain rfl := MediaFormat.eq_of_postInit hformat
  exact ⟨rfl, rfl, ⟨rfl, rfl⟩, rfl, rfl⟩

/-- Derived options are finished, have different ids, and there are none without muxing. -/
theorem deriveMuxOptions_eq_ok (h : deriveMuxOptions candidates settings = .ok derived) :
    (derived.map (·.publicFormat.formatOptionId)).Nodup ∧
      ∀ option ∈ derived, option.Finished ∧ settings.mediaMuxingEnabled = true := by
  unfold deriveMuxOptions at h
  split at h
  case isFalse =>
    cases h
    exact ⟨List.nodup_nil, fun _ hmem => absurd hmem List.not_mem_nil⟩
  case isTrue henabled =>
    simp only at h
    split at h
    · cases h
      exact ⟨List.nodup_nil, fun _ hmem => absurd hmem List.not_mem_nil⟩
    obtain ⟨prepared, hprepared, h⟩ := bind_eq_ok.mp h
    obtain ⟨unique, hunique, h⟩ := bind_eq_ok.mp h
    cases h
    have hnodup := nodup_collect hunique List.nodup_nil
    refine ⟨?_, fun option hmem => ⟨?_, henabled⟩⟩
    · have hsorted : ((unique.insertionSort fun a b => a.sortKey ≤ b.sortKey).map
          (·.publicFormat.formatOptionId)).Nodup :=
        ((List.perm_insertionSort _ unique).map _).nodup_iff.mpr hnodup
      exact hsorted.sublist ((List.take_sublist _ _).map _)
    · have hmem := (List.mem_insertionSort _).mp (List.mem_of_mem_take hmem)
      rcases mem_of_mem_collect hunique hmem with hmem | hmem
      · cases hmem
      · obtain ⟨found, hfound, rfl⟩ := List.mem_filterMap.mp ((List.mem_insertionSort _).mp hmem)
        obtain ⟨video, _, hvideo⟩ := (mem_mapM hprepared).mp hfound
        exact muxOption_finished hvideo

end

end FetchNow
