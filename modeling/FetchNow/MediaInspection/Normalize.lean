import FetchNow.MediaInspection.MuxPairing

/-! From the candidates of a draft to the formats that are offered. -/
namespace FetchNow

open Transactions Merging

/-- `_media_kind_for`. -/
def mediaKindFor (hasVideo hasAudio : Bool) : MediaKind :=
  if hasVideo && hasAudio then .normalVideo else if hasVideo then .videoOnly else .audioOnly

def standaloneCandidateSupported (candidate : InternalFormatCandidate) : Bool :=
  if candidate.hasDrm || !candidate.providerFormatToken.any (· ≠ "") then false
  else if candidate.hasVideo && !candidate.hasAudio then
    candidate.container ∈ ["mp4", "webm", "mkv"] && candidate.videoCodec ∉ [.none, .unknown]
  else if candidate.hasAudio && !candidate.hasVideo then
    candidate.container ∈ ["m4a", "mp4", "webm", "mkv", "ogg", "opus", "aac", "mp3"] &&
      candidate.audioCodec ∉ [.none, .unknown]
  else true

/-- A standalone stream that is not offered. -/
def standaloneUnsupported (candidate : InternalFormatCandidate) : Bool :=
  mediaKindFor candidate.hasVideo candidate.hasAudio ≠ .normalVideo &&
    !standaloneCandidateSupported candidate

/-- The format that offers a candidate. -/
def formatOf (candidate : InternalFormatCandidate) : MediaFormat :=
  let label := qualityLabelFor candidate.height candidate.hasVideo
  let category := categoryFor candidate.hasVideo candidate.hasAudio
  let mediaKind := mediaKindFor candidate.hasVideo candidate.hasAudio
  { formatOptionId := formatOptionIdFor candidate label
    container := candidate.container, width := candidate.width, height := candidate.height
    fps := candidate.fps, hasVideo := candidate.hasVideo, hasAudio := candidate.hasAudio
    category, videoCodec := candidate.videoCodec, audioCodec := candidate.audioCodec
    approxBytes := candidate.approxBytes, qualityLabel := label
    freeTierEligible := category = .progressive ∧ candidate.height ≠ none
    mediaKind, requiresPremium := mediaKind ≠ .normalVideo, bitrateKbps := candidate.bitrateKbps }

/-- One round of the loop over the candidates. -/
def prepareCandidate (settings : MediaSettings) (candidate : InternalFormatCandidate) :
    Except Raised (Option MediaFormat) :=
  if !boundedCandidate settings candidate || standaloneUnsupported candidate then .ok none
  else do
    let format ← (formatOf candidate).postInit
    .ok (some format)

def candidateSortKey (format : MediaFormat) : Int ×ₗ Int ×ₗ Int ×ₗ Int ×ₗ Int ×ₗ String :=
  toLex (if format.hasVideo && format.hasAudio then 0 else 1,
    toLex (-(format.height.getD 0 : Int), toLex (-(format.approxBytes.getD 0 : Int),
      toLex (-(format.width.getD 0 : Int), toLex (-fpsMilli format.fps, format.formatOptionId)))))

/-- The formats by id, and those that are listed so far. -/
structure Projection where
  byOption : List MediaFormat
  projected : List MediaFormat

def optionAmbiguous : Raised := .inspectionError .inspectionPolicyRejected "OPTION_AMBIGUOUS"

/-- One round of the loop over the derived options. -/
def addMuxOption (directFreeHeights : List Nat) (projection : Projection)
    (item : DerivedMuxOption) : Except Raised Projection :=
  if item.publicFormat.height.any (· ∈ directFreeHeights) then .ok projection
  else
    match projection.byOption.find? fun format =>
      decide (format.formatOptionId = item.publicFormat.formatOptionId) with
    | none => .ok ⟨projection.byOption ++ [item.publicFormat],
        projection.projected ++ [item.publicFormat]⟩
    | some existing =>
      if existing ≠ item.publicFormat then .error optionAmbiguous else .ok projection

def isFreeProgressive (format : MediaFormat) : Bool :=
  format.category = .progressive && format.freeTierEligible && format.hasVideo && format.hasAudio

def publicSortKey (format : MediaFormat) : Int ×ₗ Int ×ₗ Int ×ₗ String :=
  toLex (if format.mediaKind = .normalVideo then 0 else 1,
    toLex (-(format.height.getD 0 : Int), toLex (-(format.bitrateKbps.getD 0 : Int),
      format.formatOptionId)))

/-- The formats that `project_metadata` lists, with all of them by id. -/
def projectFormats (draft : ExtractedMediaDraft) (settings : MediaSettings) :
    Except Raised Projection := do
  let prepared ← draft.candidates.mapM (prepareCandidate settings)
  require (prepared.filterMap id ≠ [])
    (.inspectionError .inspectionPolicyRejected "NO_USABLE_FORMATS")
  let byOption ← collect (·.formatOptionId) (fun existing format => decide (existing = format))
    optionAmbiguous []
    ((prepared.filterMap id).insertionSort fun a b => candidateSortKey a ≤ candidateSortKey b)
  let projected := byOption.take settings.mediaInspectionMaxFormats
  if settings.mediaMuxingEnabled then
    let directFreeHeights := (projected.filter isFreeProgressive).filterMap (·.height)
    let derived ← deriveMuxOptions draft.candidates settings
    let projection ← derived.foldlM (addMuxOption directFreeHeights) ⟨byOption, projected⟩
    .ok ⟨projection.byOption, (projection.projected.insertionSort fun a b =>
      publicSortKey a ≤ publicSortKey b).take settings.mediaInspectionMaxFormats⟩
  else .ok ⟨byOption, projected⟩

def projectMetadata (draft : ExtractedMediaDraft) (settings : MediaSettings)
    (trustedCanonicalUrl trustedMediaId trustedProviderId : String) :
    Except Raised MediaMetadata := do
  requireFiniteNonNegative (draft.durationSeconds.map (↑)) "duration_seconds"
    (some settings.maxSourceDurationSeconds)
  let projection ← projectFormats draft settings
  MediaMetadata.postInit
    { providerId := trustedProviderId, canonicalProviderUrl := trustedCanonicalUrl
      mediaId := trustedMediaId
      title := sanitizeTitle draft.title settings.mediaInspectionMaxTitleLength
      durationSeconds := draft.durationSeconds, formats := projection.projected
      extractionTool := "ytdlp", extractionToolVersion := draft.toolVersion
      muxingRequired := !projection.projected.any isFreeProgressive }

variable {draft : ExtractedMediaDraft} {settings : MediaSettings} {projection : Projection}
  {candidate other : InternalFormatCandidate} {format : MediaFormat}

/-- Whether a candidate is offered on its own. -/
def Offered (settings : MediaSettings) (candidate : InternalFormatCandidate) : Prop :=
  boundedCandidate settings candidate = true ∧ standaloneUnsupported candidate = false

theorem prepareCandidate_eq_ok {prepared : Option MediaFormat}
    (h : prepareCandidate settings candidate = .ok prepared) :
    (Offered settings candidate ∧ prepared = some (formatOf candidate)) ∨
      ¬ Offered settings candidate ∧ prepared = none := by
  unfold prepareCandidate at h
  split at h
  · rename_i hskipped
    cases h
    refine .inr ⟨fun ⟨hbounded, hsupported⟩ => ?_, rfl⟩
    simp [hbounded, hsupported] at hskipped
  · rename_i hoffered
    obtain ⟨format, hformat, h⟩ := bind_eq_ok.mp h
    cases h
    rw [MediaFormat.eq_of_postInit hformat]
    exact .inl ⟨by simpa [Offered] using hoffered, rfl⟩

/-- What the formats by id are: one for each id, all offered candidates, and derived options. -/
structure Projection.Sound (draft : ExtractedMediaDraft) (settings : MediaSettings)
    (projection : Projection) : Prop where
  nodup : (projection.byOption.map (·.formatOptionId)).Nodup
  listed : ∀ format ∈ projection.projected, format ∈ projection.byOption
  offered : ∀ candidate ∈ draft.candidates, Offered settings candidate →
    formatOf candidate ∈ projection.byOption
  origin : ∀ format ∈ projection.byOption,
    (∃ candidate ∈ draft.candidates, Offered settings candidate ∧ formatOf candidate = format) ∨
      ∃ derived, deriveMuxOptions draft.candidates settings = .ok derived ∧
        ∃ option ∈ derived, option.publicFormat = format

theorem addMuxOption_sound {derived : List DerivedMuxOption} {heights : List Nat}
    {item : DerivedMuxOption} {next : Projection} (hs : projection.Sound draft settings)
    (hderived : deriveMuxOptions draft.candidates settings = .ok derived) (hitem : item ∈ derived)
    (h : addMuxOption heights projection item = .ok next) : next.Sound draft settings := by
  unfold addMuxOption at h
  split at h
  · cases h
    exact hs
  split at h
  · rename_i hnone
    cases h
    refine ⟨?_, fun format hmem => ?_, fun candidate hmem hoffered => ?_, fun format hmem => ?_⟩
    · rw [List.map_append, List.nodup_append]
      refine ⟨hs.nodup, List.nodup_singleton _, fun id hid id' hid' heq => ?_⟩
      obtain ⟨format, hformat, rfl⟩ := List.mem_map.mp hid
      rw [List.mem_singleton.mp hid'] at heq
      exact List.find?_eq_none.mp hnone format hformat (decide_eq_true heq)
    · rcases List.mem_append.mp hmem with hmem | hmem
      · exact List.mem_append_left _ (hs.listed format hmem)
      · exact List.mem_append_right _ hmem
    · exact List.mem_append_left _ (hs.offered candidate hmem hoffered)
    · rcases List.mem_append.mp hmem with hmem | hmem
      · exact hs.origin format hmem
      · exact .inr ⟨derived, hderived, item, hitem, (List.mem_singleton.mp hmem).symm⟩
  · split at h
    · cases h
    · cases h
      exact hs

theorem foldlM_addMuxOption_sound {derived items : List DerivedMuxOption} {heights : List Nat}
    {next : Projection} (hs : projection.Sound draft settings)
    (hderived : deriveMuxOptions draft.candidates settings = .ok derived)
    (hitems : ∀ item ∈ items, item ∈ derived)
    (h : items.foldlM (addMuxOption heights) projection = .ok next) :
    next.Sound draft settings := by
  induction items generalizing projection with
  | nil =>
    cases h
    exact hs
  | cons item items ih =>
    obtain ⟨hitem, hitems⟩ := List.forall_mem_cons.mp hitems
    rw [List.foldlM_cons] at h
    obtain ⟨added, hadded, h⟩ := bind_eq_ok.mp h
    exact ih (addMuxOption_sound hs hderived hitem hadded) hitems h

theorem projectFormats_sound (h : projectFormats draft settings = .ok projection) :
    projection.Sound draft settings := by
  obtain ⟨prepared, hprepared, h⟩ := bind_eq_ok.mp h
  obtain ⟨_, _, h⟩ := bind_eq_ok.mp h
  obtain ⟨byOption, hcollect, h⟩ := bind_eq_ok.mp h
  have hdirect : Projection.Sound draft settings
      ⟨byOption, byOption.take settings.mediaInspectionMaxFormats⟩ := by
    refine ⟨nodup_collect hcollect List.nodup_nil, fun _ => List.mem_of_mem_take,
      fun candidate hmem hoffered => ?_, fun format hmem => .inl ?_⟩
    · obtain ⟨found, hfound, hformat⟩ := exists_of_mem_mapM hprepared hmem
      obtain ⟨_, rfl⟩ := (prepareCandidate_eq_ok hformat).resolve_right fun h => h.1 hoffered
      have hsorted : formatOf candidate ∈ (prepared.filterMap id).insertionSort
          fun a b => candidateSortKey a ≤ candidateSortKey b :=
        (List.mem_insertionSort _).mpr (List.mem_filterMap.mpr ⟨_, hfound, rfl⟩)
      obtain ⟨existing, hexisting, _, hsame⟩ := exists_collected hcollect hsorted
      rw [← hsame.elim id of_decide_eq_true]
      exact hexisting
    · rcases mem_of_mem_collect hcollect hmem with hmem | hmem
      · cases hmem
      obtain ⟨found, hfound, rfl⟩ := List.mem_filterMap.mp ((List.mem_insertionSort _).mp hmem)
      obtain ⟨candidate, hcandidate, hformat⟩ := (mem_mapM hprepared).mp hfound
      rcases prepareCandidate_eq_ok hformat with ⟨hoffered, heq⟩ | ⟨_, heq⟩
      · cases heq
        exact ⟨candidate, hcandidate, hoffered, rfl⟩
      · cases heq
  split at h
  · obtain ⟨derived, hderived, h⟩ := bind_eq_ok.mp h
    obtain ⟨final, hfold, h⟩ := bind_eq_ok.mp h
    cases h
    have hs := foldlM_addMuxOption_sound hdirect hderived (fun _ => id) hfold
    refine ⟨hs.nodup, fun format hmem => hs.listed format ?_, hs.offered, hs.origin⟩
    exact (List.mem_insertionSort _).mp (List.mem_of_mem_take hmem)
  · cases h
    exact hdirect

theorem projectMetadata_sound {metadata : MediaMetadata} {url mediaId providerId : String}
    (h : projectMetadata draft settings url mediaId providerId = .ok metadata) :
    ∃ projection : Projection, projection.Sound draft settings ∧
      metadata.formats = projection.projected := by
  obtain ⟨_, _, h⟩ := bind_eq_ok.mp h
  obtain ⟨projection, hprojection, h⟩ := bind_eq_ok.mp h
  rw [MediaMetadata.eq_of_postInit h]
  exact ⟨projection, projectFormats_sound hprojection, rfl⟩

end FetchNow
