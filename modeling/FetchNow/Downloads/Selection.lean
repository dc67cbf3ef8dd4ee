import FetchNow.MediaInspection.Normalize

/-!
# Binding an option to its streams

A selection is made from a fresh draft; the options that the projection offers are bound to the
streams they describe.
-/
namespace FetchNow

open Transactions Merging

structure ResolvedDownloadSelection where
  formatOptionId : String
  container : String
  width : Option Nat
  height : Option Nat
  fps : Option Rat
  hasVideo : Bool
  hasAudio : Bool
  category : FormatCategory
  qualityLabel : String
  freeTierEligible : Bool
  approxBytes : Option Nat
  providerFormatToken : String
  mediaKind : MediaKind
  bitrateKbps : Option Nat
  deriving DecidableEq, Repr

structure MuxedDownloadSelection where
  formatOptionId : String
  container : String
  width : Option Nat
  height : Option Nat
  fps : Option Rat
  hasVideo : Bool
  hasAudio : Bool
  category : FormatCategory
  qualityLabel : String
  freeTierEligible : Bool
  approxBytes : Option Nat
  videoApproxBytes : Option Nat
  audioApproxBytes : Option Nat
  expectedDurationSeconds : Option Nat
  videoFormatToken : String
  audioFormatToken : String
  deriving DecidableEq, Repr

/-- The union of both kinds of selection. -/
inductive SealedSelection where
  | direct (selection : ResolvedDownloadSelection)
  | muxed (selection : MuxedDownloadSelection)
  deriving DecidableEq, Repr

def formatUnavailable (internalReason : String) : Raised :=
  .downloadError .formatUnavailable internalReason

/-! ## Tokens -/

def reservedTokens : List String :=
  ["best", "worst", "bestvideo", "bestaudio", "worstvideo", "worstaudio"]

/-- What `validate_provider_format_token` accepts. -/
def isProviderFormatToken (token : String) : Bool :=
  let cs := token.toList
  1 ≤ cs.length && cs.length ≤ 64 && cs.head? ≠ some '-' && cs.all isIdChar &&
    String.ofList (cs.map Char.toLower) ∉ reservedTokens

/-- `_validate_token`. -/
def validateToken (rawToken : Option String) : Except Raised String :=
  match rawToken with
  | none => .error (formatUnavailable "TOKEN_MISSING")
  | some token => do
    require (strip token.toList ≠ []) (formatUnavailable "TOKEN_MISSING")
    require (isProviderFormatToken token = true) (formatUnavailable "TOKEN_INVALID")
    .ok token

/-- A token that names exactly one format of the provider. -/
def ValidToken (token : Option String) : Prop := ∃ t ∈ token, isProviderFormatToken t = true

theorem isSpace_of_isIdChar {c : Char} (h : isIdChar c = true) : isSpace c = false := by
  simp only [isIdChar, Bool.or_eq_true, decide_eq_true_eq, List.mem_cons, List.not_mem_nil,
    or_false] at h
  rcases h with h | rfl | rfl | rfl | rfl
  · have hrange := isAlphanum_iff.mp h
    simp only [isSpace, Bool.or_eq_false_iff, Bool.and_eq_false_iff, decide_eq_false_iff_not]
    omega
  all_goals decide

theorem validateToken_eq_ok {token : Option String} {t : String} :
    validateToken token = .ok t ↔ token = some t ∧ isProviderFormatToken t = true := by
  cases token with
  | none => simp [validateToken]
  | some raw =>
    simp only [validateToken, bind_eq_ok, require_eq_ok, Except.ok.injEq, Option.some.injEq]
    constructor
    · rintro ⟨_, _, _, hvalid, rfl⟩
      exact ⟨rfl, hvalid⟩
    · rintro ⟨rfl, hvalid⟩
      refine ⟨(), fun hblank => ?_, (), hvalid, rfl⟩
      simp only [isProviderFormatToken, Bool.and_eq_true, decide_eq_true_eq, List.all_eq_true]
        at hvalid
      obtain ⟨⟨⟨⟨hlength, _⟩, _⟩, hchars⟩, _⟩ := hvalid
      rw [strip_eq_self fun c hc => isSpace_of_isIdChar (hchars c hc)] at hblank
      simp [hblank] at hlength

/-! ## Candidates -/

def freeTierEligible (candidate : InternalFormatCandidate) : Bool :=
  categoryFor candidate.hasVideo candidate.hasAudio = .progressive ∧ candidate.height ≠ none

/-- `_props_match`. -/
def propsMatch (candidate : InternalFormatCandidate) (persisted : MediaFormat) : Bool :=
  let category := categoryFor candidate.hasVideo candidate.hasAudio
  let mediaKind := mediaKindFor candidate.hasVideo candidate.hasAudio
  candidate.container = persisted.container && candidate.width = persisted.width &&
    candidate.height = persisted.height && candidate.fps = persisted.fps &&
    candidate.hasVideo = persisted.hasVideo && candidate.hasAudio = persisted.hasAudio &&
    category = persisted.category && candidate.videoCodec = persisted.videoCodec &&
    candidate.audioCodec = persisted.audioCodec && candidate.approxBytes = persisted.approxBytes &&
    qualityLabelFor candidate.height candidate.hasVideo = persisted.qualityLabel &&
    mediaKind = persisted.mediaKind &&
    persisted.requiresPremium = decide (mediaKind ≠ .normalVideo) &&
    candidate.bitrateKbps = persisted.bitrateKbps &&
    freeTierEligible candidate = persisted.freeTierEligible

/-- `_binding_equivalent` of candidates. -/
def bindingEquivalent (left right : InternalFormatCandidate) : Bool :=
  left.providerFormatToken = right.providerFormatToken && left.container = right.container &&
    left.width = right.width && left.height = right.height && left.fps = right.fps &&
    left.hasVideo = right.hasVideo && left.hasAudio = right.hasAudio &&
    left.videoCodec = right.videoCodec && left.audioCodec = right.audioCodec &&
    left.bitrateKbps = right.bitrateKbps && left.approxBytes = right.approxBytes

/-- `value or -1`. -/
def orMinusOne : Option Nat → Int
  | none | some 0 => -1
  | some n => n

/-- The option id of a candidate. -/
def InternalFormatCandidate.optionId (candidate : InternalFormatCandidate) : String :=
  formatOptionIdFor candidate (qualityLabelFor candidate.height candidate.hasVideo)

/-- `_candidate_sort_key` of the selection. -/
def bindingSortKey (candidate : InternalFormatCandidate) :
    String ×ₗ String ×ₗ String ×ₗ Int ×ₗ Int ×ₗ Int ×ₗ String :=
  toLex (candidate.optionId, toLex (candidate.container,
    toLex (candidate.providerFormatToken.getD "", toLex (orMinusOne candidate.height,
      toLex (orMinusOne candidate.width, toLex (orMinusOne candidate.bitrateKbps,
        textOf candidate.approxBytes))))))

/-! ## Selection -/

def resolveDirect (matched : InternalFormatCandidate) (persistedFormat : MediaFormat)
    (requestedOptionId : String) : Except Raised ResolvedDownloadSelection := do
  let token ← validateToken matched.providerFormatToken
  require (propsMatch matched persistedFormat = true) (formatUnavailable "PROPS_MISMATCH")
  let mediaKind := persistedFormat.mediaKind
  require (mediaKind = .normalVideo → matched.hasVideo = true ∧ matched.hasAudio = true)
    (formatUnavailable "MEDIA_KIND_MISMATCH")
  require (mediaKind = .videoOnly → matched.hasVideo = true ∧ matched.hasAudio = false)
    (formatUnavailable "MEDIA_KIND_MISMATCH")
  require (mediaKind = .audioOnly → matched.hasAudio = true ∧ matched.hasVideo = false)
    (formatUnavailable "MEDIA_KIND_MISMATCH")
  .ok
    { formatOptionId := requestedOptionId, container := matched.container, width := matched.width
      height := matched.height, fps := matched.fps, hasVideo := matched.hasVideo
      hasAudio := matched.hasAudio, category := categoryFor matched.hasVideo matched.hasAudio
      qualityLabel := qualityLabelFor matched.height matched.hasVideo
      freeTierEligible := persistedFormat.freeTierEligible, approxBytes := matched.approxBytes
      mediaKind, bitrateKbps := matched.bitrateKbps, providerFormatToken := token }

def resolveMuxed (candidates : List InternalFormatCandidate) (settings : MediaSettings)
    (requestedOptionId : String) (persistedFormat : MediaFormat) (durationSeconds : Option Nat) :
    Except Raised (Option MuxedDownloadSelection) :=
  if !settings.mediaMuxingEnabled then .ok none
  else if persistedFormat.category ≠ .progressive then .ok none
  else if !(persistedFormat.hasVideo && persistedFormat.hasAudio &&
      persistedFormat.freeTierEligible) then .ok none
  else do
    let derived ← deriveMuxOptions candidates settings
    match derived.reverse.find? fun item =>
      decide (item.publicFormat.formatOptionId = requestedOptionId) with
    | none => .ok none
    | some matched => do
      require (matched.publicFormat = persistedFormat) (formatUnavailable "PROPS_MISMATCH")
      let videoToken ← validateToken matched.video.providerFormatToken
      let audioToken ← validateToken matched.audio.providerFormatToken
      .ok (some
        { formatOptionId := requestedOptionId, container := matched.outputContainer
          width := matched.publicFormat.width, height := matched.publicFormat.height
          fps := matched.publicFormat.fps, hasVideo := true, hasAudio := true
          category := .progressive, qualityLabel := matched.publicFormat.qualityLabel
          freeTierEligible := true, approxBytes := matched.publicFormat.approxBytes
          videoApproxBytes := matched.video.approxBytes
          audioApproxBytes := matched.audio.approxBytes
          expectedDurationSeconds := durationSeconds, videoFormatToken := videoToken
          audioFormatToken := audioToken })

/-- The candidates by option id. -/
def candidatesByOption (draft : ExtractedMediaDraft) (settings : MediaSettings) :
    Except Raised (List InternalFormatCandidate) :=
  collect InternalFormatCandidate.optionId bindingEquivalent
    (formatUnavailable "OPTION_AMBIGUOUS") []
    ((draft.candidates.filter (boundedCandidate settings)).insertionSort
      fun a b => bindingSortKey a ≤ bindingSortKey b)

def resolveSelectionFromDraft (draft : ExtractedMediaDraft) (settings : MediaSettings)
    (requestedOptionId : String) (persistedFormat : MediaFormat) :
    Except Raised SealedSelection := do
  require (requestedOptionId = persistedFormat.formatOptionId)
    (formatUnavailable "OPTION_ID_MISMATCH")
  let byOption ← candidatesByOption draft settings
  match byOption.find? fun candidate => decide (candidate.optionId = requestedOptionId) with
  | some matched => do
    let selection ← resolveDirect matched persistedFormat requestedOptionId
    .ok (.direct selection)
  | none => do
    let muxed ← resolveMuxed (draft.candidates.filter (boundedCandidate settings)) settings
      requestedOptionId persistedFormat draft.durationSeconds
    match muxed with
    | some selection => .ok (.muxed selection)
    | none => .error (formatUnavailable "OPTION_MISSING")

/-! ## Bindings -/

variable {draft : ExtractedMediaDraft} {settings : MediaSettings} {format : MediaFormat}
  {candidate other : InternalFormatCandidate} {selection : SealedSelection}

/-- What has to agree for two candidates to bind identically. -/
def InternalFormatCandidate.binding (candidate : InternalFormatCandidate) :
    InternalFormatCandidate :=
  { candidate with protocol := none, hasDrm := false }

theorem bindingEquivalent_iff :
    bindingEquivalent candidate other = true ↔ candidate.binding = other.binding := by
  simp only [bindingEquivalent, InternalFormatCandidate.binding, Bool.and_eq_true,
    decide_eq_true_eq, InternalFormatCandidate.mk.injEq]
  tauto

theorem formatOf_binding : formatOf candidate.binding = formatOf candidate := rfl

theorem optionId_binding : candidate.binding.optionId = candidate.optionId := rfl

theorem formatOptionId_formatOf : (formatOf candidate).formatOptionId = candidate.optionId := rfl

theorem propsMatch_formatOf : propsMatch candidate (formatOf candidate) = true := by
  simp [propsMatch, formatOf, freeTierEligible]

/-- A selection with the properties of a format. -/
def SealedSelection.Describes (selection : SealedSelection) (format : MediaFormat) : Prop :=
  match selection with
  | direct s => s.container = format.container ∧ s.width = format.width ∧ s.height = format.height ∧
      s.fps = format.fps ∧ s.hasVideo = format.hasVideo ∧ s.hasAudio = format.hasAudio ∧
      s.category = format.category ∧ s.qualityLabel = format.qualityLabel ∧
      s.approxBytes = format.approxBytes ∧ s.mediaKind = format.mediaKind
  | muxed s => s.container = format.container ∧ s.width = format.width ∧ s.height = format.height ∧
      s.fps = format.fps ∧ s.hasVideo = format.hasVideo ∧ s.hasAudio = format.hasAudio ∧
      s.category = format.category ∧ s.qualityLabel = format.qualityLabel ∧
      s.approxBytes = format.approxBytes ∧ .normalVideo = format.mediaKind

/-- The selection of a stream for the format that offers it. -/
theorem resolveDirect_formatOf {id token : String}
    (htracks : (candidate.hasVideo || candidate.hasAudio) = true)
    (htoken : validateToken candidate.providerFormatToken = .ok token) :
    ∃ selection, resolveDirect candidate (formatOf candidate) id = .ok selection ∧
      (SealedSelection.direct selection).Describes (formatOf candidate) := by
  have hkind : (formatOf candidate).mediaKind =
      mediaKindFor candidate.hasVideo candidate.hasAudio := rfl
  simp only [resolveDirect, htoken, ok_bind, propsMatch_formatOf, hkind, require_true]
  cases hvideo : candidate.hasVideo <;> cases haudio : candidate.hasAudio
  · simp [hvideo, haudio] at htracks
  all_goals
    simp only [mediaKindFor, reduceCtorEq, Bool.and_true, Bool.and_false, Bool.and_self, if_true,
      if_false, Bool.false_eq_true, true_and, and_true, and_self, imp_self, require_true, ok_bind]
    refine ⟨_, rfl, ?_⟩
    simp [SealedSelection.Describes, formatOf, mediaKindFor, hvideo, haudio]

/-- A selected stream has a valid token and the properties of the format. -/
theorem resolveDirect_eq_ok {id : String} {direct : ResolvedDownloadSelection}
    (h : resolveDirect candidate format id = .ok direct) :
    ValidToken candidate.providerFormatToken ∧ propsMatch candidate format = true := by
  obtain ⟨token, htoken, h⟩ := bind_eq_ok.mp h
  obtain ⟨_, hprops, _⟩ := bind_eq_ok.mp h
  obtain ⟨hsome, hvalid⟩ := validateToken_eq_ok.mp htoken
  exact ⟨⟨token, hsome, hvalid⟩, require_eq_ok.mp hprops⟩

theorem all_of_forall {α : Type} {p : α → Bool} {value : Option α}
    (h : ∀ a ∈ value, p a = true) : value.all p = true := by
  cases value with
  | none => rfl
  | some a => exact h a rfl

/-- Streams that are usable for muxing pass the checks of the selection. -/
theorem boundedCandidate_of_usable (hlimits : candidate.WithinLimits settings)
    (h : usableVideo candidate = true ∨ usableAudio candidate = true) :
    boundedCandidate settings candidate = true := by
  have hcontainers : ∀ container ∈ ["m4a", "mp4", "webm", "ogg", "opus"],
      isContainer container = true := by decide
  have htracks : (candidate.hasVideo || candidate.hasAudio) = true := by
    rcases h with h | h
    · simp only [usableVideo, Bool.and_eq_true] at h
      simp [h]
    · simp only [usableAudio, Bool.and_eq_true] at h
      simp [h]
  have hcontainer : isContainer candidate.container = true := by
    refine hcontainers _ ?_
    rcases h with h | h
    · simp only [usableVideo, Bool.and_eq_true] at h
      grind
    · simp only [usableAudio, Bool.and_eq_true] at h
      grind
  simp only [boundedCandidate, htracks, hcontainer, Bool.true_and, Bool.and_eq_true]
  refine ⟨⟨?_, ?_⟩, ?_⟩
  · exact all_of_forall fun h hh => decide_eq_true (hlimits.height h hh)
  · exact all_of_forall fun w hw => decide_eq_true (hlimits.width w hw)
  · exact all_of_forall fun n hn => decide_eq_true (hlimits.approxBytes n hn)

/-- The selection derives the options that the projection has derived. -/
theorem deriveMuxOptions_bounded
    (hlimits : ∀ candidate ∈ draft.candidates, candidate.WithinLimits settings) :
    deriveMuxOptions (draft.candidates.filter (boundedCandidate settings)) settings =
      deriveMuxOptions draft.candidates settings := by
  have hbounded : ∀ candidate ∈ draft.candidates, usableVideo candidate = true ∨
      usableAudio candidate = true → boundedCandidate settings candidate = true :=
    fun candidate hmem => boundedCandidate_of_usable (hlimits candidate hmem)
  refine deriveMuxOptions_congr ?_ ?_
  · rw [List.filter_filter]
    refine List.filter_congr fun candidate hmem => ?_
    cases husable : usableVideo candidate with
    | false => rfl
    | true => rw [hbounded candidate hmem (.inl husable)]; rfl
  · rw [List.filter_filter]
    refine List.filter_congr fun candidate hmem => ?_
    cases husable : usableAudio candidate with
    | false => rfl
    | true => rw [hbounded candidate hmem (.inr husable)]; rfl

/-- Candidates that share an option id bind identically. -/
def Unambiguous (draft : ExtractedMediaDraft) (settings : MediaSettings) : Prop :=
  ∀ candidate ∈ draft.candidates, boundedCandidate settings candidate = true →
    ∀ other ∈ draft.candidates, boundedCandidate settings other = true →
      candidate.optionId = other.optionId → bindingEquivalent candidate other = true

/-- The format is that of an offered stream with a valid token, or of a pair of streams with valid
tokens whose option id no stream has. -/
def HasSource (draft : ExtractedMediaDraft) (settings : MediaSettings) (format : MediaFormat) :
    Prop :=
  (∃ candidate ∈ draft.candidates, Offered settings candidate ∧
    candidate.optionId = format.formatOptionId ∧ ValidToken candidate.providerFormatToken) ∨
  (∀ candidate ∈ draft.candidates, boundedCandidate settings candidate = true →
    candidate.optionId ≠ format.formatOptionId) ∧
  ∃ derived, deriveMuxOptions draft.candidates settings = .ok derived ∧
    ∃ option ∈ derived, option.publicFormat.formatOptionId = format.formatOptionId ∧
      ValidToken option.video.providerFormatToken ∧ ValidToken option.audio.providerFormatToken

section Resolve

variable {byOption : List InternalFormatCandidate}

theorem mem_bounded : candidate ∈ (draft.candidates.filter (boundedCandidate settings)).insertionSort
      (fun a b => bindingSortKey a ≤ bindingSortKey b) ↔
    candidate ∈ draft.candidates ∧ boundedCandidate settings candidate = true := by
  rw [List.mem_insertionSort, List.mem_filter]

theorem candidatesByOption_iff :
    (∃ byOption, candidatesByOption draft settings = .ok byOption) ↔
      Unambiguous draft settings := by
  unfold candidatesByOption
  rw [exists_collect_iff]
  · constructor
    · intro h candidate hmem hbounded other hmem' hbounded' hid
      exact h candidate (mem_bounded.mpr ⟨hmem, hbounded⟩) other
        (mem_bounded.mpr ⟨hmem', hbounded'⟩) hid
    · intro h candidate hmem other hmem' hid
      obtain ⟨hmem, hbounded⟩ := mem_bounded.mp hmem
      obtain ⟨hmem', hbounded'⟩ := mem_bounded.mp hmem'
      exact h candidate hmem hbounded other hmem' hbounded' hid
  · exact fun a => bindingEquivalent_iff.mpr rfl
  · exact fun a b h => bindingEquivalent_iff.mpr (bindingEquivalent_iff.mp h).symm
  · exact fun a b c h h' => bindingEquivalent_iff.mpr
      ((bindingEquivalent_iff.mp h).trans (bindingEquivalent_iff.mp h'))

/-- The candidate by its option id is one that binds identically. -/
theorem find?_byOption (h : candidatesByOption draft settings = .ok byOption)
    (hmem : candidate ∈ draft.candidates) (hbounded : boundedCandidate settings candidate = true) :
    ∃ matched, byOption.find? (fun c => decide (c.optionId = candidate.optionId)) = some matched ∧
      matched.binding = candidate.binding := by
  obtain ⟨matched, hmatched, hid, hsame⟩ := exists_collected h (mem_bounded.mpr ⟨hmem, hbounded⟩)
  refine ⟨matched, ?_, ?_⟩
  · rw [← hid]
    exact find?_eq_some_of_nodup (nodup_collect h List.nodup_nil) hmatched
  · exact hsame.elim (congrArg _) bindingEquivalent_iff.mp

theorem mem_byOption (h : candidatesByOption draft settings = .ok byOption)
    (hmem : candidate ∈ byOption) :
    candidate ∈ draft.candidates ∧ boundedCandidate settings candidate = true :=
  mem_bounded.mp ((mem_of_mem_collect h hmem).resolve_left List.not_mem_nil)

end Resolve

section Main

variable {projection : Projection} {derived : List DerivedMuxOption} {option : DerivedMuxOption}

/-- An offered stream is selected for its format. -/
theorem resolve_offered (hunambiguous : Unambiguous draft settings)
    (hmem : candidate ∈ draft.candidates) (hoffered : Offered settings candidate)
    (htoken : ValidToken candidate.providerFormatToken) :
    ∃ selection, resolveSelectionFromDraft draft settings candidate.optionId (formatOf candidate) =
      .ok selection ∧ selection.Describes (formatOf candidate) := by
  obtain ⟨byOption, hbyOption⟩ := candidatesByOption_iff.mpr hunambiguous
  obtain ⟨matched, hfind, hbinding⟩ := find?_byOption hbyOption hmem hoffered.1
  have hformat : formatOf matched = formatOf candidate := by
    rw [← formatOf_binding, hbinding, formatOf_binding]
  have hprovider : matched.providerFormatToken = candidate.providerFormatToken :=
    congrArg (·.providerFormatToken) hbinding
  obtain ⟨token, htoken, hvalid⟩ := htoken
  have htracks : (matched.hasVideo || matched.hasAudio) = true := by
    have hbounded := (mem_byOption hbyOption (List.mem_of_find?_eq_some hfind)).2
    simp only [boundedCandidate, Bool.and_eq_true] at hbounded
    exact hbounded.1.1.1.1
  obtain ⟨selection, hselection, hdescribes⟩ := @resolveDirect_formatOf _ candidate.optionId _
    htracks (validateToken_eq_ok.mpr ⟨hprovider.trans htoken, hvalid⟩)
  rw [hformat] at hselection hdescribes
  refine ⟨.direct selection, ?_, hdescribes⟩
  simp only [resolveSelectionFromDraft, formatOptionId_formatOf, require_true, ok_bind, hbyOption,
    hfind, hselection]

/-- If candidates are confused, no format can be selected. -/
theorem resolve_ambiguous (h : ¬ Unambiguous draft settings) :
    resolveSelectionFromDraft draft settings format.formatOptionId format =
      .error (formatUnavailable "OPTION_AMBIGUOUS") := by
  cases hbyOption : candidatesByOption draft settings with
  | ok byOption => exact absurd (candidatesByOption_iff.mp ⟨byOption, hbyOption⟩) h
  | error e =>
    obtain rfl := collect_eq_error hbyOption
    simp only [resolveSelectionFromDraft, require_true, ok_bind, hbyOption]
    rfl

/-- A pair of streams is selected for its format if no stream has the option id. -/
theorem resolve_muxed (hunambiguous : Unambiguous draft settings)
    (hlimits : ∀ candidate ∈ draft.candidates, candidate.WithinLimits settings)
    (hderived : deriveMuxOptions draft.candidates settings = .ok derived) (hoption : option ∈ derived)
    (hfree : ∀ candidate ∈ draft.candidates, boundedCandidate settings candidate = true →
      candidate.optionId ≠ option.publicFormat.formatOptionId)
    (hvideo : ValidToken option.video.providerFormatToken)
    (haudio : ValidToken option.audio.providerFormatToken) :
    ∃ selection, resolveSelectionFromDraft draft settings option.publicFormat.formatOptionId
      option.publicFormat = .ok selection ∧ selection.Describes option.publicFormat := by
  obtain ⟨byOption, hbyOption⟩ := candidatesByOption_iff.mpr hunambiguous
  have hnone : byOption.find? (fun c =>
      decide (c.optionId = option.publicFormat.formatOptionId)) = none := by
    refine List.find?_eq_none.mpr fun candidate hmem => ?_
    obtain ⟨hmem, hbounded⟩ := mem_byOption hbyOption hmem
    simpa using hfree candidate hmem hbounded
  obtain ⟨hnodup, hfinished⟩ := deriveMuxOptions_eq_ok hderived
  obtain ⟨⟨hcategory, hkind, ⟨hhasVideo, hhasAudio⟩, hfreeTier, hcontainer⟩, henabled⟩ :=
    hfinished option hoption
  have hfind : derived.reverse.find? (fun item =>
      decide (item.publicFormat.formatOptionId = option.publicFormat.formatOptionId)) =
        some option := by
    refine find?_eq_some_of_nodup ?_ (List.mem_reverse.mpr hoption)
    rw [List.map_reverse]
    exact List.nodup_reverse.mpr hnodup
  obtain ⟨videoToken, hvideo⟩ := hvideo
  obtain ⟨audioToken, haudio⟩ := haudio
  have hvideo := validateToken_eq_ok.mpr hvideo
  have haudio := validateToken_eq_ok.mpr haudio
  simp only [resolveSelectionFromDraft, require_true, ok_bind, hbyOption, hnone, resolveMuxed,
    henabled, hcategory, hhasVideo, hhasAudio, hfreeTier, deriveMuxOptions_bounded hlimits, hderived,
    hfind, hvideo, haudio, Bool.not_true, Bool.false_eq_true, if_false, ne_eq, not_true_eq_false,
    Bool.and_self]
  exact ⟨_, rfl, hcontainer.symm, rfl, rfl, rfl, hhasVideo.symm, hhasAudio.symm, hcategory.symm, rfl,
    rfl, hkind.symm⟩

/-- What a selection shows about its format. -/
theorem hasSource_of_resolve (hs : projection.Sound draft settings)
    (hlimits : ∀ candidate ∈ draft.candidates, candidate.WithinLimits settings)
    (hformat : format ∈ projection.byOption)
    (h : resolveSelectionFromDraft draft settings format.formatOptionId format = .ok selection) :
    Unambiguous draft settings ∧ HasSource draft settings format := by
  obtain ⟨_, _, h⟩ := bind_eq_ok.mp h
  obtain ⟨byOption, hbyOption, h⟩ := bind_eq_ok.mp h
  have hunambiguous := candidatesByOption_iff.mp ⟨byOption, hbyOption⟩
  refine ⟨hunambiguous, ?_⟩
  split at h
  · rename_i matched hfind
    obtain ⟨direct, hdirect, _⟩ := bind_eq_ok.mp h
    obtain ⟨htoken, hprops⟩ := resolveDirect_eq_ok hdirect
    obtain ⟨hmem, hbounded⟩ := mem_byOption hbyOption (List.mem_of_find?_eq_some hfind)
    have hid : matched.optionId = format.formatOptionId := by simpa using List.find?_some hfind
    left
    rcases hs.origin format hformat with ⟨candidate, hcandidate, hoffered, rfl⟩ | ⟨derived, hderived,
      option, hoption, rfl⟩
    · have hsame := bindingEquivalent_iff.mp (hunambiguous matched hmem hbounded candidate hcandidate
        hoffered.1 hid)
      have hprovider : matched.providerFormatToken = candidate.providerFormatToken :=
        congrArg (·.providerFormatToken) hsame
      exact ⟨candidate, hcandidate, hoffered, rfl, hprovider ▸ htoken⟩
    · refine ⟨matched, hmem, ⟨hbounded, ?_⟩, hid, htoken⟩
      have hkind := ((deriveMuxOptions_eq_ok hderived).2 option hoption).1.mediaKind
      simp only [propsMatch, Bool.and_eq_true, decide_eq_true_eq] at hprops
      have hmatched : mediaKindFor matched.hasVideo matched.hasAudio = .normalVideo :=
        hprops.1.1.1.2.trans hkind
      simp [standaloneUnsupported, hmatched]
  · rename_i hnone
    obtain ⟨muxed, hmuxed, h⟩ := bind_eq_ok.mp h
    cases muxed with
    | none => cases h
    | some muxed =>
      right
      refine ⟨fun candidate hmem hbounded hid => ?_, ?_⟩
      · obtain ⟨matched, hfind, _⟩ := find?_byOption hbyOption hmem hbounded
        rw [hid, hnone] at hfind
        cases hfind
      · unfold resolveMuxed at hmuxed
        split at hmuxed
        · cases hmuxed
        split at hmuxed
        · cases hmuxed
        split at hmuxed
        · cases hmuxed
        obtain ⟨derived, hderived, hmuxed⟩ := bind_eq_ok.mp hmuxed
        rw [deriveMuxOptions_bounded hlimits] at hderived
        split at hmuxed
        · cases hmuxed
        rename_i option hfind
        obtain ⟨_, _, hmuxed⟩ := bind_eq_ok.mp hmuxed
        obtain ⟨videoToken, hvideo, hmuxed⟩ := bind_eq_ok.mp hmuxed
        obtain ⟨audioToken, haudio, _⟩ := bind_eq_ok.mp hmuxed
        exact ⟨derived, hderived, option, List.mem_reverse.mp (List.mem_of_find?_eq_some hfind),
          by simpa using List.find?_some hfind, ⟨videoToken, validateToken_eq_ok.mp hvideo⟩,
          ⟨audioToken, validateToken_eq_ok.mp haudio⟩⟩

/-- A format that is offered can be bound back exactly if no two candidates are confused and it has
a source with valid tokens. -/
theorem published_option_bound_iff {metadata : MediaMetadata} {url mediaId providerId : String}
    (hlimits : ∀ candidate ∈ draft.candidates, candidate.WithinLimits settings)
    (h : projectMetadata draft settings url mediaId providerId = .ok metadata)
    (hformat : format ∈ metadata.formats) :
    (∃ selection, resolveSelectionFromDraft draft settings format.formatOptionId format =
      .ok selection ∧ selection.Describes format) ↔
      Unambiguous draft settings ∧ HasSource draft settings format := by
  obtain ⟨projection, hs, hformats⟩ := projectMetadata_sound h
  rw [hformats] at hformat
  have hformat := hs.listed format hformat
  constructor
  · rintro ⟨selection, hselection, _⟩
    exact hasSource_of_resolve hs hlimits hformat hselection
  · rintro ⟨hunambiguous, ⟨candidate, hmem, hoffered, hid, htoken⟩ | ⟨hfree, derived, hderived, option,
      hoption, hid, hvideo, haudio⟩⟩
    · obtain rfl : formatOf candidate = format :=
        List.inj_on_of_nodup_map hs.nodup (hs.offered candidate hmem hoffered) hformat hid
      exact resolve_offered hunambiguous hmem hoffered htoken
    · rcases hs.origin format hformat with ⟨candidate, hcandidate, hoffered, rfl⟩ | ⟨derived', hderived',
        option', hoption', rfl⟩
      · exact absurd rfl (hfree candidate hcandidate hoffered.1)
      · obtain rfl : derived = derived' := Except.ok.inj (hderived.symm.trans hderived')
        obtain rfl : option = option' :=
          List.inj_on_of_nodup_map (deriveMuxOptions_eq_ok hderived).1 hoption hoption' hid
        exact resolve_muxed hunambiguous hlimits hderived hoption hfree hvideo haudio

/-! ## Samples -/

def sampleMediaSettings : MediaSettings :=
  ⟨32, 200, 2160, 3840, 3600, 1000000, false, 8, 8, 8⟩

/-- A progressive stream. -/
def sampleStream (token : Option String) : InternalFormatCandidate :=
  ⟨"mp4", some 1280, some 720, none, true, true, .avc, .aac, none, token, none, false, none⟩

/-- A protected video stream. -/
def protectedStream (bitrate : Nat) : InternalFormatCandidate :=
  ⟨"mp4", some 640, some 360, none, true, false, .avc, .none, none, some "137", none, true,
    some bitrate⟩

theorem sampleStream_postInit (token : Option String) :
    (formatOf (sampleStream token)).postInit = .ok (formatOf (sampleStream token)) := by
  have hid : isSafeToken (formatOf (sampleStream token)).formatOptionId = true :=
    isSafeToken_optionIdOf _
  have hcontainer : isSafeToken (formatOf (sampleStream token)).container = true := by
    change isSafeToken "mp4" = true
    decide
  have hlabel : isSafeToken (formatOf (sampleStream token)).qualityLabel = true := by
    change isSafeToken (qualityLabelFor (some 720) true) = true
    decide +kernel
  simp only [MediaFormat.postInit, requireSafeToken, hid, hcontainer, hlabel, require_true, ok_bind]
  simp [formatOf, sampleStream, requireFiniteNonNegative, require, mediaKindFor, categoryFor,
    MediaKind.category]

/-- Metadata that offer one stream. -/
def sampleMetadata (token : Option String) : MediaMetadata :=
  ⟨"vk", "https://host/1", "1", none, none, [formatOf (sampleStream token)], "ytdlp", none, false⟩

theorem sampleMetadata_postInit (token : Option String) :
    (sampleMetadata token).postInit = .ok (sampleMetadata token) := by
  have hprovider : isSafeToken "vk" = true := by decide
  have htool : isSafeToken "ytdlp" = true := by decide
  have hmedia : isSafeMediaId "1" = true := by decide
  have hurl : '?' ∉ "https://host/1".toList ∧ '#' ∉ "https://host/1".toList ∧
      "://".toList <:+: "https://host/1".toList := by decide +kernel
  simp only [sampleMetadata, MediaMetadata.postInit, requireSafeToken, hprovider, htool, hmedia,
    hurl, require_true, ok_bind]
  simp [requireFiniteNonNegative, require]

/-- The projection of a progressive stream and others that are not offered. -/
theorem sampleStream_projected (token : Option String) {others : List InternalFormatCandidate}
    (hothers : ∀ candidate ∈ others, prepareCandidate sampleMediaSettings candidate = .ok none) :
    projectMetadata ⟨none, none, sampleStream token :: others, none⟩ sampleMediaSettings
      "https://host/1" "1" "vk" = .ok (sampleMetadata token) := by
  have hprepare : prepareCandidate sampleMediaSettings (sampleStream token) =
      .ok (some (formatOf (sampleStream token))) := by
    have hbounded : boundedCandidate sampleMediaSettings (sampleStream token) = true := by
      change boundedCandidate sampleMediaSettings (sampleStream none) = true
      decide
    have hsupported : standaloneUnsupported (sampleStream token) = false := by
      simp [standaloneUnsupported, mediaKindFor, sampleStream]
    simp [prepareCandidate, hbounded, hsupported, sampleStream_postInit]
  have hrest : others.mapM (prepareCandidate sampleMediaSettings) =
      .ok (others.map fun _ => none) := by
    induction others with
    | nil => rfl
    | cons candidate others ih =>
      obtain ⟨hcandidate, hothers⟩ := List.forall_mem_cons.mp hothers
      rw [List.mapM_cons, hcandidate, ok_bind, ih hothers, ok_bind]
      rfl
  have hprepared : (sampleStream token :: others).mapM (prepareCandidate sampleMediaSettings) =
      .ok (some (formatOf (sampleStream token)) :: others.map fun _ => none) := by
    rw [List.mapM_cons, hprepare, ok_bind, hrest, ok_bind]
    rfl
  have hsome : (some (formatOf (sampleStream token)) :: others.map fun _ => none).filterMap id =
      [formatOf (sampleStream token)] := by simp
  have hformats : projectFormats ⟨none, none, sampleStream token :: others, none⟩
      sampleMediaSettings =
        .ok ⟨[formatOf (sampleStream token)], [formatOf (sampleStream token)]⟩ := by
    simp only [projectFormats, hprepared, ok_bind, hsome, require_true, ne_eq, List.cons_ne_nil,
      not_false_eq_true]
    simp [collect, sampleMediaSettings]
  have hduration (maximum : Option Rat) :
      requireFiniteNonNegative none "duration_seconds" maximum = .ok () := by
    simp [requireFiniteNonNegative, require]
  simp only [projectMetadata, Option.map_none, hduration, ok_bind, hformats]
  exact sampleMetadata_postInit token

/-- A stream without a token is offered, and cannot be selected. Two protected streams that are not
offered keep every format from being selected. -/
theorem published_options_not_bound :
    (projectMetadata ⟨none, none, [sampleStream none], none⟩ sampleMediaSettings "https://host/1" "1"
        "vk" = .ok (sampleMetadata none) ∧
      ∀ format ∈ (sampleMetadata none).formats,
        resolveSelectionFromDraft ⟨none, none, [sampleStream none], none⟩ sampleMediaSettings
          format.formatOptionId format = .error (formatUnavailable "TOKEN_MISSING")) ∧
    projectMetadata ⟨none, none,
        [sampleStream (some "22"), protectedStream 100, protectedStream 200], none⟩
      sampleMediaSettings "https://host/1" "1" "vk" = .ok (sampleMetadata (some "22")) ∧
    ∀ format ∈ (sampleMetadata (some "22")).formats,
      resolveSelectionFromDraft ⟨none, none,
          [sampleStream (some "22"), protectedStream 100, protectedStream 200], none⟩
        sampleMediaSettings format.formatOptionId format =
          .error (formatUnavailable "OPTION_AMBIGUOUS") := by
  refine ⟨⟨sampleStream_projected none fun _ hmem => absurd hmem List.not_mem_nil, ?_⟩, sampleStream_projected _ ?_, ?_⟩
  · intro format hformat
    obtain rfl := List.mem_singleton.mp hformat
    have hbyOption : candidatesByOption ⟨none, none, [sampleStream none], none⟩
        sampleMediaSettings = .ok [sampleStream none] := by
      have hbounded : [sampleStream none].filter (boundedCandidate sampleMediaSettings) =
          [sampleStream none] := by decide
      rw [candidatesByOption, hbounded]
      rfl
    have htoken : (sampleStream none).providerFormatToken = none := rfl
    simp only [resolveSelectionFromDraft, require_true, ok_bind, hbyOption, formatOptionId_formatOf,
      List.find?_cons, decide_true, resolveDirect, htoken, validateToken]
    rfl
  · have hprotected : ∀ candidate ∈ [protectedStream 100, protectedStream 200],
        prepareCandidate sampleMediaSettings candidate = .ok none := by
      intro candidate hmem
      have hskipped : (!boundedCandidate sampleMediaSettings candidate ||
          standaloneUnsupported candidate) = true := by
        revert candidate
        decide
      rw [prepareCandidate, if_pos hskipped]
    exact hprotected
  · intro format _
    refine resolve_ambiguous fun h => ?_
    have hsame := h (protectedStream 100) (by simp) (by decide) (protectedStream 200) (by simp)
      (by decide) rfl
    exact absurd hsame (by decide)

def muxingSettings : MediaSettings := { sampleMediaSettings with mediaMuxingEnabled := true }

/-- A progressive stream, and a video and an audio of which an option is made. -/
def pairDraft : ExtractedMediaDraft :=
  ⟨none, none,
    [{ sampleStream (some "18") with width := some 640, height := some 360 },
      ⟨"webm", some 1280, some 720, none, true, false, .vp9, .none, none, some "248", none, false,
        none⟩,
      ⟨"webm", none, none, none, false, true, .none, .opus, none, some "251", none, false, none⟩],
    none⟩

/-- All four formats of the draft can be bound back. -/
theorem published_option_bound_iff_pair : ∃ metadata,
    projectMetadata pairDraft muxingSettings "https://host/1" "1" "vk" = .ok metadata ∧
      metadata.formats.map (fun format => (format.mediaKind, format.height)) =
        [(.normalVideo, some 720), (.normalVideo, some 360), (.videoOnly, some 720),
          (.audioOnly, none)] ∧
      ∀ format ∈ metadata.formats, ∃ selection, resolveSelectionFromDraft pairDraft muxingSettings
        format.formatOptionId format = .ok selection ∧ selection.Describes format := by
  have hformats : (projectMetadata pairDraft muxingSettings "https://host/1" "1" "vk").map
      (fun metadata => (metadata.formats.map fun format => (format.mediaKind, format.height),
        metadata.formats.all fun format => (resolveSelectionFromDraft pairDraft muxingSettings
          format.formatOptionId format).isOk)) =
        .ok ([(.normalVideo, some 720), (.normalVideo, some 360), (.videoOnly, some 720),
          (.audioOnly, none)], true) := by decide +kernel
  cases hmetadata : projectMetadata pairDraft muxingSettings "https://host/1" "1" "vk" with
  | error e =>
    rw [hmetadata] at hformats
    cases hformats
  | ok metadata =>
    rw [hmetadata] at hformats
    obtain ⟨hkinds, hresolved⟩ := Prod.mk.inj (Except.ok.inj hformats)
    have hlimits : ∀ candidate ∈ pairDraft.candidates, candidate.WithinLimits muxingSettings := by
      intro candidate hmem
      simp only [pairDraft, List.mem_cons, List.not_mem_nil, or_false] at hmem
      rcases hmem with rfl | rfl | rfl <;>
        exact ⟨by simp [muxingSettings, sampleMediaSettings],
          by simp [muxingSettings, sampleMediaSettings], by simp [sampleStream]⟩
    refine ⟨metadata, rfl, hkinds, fun format hformat => ?_⟩
    have hisOk := List.all_eq_true.mp hresolved format hformat
    cases hselection : resolveSelectionFromDraft pairDraft muxingSettings format.formatOptionId
        format with
    | error e =>
      rw [hselection] at hisOk
      cases hisOk
    | ok selection =>
      obtain ⟨projection, hs, hlisted⟩ := projectMetadata_sound hmetadata
      have hbound := (published_option_bound_iff hlimits hmetadata hformat).mpr
        (hasSource_of_resolve hs hlimits (hs.listed format (hlisted ▸ hformat)) hselection)
      rwa [hselection] at hbound

end Main

end FetchNow
