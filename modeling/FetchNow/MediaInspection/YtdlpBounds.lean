import FetchNow.MediaInspection.YtdlpParse
import FetchNow.Theory.Utf16
import FetchNow.Url.Canonical

/-!
# Bounds of the drafts

Every draft is bound to what is expected and within the configured bounds. Nothing but an
`InspectionError` is raised, but for integers that are too long to be decoded or too large for the
float they are read as.
-/
namespace FetchNow.Ytdlp

open Text.Json
open Text (Interpreter Json)
open Transactions (bind_eq_ok mem_mapM)

/-! ## What is promised -/

/-- Nothing but an `InspectionError` is raised. -/
def Catalogued {α : Type} (x : Except InspectFailure α) : Prop :=
  ∀ e, x = .error e → ∃ kind reason, e = .inspectionError kind reason

structure CandidateBounded (args : InspectArgs) (candidate : InternalFormatCandidate) : Prop where
  container : 1 ≤ candidate.container.length ∧ candidate.container.length ≤ 16 ∧
    ∀ c ∈ candidate.container.toList, isLowerAlnum c.toNat = true
  width : ∀ width ∈ candidate.width, width ≤ args.maxWidth
  height : ∀ height ∈ candidate.height, height ≤ args.maxHeight
  fps : ∀ fps ∈ candidate.fps, fps ≤ 240
  bitrateKbps : ∀ rate ∈ candidate.bitrateKbps, rate ≤ 100000
  approxBytes : ∀ n ∈ candidate.approxBytes, 1 ≤ n ∧ n ≤ args.maxBytes
  tracks : candidate.hasVideo = true ∨ candidate.hasAudio = true

structure Bounded (args : InspectArgs) (draft : BoundDraft) : Prop where
  providerId : draft.providerId = args.expectedProviderId
  canonicalProviderUrl : draft.canonicalProviderUrl = args.expectedCanonicalUrl
  mediaId : draft.mediaId = args.expectedMediaId
  durationSeconds : ∀ seconds ∈ draft.durationSeconds, seconds ≤ args.maxDuration
  candidates : ∀ candidate ∈ draft.candidates, CandidateBounded args candidate

/-! ## The numbers that are read -/

/-- An integer that no float is near to. -/
def TooLarge : Json → Prop
  | .int n => 0 < n ∧ floatOverflow ≤ n.natAbs
  | _ => False

/-- What is read after a number. -/
def after {α : Type} (x : Except InspectFailure α) (numbers : α → List Json) : List Json :=
  match x with
  | .ok a => numbers a
  | .error _ => []

def firstRateNumbers (first second : Json) : List Json :=
  first :: after (boundedBitrateKbps first) fun rate => if rate.isSome then [] else [second]

def streamNumbers (hasVideo hasAudio : Bool) (tbr vbr abr : Json) : List Json :=
  if hasVideo && hasAudio then [tbr]
  else if hasVideo then firstRateNumbers vbr tbr
  else if hasAudio then firstRateNumbers abr tbr
  else []

def sizeNumbers (item : Fields) (hasVideo hasAudio : Bool) : List Json :=
  get item "filesize" :: after (bytesFromReportedSize (get item "filesize")) fun reported =>
    if reported.isSome then []
    else get item "filesize_approx" ::
      after (bytesFromReportedSize (get item "filesize_approx")) fun approx =>
        if approx.isSome then []
        else streamNumbers hasVideo hasAudio (get item "tbr") (get item "vbr") (get item "abr")

def candidateNumbers (item : Fields) (tracks : Tracks) : List Json :=
  get item "fps" :: after (finiteNumber (get item "fps")) fun fps =>
    if fps.any (240 < ·) then []
    else bitrateSource item tracks :: after (finiteNumber (bitrateSource item tracks)) fun _ =>
      sizeNumbers item tracks.hasVideo tracks.hasAudio

variable (py : Tool) (args : InspectArgs)

def formatNumbers : Json → List Json
  | .obj item =>
    match containerOf (get item "ext") with
    | none => []
    | some _ =>
      get item "width" :: after (intDim (get item "width") args.maxWidth) fun width =>
        get item "height" :: after (intDim (get item "height") args.maxHeight) fun height =>
          match tracksOf item width height with
          | none => []
          | some tracks => candidateNumbers item tracks
  | _ => []

/-- The values that are read as numbers, none of them after one that is too large. -/
def numbersRead (payload : Fields) : List Json :=
  get payload "duration" :: after (finiteNumber (get payload "duration")) fun seconds =>
    if seconds.any ((args.maxDuration : ℚ) < ·) then []
    else
      match rawFormats payload with
      | .arr formats =>
        if formats.length ≤ args.maxFormatEntries then formats.flatMap (formatNumbers args) else []
      | _ => []

variable {py args} {α β : Type} {value first second : Json} {numbers numbers' : List Json}
  {item payload : Fields} {tracks : Tracks} {n : ℕ} {duration : Option ℕ}
  {hasVideo hasAudio : Bool} {container extractor : Str} {candidate : InternalFormatCandidate}
  {raw : List UInt8}

/-! ## Reading numbers -/

/-- A computation overflows if one of the numbers is too large and gives a value otherwise. -/
def Reads (x : Except InspectFailure α) (numbers : List Json) : Prop :=
  (∃ n ∈ numbers, TooLarge n) ∧ x = .error .overflowError ∨
    (∀ n ∈ numbers, ¬TooLarge n) ∧ ∃ a, x = .ok a

theorem reads_ok {a : α} : Reads (.ok a) [] :=
  .inr ⟨fun _ h => absurd h List.not_mem_nil, a, rfl⟩

theorem Reads.bind {x : Except InspectFailure α} {f : α → Except InspectFailure β}
    {next : α → List Json} (hx : Reads x numbers) (hf : ∀ a, Reads (f a) (next a)) :
    Reads (x >>= f) (numbers ++ after x next) := by
  rcases hx with ⟨⟨n, hn, hlarge⟩, rfl⟩ | ⟨hall, a, rfl⟩
  · exact .inl ⟨⟨n, List.mem_append_left _ hn, hlarge⟩, rfl⟩
  · rcases hf a with ⟨⟨n, hn, hlarge⟩, herror⟩ | ⟨hnext, b, hb⟩
    · exact .inl ⟨⟨n, List.mem_append_right _ hn, hlarge⟩, herror⟩
    · refine .inr ⟨fun n hn => ?_, b, hb⟩
      rcases List.mem_append.mp hn with hn | hn
      · exact hall n hn
      · exact hnext n hn

/-- A value is computed from what was read. -/
theorem Reads.map {x : Except InspectFailure α} {f : α → Except InspectFailure β}
    (hx : Reads x numbers) (hf : ∀ a, ∃ b, f a = .ok b) : Reads (x >>= f) numbers := by
  rcases hx with ⟨hlarge, rfl⟩ | ⟨hall, a, rfl⟩
  · exact .inl ⟨hlarge, rfl⟩
  · exact .inr ⟨hall, hf a⟩

theorem Reads.mapM {items : List α} {f : α → Except InspectFailure β} {next : α → List Json}
    (hf : ∀ a, Reads (f a) (next a)) : Reads (items.mapM f) (items.flatMap next) := by
  induction items with
  | nil => exact reads_ok
  | cons a items ih =>
    rw [List.mapM_cons, List.flatMap_cons]
    rcases hf a with ⟨⟨n, hn, hlarge⟩, herror⟩ | ⟨hall, b, hb⟩
    · rw [herror]
      exact .inl ⟨⟨n, List.mem_append_left _ hn, hlarge⟩, rfl⟩
    · have hrest := (ih.map (f := fun bs => .ok (b :: bs)) fun bs => ⟨_, rfl⟩)
      rw [hb]
      rcases hrest with ⟨⟨n, hn, hlarge⟩, herror⟩ | ⟨hnext, bs, hbs⟩
      · exact .inl ⟨⟨n, List.mem_append_right _ hn, hlarge⟩, herror⟩
      · refine .inr ⟨fun n hn => ?_, bs, hbs⟩
        rcases List.mem_append.mp hn with hn | hn
        · exact hall n hn
        · exact hnext n hn

theorem floatOverflow_pos : 0 < floatOverflow := by decide +kernel

theorem floatOfInt_reads {k : ℤ} (h : 0 ≤ k) : Reads (floatOfInt k) [.int k] := by
  unfold floatOfInt intToFloat
  by_cases hlarge : floatOverflow ≤ k.natAbs
  · have hpos := floatOverflow_pos
    rw [if_pos hlarge]
    exact .inl ⟨⟨_, List.mem_singleton_self _, by omega, hlarge⟩, rfl⟩
  · rw [if_neg hlarge]
    refine .inr ⟨fun n hn => ?_, _, rfl⟩
    rw [List.mem_singleton.mp hn]
    exact fun h => hlarge h.2

theorem reads_of_not_tooLarge {a : α} (h : ¬TooLarge value) : Reads (.ok a) [value] := by
  refine .inr ⟨fun n hn => ?_, a, rfl⟩
  rwa [List.mem_singleton.mp hn]

theorem finiteNumber_reads : Reads (finiteNumber value) [value] := by
  cases value with
  | int k =>
    rw [finiteNumber]
    by_cases hk : 0 ≤ k
    · rw [if_pos hk]
      exact floatOfInt_reads hk
    · rw [if_neg hk]
      exact reads_of_not_tooLarge fun h => hk h.1.le
  | float x => cases x <;> exact reads_of_not_tooLarge id
  | _ => exact reads_of_not_tooLarge id

theorem finitePositiveNumber_reads : Reads (finitePositiveNumber value) [value] := by
  cases value with
  | int k =>
    rw [finitePositiveNumber]
    by_cases hk : 0 < k
    · rw [if_pos hk]
      exact floatOfInt_reads hk.le
    · rw [if_neg hk]
      exact reads_of_not_tooLarge fun h => hk h.1
  | float x => cases x <;> exact reads_of_not_tooLarge id
  | _ => exact reads_of_not_tooLarge id

theorem intDim_reads : Reads (intDim value n) [value] :=
  Reads.map finiteNumber_reads fun _ => ⟨_, rfl⟩

theorem boundedBitrateKbps_reads : Reads (boundedBitrateKbps value) [value] :=
  Reads.map finitePositiveNumber_reads fun _ => ⟨_, rfl⟩

theorem bytesFromReportedSize_reads : Reads (bytesFromReportedSize value) [value] :=
  Reads.map finitePositiveNumber_reads fun _ => ⟨_, rfl⟩

theorem firstRate_reads : Reads (firstRate first second) (firstRateNumbers first second) := by
  refine Reads.bind boundedBitrateKbps_reads fun rate => ?_
  cases rate with
  | some rate => exact reads_ok
  | none => exact boundedBitrateKbps_reads

theorem bitrateForStream_reads {tbr vbr abr : Json} :
    Reads (bitrateForStream hasVideo hasAudio tbr vbr abr)
      (streamNumbers hasVideo hasAudio tbr vbr abr) := by
  unfold bitrateForStream streamNumbers
  split_ifs
  · exact boundedBitrateKbps_reads
  · exact firstRate_reads
  · exact firstRate_reads
  · exact reads_ok

theorem estimateFormatBytes_reads : Reads (estimateFormatBytes item hasVideo hasAudio duration)
    (sizeNumbers item hasVideo hasAudio) := by
  refine Reads.bind bytesFromReportedSize_reads fun reported => ?_
  cases reported with
  | some reported => exact reads_ok
  | none =>
    refine Reads.bind bytesFromReportedSize_reads fun approx => ?_
    cases approx with
    | some approx => exact reads_ok
    | none => exact Reads.map bitrateForStream_reads fun _ => ⟨_, rfl⟩

theorem readCandidate_reads : Reads (readCandidate args duration item container tracks)
    (candidateNumbers item tracks) := by
  refine Reads.bind finiteNumber_reads fun fps => ?_
  split_ifs with hfps
  · exact reads_ok
  · exact Reads.bind finiteNumber_reads fun bitrate =>
      Reads.map estimateFormatBytes_reads fun approxBytes => ⟨_, rfl⟩

theorem parseFormat_reads : Reads (parseFormat args duration value) (formatNumbers args value) := by
  cases value with
  | obj item =>
    rw [parseFormat, formatNumbers]
    cases containerOf (get item "ext") with
    | none => exact reads_ok
    | some container =>
      refine Reads.bind intDim_reads fun width => Reads.bind intDim_reads fun height => ?_
      cases tracksOf item width height with
      | none => exact reads_ok
      | some tracks => exact readCandidate_reads
  | _ => exact reads_ok

/-! ## What is raised -/

theorem Reads.raises_iff {x : Except InspectFailure α} (h : Reads x numbers) :
    Catalogued x ↔ ∀ n ∈ numbers, ¬TooLarge n := by
  rcases h with ⟨⟨n, hn, hlarge⟩, rfl⟩ | ⟨hall, a, rfl⟩
  · refine iff_of_false (fun h => ?_) fun h => h n hn hlarge
    obtain ⟨kind, reason, he⟩ := h _ rfl
    cases he
  · exact iff_of_true (fun e he => by cases he) hall

theorem catalogued_ok {a : α} : Catalogued (.ok a : Except InspectFailure α) :=
  fun _ h => by cases h

theorem catalogued_reject {kind : InspectionErrorKind} {reason : String} :
    Catalogued (reject kind reason : Except InspectFailure α) := by
  rintro e ⟨⟩
  exact ⟨kind, reason, rfl⟩

theorem catalogued_bind {x : Except InspectFailure α} {f : α → Except InspectFailure β} :
    Catalogued (x >>= f) ↔ Catalogued x ∧ ∀ a, x = .ok a → Catalogued (f a) := by
  cases x with
  | error e =>
    constructor
    · exact fun h => ⟨fun e' he' => h e' (by cases he'; rfl), fun a ha => by cases ha⟩
    · exact fun h e' he' => h.1 e' (by cases he'; rfl)
  | ok a =>
    constructor
    · exact fun h => ⟨catalogued_ok, fun b hb => by cases hb; exact h⟩
    · exact fun h => h.2 a rfl

theorem catalogued_require_bind {c : Prop} [Decidable c] {kind : InspectionErrorKind}
    {reason : String} {f : Unit → Except InspectFailure β} :
    Catalogued (require c kind reason >>= f) ↔ (c → Catalogued (f ())) := by
  unfold require
  by_cases hc : c
  · rw [if_pos hc]
    exact ⟨fun h _ => h, fun h => h hc⟩
  · rw [if_neg hc]
    exact iff_of_true catalogued_reject fun h => absurd h hc

theorem forall_mem_after {x : Except InspectFailure α} {next : α → List Json} {p : Json → Prop} :
    (∀ n ∈ after x next, p n) ↔ ∀ a, x = .ok a → ∀ n ∈ next a, p n := by
  cases x with
  | error e => exact iff_of_true (fun n hn => absurd hn List.not_mem_nil) fun a ha => by cases ha
  | ok a => exact ⟨fun h b hb => by cases hb; exact h, fun h => h a rfl⟩

theorem parseFormats_catalogued_iff : Catalogued (parseFormats args duration payload) ↔
    ∀ formats, rawFormats payload = .arr formats → formats.length ≤ args.maxFormatEntries →
      ∀ n ∈ formats.flatMap (formatNumbers args), ¬TooLarge n := by
  unfold parseFormats
  cases rawFormats payload with
  | arr formats =>
    have hread : Reads (formats.mapM (parseFormat args duration) >>= fun candidates =>
        .ok (candidates.filterMap id)) (formats.flatMap (formatNumbers args)) :=
      (Reads.mapM fun _ => parseFormat_reads).map fun _ => ⟨_, rfl⟩
    refine catalogued_require_bind.trans ⟨?_, fun h hlength => ?_⟩
    · rintro h formats ⟨⟩ hlength
      exact hread.raises_iff.mp (h hlength)
    · exact hread.raises_iff.mpr (h formats rfl hlength)
  | _ => exact iff_of_true catalogued_reject nofun

theorem readDraft_catalogued_iff : Catalogued (readDraft args payload extractor) ↔
    ∀ n ∈ numbersRead args payload, ¬TooLarge n := by
  unfold numbersRead
  rw [List.forall_mem_cons, forall_mem_after]
  have hduration := (@finiteNumber_reads (get payload "duration")).raises_iff
  rw [List.forall_mem_singleton] at hduration
  rw [← hduration]
  refine catalogued_bind.trans (and_congr_right fun _ => forall₂_congr fun seconds _ => ?_)
  refine catalogued_require_bind.trans ?_
  by_cases hseconds : ∀ s ∈ seconds, s ≤ (args.maxDuration : ℚ)
  · have hany : seconds.any ((args.maxDuration : ℚ) < ·) = false := by
      cases seconds with
      | none => rfl
      | some s => simpa using hseconds s rfl
    rw [hany, if_neg Bool.false_ne_true]
    refine (forall_prop_of_true hseconds).trans (catalogued_bind.trans ?_)
    refine (and_iff_left fun candidates _ => ?_).trans (parseFormats_catalogued_iff.trans ?_)
    · exact catalogued_require_bind.mpr fun _ => catalogued_ok
    · cases rawFormats payload with
      | arr formats =>
        by_cases hlength : formats.length ≤ args.maxFormatEntries
        · dsimp only
          rw [if_pos hlength]
          refine ⟨fun h => h formats rfl hlength, ?_⟩
          rintro h formats ⟨⟩ -
          exact h
        · dsimp only
          rw [if_neg hlength]
          refine iff_of_true ?_ fun n hn => absurd hn List.not_mem_nil
          rintro formats ⟨⟩ h
          exact absurd h hlength
      | _ => exact iff_of_true nofun fun n hn => absurd hn List.not_mem_nil
  · have hany : seconds.any ((args.maxDuration : ℚ) < ·) = true := by
      cases seconds with
      | none => exact absurd nofun hseconds
      | some s => simpa using hseconds
    rw [hany, if_pos rfl]
    exact iff_of_true (fun h => absurd h hseconds) fun n hn => absurd hn List.not_mem_nil

/-! ## What is returned -/

theorem require_eq_ok {c : Prop} [Decidable c] {kind : InspectionErrorKind} {reason : String} :
    require c kind reason = .ok () ↔ c := by
  unfold require
  split_ifs with hc
  · exact iff_of_true rfl hc
  · exact iff_of_false nofun hc

theorem intDim_le {dim : Option ℕ} (h : intDim value n = .ok dim) : ∀ d ∈ dim, d ≤ n := by
  obtain ⟨number, -, hdim⟩ := bind_eq_ok.mp h
  cases hdim
  intro d hd
  exact of_decide_eq_true (Option.mem_filter_iff.mp hd).2

theorem boundedBytes_pos {size : ℚ} (h : boundedBytes size = some n) : 1 ≤ n := by
  unfold boundedBytes at h
  dsimp only at h
  split_ifs at h with hsize
  cases h
  omega

theorem bytesFromReportedSize_pos {size : Option ℕ} (h : bytesFromReportedSize value = .ok size) :
    ∀ n ∈ size, 1 ≤ n := by
  obtain ⟨number, -, hsize⟩ := bind_eq_ok.mp h
  cases hsize
  intro n hn
  obtain ⟨x, -, hx⟩ := Option.bind_eq_some_iff.mp hn
  exact boundedBytes_pos hx

theorem bytesFromBitrate_pos {rate : ℚ} (h : bytesFromBitrate duration rate = some n) : 1 ≤ n := by
  cases duration with
  | none => cases h
  | some duration =>
    rw [bytesFromBitrate, Option.ite_none_left_eq_some] at h
    have hestimate := (Option.ite_none_left_eq_some.mp h.2).2
    cases hkilobits : multiply (nearestFloat duration) rate with
    | finite kilobits =>
      rw [hkilobits] at hestimate
      dsimp only at hestimate
      cases hestimated : multiply kilobits 125 with
      | finite estimated =>
        rw [hestimated] at hestimate
        exact boundedBytes_pos (Option.ite_none_left_eq_some.mp hestimate).2
      | _ =>
        rw [hestimated] at hestimate
        cases hestimate
    | _ =>
      rw [hkilobits] at hestimate
      cases hestimate

theorem estimateFormatBytes_pos {size : Option ℕ}
    (h : estimateFormatBytes item hasVideo hasAudio duration = .ok size) : ∀ n ∈ size, 1 ≤ n := by
  obtain ⟨reported, hreported, h⟩ := bind_eq_ok.mp h
  cases reported with
  | some reported =>
    cases h
    exact bytesFromReportedSize_pos hreported
  | none =>
    obtain ⟨approx, happrox, h⟩ := bind_eq_ok.mp h
    cases approx with
    | some approx =>
      cases h
      exact bytesFromReportedSize_pos happrox
    | none =>
      obtain ⟨rate, -, h⟩ := bind_eq_ok.mp h
      cases h
      intro n hn
      obtain ⟨x, -, hx⟩ := Option.bind_eq_some_iff.mp hn
      exact bytesFromBitrate_pos hx

theorem containerOf_bounded (h : containerOf value = some container) :
    1 ≤ (textOfPoints container).length ∧ (textOfPoints container).length ≤ 16 ∧
      ∀ c ∈ (textOfPoints container).toList, isLowerAlnum c.toNat = true := by
  have hbounds := (Option.filter_eq_some_iff.mp h).2
  simp only [Bool.and_eq_true, decide_eq_true_eq, List.all_eq_true] at hbounds
  obtain ⟨⟨hpos, hmax⟩, hall⟩ := hbounds
  unfold textOfPoints
  rw [String.length_ofList, List.length_map, String.toList_ofList]
  refine ⟨hpos, hmax, fun c hc => ?_⟩
  obtain ⟨k, hk, rfl⟩ := List.mem_map.mp hc
  have halnum := hall k hk
  have hlt : k < 128 := by
    unfold isLowerAlnum at halnum
    simp at halnum
    omega
  rw [Utf16.toNat_ofNat (.inl (by omega))]
  exact halnum

theorem roundHalfEven_le {x : ℚ} {bound : ℤ} (h : x ≤ bound) : roundHalfEven x ≤ bound := by
  have hfloor : (x.floor : ℚ) ≤ x := Int.floor_le x
  have hle : x.floor ≤ bound := by exact_mod_cast hfloor.trans h
  by_cases heq : x.floor = bound
  · have hzero : x - x.floor < 1 / 2 := by
      rw [heq]
      linarith
    unfold roundHalfEven
    dsimp only
    rw [if_pos hzero]
    exact hle
  · unfold roundHalfEven
    dsimp only
    split_ifs <;> omega

theorem tracksOf_spec {width height : Option ℕ} (h : tracksOf item width height = some tracks) :
    tracks.width = width ∧ tracks.height = height ∧
      (tracks.hasVideo = true ∨ tracks.hasAudio = true) := by
  unfold tracksOf at h
  dsimp only at h
  split at h
  · cases h
  split at h
  · cases h
  rename_i hnone
  cases h
  refine ⟨rfl, rfl, ?_⟩
  by_contra hneither
  refine hnone ?_
  rw [not_or, Bool.not_eq_true, Bool.not_eq_true] at hneither
  rw [Bool.and_eq_true, Bool.not_eq_true', Bool.not_eq_true']
  exact hneither

theorem readCandidate_bounded (hcontainer : containerOf value = some container)
    (hwidth : ∀ width ∈ tracks.width, width ≤ args.maxWidth)
    (hheight : ∀ height ∈ tracks.height, height ≤ args.maxHeight)
    (htracks : tracks.hasVideo = true ∨ tracks.hasAudio = true)
    (h : readCandidate args duration item container tracks = .ok (some candidate)) :
    CandidateBounded args candidate := by
  obtain ⟨fps, -, h⟩ := bind_eq_ok.mp h
  by_cases hfps : fps.any (240 < ·) = true
  · rw [if_pos hfps] at h
    cases h
  rw [if_neg hfps] at h
  obtain ⟨bitrate, -, h⟩ := bind_eq_ok.mp h
  obtain ⟨approxBytes, hsize, h⟩ := bind_eq_ok.mp h
  by_cases hmax : approxBytes.any (args.maxBytes < ·) = true
  · rw [if_pos hmax] at h
    cases h
  rw [if_neg hmax] at h
  cases h
  refine ⟨containerOf_bounded hcontainer, hwidth, hheight, ?_, ?_, ?_, htracks⟩
  · rintro x ⟨⟩
    simpa using hfps
  · intro rate hrate
    obtain ⟨x, hx, rfl⟩ := Option.map_eq_some_iff.mp hrate
    have hle : x ≤ ((100000 : ℤ) : ℚ) := by
      simpa using (Option.mem_filter_iff.mp hx).2
    have := roundHalfEven_le hle
    omega
  · rintro n ⟨⟩
    refine ⟨estimateFormatBytes_pos hsize n rfl, ?_⟩
    simpa using hmax

theorem parseFormat_bounded (h : parseFormat args duration value = .ok (some candidate)) :
    CandidateBounded args candidate := by
  cases value with
  | obj item =>
    rw [parseFormat] at h
    cases hcontainer : containerOf (get item "ext") with
    | none =>
      rw [hcontainer] at h
      cases h
    | some container =>
      rw [hcontainer] at h
      obtain ⟨width, hwidth, h⟩ := bind_eq_ok.mp h
      obtain ⟨height, hheight, h⟩ := bind_eq_ok.mp h
      cases htracks : tracksOf item width height with
      | none =>
        rw [htracks] at h
        cases h
      | some tracks =>
        rw [htracks] at h
        obtain ⟨hwidthEq, hheightEq, hany⟩ := tracksOf_spec htracks
        refine readCandidate_bounded hcontainer ?_ ?_ hany h
        · rw [hwidthEq]
          exact intDim_le hwidth
        · rw [hheightEq]
          exact intDim_le hheight
  | _ => cases h

theorem parseFormats_bounded {candidates : List InternalFormatCandidate}
    (h : parseFormats args duration payload = .ok candidates) :
    ∀ candidate ∈ candidates, CandidateBounded args candidate := by
  unfold parseFormats at h
  cases hformats : rawFormats payload with
  | arr formats =>
    rw [hformats] at h
    obtain ⟨-, -, h⟩ := bind_eq_ok.mp h
    obtain ⟨results, hresults, h⟩ := bind_eq_ok.mp h
    cases h
    intro candidate hcandidate
    obtain ⟨result, hresult, hsome⟩ := List.mem_filterMap.mp hcandidate
    obtain rfl : result = some candidate := hsome
    obtain ⟨item, -, hitem⟩ := (mem_mapM hresults).mp hresult
    exact parseFormat_bounded hitem
  | _ =>
    rw [hformats] at h
    cases h

theorem truncate_le {x : ℚ} {bound : ℕ} (h : x ≤ bound) : (truncate x).toNat ≤ bound := by
  unfold truncate
  split_ifs with hx
  · have hle : x.floor ≤ (bound : ℤ) := by
      have hfloor : (x.floor : ℚ) ≤ x := Int.floor_le x
      exact_mod_cast hfloor.trans h
    omega
  · have hle : x.ceil ≤ (0 : ℤ) := by
      exact Rat.ceil_le_iff.mpr (not_le.mp hx).le
    omega

theorem readDraft_bounded {draft : BoundDraft} (h : readDraft args payload extractor = .ok draft) :
    Bounded args draft := by
  obtain ⟨seconds, -, h⟩ := bind_eq_ok.mp h
  obtain ⟨_, hmax, h⟩ := bind_eq_ok.mp h
  obtain ⟨candidates, hcandidates, h⟩ := bind_eq_ok.mp h
  obtain ⟨-, -, h⟩ := bind_eq_ok.mp h
  cases h
  refine ⟨rfl, rfl, rfl, ?_, parseFormats_bounded hcandidates⟩
  intro d hd
  obtain ⟨x, hx, rfl⟩ := Option.map_eq_some_iff.mp hd
  exact truncate_le (require_eq_ok.mp hmax x hx)

/-! ## The parser -/

theorem loadOutput_catalogued_iff :
    Catalogued (loadOutput py raw) ↔ py.loads raw ≠ .error .valueError := by
  unfold loadOutput
  cases py.loads raw with
  | ok payload => exact iff_of_true catalogued_ok nofun
  | error e =>
    cases e with
    | valueError =>
      refine iff_of_false (fun h => ?_) fun h => h rfl
      obtain ⟨kind, reason, he⟩ := h _ rfl
      cases he
    | _ => exact iff_of_true catalogued_reject nofun

theorem loadOutput_eq_ok {payload : Json} :
    loadOutput py raw = .ok payload ↔ py.loads raw = .ok payload := by
  unfold loadOutput
  cases py.loads raw with
  | ok payload => rw [Except.ok.injEq, Except.ok.injEq]
  | error e => cases e <;> exact iff_of_false nofun nofun

theorem extractorValues_catalogued {values : List Json} : Catalogued (extractorValues values) := by
  induction values with
  | nil => exact catalogued_ok
  | cons value values ih =>
    cases value with
    | null => exact ih
    | str text =>
      exact catalogued_require_bind.mpr fun _ => catalogued_bind.mpr ⟨ih, fun _ _ => catalogued_ok⟩
    | _ => exact catalogued_reject

theorem extractorKey_catalogued {allowed : List Str} :
    Catalogued (extractorKey allowed payload) := by
  refine catalogued_bind.mpr ⟨extractorValues_catalogued, fun values _ => ?_⟩
  refine catalogued_require_bind.mpr fun _ => catalogued_require_bind.mpr fun _ => ?_
  split
  · exact catalogued_ok
  · split
    · exact catalogued_ok
    · exact catalogued_reject

theorem urlMediaIds_catalogued {values : List Json} : Catalogued (urlMediaIds py args values) := by
  induction values with
  | nil => exact catalogued_ok
  | cons value values ih =>
    cases value with
    | null => exact ih
    | str text =>
      refine catalogued_bind.mpr ⟨?_, fun _ _ => catalogued_bind.mpr ⟨ih, fun _ _ => catalogued_ok⟩⟩
      unfold parseIdentityFromUrl
      split
      · exact catalogued_ok
      · exact catalogued_reject
    | _ => exact catalogued_reject

theorem payloadMediaId_catalogued : Catalogued (payloadMediaId payload) := by
  unfold payloadMediaId
  split
  · exact catalogued_ok
  · exact catalogued_ok
  · exact catalogued_reject

theorem catalogued_require {c : Prop} [Decidable c] {kind : InspectionErrorKind} {reason : String} :
    Catalogued (require c kind reason) := by
  unfold require
  split_ifs
  · exact catalogued_ok
  · exact catalogued_reject

theorem bindResultIdentity_catalogued : Catalogued (bindResultIdentity py args payload) := by
  refine catalogued_bind.mpr ⟨urlMediaIds_catalogued, fun _ _ => ?_⟩
  refine catalogued_require_bind.mpr fun _ => catalogued_require_bind.mpr fun _ =>
    catalogued_require_bind.mpr fun _ => ?_
  exact catalogued_bind.mpr ⟨payloadMediaId_catalogued, fun _ _ => catalogued_require⟩

theorem admission_catalogued : Catalogued (admission py args payload) := by
  refine catalogued_bind.mpr ⟨?_, fun _ _ => catalogued_bind.mpr ⟨?_, fun _ _ => ?_⟩⟩
  · unfold assertJsonStructure
    split
    · exact catalogued_ok
    · exact catalogued_reject
  · refine catalogued_require_bind.mpr fun _ => ?_
    split
    · exact catalogued_reject
    · exact catalogued_ok
  · refine catalogued_bind.mpr ⟨extractorKey_catalogued, fun _ _ => ?_⟩
    refine catalogued_require_bind.mpr fun _ => ?_
    exact catalogued_bind.mpr ⟨bindResultIdentity_catalogued, fun _ _ => catalogued_ok⟩

theorem parseYtdlpJson_bounded {draft : BoundDraft} (h : parseYtdlpJson py args raw = .ok draft) :
    Bounded args draft := by
  obtain ⟨-, -, h⟩ := bind_eq_ok.mp h
  obtain ⟨root, -, h⟩ := bind_eq_ok.mp h
  cases root with
  | obj payload =>
    obtain ⟨extractor, -, h⟩ := bind_eq_ok.mp h
    exact readDraft_bounded h
  | _ => cases h

/-- Only an `InspectionError` is raised and every draft is bounded, if and only if no integer is
too long for the decoder and none that an admitted payload has for a number is too large. -/
theorem catalogued_and_bounded_iff (py : Tool) (args : InspectArgs) (raw : List UInt8) :
    (Catalogued (parseYtdlpJson py args raw) ∧
      ∀ draft, parseYtdlpJson py args raw = .ok draft → Bounded args draft) ↔
    (raw ≠ [] → py.loads raw ≠ .error .valueError ∧
      ∀ payload extractor, py.loads raw = .ok (.obj payload) →
        admission py args payload = .ok extractor → ∀ n ∈ numbersRead args payload, ¬TooLarge n) := by
  rw [and_iff_left fun draft => parseYtdlpJson_bounded]
  refine catalogued_require_bind.trans (forall_congr' fun _ => catalogued_bind.trans ?_)
  rw [loadOutput_catalogued_iff]
  refine and_congr_right fun _ =>
    ⟨fun h payload extractor hload hadmit => ?_, fun h root hroot => ?_⟩
  · have hparse := h _ (loadOutput_eq_ok.mpr hload)
    exact readDraft_catalogued_iff.mp ((catalogued_bind.mp hparse).2 extractor hadmit)
  · rw [loadOutput_eq_ok] at hroot
    cases root with
    | obj payload =>
      refine catalogued_bind.mpr ⟨admission_catalogued, fun extractor hadmit => ?_⟩
      exact readDraft_catalogued_iff.mpr (h payload extractor hroot hadmit)
    | _ => exact catalogued_reject

/-! ## A long duration -/

def textField (key value : String) : Str × Json := (codePoints key, .str (codePoints value))

/-- What is reported on an expected medium, with a duration of 10 to the power of 309. -/
def longPayload : Fields :=
  [textField "id" "1_2", textField "extractor_key" "vk",
    textField "webpage_url" "https://vk.com/video1_2", (codePoints "duration", .int (10 ^ 309))]

def longOutput : List UInt8 :=
  ("\x7b\"id\":\"1_2\",\"extractor_key\":\"vk\"," ++
    "\"webpage_url\":\"https://vk.com/video1_2\",\"duration\":1").toList.map
      (·.toNat.toUInt8) ++ List.replicate 309 48 ++ [125]

def sampleTool : Tool where
  tables := ⟨fun _ => none, fun _ => false⟩
  loads raw := if raw = longOutput then .ok (.obj longPayload) else .error .jsonDecodeError
  float _ := none
  repr _ := []
  recursionLimit := 1000
  urls := Url.asciiText

/-- The limits as they are by default. -/
def sampleArgs : InspectArgs where
  expectedProviderId := "vk"
  expectedCanonicalUrl := "https://vk.com/video1_2"
  expectedMediaId := codePoints "1_2"
  allowedExtractorKeys := [codePoints "vk"]
  allowedHostnames := [codePoints "vk.com"]
  maxHeight := 2160
  maxWidth := 3840
  maxBytes := 3221225472
  maxDuration := 7200
  toolVersion := none
  maxJsonDepth := 12
  maxJsonNodes := 8192
  maxMappingKeys := 256
  maxListLen := 512
  maxStringLen := 8192
  maxFormatEntries := 256

/-- The duration escapes as an `OverflowError`. -/
theorem long_duration_overflows : ¬(Catalogued (parseYtdlpJson sampleTool sampleArgs longOutput) ∧
    ∀ draft, parseYtdlpJson sampleTool sampleArgs longOutput = .ok draft →
      Bounded sampleArgs draft) := by
  intro h
  have hescape : (match parseYtdlpJson sampleTool sampleArgs longOutput with
      | .error e => some e
      | .ok _ => none) = some .overflowError := by
    decide +kernel
  cases hparse : parseYtdlpJson sampleTool sampleArgs longOutput with
  | ok draft =>
    rw [hparse] at hescape
    cases hescape
  | error e =>
    rw [hparse] at hescape
    obtain rfl := Option.some.inj hescape
    obtain ⟨kind, reason, he⟩ := h.1 _ hparse
    cases he

end FetchNow.Ytdlp
