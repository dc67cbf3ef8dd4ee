import FetchNow.Downloads.Selection
import FetchNow.Theory.Agreement
import FetchNow.Theory.TieBreaks

/-!
# Catalogs and the order of candidates

The streams of a draft are sorted before they are cut off, paired and collected, by keys that leave
ties. What the projection and the selection make of a draft depends on the order of its candidates
only through ties that are cut apart or collapsed, and not where they raise in every order.
-/
namespace FetchNow

open Transactions Merging TieBreaks Agreement

section Ties

variable (settings : MediaSettings) (candidates : List InternalFormatCandidate)
  (video audio : InternalFormatCandidate)

/-- The format of a video that is muxed with an audio. -/
def muxFormat (output : String) : MediaFormat :=
  { formatOptionId := muxOptionIdFor video audio output (qualityLabelFor video.height true)
    container := output, width := video.width, height := video.height, fps := video.fps
    hasVideo := true, hasAudio := true, category := .progressive
    videoCodec := video.videoCodec, audioCodec := audio.audioCodec
    approxBytes := sumApproxBytes video.approxBytes audio.approxBytes
    qualityLabel := qualityLabelFor video.height true, freeTierEligible := true
    mediaKind := .normalVideo, requiresPremium := false, bitrateKbps := none }

/-- The video is among the first ones in some order of the candidates. -/
structure Admissible : Prop where
  mem : video ∈ candidates
  usable : usableVideo video = true
  within : below videoSortKey (candidates.filter usableVideo) (videoSortKey video) <
    settings.mediaMuxingMaxVideoCandidates

/-- The audio is the first that goes with the video in some order of the candidates. -/
structure PairedWith : Prop where
  mem : audio ∈ candidates
  usable : usableAudio audio = true
  goes : (outputPolicyFor video audio).isSome = true
  first : ∀ other ∈ candidates, usableAudio other = true →
    (outputPolicyFor video other).isSome = true → audioSortKey audio ≤ audioSortKey other
  within : below audioSortKey (candidates.filter usableAudio) (audioSortKey audio) <
    settings.mediaMuxingMaxAudioCandidates

def Oversize : Prop :=
  (sumApproxBytes video.approxBytes audio.approxBytes).any (settings.maxSourceFileBytes < ·) = true

/-- No option is made of the video. -/
def Idle : Prop := ∀ audio, PairedWith settings candidates video audio → Oversize settings video audio

/-- Ties that decide nothing: a video is paired with the same audio, a tie that the limit divides is
between equal videos or such of which nothing is made, and videos that cannot be told apart in the
catalog are equal. -/
structure TiesSettled : Prop where
  audios : ∀ video, Admissible settings candidates video → Idle settings candidates video ∨
    ∀ audio other, PairedWith settings candidates video audio →
      PairedWith settings candidates video other → audio = other
  divided : ∀ video other, Admissible settings candidates video →
    Admissible settings candidates other → videoSortKey video = videoSortKey other →
    settings.mediaMuxingMaxVideoCandidates <
      upTo videoSortKey (candidates.filter usableVideo) (videoSortKey video) →
    video = other ∨ Idle settings candidates video ∧ Idle settings candidates other
  twins : ∀ video other audio output, Admissible settings candidates video →
    Admissible settings candidates other → PairedWith settings candidates video audio →
    PairedWith settings candidates other audio → outputPolicyFor video audio = some output →
    outputPolicyFor other audio = some output → ¬ Oversize settings video audio →
    video.providerFormatToken = other.providerFormatToken →
    muxFormat video audio output = muxFormat other audio output → video = other

/-- In every order of the candidates the video is among the first ones and paired with an audio, and
`MediaFormat` raises for the pair. -/
structure Raises : Prop where
  mem : video ∈ candidates
  usable : usableVideo video = true
  within : upTo videoSortKey (candidates.filter usableVideo) (videoSortKey video) ≤
    settings.mediaMuxingMaxVideoCandidates
  paired : ∃ audio, PairedWith settings candidates video audio
  raises : ∀ audio output, PairedWith settings candidates video audio →
    outputPolicyFor video audio = some output → ¬ Oversize settings video audio ∧
      ∀ format, (muxFormat video audio output).postInit ≠ .ok format

/-- The order of the candidates does not show. -/
def Settled : Prop :=
  TiesSettled settings candidates ∨ ∃ video, Raises settings candidates video

end Ties

variable {settings : MediaSettings} {candidates candidates' : List InternalFormatCandidate}
  {video audio other : InternalFormatCandidate} {output : String}
  {audios audios' videos videos' : List InternalFormatCandidate}

/-! ## Pairing -/

theorem usableAudio_cases (h : usableAudio audio = true) :
    (audio.container ∈ ["m4a", "mp4"] ∧ audio.audioCodec ∈ mp4Audio) ∨
      audio.container ∉ ["m4a", "mp4"] ∧ audio.container ∈ ["webm", "ogg", "opus"] ∧
        audio.audioCodec ∈ webmAudio := by
  simp only [usableAudio, Bool.and_eq_true] at h
  obtain ⟨-, h⟩ := h
  split at h
  · rename_i hcontainer
    exact .inl ⟨hcontainer, of_decide_eq_true h⟩
  · rename_i hcontainer
    split at h
    · rename_i hcontainer'
      exact .inr ⟨hcontainer, hcontainer', of_decide_eq_true h⟩
    · cases h

/-- The container of a usable audio decides what it goes with. -/
theorem outputPolicyFor_usable (h : usableAudio audio = true) (h' : usableAudio other = true)
    (hcontainer : audio.container = other.container) :
    outputPolicyFor video audio = outputPolicyFor video other := by
  rcases usableAudio_cases h with ⟨hmem, hcodec⟩ | ⟨hmem, hmem', hcodec⟩
  · rcases usableAudio_cases h' with ⟨-, hcodec'⟩ | ⟨hnot, -⟩
    · have hwebm : other.container ∉ ["webm", "ogg", "opus"] := by
        rw [← hcontainer]
        simp only [List.mem_cons, List.not_mem_nil, or_false] at hmem ⊢
        rcases hmem with heq | heq <;> rw [heq] <;> decide
      simp only [outputPolicyFor, hcontainer, hcontainer ▸ hmem, hcodec, hcodec', hwebm, true_and,
        and_true, false_and, and_false, if_false]
    · exact absurd (hcontainer ▸ hmem) hnot
  · rcases usableAudio_cases h' with ⟨hmem'', -⟩ | ⟨-, -, hcodec'⟩
    · exact absurd (hcontainer ▸ hmem'') hmem
    · have hwebm : other.container ∈ ["webm", "ogg", "opus"] := hcontainer ▸ hmem'
      have hmp4 : other.container ∉ ["m4a", "mp4"] := hcontainer ▸ hmem
      simp only [outputPolicyFor, hcontainer, hwebm, hmp4, hcodec, hcodec', true_and, and_true,
        false_and, and_false, if_false]

/-- What goes with a video in one output goes with every video of that output. -/
theorem outputPolicyFor_exchange {video' audio' : InternalFormatCandidate}
    (h : outputPolicyFor video audio = some output) (h' : outputPolicyFor video' audio' = some output) :
    outputPolicyFor video audio' = some output := by
  unfold outputPolicyFor at h h' ⊢
  split at h
  · rename_i hmp4
    cases h
    split at h'
    · rename_i hmp4'
      rw [if_pos ⟨hmp4.1, hmp4'.2.1, hmp4.2.2.1, hmp4'.2.2.2⟩]
    · split at h'
      · simp at h'
      · cases h'
  · split at h
    · rename_i hwebm
      cases h
      have hnot : video.container ≠ "mp4" := by
        rw [hwebm.1]
        decide
      rw [if_neg fun hmp4 => hnot hmp4.1]
      split at h'
      · simp at h'
      · split at h'
        · rename_i hwebm'
          rw [if_pos ⟨hwebm.1, hwebm'.2.1, hwebm.2.2.1, hwebm'.2.2.2⟩]
        · cases h'
    · cases h

/-- The usable streams, sorted in some order of ties. -/
structure SortedAudios (candidates audios : List InternalFormatCandidate) : Prop where
  sorted : Sorted audioSortKey audios
  perm : audios.Perm (candidates.filter usableAudio)

structure SortedVideos (candidates videos : List InternalFormatCandidate) : Prop where
  sorted : Sorted videoSortKey videos
  perm : videos.Perm (candidates.filter usableVideo)

def pairing (video audio : InternalFormatCandidate) : Option (InternalFormatCandidate × String) :=
  (outputPolicyFor video audio).map (audio, ·)

theorem SortedAudios.mem (h : SortedAudios candidates audios) :
    audio ∈ audios ↔ audio ∈ candidates ∧ usableAudio audio = true := by
  rw [h.perm.mem_iff, List.mem_filter]

theorem SortedAudios.ties (h : SortedAudios candidates audios) : ∀ audio ∈ audios,
    ∀ other ∈ audios, audioSortKey audio = audioSortKey other →
      (pairing video audio).isSome = (pairing video other).isSome := by
  intro audio haudio other hother hkey
  have hcontainer : audio.container = other.container := congrArg (fun k => (ofLex (ofLex k).2).2) hkey
  rw [pairing, pairing, Option.isSome_map, Option.isSome_map,
    outputPolicyFor_usable (h.mem.mp haudio).2 (h.mem.mp hother).2 hcontainer]

/-- A first audio is one that a video is paired with. -/
theorem SortedAudios.pairedWith (h : SortedAudios candidates audios) (haudio : audio ∈ audios)
    (hsome : (pairing video audio).isSome = true)
    (hfirst : ∀ a ∈ audios, (pairing video a).isSome = true → audioSortKey audio ≤ audioSortKey a)
    (hbelow : below audioSortKey audios (audioSortKey audio) <
      settings.mediaMuxingMaxAudioCandidates) : PairedWith settings candidates video audio := by
  obtain ⟨hmem, husable⟩ := h.mem.mp haudio
  refine ⟨hmem, husable, by rwa [pairing, Option.isSome_map] at hsome, ?_, ?_⟩
  · intro a ha husable hgoes
    exact hfirst a (h.mem.mpr ⟨ha, husable⟩) (by rwa [pairing, Option.isSome_map])
  · rwa [← below_perm h.perm]

theorem SortedAudios.found (h : SortedAudios candidates audios)
    (hfound : (audios.take settings.mediaMuxingMaxAudioCandidates).findSome? (pairing video) =
      some (audio, output)) :
    PairedWith settings candidates video audio ∧ outputPolicyFor video audio = some output := by
  have hsome : ∃ a ∈ audios, pairing video a ≠ none := by
    obtain ⟨l₁, a, l₂, hl, ha, -⟩ := List.findSome?_eq_some_iff.mp hfound
    refine ⟨a, List.mem_of_mem_take (by rw [hl]; simp), by rw [ha]; simp⟩
  obtain ⟨a, ha, hsome, hfirst, heq⟩ := h.sorted.found h.ties hsome
    settings.mediaMuxingMaxAudioCandidates
  rw [hfound] at heq
  split at heq
  · rename_i hbelow
    obtain ⟨out, hout, hpair⟩ := Option.map_eq_some_iff.mp heq.symm
    cases hpair
    exact ⟨h.pairedWith ha hsome hfirst hbelow, hout⟩
  · cases heq

theorem muxOption_eq : muxOption settings audios video =
    match audios.findSome? (pairing video) with
    | none => .ok none
    | some (audio, output) =>
      if (sumApproxBytes video.approxBytes audio.approxBytes).any (settings.maxSourceFileBytes < ·)
      then .ok none
      else (muxFormat video audio output).postInit >>= fun publicFormat =>
        .ok (some ⟨publicFormat, video, audio, output⟩) := rfl

/-- What an option is made of. -/
theorem muxOption_eq_some {option : DerivedMuxOption} (h : SortedAudios candidates audios)
    (hoption : muxOption settings (audios.take settings.mediaMuxingMaxAudioCandidates) video =
      .ok (some option)) :
    option.video = video ∧ PairedWith settings candidates video option.audio ∧
      outputPolicyFor video option.audio = some option.outputContainer ∧
      ¬ Oversize settings video option.audio ∧
      option.publicFormat = muxFormat video option.audio option.outputContainer := by
  rw [muxOption_eq] at hoption
  split at hoption
  · cases hoption
  rename_i audio output hfound
  obtain ⟨hpaired, hout⟩ := h.found hfound
  split at hoption
  · cases hoption
  rename_i hsize
  obtain ⟨format, hformat, hoption⟩ := bind_eq_ok.mp hoption
  cases hoption
  exact ⟨rfl, hpaired, hout, hsize, MediaFormat.eq_of_postInit hformat⟩

theorem muxOption_idle (h : SortedAudios candidates audios)
    (hidle : Idle settings candidates video) :
    muxOption settings (audios.take settings.mediaMuxingMaxAudioCandidates) video = .ok none := by
  rw [muxOption_eq]
  split
  · rfl
  rename_i audio output hfound
  exact if_pos (hidle audio (h.found hfound).1)

theorem SortedAudios.raises (h : SortedAudios candidates audios)
    (hraises : Raises settings candidates video) : ∃ e,
    muxOption settings (audios.take settings.mediaMuxingMaxAudioCandidates) video = .error e := by
  obtain ⟨audio, hpaired⟩ := hraises.paired
  have haudio : audio ∈ audios := h.mem.mpr ⟨hpaired.mem, hpaired.usable⟩
  have hsome : pairing video audio ≠ none := by
    rw [← Option.isSome_iff_ne_none, pairing, Option.isSome_map]
    exact hpaired.goes
  obtain ⟨a, ha, hgoes, hfirst, hfound⟩ := h.sorted.found h.ties ⟨audio, haudio, hsome⟩
    settings.mediaMuxingMaxAudioCandidates
  have hkey : audioSortKey a = audioSortKey audio := by
    apply le_antisymm (hfirst audio haudio (Option.isSome_iff_ne_none.mpr hsome))
    obtain ⟨hmem, husable⟩ := h.mem.mp ha
    exact hpaired.first a hmem husable (by rwa [pairing, Option.isSome_map] at hgoes)
  have hbelow : below audioSortKey audios (audioSortKey a) <
      settings.mediaMuxingMaxAudioCandidates := by
    rw [hkey, below_perm h.perm]
    exact hpaired.within
  rw [if_pos hbelow] at hfound
  obtain ⟨⟨a', output⟩, hpair⟩ := Option.isSome_iff_exists.mp hgoes
  obtain ⟨out, hout, heq⟩ := Option.map_eq_some_iff.mp hpair
  cases heq
  obtain ⟨hsize, hformat⟩ := hraises.raises a output (h.pairedWith ha hgoes hfirst hbelow) hout
  rw [muxOption_eq, hfound, hpair]
  unfold Oversize at hsize
  simp only [if_neg hsize]
  cases hpost : (muxFormat video a output).postInit with
  | error e => exact ⟨e, rfl⟩
  | ok format => exact absurd hpost (hformat format)

/-- What a video contributes does not depend on the order of the audios. -/
theorem muxOption_sorted (h : SortedAudios candidates audios) (h' : SortedAudios candidates audios')
    (hsettled : TiesSettled settings candidates) (hvideo : Admissible settings candidates video) :
    muxOption settings (audios.take settings.mediaMuxingMaxAudioCandidates) video =
      muxOption settings (audios'.take settings.mediaMuxingMaxAudioCandidates) video := by
  rcases hsettled.audios video hvideo with hidle | hunique
  · rw [muxOption_idle h hidle, muxOption_idle h' hidle]
  · have hfound := h.sorted.findSome?_take h'.sorted (h.perm.trans h'.perm.symm)
      (n := settings.mediaMuxingMaxAudioCandidates) (@SortedAudios.ties candidates video _ h) (by
        intro x hx y hy hkey hsome hfirst hbelow
        have hsome' := hsome
        rw [h.ties x hx y hy hkey] at hsome'
        have hpaired := h.pairedWith hx hsome hfirst hbelow
        rw [hkey] at hfirst hbelow
        rw [hunique x y hpaired (h.pairedWith hy hsome' hfirst hbelow)])
    rw [muxOption_eq, muxOption_eq, hfound]

/-! ## Derivation -/

theorem SortedVideos.admissible (h : SortedVideos candidates videos)
    (hvideo : video ∈ videos.take settings.mediaMuxingMaxVideoCandidates) :
    Admissible settings candidates video := by
  have hmem := h.perm.mem_iff.mp (List.mem_of_mem_take hvideo)
  obtain ⟨hmem, husable⟩ := List.mem_filter.mp hmem
  refine ⟨hmem, husable, ?_⟩
  rw [← below_perm h.perm]
  exact h.sorted.below_lt hvideo

/-- The options of the first videos are the same up to their order. -/
theorem prepared_agree (h : SortedAudios candidates audios) (h' : SortedAudios candidates audios')
    (hv : SortedVideos candidates videos) (hv' : SortedVideos candidates videos')
    (hsettled : TiesSettled settings candidates) :
    Agree List.Perm
      ((videos.take settings.mediaMuxingMaxVideoCandidates).mapM
        (muxOption settings (audios.take settings.mediaMuxingMaxAudioCandidates)))
      ((videos'.take settings.mediaMuxingMaxVideoCandidates).mapM
        (muxOption settings (audios'.take settings.mediaMuxingMaxAudioCandidates))) := by
  have hperm := hv.perm.trans hv'.perm.symm
  apply mapM_perm
  have hsame : (videos'.take settings.mediaMuxingMaxVideoCandidates).map
      (muxOption settings (audios'.take settings.mediaMuxingMaxAudioCandidates)) =
        (videos'.take settings.mediaMuxingMaxVideoCandidates).map
          (muxOption settings (audios.take settings.mediaMuxingMaxAudioCandidates)) :=
    List.map_congr_left fun video hvideo =>
      muxOption_sorted h' h hsettled (hv'.admissible hvideo)
  rw [hsame]
  apply hv.sorted.perm_map_take hv'.sorted hperm
  intro x hx y hy hkey hbelow hupTo
  rw [below_perm hv.perm] at hbelow
  rw [upTo_perm hv.perm] at hupTo
  obtain ⟨hxmem, hxusable⟩ := List.mem_filter.mp (hv.perm.mem_iff.mp hx)
  obtain ⟨hymem, hyusable⟩ := List.mem_filter.mp (hv.perm.mem_iff.mp hy)
  rcases hsettled.divided x y ⟨hxmem, hxusable, hbelow⟩ ⟨hymem, hyusable, hkey ▸ hbelow⟩ hkey hupTo
    with rfl | ⟨hidle, hidle'⟩
  · rfl
  · rw [muxOption_idle h hidle, muxOption_idle h hidle']

theorem muxBindingEquivalent_iff {left right : DerivedMuxOption} :
    muxBindingEquivalent left right = true ↔ left.outputContainer = right.outputContainer ∧
      left.video.providerFormatToken = right.video.providerFormatToken ∧
      left.audio.providerFormatToken = right.audio.providerFormatToken ∧
      left.publicFormat = right.publicFormat := by
  simp only [muxBindingEquivalent, Bool.and_eq_true, decide_eq_true_eq, and_assoc]

/-- Options that bind identically are equal. -/
theorem option_unique {option option' : DerivedMuxOption} (h : SortedAudios candidates audios)
    (hv : SortedVideos candidates videos) (hsettled : TiesSettled settings candidates)
    {prepared : List (Option DerivedMuxOption)}
    (hprepared : (videos.take settings.mediaMuxingMaxVideoCandidates).mapM
      (muxOption settings (audios.take settings.mediaMuxingMaxAudioCandidates)) = .ok prepared)
    (hoption : option ∈ prepared.filterMap id) (hoption' : option' ∈ prepared.filterMap id)
    (hsame : muxBindingEquivalent option option' = true) : option = option' := by
  obtain ⟨_, hfound, rfl⟩ := List.mem_filterMap.mp hoption
  obtain ⟨_, hfound', rfl⟩ := List.mem_filterMap.mp hoption'
  obtain ⟨video, hvideo, hmade⟩ := (mem_mapM hprepared).mp hfound
  obtain ⟨video', hvideo', hmade'⟩ := (mem_mapM hprepared).mp hfound'
  obtain ⟨rfl, hpaired, hout, hsize, hformat⟩ := muxOption_eq_some h hmade
  obtain ⟨rfl, hpaired', hout', hsize', hformat'⟩ := muxOption_eq_some h hmade'
  obtain ⟨hcontainer, htoken, -, hpublic⟩ := muxBindingEquivalent_iff.mp hsame
  rw [← hcontainer] at hout'
  have hgoes := outputPolicyFor_exchange hout hout'
  have hgoes' := outputPolicyFor_exchange hout' hout
  have hadmissible := hv.admissible hvideo
  -- the audio of either option is first for both videos
  have hcross : PairedWith settings candidates option.video option'.audio := by
    refine ⟨hpaired'.mem, hpaired'.usable, by rw [hgoes]; rfl, ?_, hpaired'.within⟩
    intro a ha husable hsome
    obtain ⟨out, hsome⟩ := Option.isSome_iff_exists.mp hsome
    have hle := hpaired.first a ha husable (by rw [hsome]; rfl)
    have hle' := hpaired'.first option.audio hpaired.mem hpaired.usable (by rw [hgoes']; rfl)
    exact hle'.trans hle
  rcases hsettled.audios option.video hadmissible with hidle | hunique
  · exact absurd (hidle _ hpaired) hsize
  · have haudio := hunique _ _ hpaired hcross
    have hvideos : option.video = option'.video := by
      rw [← haudio] at hpaired' hout'
      refine hsettled.twins _ _ _ _ hadmissible (hv.admissible hvideo') hpaired hpaired' hout hout'
        hsize htoken ?_
      rw [← hformat, hpublic, hformat', haudio, hcontainer]
    cases option
    cases option'
    simp only at hvideos haudio hcontainer hpublic
    rw [hvideos, haudio, hcontainer, hpublic]

/-- Collecting options does not depend on their order. -/
theorem collect_options {options' : List DerivedMuxOption} {prepared : List DerivedMuxOption}
    {conflict : Raised}
    (hunique : ∀ option ∈ prepared, ∀ option' ∈ prepared,
      muxBindingEquivalent option option' = true → option = option')
    (hp : (prepared.insertionSort fun a b =>
      a.publicFormat.formatOptionId ≤ b.publicFormat.formatOptionId).Perm options') :
    Agree List.Perm
      (collect (·.publicFormat.formatOptionId) muxBindingEquivalent conflict []
        (prepared.insertionSort fun a b =>
          a.publicFormat.formatOptionId ≤ b.publicFormat.formatOptionId))
      (collect (·.publicFormat.formatOptionId) muxBindingEquivalent conflict [] options') := by
  apply collect_perm ?_ ?_ ?_ ?_ hp
  · intro a
    exact muxBindingEquivalent_iff.mpr ⟨rfl, rfl, rfl, rfl⟩
  · intro a b h
    obtain ⟨h₁, h₂, h₃, h₄⟩ := muxBindingEquivalent_iff.mp h
    exact muxBindingEquivalent_iff.mpr ⟨h₁.symm, h₂.symm, h₃.symm, h₄.symm⟩
  · intro a b c h h'
    obtain ⟨h₁, h₂, h₃, h₄⟩ := muxBindingEquivalent_iff.mp h
    obtain ⟨h₁', h₂', h₃', h₄'⟩ := muxBindingEquivalent_iff.mp h'
    exact muxBindingEquivalent_iff.mpr ⟨h₁.trans h₁', h₂.trans h₂', h₃.trans h₃', h₄.trans h₄'⟩
  · intro a ha b hb _ hsame
    exact hunique a ((List.mem_insertionSort _).mp ha) b ((List.mem_insertionSort _).mp hb) hsame

/-- The order in which options are listed is total on options with different ids. -/
theorem insertionSort_options {unique unique' : List DerivedMuxOption}
    (hnodup : (unique.map (·.publicFormat.formatOptionId)).Nodup) (hp : unique.Perm unique') :
    (unique.insertionSort fun a b => a.sortKey ≤ b.sortKey) =
      unique'.insertionSort fun a b => a.sortKey ≤ b.sortKey := by
  have hperm := List.perm_insertionSort (fun a b : DerivedMuxOption => a.sortKey ≤ b.sortKey) unique
  have hperm' := List.perm_insertionSort (fun a b : DerivedMuxOption => a.sortKey ≤ b.sortKey) unique'
  apply Sorted.eq_of_ties (sorted_insertionSort unique) (sorted_insertionSort unique')
    (hperm.trans (hp.trans hperm'.symm))
  intro a ha b hb hkey
  have hid : a.publicFormat.formatOptionId = b.publicFormat.formatOptionId :=
    congrArg (fun k => (ofLex k).2) hkey
  exact List.inj_on_of_nodup_map hnodup (hperm.mem_iff.mp ha) (hperm.mem_iff.mp hb) hid

theorem sortedAudios (hp : candidates'.Perm candidates) : SortedAudios candidates
    ((candidates'.filter usableAudio).insertionSort fun a b => audioSortKey a ≤ audioSortKey b) :=
  ⟨sorted_insertionSort _, (List.perm_insertionSort _ _).trans (hp.filter _)⟩

theorem sortedVideos (hp : candidates'.Perm candidates) : SortedVideos candidates
    ((candidates'.filter usableVideo).insertionSort fun a b => videoSortKey a ≤ videoSortKey b) :=
  ⟨sorted_insertionSort _, (List.perm_insertionSort _ _).trans (hp.filter _)⟩

theorem take_eq_nil_perm {l l' : List InternalFormatCandidate} (n : ℕ) (hp : l.Perm l') :
    l.take n = [] ↔ l'.take n = [] := by
  rw [← List.length_eq_zero_iff, ← List.length_eq_zero_iff, List.length_take, List.length_take,
    hp.length_eq]

theorem deriveMuxOptions_raises (henabled : settings.mediaMuxingEnabled = true)
    (hraises : Raises settings candidates video) (hp : candidates'.Perm candidates) :
    ∃ e, deriveMuxOptions candidates' settings = .error e := by
  have ha := sortedAudios hp
  have hv := sortedVideos hp
  obtain ⟨e, herror⟩ := ha.raises hraises
  have hwithin := hraises.within
  rw [← upTo_perm hv.perm] at hwithin
  have hvideo := hv.sorted.mem_take
    (hv.perm.mem_iff.mpr (List.mem_filter.mpr ⟨hraises.mem, hraises.usable⟩)) hwithin
  cases hderived : deriveMuxOptions candidates' settings with
  | error e => exact ⟨e, rfl⟩
  | ok derived =>
    simp only [deriveMuxOptions, if_pos henabled] at hderived
    split at hderived
    · -- Without audios nothing would raise.
      rename_i hnone
      rcases hnone with hnone | hnone
      · rw [hnone] at hvideo
        cases hvideo
      · rw [hnone, muxOption_eq, List.findSome?_nil] at herror
        cases herror
    · obtain ⟨prepared, hprepared, -⟩ := bind_eq_ok.mp hderived
      obtain ⟨option, -, hoption⟩ := exists_of_mem_mapM hprepared hvideo
      rw [herror] at hoption
      cases hoption

/-- The options that are derived, and their order, do not depend on the order of the candidates. -/
theorem deriveMuxOptions_agree (hsettled : settings.mediaMuxingEnabled = true →
      Settled settings candidates) (hp : candidates'.Perm candidates) :
    Same (deriveMuxOptions candidates' settings) (deriveMuxOptions candidates settings) := by
  unfold deriveMuxOptions
  by_cases henabled : settings.mediaMuxingEnabled = true
  case neg =>
    rw [if_neg henabled, if_neg henabled]
  case pos =>
    rcases hsettled henabled with hsettled | ⟨video, hraises⟩
    case inr =>
      obtain ⟨e, he⟩ := deriveMuxOptions_raises henabled hraises hp
      obtain ⟨e', he'⟩ := deriveMuxOptions_raises henabled hraises (List.Perm.refl candidates)
      rw [deriveMuxOptions, if_pos henabled] at he he'
      rw [he, he', if_pos henabled, if_pos henabled]
      exact .error e e'
    have ha := sortedAudios hp
    have ha' := sortedAudios (List.Perm.refl candidates)
    have hv := sortedVideos hp
    have hv' := sortedVideos (List.Perm.refl candidates)
    simp only [if_pos henabled]
    have hnil := take_eq_nil_perm settings.mediaMuxingMaxVideoCandidates
      (hv.perm.trans hv'.perm.symm)
    have hnil' := take_eq_nil_perm settings.mediaMuxingMaxAudioCandidates
      (ha.perm.trans ha'.perm.symm)
    have hempty := or_congr hnil hnil'
    by_cases hnone : ((candidates'.filter usableVideo).insertionSort fun a b =>
          videoSortKey a ≤ videoSortKey b).take settings.mediaMuxingMaxVideoCandidates = [] ∨
        ((candidates'.filter usableAudio).insertionSort fun a b =>
          audioSortKey a ≤ audioSortKey b).take settings.mediaMuxingMaxAudioCandidates = []
    · rw [if_pos hnone, if_pos (hempty.mp hnone)]
    rw [if_neg hnone, if_neg (hempty.not.mp hnone)]
    apply (prepared_agree ha ha' hv hv' hsettled).bind
    intro prepared prepared' hprepared hperm
    have hsorted := (List.perm_insertionSort (fun a b : DerivedMuxOption =>
      a.publicFormat.formatOptionId ≤ b.publicFormat.formatOptionId) (prepared.filterMap id)).trans
        ((hperm.filterMap id).trans (List.perm_insertionSort (fun a b : DerivedMuxOption =>
          a.publicFormat.formatOptionId ≤ b.publicFormat.formatOptionId) _).symm)
    apply (collect_options (fun option hmem option' hmem' =>
      option_unique ha hv hsettled hprepared hmem hmem') hsorted).bind
    intro unique unique' hcollect hperm
    apply Agree.of_eq
    rw [insertionSort_options (nodup_collect hcollect List.nodup_nil) hperm]

/-! ## Projection -/

variable {draft : ExtractedMediaDraft} {requestedOptionId : String} {persistedFormat : MediaFormat}

/-- A draft with other candidates. -/
def ExtractedMediaDraft.withCandidates (draft : ExtractedMediaDraft)
    (candidates : List InternalFormatCandidate) : ExtractedMediaDraft :=
  { draft with candidates }

theorem require_congr {p q : Prop} [Decidable p] [Decidable q] {e : Raised} (h : p ↔ q) :
    require p e = require q e := by
  by_cases hp : p
  · rw [require_true hp, require_true (h.mp hp)]
  · rw [require, require, if_neg hp, if_neg (h.not.mp hp)]

/-- Formats that are sorted are collected in the same order, or are ambiguous in any order. -/
theorem collect_formats {formats formats' : List MediaFormat} (h : Sorted candidateSortKey formats)
    (h' : Sorted candidateSortKey formats') (hp : formats.Perm formats') :
    Same (collect (·.formatOptionId) (fun existing format => decide (existing = format))
        optionAmbiguous [] formats)
      (collect (·.formatOptionId) (fun existing format => decide (existing = format))
        optionAmbiguous [] formats') := by
  have hrefl : ∀ a : MediaFormat, decide (a = a) = true := by simp
  have hsymm : ∀ a b : MediaFormat, decide (a = b) = true → decide (b = a) = true := by
    intro a b hab
    simpa using (of_decide_eq_true hab).symm
  have htrans : ∀ a b c : MediaFormat, decide (a = b) = true → decide (b = c) = true →
      decide (a = c) = true := by
    intro a b c hab hbc
    simpa using (of_decide_eq_true hab).trans (of_decide_eq_true hbc)
  cases hcollect : collect (fun format : MediaFormat => format.formatOptionId)
      (fun existing format => decide (existing = format)) optionAmbiguous [] formats with
  | ok byOption =>
    have hequal := (exists_collect_iff hrefl hsymm htrans).mp ⟨byOption, hcollect⟩
    obtain rfl : formats = formats' := by
      apply h.eq_of_ties h' hp
      intro x hx y hy hkey
      have hid : x.formatOptionId = y.formatOptionId :=
        congrArg (fun k => (ofLex (ofLex (ofLex (ofLex (ofLex k).2).2).2).2).2) hkey
      exact of_decide_eq_true (hequal x hx y hy hid)
    rw [hcollect]
  | error e =>
    have hagree : Agree List.Perm
        (collect (fun format : MediaFormat => format.formatOptionId)
          (fun existing format => decide (existing = format)) optionAmbiguous [] formats)
        (collect (fun format : MediaFormat => format.formatOptionId)
          (fun existing format => decide (existing = format)) optionAmbiguous [] formats') :=
      collect_perm hrefl hsymm htrans (fun a _ b _ _ hsame => of_decide_eq_true hsame) hp
    rw [hcollect] at hagree
    exact hagree.same_of_error

theorem projectFormats_agree (hsettled : settings.mediaMuxingEnabled = true →
      Settled settings draft.candidates) (hp : candidates'.Perm draft.candidates) :
    Same (projectFormats (draft.withCandidates candidates') settings)
      (projectFormats draft settings) := by
  have hprepared : Agree List.Perm (candidates'.mapM (prepareCandidate settings))
      (draft.candidates.mapM (prepareCandidate settings)) := mapM_perm (hp.map _)
  apply hprepared.bind
  intro prepared prepared' _ hperm
  have hkept := hperm.filterMap id
  have hnonempty : prepared.filterMap id ≠ [] ↔ prepared'.filterMap id ≠ [] := by
    rw [ne_eq, ne_eq, ← List.length_eq_zero_iff, ← List.length_eq_zero_iff, hkept.length_eq]
  rw [require_congr hnonempty]
  apply Agree.same_bind (Agree.same_refl _)
  intro _
  have hsorted := (List.perm_insertionSort (fun a b => candidateSortKey a ≤ candidateSortKey b)
    (prepared.filterMap id)).trans (hkept.trans (List.perm_insertionSort
      (fun a b => candidateSortKey a ≤ candidateSortKey b) (prepared'.filterMap id)).symm)
  apply (collect_formats (sorted_insertionSort _) (sorted_insertionSort _) hsorted).same_bind
  intro byOption
  by_cases henabled : settings.mediaMuxingEnabled = true
  · simp only [if_pos henabled]
    apply (deriveMuxOptions_agree hsettled hp).same_bind
    intro derived
    rfl
  · simp only [if_neg henabled]
    rfl

theorem projectMetadata_agree {url mediaId providerId : String}
    (hsettled : settings.mediaMuxingEnabled = true → Settled settings draft.candidates)
    (hp : candidates'.Perm draft.candidates) :
    Same (projectMetadata (draft.withCandidates candidates') settings url mediaId providerId)
      (projectMetadata draft settings url mediaId providerId) := by
  apply Agree.same_bind (Agree.same_refl _)
  intro _
  apply (projectFormats_agree hsettled hp).same_bind
  intro projection
  rfl

/-! ## Selection -/

theorem unambiguous_perm (hp : candidates'.Perm draft.candidates) :
    Unambiguous (draft.withCandidates candidates') settings ↔ Unambiguous draft settings := by
  simp only [Unambiguous, ExtractedMediaDraft.withCandidates, hp.mem_iff]

/-- What is found by an option id binds identically. -/
def SameBindings (byOption byOption' : List InternalFormatCandidate) : Prop :=
  ∀ id, (byOption.find? fun candidate => decide (candidate.optionId = id)).map
      InternalFormatCandidate.binding =
    (byOption'.find? fun candidate => decide (candidate.optionId = id)).map
      InternalFormatCandidate.binding

theorem sameBindings {draft' : ExtractedMediaDraft} {byOption byOption' : List InternalFormatCandidate}
    (hp : draft'.candidates.Perm draft.candidates)
    (h : candidatesByOption draft' settings = .ok byOption)
    (h' : candidatesByOption draft settings = .ok byOption') : SameBindings byOption byOption' := by
  intro id
  cases hfind : byOption.find? fun candidate => decide (candidate.optionId = id) with
  | some matched =>
    obtain ⟨hmem, hbounded⟩ := mem_byOption h (List.mem_of_find?_eq_some hfind)
    have hid : matched.optionId = id := by simpa using List.find?_some hfind
    obtain ⟨matched', hfind', hbinding⟩ := find?_byOption h' (hp.mem_iff.mp hmem) hbounded
    rw [← hid, hfind', Option.map_some, Option.map_some, hbinding]
  | none =>
    cases hfind' : byOption'.find? fun candidate => decide (candidate.optionId = id) with
    | none => rfl
    | some matched =>
      obtain ⟨hmem, hbounded⟩ := mem_byOption h' (List.mem_of_find?_eq_some hfind')
      have hid : matched.optionId = id := by simpa using List.find?_some hfind'
      obtain ⟨matched', hfound, -⟩ := find?_byOption h (hp.mem_iff.mpr hmem) hbounded
      rw [hid, hfind] at hfound
      cases hfound

theorem candidatesByOption_agree (hp : candidates'.Perm draft.candidates) :
    Agree SameBindings (candidatesByOption (draft.withCandidates candidates') settings)
      (candidatesByOption draft settings) := by
  apply Agree.of_forall
  · intro byOption h
    obtain ⟨byOption', h'⟩ := candidatesByOption_iff.mpr
      ((unambiguous_perm hp).mp (candidatesByOption_iff.mp ⟨byOption, h⟩))
    exact ⟨byOption', h', sameBindings hp h h'⟩
  · intro byOption h
    exact candidatesByOption_iff.mpr
      ((unambiguous_perm hp).mpr (candidatesByOption_iff.mp ⟨byOption, h⟩))

theorem resolveDirect_binding : resolveDirect video.binding persistedFormat requestedOptionId =
    resolveDirect video persistedFormat requestedOptionId := rfl

theorem resolveMuxed_agree {duration : Option Nat} (hsettled : settings.mediaMuxingEnabled = true →
      Settled settings candidates) (hp : candidates'.Perm candidates) :
    Same (resolveMuxed candidates' settings requestedOptionId persistedFormat duration)
      (resolveMuxed candidates settings requestedOptionId persistedFormat duration) := by
  unfold resolveMuxed
  split
  · rfl
  split
  · rfl
  split
  · rfl
  apply (deriveMuxOptions_agree hsettled hp).same_bind
  intro derived
  rfl

theorem resolveSelectionFromDraft_agree
    (hsettled : settings.mediaMuxingEnabled = true →
      Settled settings (draft.candidates.filter (boundedCandidate settings)))
    (hp : candidates'.Perm draft.candidates) :
    Same (resolveSelectionFromDraft (draft.withCandidates candidates') settings requestedOptionId
        persistedFormat)
      (resolveSelectionFromDraft draft settings requestedOptionId persistedFormat) := by
  apply Agree.same_bind (Agree.same_refl _)
  intro _
  apply (candidatesByOption_agree hp).bind
  intro byOption byOption' _ hbindings
  have hbinding := hbindings requestedOptionId
  cases hfind : byOption.find? fun candidate => decide (candidate.optionId = requestedOptionId) with
  | some matched =>
    rw [hfind, Option.map_some] at hbinding
    obtain ⟨matched', hfind', hsame⟩ := Option.map_eq_some_iff.mp hbinding.symm
    rw [hfind']
    simp only
    rw [← @resolveDirect_binding matched, ← hsame, resolveDirect_binding]
  | none =>
    rw [hfind, Option.map_none] at hbinding
    rw [Option.map_eq_none_iff.mp hbinding.symm]
    apply (resolveMuxed_agree hsettled (hp.filter _)).same_bind
    intro muxed
    rfl

/-- The catalog of a draft is the same for every order of its candidates. -/
structure OrderFree (settings : MediaSettings) (draft : ExtractedMediaDraft) : Prop where
  derived : ∀ candidates, candidates.Perm draft.candidates →
    Same (deriveMuxOptions candidates settings) (deriveMuxOptions draft.candidates settings)
  projected : ∀ candidates, candidates.Perm draft.candidates → ∀ url mediaId providerId,
    Same (projectMetadata (draft.withCandidates candidates) settings url mediaId providerId)
      (projectMetadata draft settings url mediaId providerId)
  selected : ∀ candidates, candidates.Perm draft.candidates → ∀ requestedOptionId persistedFormat,
    Same (resolveSelectionFromDraft (draft.withCandidates candidates) settings requestedOptionId
        persistedFormat)
      (resolveSelectionFromDraft draft settings requestedOptionId persistedFormat)

/-- Where ties decide nothing or the derivation raises in every order, among the candidates and
among those within the limits, the order of the candidates does not matter. -/
theorem catalog_order_free (hsettled : settings.mediaMuxingEnabled = true →
      Settled settings draft.candidates ∧
        Settled settings (draft.candidates.filter (boundedCandidate settings))) :
    OrderFree settings draft := by
  refine ⟨?_, ?_, ?_⟩
  · intro candidates hp
    exact deriveMuxOptions_agree (fun henabled => (hsettled henabled).1) hp
  · intro candidates hp url mediaId providerId
    exact projectMetadata_agree (fun henabled => (hsettled henabled).1) hp
  · intro candidates hp requestedOptionId persistedFormat
    exact resolveSelectionFromDraft_agree (fun henabled => (hsettled henabled).2) hp

/-- Without ties between different streams nothing is decided by ties. -/
theorem tiesSettled_of_distinct
    (haudio : ∀ audio ∈ candidates, ∀ other ∈ candidates, usableAudio audio = true →
      usableAudio other = true → audioSortKey audio = audioSortKey other → audio = other)
    (hvideo : ∀ video ∈ candidates, ∀ other ∈ candidates, usableVideo video = true →
      usableVideo other = true → videoSortKey video = videoSortKey other → video = other) :
    TiesSettled settings candidates := by
  refine ⟨?_, ?_, ?_⟩
  · intro video _
    refine .inr fun audio other h h' => haudio audio h.mem other h'.mem h.usable h'.usable ?_
    exact le_antisymm (h.first other h'.mem h'.usable h'.goes) (h'.first audio h.mem h.usable h.goes)
  · intro video other h h' hkey _
    exact .inl (hvideo video h.mem other h'.mem h.usable h'.usable hkey)
  · intro video other audio output h h' _ _ _ _ _ htoken hformat
    apply hvideo video h.mem other h'.mem h.usable h'.usable
    have hheight : video.height = other.height := congrArg MediaFormat.height hformat
    have hwidth : video.width = other.width := congrArg MediaFormat.width hformat
    rw [videoSortKey, videoSortKey, hheight, hwidth, htoken]

/-! ## Samples -/

def webmStream (height : Nat) : InternalFormatCandidate :=
  ⟨"webm", some 1280, some height, none, true, false, .vp9, .none, none, some "248", none, false,
    none⟩

def webmSound (codec : CodecFamily) (approxBytes : Option Nat) : InternalFormatCandidate :=
  ⟨"webm", none, none, none, false, true, .none, codec, approxBytes, some "251", none, false, none⟩

theorem catalog_order_free_sample :
    OrderFree muxingSettings
      ⟨none, none, [webmStream 720, webmStream 480, webmSound .opus (some 100),
        webmSound .opus (some 200)], none⟩ := by
  refine catalog_order_free fun _ => ?_
  have hsettled : ∀ candidates ⊆ [webmStream 720, webmStream 480, webmSound .opus (some 100),
      webmSound .opus (some 200)], TiesSettled muxingSettings candidates := by
    intro candidates hsub
    have hlist : ∀ candidate ∈ candidates,
        candidate = webmStream 720 ∨ candidate = webmStream 480 ∨
          candidate = webmSound .opus (some 100) ∨ candidate = webmSound .opus (some 200) := by
      intro candidate hmem
      simpa using hsub hmem
    have hvideos : ∀ n, usableAudio (webmStream n) = false := fun n => rfl
    have haudios : ∀ n, usableVideo (webmSound .opus n) = false := fun n => rfl
    apply tiesSettled_of_distinct
    · intro audio haudio other hother husable husable' hkey
      have hsize : audio.approxBytes.getD (10 ^ 18) = other.approxBytes.getD (10 ^ 18) :=
        congrArg (fun k => (ofLex k).1) hkey
      rcases hlist audio haudio with rfl | rfl | rfl | rfl
      · simp [hvideos] at husable
      · simp [hvideos] at husable
      all_goals
        rcases hlist other hother with rfl | rfl | rfl | rfl
        · simp [hvideos] at husable'
        · simp [hvideos] at husable'
        all_goals first | rfl | simp [webmSound] at hsize
    · intro video hvideo other hother husable husable' hkey
      have hheight : (-(video.height.getD 0 : Int)) = -(other.height.getD 0 : Int) :=
        congrArg (fun k => (ofLex k).1) hkey
      rcases hlist video hvideo with rfl | rfl | rfl | rfl
      case inr.inr.inl => simp [haudios] at husable
      case inr.inr.inr => simp [haudios] at husable
      all_goals
        rcases hlist other hother with rfl | rfl | rfl | rfl
        case inr.inr.inl => simp [haudios] at husable'
        case inr.inr.inr => simp [haudios] at husable'
        all_goals first | rfl | simp [webmStream] at hheight
  exact ⟨.inl (hsettled _ (List.Subset.refl _)), .inl (hsettled _ (List.filter_sublist.subset))⟩

/-- The first of two audios with the same key is paired. -/
theorem deriveMuxOptions_tie {codec other : CodecFamily} (h : codec ∈ webmAudio)
    (h' : other ∈ webmAudio) :
    deriveMuxOptions [webmStream 720, webmSound codec none, webmSound other none] muxingSettings =
      .ok [⟨muxFormat (webmStream 720) (webmSound codec none) "webm", webmStream 720,
        webmSound codec none, "webm"⟩] := by
  have hvideos : [webmStream 720, webmSound codec none, webmSound other none].filter usableVideo =
      [webmStream 720] := by
    have hstream : usableVideo (webmStream 720) = true := by decide
    have hsound : ∀ c, usableVideo (webmSound c none) = false := fun _ => rfl
    simp [hstream, hsound]
  have haudios : [webmStream 720, webmSound codec none, webmSound other none].filter usableAudio =
      [webmSound codec none, webmSound other none] := by
    have hstream : usableAudio (webmStream 720) = false := rfl
    have hsound : ∀ c ∈ webmAudio, usableAudio (webmSound c none) = true := by decide
    simp [hstream, hsound codec h, hsound other h']
  have hsorted : ([webmSound codec none, webmSound other none].insertionSort fun a b =>
      audioSortKey a ≤ audioSortKey b) = [webmSound codec none, webmSound other none] := by
    have hle : audioSortKey (webmSound codec none) ≤ audioSortKey (webmSound other none) :=
      le_of_eq rfl
    simp [hle]
  have hpolicy : ∀ c ∈ webmAudio,
      outputPolicyFor (webmStream 720) (webmSound c none) = some "webm" := by decide
  have hpostInit : (muxFormat (webmStream 720) (webmSound codec none) "webm").postInit =
      .ok (muxFormat (webmStream 720) (webmSound codec none) "webm") := by
    have hid : isSafeToken (muxFormat (webmStream 720) (webmSound codec none) "webm").formatOptionId
        = true := isSafeToken_optionIdOf _
    have hcontainer : isSafeToken (muxFormat (webmStream 720) (webmSound codec none)
        "webm").container = true := by
      change isSafeToken "webm" = true
      decide
    have hlabel : isSafeToken (muxFormat (webmStream 720) (webmSound codec none)
        "webm").qualityLabel = true := by
      change isSafeToken (qualityLabelFor (some 720) true) = true
      decide +kernel
    simp only [MediaFormat.postInit, requireSafeToken, hid, hcontainer, hlabel, require_true, ok_bind]
    simp [muxFormat, webmStream, webmSound, sumApproxBytes, requireFiniteNonNegative, require,
      MediaKind.category]
  have hoption : muxOption muxingSettings [webmSound codec none, webmSound other none]
      (webmStream 720) = .ok (some ⟨muxFormat (webmStream 720) (webmSound codec none) "webm",
        webmStream 720, webmSound codec none, "webm"⟩) := by
    have hpair : pairing (webmStream 720) (webmSound codec none) =
        some (webmSound codec none, "webm") := by rw [pairing, hpolicy codec h, Option.map_some]
    rw [muxOption_eq, List.findSome?_cons, hpair]
    simp only
    rw [hpostInit]
    rfl
  have henabled : muxingSettings.mediaMuxingEnabled = true := rfl
  have hlimits : muxingSettings.mediaMuxingMaxVideoCandidates = 8 ∧
      muxingSettings.mediaMuxingMaxAudioCandidates = 8 ∧
      muxingSettings.mediaMuxingMaxDerivedOptions = 8 := ⟨rfl, rfl, rfl⟩
  simp only [deriveMuxOptions, hvideos, haudios, hsorted, henabled, hlimits]
  simp [hoption, collect]

/-- Two audios with one token, neither of a known size, in either order. -/
theorem catalog_order_matters : ¬ ∀ (settings : MediaSettings) (draft : ExtractedMediaDraft),
    OrderFree settings draft := by
  intro hclaim
  have hderived := (hclaim muxingSettings ⟨none, none,
    [webmStream 720, webmSound .opus none, webmSound .vorbis none], none⟩).derived
      [webmStream 720, webmSound .vorbis none, webmSound .opus none] (.cons _ (.swap _ _ _))
  rw [deriveMuxOptions_tie (by decide) (by decide), deriveMuxOptions_tie (by decide) (by decide)]
    at hderived
  have hsame := (Agree.same_iff.mp hderived _).mp rfl
  simp [webmSound] at hsame

end FetchNow
