import FetchNow.Downloads.FfprobeParse

/-!
# What a probe is accepted for

The parser accepts what is intended and nothing else raises, but for a document nested too deep for
the decoder, integers too large for a float, a comparison with NaN and a size that is not integral.
-/
namespace FetchNow.Ffprobe

open Text Text.Json

/-- What the parser tests of the durations. -/
def Tolerates (args : ProbeArgs) (duration : ℚ) : Prop :=
  ∀ expected ∈ args.expectedDurationSeconds, ∃ e tolerance, expected.toFloat = some e ∧
    args.durationToleranceSeconds.toFloat = some tolerance ∧
      (PyFloat.distance duration e).gt tolerance = false

/-- What the parser tests of the size. -/
def SizeReads (py : Interpreter) (args : ProbeArgs) (size : Json) : Prop :=
  1 ≤ args.expectedSizeBytes ∧ args.expectedSizeBytes ≤ args.maxBytes ∧
    (size = .null ∨ readSize py size = some args.expectedSizeBytes)

/-- The numbers of a format are read as what they say. -/
structure Readable (py : Interpreter) (args : ProbeArgs) (fmt : Fields) : Prop where
  duration : ∀ n : ℤ, get fmt "duration" = .int n → n.natAbs < floatOverflow
  arguments : ∀ q, durationValue py (get fmt "duration") = some q → 0 ≤ q →
    ∀ expected ∈ args.expectedDurationSeconds,
      expected.toFloat ≠ none ∧ args.durationToleranceSeconds.toFloat ≠ none
  comparable : ∀ q, durationValue py (get fmt "duration") = some q → 0 ≤ q → Tolerates args q →
    SizeReads py args (get fmt "size") → ∀ expected ∈ args.expectedDurationSeconds,
      expected.toFloat ≠ some .nan ∧ args.durationToleranceSeconds.toFloat ≠ some .nan
  integral : ∀ q, durationValue py (get fmt "duration") = some q → 0 ≤ q → Tolerates args q →
    SizeReads py args (get fmt "size") → ∀ x, get fmt "size" = .float (.finite x) →
      x = args.expectedSizeBytes

variable {py : Interpreter} {raw : List UInt8} {args : ProbeArgs} {fmt : Fields} {container : String}
  {counts counts' : Counts} {stream value size : Json} {streams : List Json} {duration q : ℚ}
  {α β : Type}

/-! ## Steps -/

/-- Nothing but a `DownloadError` is raised. -/
def Raises (x : Except ProbeFailure α) : Prop :=
  ∀ e, x = .error e → ∃ reason, e = .downloadError reason

theorem raises_ok {a : α} : Raises (.ok a : Except ProbeFailure α) := fun _ h => by cases h

theorem raises_require {c : Prop} [Decidable c] {reason : String} : Raises (require c reason) := by
  intro e he
  unfold require at he
  split_ifs at he
  cases he
  exact ⟨reason, rfl⟩

theorem raises_orElse {x : Option α} {reason : String} : Raises (orElse x reason) := by
  intro e he
  cases x with
  | some a => cases he
  | none =>
    cases he
    exact ⟨reason, rfl⟩

theorem Raises.bind {x : Except ProbeFailure α} {f : α → Except ProbeFailure β} (hx : Raises x)
    (hf : ∀ a, x = .ok a → Raises (f a)) : Raises (x >>= f) := by
  intro e he
  cases x with
  | error e' =>
    cases he
    exact hx _ rfl
  | ok a => exact hf a rfl e he

theorem bind_eq_ok {x : Except ProbeFailure α} {f : α → Except ProbeFailure β} {b : β} :
    (x >>= f) = .ok b ↔ ∃ a, x = .ok a ∧ f a = .ok b := by
  cases x with
  | error e => exact iff_of_false nofun fun ⟨_, h, _⟩ => by cases h
  | ok a =>
    refine ⟨fun h => ⟨a, rfl, h⟩, ?_⟩
    rintro ⟨_, ⟨⟩, h⟩
    exact h

theorem ok_bind {a : α} {f : α → Except ProbeFailure β} : (.ok a >>= f) = f a := rfl

theorem require_eq_ok {c : Prop} [Decidable c] {reason : String} {u : Unit} :
    require c reason = .ok u ↔ c := by
  unfold require
  by_cases hc : c
  · rw [if_pos hc]
    exact iff_of_true rfl hc
  · rw [if_neg hc]
    exact iff_of_false nofun hc

theorem require_bind_eq_ok {c : Prop} [Decidable c] {reason : String}
    {f : Unit → Except ProbeFailure β} {b : β} :
    (require c reason >>= f) = .ok b ↔ c ∧ f () = .ok b := by
  rw [bind_eq_ok]
  constructor
  · rintro ⟨_, hc, h⟩
    exact ⟨require_eq_ok.mp hc, h⟩
  · rintro ⟨hc, h⟩
    exact ⟨(), require_eq_ok.mpr hc, h⟩

theorem orElse_eq_ok {x : Option α} {reason : String} {a : α} :
    orElse x reason = .ok a ↔ x = some a := by
  cases x with
  | some b =>
    unfold orElse
    rw [Except.ok.injEq, Option.some.injEq]
  | none => exact iff_of_false nofun nofun

/-! ## Streams -/

theorem codePoints_video_ne_audio : codePoints "video" ≠ codePoints "audio" := by decide

/-- What one turn of the loop counts. -/
theorem countStream_eq_ok : countStream py container counts stream = .ok counts' ↔
    (IsStream py "video" (videoCodecs container) stream ∧
      counts' = { counts with video := counts.video + 1 }) ∨
    (IsStream py "audio" (audioCodecs container) stream ∧
      counts' = { counts with audio := counts.audio + 1 }) ∨
    ((∃ fields, stream = .obj fields ∧
        fieldText py (get fields "codec_type") ∉ ["video", "audio"].map codePoints) ∧
      counts' = { counts with other := counts.other + 1 }) := by
  cases stream with
  | obj fields =>
    have hstream (codecType : String) (codecs : List String) :
        IsStream py codecType codecs (.obj fields) ↔
          fieldText py (get fields "codec_type") = codePoints codecType ∧
            isNamed (fieldText py (get fields "codec_name")) codecs = true := by
      constructor
      · rintro ⟨_, ⟨⟩, h⟩
        exact h
      · exact fun h => ⟨fields, rfl, h⟩
    rw [hstream, hstream, countStream]
    by_cases hvideo : fieldText py (get fields "codec_type") = codePoints "video"
    · rw [if_pos hvideo, require_bind_eq_ok, Except.ok.injEq]
      constructor
      · rintro ⟨hnamed, rfl⟩
        exact .inl ⟨⟨hvideo, hnamed⟩, rfl⟩
      · rintro (⟨⟨-, hnamed⟩, rfl⟩ | ⟨⟨haudio, -⟩, -⟩ | ⟨⟨_, ⟨⟩, hother⟩, -⟩)
        · exact ⟨hnamed, rfl⟩
        · exact absurd (hvideo.symm.trans haudio) codePoints_video_ne_audio
        · exact absurd (by simp [hvideo]) hother
    · rw [if_neg hvideo]
      by_cases haudio : fieldText py (get fields "codec_type") = codePoints "audio"
      · rw [if_pos haudio, require_bind_eq_ok, Except.ok.injEq]
        constructor
        · rintro ⟨hnamed, rfl⟩
          exact .inr (.inl ⟨⟨haudio, hnamed⟩, rfl⟩)
        · rintro (⟨⟨h, -⟩, -⟩ | ⟨⟨-, hnamed⟩, rfl⟩ | ⟨⟨_, ⟨⟩, hother⟩, -⟩)
          · exact absurd h hvideo
          · exact ⟨hnamed, rfl⟩
          · exact absurd (by simp [haudio]) hother
      · rw [if_neg haudio, Except.ok.injEq]
        constructor
        · rintro rfl
          exact .inr (.inr ⟨⟨fields, rfl, by simp [hvideo, haudio]⟩, rfl⟩)
        · rintro (⟨⟨h, -⟩, -⟩ | ⟨⟨h, -⟩, -⟩ | ⟨-, rfl⟩)
          · exact absurd h hvideo
          · exact absurd h haudio
          · rfl
  | _ =>
    refine iff_of_false nofun ?_
    rintro (⟨⟨_, ⟨⟩, -⟩, -⟩ | ⟨⟨_, ⟨⟩, -⟩, -⟩ | ⟨⟨_, ⟨⟩, -⟩, -⟩)

theorem raises_countStream : Raises (countStream py container counts stream) := by
  cases stream with
  | obj fields =>
    rw [countStream]
    split_ifs
    · exact raises_require.bind fun _ _ => raises_ok
    · exact raises_require.bind fun _ _ => raises_ok
    · exact raises_ok
  | _ =>
    intro e he
    cases he
    exact ⟨_, rfl⟩

theorem raises_countStreams : Raises (streams.foldlM (countStream py container) counts) := by
  induction streams generalizing counts with
  | nil => exact raises_ok
  | cons stream streams ih => exact raises_countStream.bind fun _ _ => ih

def Counts.total (counts : Counts) : ℕ := counts.video + counts.audio + counts.other

theorem total_countStreams (h : streams.foldlM (countStream py container) counts = .ok counts') :
    counts'.total = counts.total + streams.length := by
  induction streams generalizing counts with
  | nil =>
    cases h
    rfl
  | cons stream streams ih =>
    rw [List.foldlM_cons] at h
    obtain ⟨middle, hstream, h⟩ := bind_eq_ok.mp h
    have htotal := ih h
    rw [List.length_cons]
    unfold Counts.total at *
    rcases countStream_eq_ok.mp hstream with ⟨-, rfl⟩ | ⟨-, rfl⟩ | ⟨-, rfl⟩
    all_goals
      dsimp only at htotal
      omega

/-- The counts are as expected if and only if there are the two streams. -/
theorem countStreams_iff :
    streams.foldlM (countStream py container) ⟨0, 0, 0⟩ = .ok ⟨1, 1, 0⟩ ↔
      TwoStreams py container streams := by
  constructor
  · intro h
    have hlength : streams.length = 2 := by
      have htotal := total_countStreams h
      simp only [Counts.total] at htotal
      omega
    obtain ⟨first, second, rfl⟩ := List.length_eq_two.mp hlength
    rw [List.foldlM_cons, bind_eq_ok] at h
    obtain ⟨middle, hfirst, h⟩ := h
    rw [List.foldlM_cons, bind_eq_ok] at h
    obtain ⟨last, hsecond, h⟩ := h
    obtain rfl := Except.ok.inj h
    rcases countStream_eq_ok.mp hfirst with ⟨hstream, rfl⟩ | ⟨hstream, rfl⟩ | ⟨-, rfl⟩
    · rcases countStream_eq_ok.mp hsecond with ⟨-, h⟩ | ⟨hstream', -⟩ | ⟨-, h⟩
      · cases h
      · exact ⟨first, second, hstream, hstream', .inl rfl⟩
      · cases h
    · rcases countStream_eq_ok.mp hsecond with ⟨hstream', -⟩ | ⟨-, h⟩ | ⟨-, h⟩
      · exact ⟨second, first, hstream', hstream, .inr rfl⟩
      · cases h
      · cases h
    · rcases countStream_eq_ok.mp hsecond with ⟨-, h⟩ | ⟨-, h⟩ | ⟨-, h⟩ <;> cases h
  · rintro ⟨video, audio, hvideo, haudio, rfl | rfl⟩
    · rw [List.foldlM_cons, countStream_eq_ok.mpr (.inl ⟨hvideo, rfl⟩)]
      rw [ok_bind, List.foldlM_cons, countStream_eq_ok.mpr (.inr (.inl ⟨haudio, rfl⟩))]
      rfl
    · rw [List.foldlM_cons, countStream_eq_ok.mpr (.inr (.inl ⟨haudio, rfl⟩))]
      rw [ok_bind, List.foldlM_cons, countStream_eq_ok.mpr (.inl ⟨hvideo, rfl⟩)]
      rfl

/-! ## From the bytes to the format -/

theorem checkLimits_eq_ok {root : Json} {u : Unit} :
    checkLimits root = .ok u ↔ WithinLimits walkLimits root := by
  rw [← walk_root_eq_ok]
  unfold checkLimits
  cases hwalk : walk walkLimits root walkLimits.rootDepth 0 with
  | ok n => exact iff_of_true rfl ⟨n, rfl⟩
  | error excess => exact iff_of_false nofun fun ⟨_, h⟩ => by cases h

theorem raises_checkLimits {root : Json} : Raises (checkLimits root) := by
  intro e he
  unfold checkLimits at he
  split at he
  · cases he
  · cases he
    exact ⟨_, rfl⟩

theorem loadProbe_eq_ok {payload : Json} :
    loadProbe py raw = .ok payload ↔ py.loads raw = .ok payload := by
  unfold loadProbe
  cases py.loads raw with
  | ok payload' => rw [Except.ok.injEq, Except.ok.injEq]
  | error e => cases e <;> exact iff_of_false nofun nofun

theorem asObject_eq_some {fields : Fields} : asObject value = some fields ↔ value = .obj fields := by
  cases value with
  | obj fields' => rw [asObject, Option.some.injEq, Json.obj.injEq]
  | _ => exact iff_of_false nofun nofun

theorem asList_eq_some {items : List Json} : asList value = some items ↔ value = .arr items := by
  cases value with
  | arr items' => rw [asList, Option.some.injEq, Json.arr.injEq]
  | _ => exact iff_of_false nofun nofun

/-- A container with a name has codecs and is one of the known ones. -/
theorem containers_known {name : Str} (h : isNamed name (containerHints container) = true) :
    containerHints container ≠ [] ∧ videoCodecs container ≠ [] ∧ audioCodecs container ≠ [] := by
  unfold containerHints at h
  split_ifs at h with hmp4 hwebm
  · subst hmp4
    decide
  · subst hwebm
    decide
  · cases h

theorem readProbe_eq_ok {name : Str} :
    readProbe py raw args = .ok (fmt, name, counts) ↔ Reports py raw args fmt ∧
      name = fieldText py (get fmt "format_name") ∧ counts = ⟨1, 1, 0⟩ := by
  unfold readProbe
  simp only [bind_eq_ok, require_eq_ok, loadProbe_eq_ok, checkLimits_eq_ok, orElse_eq_ok,
    asObject_eq_some, asList_eq_some]
  constructor
  · rintro ⟨_, hraw, _, hsized, root, hload, _, hlimits, payload, rfl, streams, hstreams, fmt', hfmt,
      _, -, _, -, counts', hcounts, _, rfl, _, hcontainer, heq⟩
    cases heq
    obtain ⟨name, hname, hnamed⟩ := List.any_eq_true.mp hcontainer.2
    exact ⟨⟨⟨hraw, hsized⟩, ⟨payload, streams, hload, hlimits, hstreams, hfmt,
      countStreams_iff.mp hcounts⟩, name, hname, hnamed⟩, rfl, rfl⟩
  · rintro ⟨⟨⟨hraw, hsized⟩, ⟨payload, streams, hload, hlimits, hstreams, hfmt, htwo⟩,
      ⟨name, hname, hnamed⟩⟩, rfl, rfl⟩
    have hlength : streams.length = 2 := by
      obtain ⟨_, _, -, -, rfl | rfl⟩ := htwo <;> rfl
    obtain ⟨hhints, hcodecs⟩ := containers_known hnamed
    exact ⟨(), hraw, (), hsized, _, hload, (), hlimits, payload, rfl, streams, hstreams, fmt, hfmt,
      (), by omega, (), hcodecs, _, countStreams_iff.mpr htwo, (), rfl, (),
      ⟨hhints, List.any_eq_true.mpr ⟨name, hname, hnamed⟩⟩, rfl⟩

/-- Only the decoder raises something else. -/
theorem readProbe_raises (h : IsSized raw args → py.loads raw ≠ .error .recursionError) :
    Raises (readProbe py raw args) := by
  unfold readProbe
  refine raises_require.bind fun _ hraw => ?_
  refine raises_require.bind fun _ hsized => ?_
  have hload : py.loads raw ≠ .error .recursionError :=
    h ⟨require_eq_ok.mp hraw, require_eq_ok.mp hsized⟩
  refine Raises.bind ?_ fun payload _ => ?_
  · intro e he
    unfold loadProbe at he
    split at he
    · cases he
    · rename_i hrecursion
      exact absurd hrecursion hload
    · cases he
      exact ⟨_, rfl⟩
  · refine raises_checkLimits.bind fun _ _ => ?_
    refine raises_orElse.bind fun _ _ => ?_
    refine raises_orElse.bind fun _ _ => ?_
    refine raises_orElse.bind fun _ _ => ?_
    refine raises_require.bind fun _ _ => ?_
    refine raises_require.bind fun _ _ => ?_
    refine raises_countStreams.bind fun _ _ => ?_
    refine raises_require.bind fun _ _ => ?_
    exact raises_require.bind fun _ _ => raises_ok

theorem readProbe_recursion (hsized : IsSized raw args)
    (hload : py.loads raw = .error .recursionError) :
    readProbe py raw args = .error .recursionError := by
  unfold readProbe require loadProbe
  rw [if_pos hsized.1, ok_bind]
  dsimp only
  rw [if_pos hsized.2, ok_bind, hload]
  rfl

/-! ## Numbers -/

theorem intToFloat_eq_none {n : ℤ} : intToFloat n = none ↔ ¬n.natAbs < floatOverflow := by
  unfold intToFloat
  split_ifs with h
  · exact iff_of_true rfl (not_lt.mpr h)
  · exact iff_of_false nofun fun hlt => hlt (not_le.mp h)

theorem readDuration_eq_ok :
    readDuration py value = .ok (.finite q) ↔ durationValue py value = some q := by
  cases value with
  | bool b => rw [readDuration, durationValue, Except.ok.injEq, PyFloat.finite.injEq,
      Option.some.injEq]
  | int n =>
    rw [readDuration, durationValue]
    cases intToFloat n with
    | some x => rw [Except.ok.injEq, PyFloat.finite.injEq, Option.some.injEq]
    | none => exact iff_of_false nofun nofun
  | float x =>
    cases x with
    | finite x => rw [readDuration, durationValue, Except.ok.injEq, PyFloat.finite.injEq,
        Option.some.injEq]
    | _ => exact iff_of_false nofun nofun
  | str text =>
    rw [readDuration, durationValue]
    cases py.float text with
    | none => exact iff_of_false nofun nofun
    | some x =>
      cases x with
      | finite x =>
        rw [Option.getD_some, Except.ok.injEq, PyFloat.finite.injEq]
        exact (Option.some.injEq _ _).symm.to_iff
      | _ => exact iff_of_false nofun nofun
  | _ => exact iff_of_false nofun nofun

theorem raises_readDuration :
    Raises (readDuration py value) ↔ ∀ n : ℤ, value = .int n → n.natAbs < floatOverflow := by
  cases value with
  | int n =>
    rw [readDuration]
    cases hfloat : intToFloat n with
    | some x =>
      refine iff_of_true raises_ok ?_
      rintro _ ⟨⟩
      by_contra hlarge
      rw [intToFloat_eq_none.mpr hlarge] at hfloat
      cases hfloat
    | none =>
      refine iff_of_false (fun h => ?_) fun h => intToFloat_eq_none.mp hfloat (h n rfl)
      obtain ⟨reason, hreason⟩ := h _ rfl
      cases hreason
  | _ => exact iff_of_true raises_ok nofun

theorem toFloat_eq_ok {x : PyNumber} {y : PyFloat} : toFloat x = .ok y ↔ x.toFloat = some y := by
  unfold toFloat
  cases x.toFloat with
  | some z => rw [Except.ok.injEq, Option.some.injEq]
  | none => exact iff_of_false nofun nofun

theorem checkDuration_eq_ok {d : PyFloat} {u : Unit} : checkDuration d args = .ok u ↔
    ∃ q, d = .finite q ∧ 0 ≤ q ∧ Tolerates args q := by
  cases d with
  | finite q =>
    rw [checkDuration, require_bind_eq_ok]
    unfold Tolerates
    have hfinite : (∃ r, PyFloat.finite q = .finite r ∧ 0 ≤ r ∧ ∀ expected ∈
        args.expectedDurationSeconds, ∃ e tolerance, expected.toFloat = some e ∧
          args.durationToleranceSeconds.toFloat = some tolerance ∧
            (PyFloat.distance r e).gt tolerance = false) ↔ 0 ≤ q ∧ ∀ expected ∈
        args.expectedDurationSeconds, ∃ e tolerance, expected.toFloat = some e ∧
          args.durationToleranceSeconds.toFloat = some tolerance ∧
            (PyFloat.distance q e).gt tolerance = false := by
      constructor
      · rintro ⟨_, ⟨⟩, h⟩
        exact h
      · exact fun h => ⟨q, rfl, h⟩
    rw [hfinite]
    refine and_congr_right fun _ => ?_
    cases args.expectedDurationSeconds with
    | none => exact iff_of_true rfl nofun
    | some expected =>
      dsimp only
      simp only [bind_eq_ok, toFloat_eq_ok, Option.mem_some_iff, forall_eq']
      constructor
      · rintro ⟨e, he, tolerance, htolerance, h⟩
        exact ⟨e, tolerance, he, htolerance, require_eq_ok.mp h⟩
      · rintro ⟨e, tolerance, he, htolerance, h⟩
        exact ⟨e, he, tolerance, htolerance, require_eq_ok.mpr h⟩
  | inf negative => exact iff_of_false nofun fun ⟨_, h, _⟩ => by cases h
  | nan => exact iff_of_false nofun fun ⟨_, h, _⟩ => by cases h

theorem raises_require_bind {c : Prop} [Decidable c] {reason : String}
    {f : Unit → Except ProbeFailure β} :
    Raises (require c reason >>= f) ↔ (c → Raises (f ())) := by
  unfold require
  by_cases hc : c
  · rw [if_pos hc, ok_bind]
    exact ⟨fun h _ => h, fun h => h hc⟩
  · rw [if_neg hc]
    refine iff_of_true ?_ fun h => absurd h hc
    intro e he
    cases he
    exact ⟨reason, rfl⟩

theorem raises_toFloat_bind {x : PyNumber} {f : PyFloat → Except ProbeFailure β} {P : Prop}
    (hf : ∀ y, Raises (f y) ↔ P) : Raises (toFloat x >>= f) ↔ x.toFloat ≠ none ∧ P := by
  unfold toFloat
  cases x.toFloat with
  | some y =>
    rw [ok_bind, hf]
    exact (and_iff_right (Option.some_ne_none y)).symm
  | none =>
    refine iff_of_false (fun h => ?_) fun h => h.1 rfl
    obtain ⟨reason, hreason⟩ := h _ rfl
    cases hreason

theorem raises_checkDuration {d : PyFloat} : Raises (checkDuration d args) ↔
    ∀ q, d = .finite q → 0 ≤ q → ∀ expected ∈ args.expectedDurationSeconds,
      expected.toFloat ≠ none ∧ args.durationToleranceSeconds.toFloat ≠ none := by
  cases d with
  | finite q =>
    rw [checkDuration, raises_require_bind]
    simp only [PyFloat.finite.injEq, forall_eq']
    refine imp_congr_right fun _ => ?_
    cases args.expectedDurationSeconds with
    | none => exact iff_of_true raises_ok nofun
    | some expected =>
      simp only [Option.mem_some_iff, forall_eq']
      refine raises_toFloat_bind fun e => ?_
      have hrequire := @raises_toFloat_bind _ args.durationToleranceSeconds
        (fun tolerance => require ((PyFloat.distance q e).gt tolerance = false)
          "PROBE_DURATION_MISMATCH") True fun _ => iff_of_true raises_require trivial
      rwa [and_true] at hrequire
  | _ =>
    refine iff_of_true ?_ nofun
    intro e he
    cases he
    exact ⟨_, rfl⟩

theorem near_iff : Near args q ↔ Tolerates args q ∧ ∀ expected ∈ args.expectedDurationSeconds,
    expected.toFloat ≠ some .nan ∧ args.durationToleranceSeconds.toFloat ≠ some .nan := by
  unfold Near Tolerates
  constructor
  · intro h
    constructor
    · intro expected hexpected
      obtain ⟨e, tolerance, he, htolerance, hle⟩ := h expected hexpected
      exact ⟨e, tolerance, he, htolerance, (PyFloat.le_iff.mp hle).1⟩
    · intro expected hexpected
      obtain ⟨e, tolerance, he, htolerance, hle⟩ := h expected hexpected
      obtain ⟨-, hdistance, hnan⟩ := PyFloat.le_iff.mp hle
      rw [he, htolerance]
      refine ⟨fun heq => hdistance (PyFloat.distance_eq_nan.mpr (Option.some.inj heq)),
        fun heq => hnan (Option.some.inj heq)⟩
  · rintro ⟨htolerates, hnan⟩ expected hexpected
    obtain ⟨e, tolerance, he, htolerance, hgt⟩ := htolerates expected hexpected
    obtain ⟨hne, hne'⟩ := hnan expected hexpected
    rw [he] at hne
    rw [htolerance] at hne'
    refine ⟨e, tolerance, he, htolerance, PyFloat.le_iff.mpr ⟨hgt, fun heq => hne ?_, fun heq => ?_⟩⟩
    · rw [PyFloat.distance_eq_nan.mp heq]
    · exact hne' (by rw [heq])

theorem reportedSize_eq_ok {n : ℤ} : reportedSize py size args = .ok n ↔
    n = args.expectedSizeBytes ∧ (size = .null ∨ readSize py size = some args.expectedSizeBytes) := by
  have hother (hsize : size ≠ .null) : (orElse (readSize py size) "PROBE_SIZE" >>= fun reported =>
      require (reported = args.expectedSizeBytes) "PROBE_SIZE_MISMATCH" >>= fun _ =>
        .ok reported) = .ok n ↔
          n = args.expectedSizeBytes ∧
            (size = .null ∨ readSize py size = some args.expectedSizeBytes) := by
    simp only [bind_eq_ok, require_eq_ok, orElse_eq_ok, Except.ok.injEq]
    constructor
    · rintro ⟨reported, hread, _, rfl, rfl⟩
      exact ⟨rfl, .inr hread⟩
    · rintro ⟨rfl, hnull | hread⟩
      · exact absurd hnull hsize
      · exact ⟨_, hread, (), rfl, rfl⟩
  cases size with
  | null =>
    rw [reportedSize, Except.ok.injEq, eq_comm]
    exact (and_iff_left (.inl rfl)).symm
  | _ => exact hother nofun

theorem raises_reportedSize : Raises (reportedSize py size args) := by
  have hother : Raises (orElse (readSize py size) "PROBE_SIZE" >>= fun reported =>
      require (reported = args.expectedSizeBytes) "PROBE_SIZE_MISMATCH" >>= fun _ =>
        .ok reported) :=
    raises_orElse.bind fun _ _ => raises_require.bind fun _ _ => raises_ok
  cases size with
  | null => exact raises_ok
  | _ => exact hother

theorem checkSize_eq_ok : (∃ n, checkSize py size args = .ok n) ↔ SizeReads py args size := by
  unfold checkSize SizeReads
  simp only [bind_eq_ok, require_eq_ok, reportedSize_eq_ok, Except.ok.injEq]
  constructor
  · rintro ⟨n, _, hbounds, reported, ⟨-, hsize⟩, -⟩
    exact ⟨by omega, by omega, hsize⟩
  · rintro ⟨hmin, hmax, hsize⟩
    exact ⟨_, (), by omega, _, ⟨rfl, hsize⟩, (), by omega, rfl⟩

theorem raises_checkSize : Raises (checkSize py size args) :=
  raises_require.bind fun _ _ => raises_reportedSize.bind fun _ _ =>
    raises_require.bind fun _ _ => raises_ok

theorem truncate_intCast (n : ℤ) : truncate n = n := by
  unfold truncate
  split_ifs
  · exact Rat.floor_intCast n
  · exact Rat.ceil_intCast n

theorem sizeIs_iff : SizeIs py args size ↔ SizeReads py args size ∧
    ∀ x, size = .float (.finite x) → x = args.expectedSizeBytes := by
  have hcast (n : ℤ) : some (n : ℚ) = some (args.expectedSizeBytes : ℚ) ↔
      some n = some args.expectedSizeBytes := by
    rw [Option.some.injEq, Option.some.injEq, Int.cast_inj]
  have hinner : (size = .null ∨ sizeValue py size = some (args.expectedSizeBytes : ℚ)) ↔
      (size = .null ∨ readSize py size = some args.expectedSizeBytes) ∧
        ∀ x, size = .float (.finite x) → x = args.expectedSizeBytes := by
    cases size with
    | float x =>
      cases x with
      | finite x =>
        rw [sizeValue, readSize, Option.some.injEq, Option.some.injEq]
        simp only [reduceCtorEq, false_or, Json.float.injEq, PyFloat.finite.injEq, forall_eq']
        constructor
        · rintro rfl
          exact ⟨truncate_intCast _, rfl⟩
        · exact fun h => h.2
      | _ => exact iff_of_false nofun nofun
    | str text =>
      refine Iff.trans ?_ (and_iff_left nofun).symm
      rw [sizeValue, readSize]
      cases int py.tables 10 text with
      | none => exact iff_of_false nofun nofun
      | some n => exact or_congr Iff.rfl (hcast n)
    | int n =>
      refine Iff.trans ?_ (and_iff_left nofun).symm
      exact or_congr Iff.rfl (hcast n)
    | bool b =>
      refine Iff.trans ?_ (and_iff_left nofun).symm
      cases b
      · exact or_congr Iff.rfl (hcast 0)
      · exact or_congr Iff.rfl (hcast 1)
    | null => exact iff_of_true (.inl rfl) ⟨.inl rfl, nofun⟩
    | _ => exact iff_of_false (by rintro (h | h) <;> cases h) (by rintro ⟨h | h, -⟩ <;> cases h)
  unfold SizeIs SizeReads
  rw [hinner]
  tauto

/-! ## Acceptance -/

/-- What follows the structure. -/
def checkNumbers (py : Interpreter) (args : ProbeArgs) (fmt : Fields) (name : Str)
    (counts : Counts) : Except ProbeFailure MuxProbeResult := do
  let durationSeconds ← readDuration py (get fmt "duration")
  checkDuration durationSeconds args
  let sizeBytes ← checkSize py (get fmt "size") args
  return { durationSeconds, videoStreams := counts.video, audioStreams := counts.audio
           otherStreams := counts.other, formatName := name, sizeBytes }

theorem checkNumbers_eq_ok {name : Str} :
    (∃ result, checkNumbers py args fmt name counts = .ok result) ↔
      ∃ q, durationValue py (get fmt "duration") = some q ∧ 0 ≤ q ∧ Tolerates args q ∧
        SizeReads py args (get fmt "size") := by
  unfold checkNumbers
  simp only [bind_eq_ok, checkDuration_eq_ok]
  constructor
  · rintro ⟨_, _, hduration, _, ⟨q, rfl, hq, htolerates⟩, n, hsize, -⟩
    exact ⟨q, readDuration_eq_ok.mp hduration, hq, htolerates, checkSize_eq_ok.mp ⟨n, hsize⟩⟩
  · rintro ⟨q, hduration, hq, htolerates, hsize⟩
    obtain ⟨n, hn⟩ := checkSize_eq_ok.mpr hsize
    exact ⟨_, _, readDuration_eq_ok.mpr hduration, (), ⟨q, rfl, hq, htolerates⟩, n, hn, rfl⟩

theorem raises_checkNumbers {name : Str} : Raises (checkNumbers py args fmt name counts) ↔
    (∀ n : ℤ, get fmt "duration" = .int n → n.natAbs < floatOverflow) ∧
      ∀ q, durationValue py (get fmt "duration") = some q → 0 ≤ q →
        ∀ expected ∈ args.expectedDurationSeconds,
          expected.toFloat ≠ none ∧ args.durationToleranceSeconds.toFloat ≠ none := by
  rw [← @raises_readDuration py]
  unfold checkNumbers
  cases hduration : readDuration py (get fmt "duration") with
  | error e =>
    constructor
    · intro h
      refine ⟨?_, fun q hq => ?_⟩
      · rintro e' ⟨⟩
        exact h e rfl
      · rw [readDuration_eq_ok.mpr hq] at hduration
        cases hduration
    · rintro ⟨h, -⟩ e' ⟨⟩
      exact h e rfl
  | ok d =>
    rw [ok_bind, and_iff_right raises_ok]
    have hvalue (q : ℚ) : d = .finite q ↔ durationValue py (get fmt "duration") = some q := by
      rw [← readDuration_eq_ok, hduration, Except.ok.injEq]
    have hcheck := @raises_checkDuration args d
    simp only [hvalue] at hcheck
    rw [← hcheck]
    constructor
    · intro h e he
      exact h e (by rw [he]; rfl)
    · exact fun h => h.bind fun _ _ => raises_checkSize.bind fun _ _ => raises_ok

theorem parseFfprobeJson_eq : parseFfprobeJson py raw args =
    (readProbe py raw args >>= fun read => checkNumbers py args read.1 read.2.1 read.2.2) := rfl

/-- With the structure as expected, the numbers decide. -/
theorem numbers_iff {name : Str} : (Raises (checkNumbers py args fmt name counts) ∧
    ((∃ result, checkNumbers py args fmt name counts = .ok result) ↔
      (∃ duration, durationValue py (get fmt "duration") = some duration ∧ 0 ≤ duration ∧
        Near args duration) ∧ SizeIs py args (get fmt "size"))) ↔ Readable py args fmt := by
  rw [raises_checkNumbers, checkNumbers_eq_ok]
  simp only [near_iff, sizeIs_iff]
  constructor
  · rintro ⟨⟨hduration, harguments⟩, haccept⟩
    have hagree (q : ℚ) (hq : durationValue py (get fmt "duration") = some q) (hpos : 0 ≤ q)
        (htolerates : Tolerates args q) (hsize : SizeReads py args (get fmt "size")) :=
      haccept.mp ⟨q, hq, hpos, htolerates, hsize⟩
    refine ⟨hduration, harguments, fun q hq hpos htolerates hsize => ?_,
      fun q hq hpos htolerates hsize => ?_⟩
    · obtain ⟨⟨q', hq', -, -, hcomparable⟩, -⟩ := hagree q hq hpos htolerates hsize
      exact hcomparable
    · exact (hagree q hq hpos htolerates hsize).2.2
  · intro h
    refine ⟨⟨h.duration, h.arguments⟩, ?_, ?_⟩
    · rintro ⟨q, hq, hpos, htolerates, hsize⟩
      exact ⟨⟨q, hq, hpos, htolerates, h.comparable q hq hpos htolerates hsize⟩, hsize,
        h.integral q hq hpos htolerates hsize⟩
    · rintro ⟨⟨q, hq, hpos, htolerates, -⟩, hsize, -⟩
      exact ⟨q, hq, hpos, htolerates, hsize⟩

/-- Nothing else is raised and exactly the intended files are accepted, if and only if the decoder
copes with the depth and the numbers are read as what they say. -/
theorem probe_catalogued_iff (py : Interpreter) (raw : List UInt8) (args : ProbeArgs) :
    Catalogued py raw args ↔ (IsSized raw args → py.loads raw ≠ .error .recursionError) ∧
      ∀ fmt, Reports py raw args fmt → Readable py args fmt := by
  by_cases hrecursion : IsSized raw args ∧ py.loads raw = .error .recursionError
  · refine iff_of_false (fun h => ?_) fun h => h.1 hrecursion.1 hrecursion.2
    have herror : parseFfprobeJson py raw args = .error .recursionError := by
      rw [parseFfprobeJson_eq, readProbe_recursion hrecursion.1 hrecursion.2]
      rfl
    obtain ⟨reason, hreason⟩ := h.1 _ herror
    cases hreason
  · rw [not_and] at hrecursion
    rw [and_iff_right hrecursion]
    cases hread : readProbe py raw args with
    | error e =>
      have hparse : parseFfprobeJson py raw args = .error e := by
        rw [parseFfprobeJson_eq, hread]
        rfl
      have hnone : ∀ fmt, ¬Reports py raw args fmt := by
        intro fmt hreports
        rw [readProbe_eq_ok.mpr ⟨hreports, rfl, rfl⟩] at hread
        cases hread
      refine iff_of_true ⟨fun e' he' => ?_, ?_⟩ fun fmt hreports => absurd hreports (hnone fmt)
      · rw [hparse] at he'
        cases he'
        exact readProbe_raises hrecursion e hread
      · rw [hparse]
        exact iff_of_false nofun fun ⟨fmt, hreports, _⟩ => hnone fmt hreports
    | ok read =>
      obtain ⟨fmt, name, counts⟩ := read
      have hreports := (readProbe_eq_ok.mp hread).1
      have hunique : ∀ other, Reports py raw args other → other = fmt := by
        intro other hother
        rw [readProbe_eq_ok.mpr ⟨hother, rfl, rfl⟩] at hread
        exact congrArg Prod.fst (Except.ok.inj hread)
      have hparse : parseFfprobeJson py raw args = checkNumbers py args fmt name counts := by
        rw [parseFfprobeJson_eq, hread]
        rfl
      have hintended : IsIntended py raw args ↔
          (∃ duration, durationValue py (get fmt "duration") = some duration ∧ 0 ≤ duration ∧
            Near args duration) ∧ SizeIs py args (get fmt "size") := by
        constructor
        · rintro ⟨other, hother, h⟩
          obtain rfl := hunique other hother
          exact h
        · exact fun h => ⟨fmt, hreports, h⟩
      unfold Catalogued
      rw [hparse, hintended]
      refine Iff.trans numbers_iff ⟨fun h other hother => ?_, fun h => h fmt hreports⟩
      rw [hunique other hother]
      exact h

/-! ## A long duration -/

def streamFields (codecType codecName : String) : Json :=
  .obj [(codePoints "codec_type", .str (codePoints codecType)),
    (codePoints "codec_name", .str (codePoints codecName))]

/-- A file of the expected structure with a duration of 10 to the power of 309. -/
def longDocument : Json :=
  .obj [(codePoints "streams", .arr [streamFields "video" "h264", streamFields "audio" "aac"]),
    (codePoints "format", .obj [(codePoints "format_name", .str (codePoints "mp4")),
      (codePoints "duration", .int (10 ^ 309))])]

def longBytes : List UInt8 :=
  ("\x7b\"streams\":[\x7b\"codec_type\":\"video\",\"codec_name\":\"h264\"\x7d," ++
    "\x7b\"codec_type\":\"audio\",\"codec_name\":\"aac\"\x7d]," ++
    "\"format\":\x7b\"format_name\":\"mp4\",\"duration\":1").toList.map (·.toNat.toUInt8) ++
    List.replicate 309 48 ++ [125, 125]

def sampleInterpreter : Interpreter where
  tables := ⟨fun _ => none, fun _ => false⟩
  loads raw := if raw = longBytes then .ok longDocument else .error .jsonDecodeError
  float _ := none
  repr _ := []

/-- An integer that is too large for a float escapes. -/
theorem long_duration_escapes : ¬Catalogued sampleInterpreter longBytes
    ⟨"mp4", 1000, some (.float (.finite 12)), .float (.finite 2), 10000, 262144⟩ := by
  intro h
  have hescape : parseFfprobeJson sampleInterpreter longBytes
      ⟨"mp4", 1000, some (.float (.finite 12)), .float (.finite 2), 10000, 262144⟩ =
        .error .overflowError := by
    decide +kernel
  obtain ⟨reason, hreason⟩ := h.1 _ hescape
  cases hreason

end FetchNow.Ffprobe
