import FetchNow.Downloads.SnapshotCodec

/-!
# Snapshots are read back

A format within the bounds of the decoder, and every policy that is attached to a format.
-/
namespace FetchNow.SnapshotCodec

open Transactions Texts
open Audit (Json)

variable {lib : Library} {payload s r : Payload} {fmt f : MediaFormat} {maxBytes n maximum : ℕ}
  {policy : EffectiveDownloadPolicy} {id : Option Uuid} {expected : Str}

/-! ## Values -/

/-- The bounds of the decoder that the constructor does not have. -/
structure WithinBounds (fmt : MediaFormat) : Prop where
  width : ∀ w ∈ fmt.width, w ≤ maxDimension
  height : ∀ h ∈ fmt.height, h ≤ maxDimension
  approxBytes : ∀ b ∈ fmt.approxBytes, b ≤ maxApproxBytes

theorem requireOptionalInt_intOrNull (value : Option ℕ) (maximum : ℕ) :
    requireOptionalInt (intOrNull value) maximum = (do
      require (∀ v ∈ value, v ≤ maximum) (formatUnavailable "SNAPSHOT_INT_BOUNDS")
      .ok value) := by
  cases value with
  | none => rfl
  | some v => simp [requireOptionalInt, intOrNull, require]

theorem requireOptionalFloat_floatOrNull {value : Option ℚ} {maximum : ℚ}
    (h : ∀ v ∈ value, 0 ≤ v ∧ v ≤ maximum) :
    requireOptionalFloat (floatOrNull value) maximum = .ok value := by
  cases value with
  | none => rfl
  | some v => exact bind_eq_ok.mpr ⟨(), require_true (h v rfl), rfl⟩

/-- A safe token is a string as the decoder asks for. -/
theorem requireString_token {token : String} (h : isSafeToken token = true) :
    requireString (.str token.toList) = .ok token.toList := by
  rw [isSafeToken] at h
  split at h
  · cases h
  rename_i c rest hchars
  simp only [Bool.and_eq_true, decide_eq_true_eq, List.all_eq_true, Bool.or_eq_true] at h
  obtain ⟨⟨hfirst, hlen⟩, hrest⟩ := h
  have hlower : ∀ c : Char, c.isLower = true → 32 ≤ c.toNat := by
    intro c hc
    exact le_trans (by decide) (isLower_iff.mp hc).1
  have hdigit : ∀ c : Char, c.isDigit = true → 32 ≤ c.toNat := by
    intro c hc
    exact le_trans (by decide) (Char.isDigit_iff_toNat.mp hc).1
  have hlength : (c :: rest).length ≤ maxStringLen := by
    rw [List.length_cons, maxStringLen]
    omega
  rw [hchars, requireString, require_true ⟨List.cons_ne_nil _ _, hlength⟩]
  refine bind_eq_ok.mpr ⟨(), rfl, bind_eq_ok.mpr ⟨(), require_true (List.all_eq_true.mpr ?_), rfl⟩⟩
  intro d hd
  rw [decide_eq_true_eq]
  rcases List.mem_cons.mp hd with rfl | hd
  · exact hlower d hfirst
  · rcases hrest d hd with (hd | hd) | rfl
    · exact hlower d hd
    · exact hdigit d hd
    · decide

theorem read_category (category : FormatCategory) :
    requireString (.str category.value.toList) = .ok category.value.toList ∧
      categoryOf category.value.toList = .ok category := by
  cases category <;> decide

theorem read_mediaKind (kind : MediaKind) :
    requireString (.str (mediaKindValue kind).toList) = .ok (mediaKindValue kind).toList ∧
      mediaKindOf (mediaKindValue kind).toList = .ok kind := by
  cases kind <;> decide

theorem read_codec (codec : CodecFamily) :
    requireString (.str codec.value.toList) = .ok codec.value.toList ∧
      codecOf codec.value.toList = .ok codec := by
  cases codec <;> decide

/-! ## Formats -/

structure Constructed (fmt : MediaFormat) : Prop where
  accepted : fmt.postInit = .ok fmt
  formatOptionId : isSafeToken fmt.formatOptionId = true
  container : isSafeToken fmt.container = true
  qualityLabel : isSafeToken fmt.qualityLabel = true
  fps : ∀ v ∈ fmt.fps, 0 ≤ v ∧ v ≤ maxFps
  bitrateKbps : ∀ v ∈ fmt.bitrateKbps, v ≤ 100000

theorem constructed_of_postInit (h : fmt.postInit = .ok f) : Constructed fmt := by
  obtain rfl := MediaFormat.eq_of_postInit h
  have haccepted := h
  rw [MediaFormat.postInit] at h
  simp only [bind_eq_ok, requireSafeToken, requireFiniteNonNegative, require_eq_ok] at h
  obtain ⟨_, hid, _, hcontainer, _, hlabel, _, -, _, -, _, ⟨_, hlow, hhigh⟩, _, -, _,
    ⟨_, -, hbitrate⟩, -⟩ := h
  refine ⟨haccepted, hid, hcontainer, hlabel, ?_, ?_⟩
  · intro v hv
    exact ⟨hlow v hv, hhigh v hv 240 rfl⟩
  · intro v hv
    have hbound := hbitrate v (by simpa using hv) 100000 rfl
    exact_mod_cast hbound

theorem item_formatPayload (fmt : MediaFormat) :
    item (formatPayload fmt) "formatOptionId" = .ok (.str fmt.formatOptionId.toList) ∧
    item (formatPayload fmt) "container" = .ok (.str fmt.container.toList) ∧
    item (formatPayload fmt) "width" = .ok (intOrNull fmt.width) ∧
    item (formatPayload fmt) "height" = .ok (intOrNull fmt.height) ∧
    item (formatPayload fmt) "fps" = .ok (floatOrNull fmt.fps) ∧
    item (formatPayload fmt) "hasVideo" = .ok (.bool fmt.hasVideo) ∧
    item (formatPayload fmt) "hasAudio" = .ok (.bool fmt.hasAudio) ∧
    item (formatPayload fmt) "category" = .ok (.str fmt.category.value.toList) ∧
    item (formatPayload fmt) "videoCodec" = .ok (.str fmt.videoCodec.value.toList) ∧
    item (formatPayload fmt) "audioCodec" = .ok (.str fmt.audioCodec.value.toList) ∧
    item (formatPayload fmt) "approxBytes" = .ok (intOrNull fmt.approxBytes) ∧
    item (formatPayload fmt) "qualityLabel" = .ok (.str fmt.qualityLabel.toList) ∧
    item (formatPayload fmt) "freeTierEligible" = .ok (.bool fmt.freeTierEligible) ∧
    Json.get (formatPayload fmt) "mediaKind" = some (.str (mediaKindValue fmt.mediaKind).toList) ∧
    Json.get (formatPayload fmt) "requiresPremium" = some (.bool fmt.requiresPremium) ∧
    Json.get (formatPayload fmt) "bitrateKbps" = some (intOrNull fmt.bitrateKbps) :=
  ⟨rfl, rfl, rfl, rfl, rfl, rfl, rfl, rfl, rfl, rfl, rfl, rfl, rfl, rfl, rfl, rfl⟩

/-- What the decoder makes of the encoded fields: the bounds that are its own remain. -/
theorem readFormat_formatPayload (h : Constructed fmt) :
    readFormat (formatPayload fmt) fmt.formatOptionId.toList = (do
      require (∀ w ∈ fmt.width, w ≤ maxDimension) (formatUnavailable "SNAPSHOT_INT_BOUNDS")
      require (∀ w ∈ fmt.height, w ≤ maxDimension) (formatUnavailable "SNAPSHOT_INT_BOUNDS")
      require (∀ w ∈ fmt.approxBytes, w ≤ maxApproxBytes) (formatUnavailable "SNAPSHOT_INT_BOUNDS")
      .ok fmt) := by
  obtain ⟨h₁, h₂, h₃, h₄, h₅, h₆, h₇, h₈, h₉, h₁₀, h₁₁, h₁₂, h₁₃, h₁₄, h₁₅, h₁₆⟩ :=
    item_formatPayload fmt
  have hbitrate : requireOptionalInt (intOrNull fmt.bitrateKbps) 100000 = .ok fmt.bitrateKbps := by
    rw [requireOptionalInt_intOrNull, require_true h.bitrateKbps, ok_bind]
  have hconstruct : construct fmt = .ok fmt := by rw [construct, h.accepted]
  rw [readFormat]
  simp only [h₁, h₂, h₃, h₄, h₅, h₆, h₇, h₈, h₉, h₁₀, h₁₁, h₁₂, h₁₃, h₁₄, h₁₅, h₁₆, ok_bind,
    Option.getD_some, requireString_token h.formatOptionId, requireString_token h.container,
    requireString_token h.qualityLabel, require_true, (read_category _).1, (read_category _).2,
    (read_mediaKind _).1, (read_mediaKind _).2, (read_codec _).1, (read_codec _).2,
    requireOptionalInt_intOrNull, requireOptionalFloat_floatOrNull h.fps, requireBool, hbitrate,
    String.ofList_toList, bind_assoc, hconstruct]

/-! ## Keys -/

theorem rejectKeys_of_known (h : ∀ key ∈ payload.map Prod.fst, key ∈ snapshotKeys ∨ key = policyKey) :
    rejectKeys lib payload = .ok () := by
  have hascii : (forbiddenKeys ++ policyKey :: snapshotKeys).all
      (fun key => key.all fun c => c.toNat < 128) = true := by decide
  have hfold : ∀ key ∈ forbiddenKeys ++ policyKey :: snapshotKeys,
      lib.casefold key = key.map Char.toLower :=
    fun key hkey => lib.casefold_ascii key (List.all_eq_true.mp hascii key hkey)
  have hforbidden : forbiddenKeys.map lib.casefold = forbiddenKeys.map (List.map Char.toLower) :=
    List.map_congr_left fun key hkey => hfold key (List.mem_append_left _ hkey)
  have hclean : (policyKey :: snapshotKeys).all (fun key => key ∉ forbiddenKeys ∧
      key.map Char.toLower ∉ forbiddenKeys.map (List.map Char.toLower)) = true := by decide
  induction payload with
  | nil => rfl
  | cons entry rest ih =>
    obtain ⟨key, value⟩ := entry
    obtain ⟨hkey, hrest⟩ := List.forall_mem_cons.mp h
    have hmem : key ∈ policyKey :: snapshotKeys := by
      rw [List.mem_cons]
      exact hkey.symm
    have hsafe := List.all_eq_true.mp hclean key hmem
    rw [decide_eq_true_eq, ← hforbidden, ← hfold key (List.mem_append_right _ hmem)] at hsafe
    rw [rejectKeys, require_true hsafe, ok_bind, require_true hkey, ok_bind]
    exact ih hrest

theorem AllowedKeys.known (h : AllowedKeys payload) :
    ∀ key ∈ payload.map Prod.fst, key ∈ snapshotKeys ∨ key = policyKey := by
  have hsub : ∀ key ∈ legacySnapshotKeys, key ∈ snapshotKeys :=
    fun key hkey => List.mem_of_mem_filter hkey
  intro key hkey
  rcases h with h | h | h | h
  · exact .inl (hsub key (h.1 key hkey))
  · rcases List.mem_cons.mp (h.1 key hkey) with rfl | hkey
    · exact .inr rfl
    · exact .inl (hsub key hkey)
  · exact .inl (h.1 key hkey)
  · rcases List.mem_cons.mp (h.1 key hkey) with rfl | hkey
    · exact .inr rfl
    · exact .inl hkey

/-- With one of the four key sets, only the size and the values are left to check. -/
theorem decode_of_allowed (h : AllowedKeys payload) :
    decodeSelectedFormatSnapshot lib (.obj payload) expected maxBytes = (do
      require (jsonByteSize lib (.obj payload) ≤ maxBytes) (formatUnavailable "SNAPSHOT_TOO_LARGE")
      catchInvalid (readFormat payload expected)) := by
  rw [decodeSelectedFormatSnapshot, rejectKeys_of_known h.known]
  simp only [h, not_true_eq_false, if_false, ok_bind]

theorem allowed_of_decode
    (h : decodeSelectedFormatSnapshot lib (.obj payload) expected maxBytes = .ok f) :
    AllowedKeys payload ∧ jsonByteSize lib (.obj payload) ≤ maxBytes := by
  rw [decodeSelectedFormatSnapshot] at h
  obtain ⟨_, hsize, h⟩ := bind_eq_ok.mp h
  rw [require_eq_ok] at hsize
  refine ⟨?_, hsize⟩
  by_contra hkeys
  rw [if_pos hkeys] at h
  obtain ⟨_, -, h⟩ := bind_eq_ok.mp h
  cases h

theorem catchInvalid_eq_ok {α : Type} {m : Except SnapshotError α} {a : α} :
    catchInvalid m = .ok a ↔ m = .ok a := by
  cases m with
  | ok value => rfl
  | error e => cases e <;> simp [catchInvalid]

theorem hasKeys_formatPayload (fmt : MediaFormat) : HasKeys (formatPayload fmt) snapshotKeys := by
  have hkeys : (formatPayload fmt).map Prod.fst = snapshotKeys := rfl
  rw [HasKeys, hkeys]
  exact ⟨fun _ h => h, fun _ h => h⟩

/-- An encoded format is decoded exactly when it is within the bounds of the decoder. -/
theorem decode_encode_iff (hfmt : fmt.postInit = .ok fmt)
    (h : encodeSelectedFormatSnapshot lib fmt maxBytes = .ok payload) :
    decodeSelectedFormatSnapshot lib (.obj payload) fmt.formatOptionId.toList maxBytes = .ok fmt ↔
      WithinBounds fmt := by
  rw [encodeSelectedFormatSnapshot] at h
  obtain ⟨_, -, h⟩ := bind_eq_ok.mp h
  obtain ⟨_, hsize, h⟩ := bind_eq_ok.mp h
  rw [require_eq_ok] at hsize
  cases h
  rw [decode_of_allowed (.inr (.inr (.inl (hasKeys_formatPayload fmt)))), require_true hsize,
    ok_bind, catchInvalid_eq_ok, readFormat_formatPayload (constructed_of_postInit hfmt)]
  simp only [bind_eq_ok, require_eq_ok, and_true, exists_const]
  exact ⟨fun ⟨hwidth, hheight, hbytes⟩ => ⟨hwidth, hheight, hbytes⟩,
    fun h => ⟨h.width, h.height, h.approxBytes⟩⟩

/-! ## Instants -/

theorem readFraction_fractionText {microsecond : ℕ} (h : microsecond < 10 ^ 6) :
    readFraction (fractionText microsecond ++ utcOffset) = some (microsecond, utcOffset) := by
  rw [fractionText]
  by_cases hzero : microsecond = 0
  · rw [if_pos hzero, hzero]
    rfl
  · rw [if_neg hzero, List.cons_append, readFraction, readDigits_writeDigits (by decide) h,
      Nat.zero_mul, Nat.zero_add]

/-- The fields that fit their width. -/
structure Written (fields : UtcFields) : Prop where
  year : 0 ≤ fields.date.year ∧ fields.date.year < 10000
  month : 0 ≤ fields.date.month ∧ fields.date.month < 100
  day : 0 ≤ fields.date.day ∧ fields.date.day < 100
  hour : fields.hour < 24
  minute : fields.minute < 60
  second : fields.second < 60
  microsecond : fields.microsecond < 10 ^ 6

theorem readIso_isoText {fields : UtcFields} (h : Written fields) :
    readIso (isoText fields ++ utcOffset) = some (fields, some 0) := by
  have hyear : fields.date.year.toNat < 10 ^ 4 := by
    have := h.year
    omega
  have hmonth : fields.date.month.toNat < 10 ^ 2 := by
    have := h.month
    omega
  have hday : fields.date.day.toNat < 10 ^ 2 := by
    have := h.day
    omega
  have hhour : fields.hour < 10 ^ 2 := h.hour.trans (by decide)
  have hminute : fields.minute < 10 ^ 2 := h.minute.trans (by decide)
  have hsecond : fields.second < 10 ^ 2 := h.second.trans (by decide)
  have hoffset : readOffset utcOffset = some (some 0) := rfl
  simp only [readIso, isoText, List.append_assoc, List.cons_append,
    readDigits_writeDigits (by decide : 10 ≤ 16) hyear,
    readDigits_writeDigits (by decide : 10 ≤ 16) hmonth,
    readDigits_writeDigits (by decide : 10 ≤ 16) hday,
    readDigits_writeDigits (by decide : 10 ≤ 16) hhour,
    readDigits_writeDigits (by decide : 10 ≤ 16) hminute,
    readDigits_writeDigits (by decide : 10 ≤ 16) hsecond, expect, if_true, List.drop_one,
    List.tail_cons, readFraction_fractionText h.microsecond, hoffset, Option.bind_eq_bind,
    Option.bind_some, Nat.zero_mul, Nat.zero_add]
  rw [Int.toNat_of_nonneg h.year.1, Int.toNat_of_nonneg h.month.1, Int.toNat_of_nonneg h.day.1]

theorem isoText_not_mem {fields : UtcFields} (h : Written fields) {c : Char}
    (hdigit : ∀ d < 10, Nat.digitChar d ≠ c) (hmark : c ∉ ['-', 'T', ':', '.']) :
    c ∉ isoText fields := by
  have hdigits : ∀ width n, n < 10 ^ width → c ∉ writeDigits 10 width n := by
    intro width n hn hmem
    obtain ⟨d, hd, rfl⟩ := isHex_of_mem (by decide) hn hmem
    exact hdigit d hd rfl
  have hyear : fields.date.year.toNat < 10 ^ 4 := by
    have := h.year
    omega
  have hmonth : fields.date.month.toNat < 10 ^ 2 := by
    have := h.month
    omega
  have hday : fields.date.day.toNat < 10 ^ 2 := by
    have := h.day
    omega
  simp only [List.mem_cons, List.not_mem_nil, or_false, not_or] at hmark
  have hfraction : c ∉ fractionText fields.microsecond := by
    rw [fractionText]
    split
    · exact List.not_mem_nil
    · rw [List.mem_cons, not_or]
      exact ⟨hmark.2.2.2, hdigits 6 _ h.microsecond⟩
  simp only [isoText, List.mem_append, List.mem_cons, not_or]
  exact ⟨hdigits 4 _ hyear, hmark.1, hdigits 2 _ hmonth, hmark.1, hdigits 2 _ hday, hmark.2.1,
    hdigits 2 _ (h.hour.trans (by decide)), hmark.2.2.1, hdigits 2 _ (h.minute.trans (by decide)),
    hmark.2.2.1, hdigits 2 _ (h.second.trans (by decide)), hfraction⟩

variable {t : Timestamp} {text : Str}

theorem written_utcFields (h : InRange (utcFields t).date) : Written (utcFields t) := by
  have hbounds := Calendar.ofDay_bounds (t / 1000000 / 86400 + unixEpoch)
  refine ⟨⟨?_, ?_⟩, ⟨?_, ?_⟩, ⟨?_, ?_⟩, ?_, ?_, ?_, ?_⟩
  · have := h.1
    omega
  · have := h.2
    omega
  all_goals
    simp only [utcFields]
    omega

theorem valid_utcFields (h : InRange (utcFields t).date) : (utcFields t).Valid := by
  have hwritten := written_utcFields h
  refine ⟨h, ?_, hwritten.hour, hwritten.minute, hwritten.second⟩
  simp only [utcFields, Calendar.toDay_ofDay]

theorem timestamp_utcFields (t : Timestamp) : (utcFields t).timestamp = t := by
  have hparts : ∀ n : ℤ, ((n / 1000000 / 86400 + unixEpoch - unixEpoch) * 86400 +
      ((n / 1000000 % 86400).toNat / 3600 : ℕ) * 3600 +
      ((n / 1000000 % 86400).toNat % 3600 / 60 : ℕ) * 60 +
      ((n / 1000000 % 86400).toNat % 60 : ℕ)) * 1000000 + (n % 1000000).toNat = n := by
    intro n
    omega
  simp only [UtcFields.timestamp, utcFields, Calendar.toDay_ofDay]
  exact hparts t

theorem expiryText_eq (h : expiryText t = .ok text) :
    InRange (utcFields t).date ∧ text = isoText (utcFields t) ++ ['Z'] := by
  obtain ⟨_, hrange, h⟩ := bind_eq_ok.mp h
  rw [require_eq_ok] at hrange
  have hplus := isoText_not_mem (written_utcFields hrange) (c := '+') (by decide) (by decide)
  have hreplace := @replace_end _ _ "00:00".toList ['Z'] (isoText (utcFields t)) '+' hplus
  refine ⟨hrange, ?_⟩
  cases h
  exact hreplace

/-- The text of an instant is read as that instant. -/
theorem fromisoformat_expiryText (h : expiryText t = .ok text) :
    fromisoformat lib (replace ['Z'] utcOffset text) = some (some t) := by
  obtain ⟨hrange, rfl⟩ := expiryText_eq h
  have hwritten := written_utcFields hrange
  have hz := isoText_not_mem hwritten (c := 'Z') (by decide) (by decide)
  have hvalid : (utcFields t).Valid ∧ ∀ o ∈ some (0 : ℤ), o.natAbs < 86400 := by
    refine ⟨valid_utcFields hrange, ?_⟩
    rintro _ ⟨⟩
    decide
  rw [replace_end hz, fromisoformat, readIso_isoText hwritten]
  simp only [if_pos hvalid, Option.map_some, timestamp_utcFields, seconds]
  simp

theorem length_isoText_le (fields : UtcFields) : (isoText fields).length ≤ 26 := by
  have hfraction : (fractionText fields.microsecond).length ≤ 7 := by
    rw [fractionText]
    split
    · simp
    · simp [length_writeDigits]
  simp only [isoText, List.length_append, List.length_cons, length_writeDigits]
  omega

/-! ## Identities -/

theorem parseUuid_uuidText {i : Uuid} (h : i < 2 ^ 128) : parseUuid (uuidText i) = some i := by
  have hn : i < 16 ^ 32 := lt_of_lt_of_le h (by decide)
  obtain ⟨hex, hhex⟩ : ∃ hex, hex = writeDigits 16 32 i := ⟨_, rfl⟩
  have hlen : hex.length = 32 := by rw [hhex, length_writeDigits]
  have hchars : ∀ c ∈ hex, c ≠ 'u' ∧ isBrace c = false ∧ c ≠ '-' := by
    intro c hc
    rw [hhex] at hc
    obtain ⟨d, hd, rfl⟩ := isHex_of_mem (by decide) hn hc
    have hall : ∀ d < 16, Nat.digitChar d ≠ 'u' ∧ isBrace (Nat.digitChar d) = false ∧
        Nat.digitChar d ≠ '-' := by decide
    exact hall d hd
  have htext : uuidText i = hex.take 8 ++ '-' :: ((hex.drop 8).take 4 ++ '-' ::
      ((hex.drop 12).take 4 ++ '-' :: ((hex.drop 16).take 4 ++ '-' :: hex.drop 20))) := by
    rw [uuidText, hhex]
  have hmem : ∀ c ∈ uuidText i, c ∈ hex ∨ c = '-' := by
    intro c hc
    rw [htext] at hc
    simp only [List.mem_append, List.mem_cons] at hc
    have htake : ∀ n m, c ∈ (hex.drop n).take m → c ∈ hex :=
      fun n m hmem => List.mem_of_mem_drop (List.mem_of_mem_take hmem)
    rcases hc with hc | hc | hc | hc | hc | hc | hc | hc | hc
    · exact .inl (List.mem_of_mem_take hc)
    · exact .inr hc
    · exact .inl (htake _ _ hc)
    · exact .inr hc
    · exact .inl (htake _ _ hc)
    · exact .inr hc
    · exact .inl (htake _ _ hc)
    · exact .inr hc
    · exact .inl (List.mem_of_mem_drop hc)
  have hu : 'u' ∉ uuidText i := by
    intro hc
    rcases hmem _ hc with hc | hc
    · exact (hchars _ hc).1 rfl
    · cases hc
  have hbrace : ∀ c ∈ uuidText i, isBrace c = false := by
    intro c hc
    rcases hmem c hc with hc | rfl
    · exact (hchars c hc).2.1
    · rfl
  have hdrop : (uuidText i).dropWhile isBrace = uuidText i := by
    cases hcases : uuidText i with
    | nil => rfl
    | cons c rest =>
      rw [hcases] at hbrace
      exact List.dropWhile_cons_of_neg (by simp [hbrace c List.mem_cons_self])
  have hrdrop : (uuidText i).rdropWhile isBrace = uuidText i := by
    rw [List.rdropWhile_eq_self_iff]
    intro hne
    simp [hbrace _ (List.getLast_mem hne)]
  have hfilter : (uuidText i).filter (· ≠ '-') = hex := by
    have hself : ∀ s : Str, (∀ c ∈ s, c ∈ hex) → s.filter (· ≠ '-') = s := by
      intro s hs
      rw [List.filter_eq_self]
      intro c hc
      simpa using (hchars c (hs c hc)).2.2
    rw [htext]
    have htake : ∀ n m, ((hex.drop n).take m).filter (· ≠ '-') = (hex.drop n).take m := fun n m =>
      hself _ fun c hc => List.mem_of_mem_drop (List.mem_of_mem_take hc)
    have hdash : ∀ s : Str, ('-' :: s).filter (· ≠ '-') = s.filter (· ≠ '-') := fun s =>
      List.filter_cons_of_neg (by simp)
    have hjoin : ∀ n m, (hex.drop n).take m ++ hex.drop (n + m) = hex.drop n := by
      intro n m
      rw [← List.drop_drop, List.take_append_drop]
    rw [List.filter_append, hself _ fun c hc => List.mem_of_mem_take hc, hdash, List.filter_append,
      htake, hdash, List.filter_append, htake, hdash, List.filter_append, htake, hdash,
      hself _ fun c hc => List.mem_of_mem_drop hc, hjoin 16 4, hjoin 12 4, hjoin 8 4,
      List.take_append_drop]
  have hurn := @replace_eq_self _ _ "rn:".toList [] (uuidText i) 'u' hu
  have huuid := @replace_eq_self _ _ "uid:".toList [] (uuidText i) 'u' hu
  have hread : readDigits 16 32 0 (writeDigits 16 32 i ++ []) = some (0 * 16 ^ 32 + i, []) :=
    readDigits_writeDigits (by decide : 16 ≤ 16) hn
  rw [List.append_nil, ← hhex, Nat.zero_mul, Nat.zero_add] at hread
  have hparse : parseUuid (uuidText i) = (readDigits 16 32 0 hex).map Prod.fst := by
    have hbody : replace "uuid:".toList [] (replace "urn:".toList [] (uuidText i)) = uuidText i := by
      rw [show replace "urn:".toList [] (uuidText i) = uuidText i from hurn]
      exact huuid
    simp only [parseUuid, hbody, hdrop, hrdrop, hfilter, hlen, ne_eq, not_true_eq_false, if_false]
  rw [hparse, hread]
  rfl

/-! ## Policies -/

variable {policy' q : EffectiveDownloadPolicy} {id' : Option Uuid} {r' : Payload}
  {settings : QuotaSettings} {capability : Option PremiumCapability} {expiry : Option Str}

theorem decodePolicy_policyPayload (policy : EffectiveDownloadPolicy) (expiry : Option Str)
    (id : Option Uuid) :
    decodePolicy lib (policyPayload policy expiry id) =
      match policy.tier with
      | .free => decodeFreePolicy (intOrNull policy.downloadLimit)
          (intOrNull policy.quotaWindowSeconds) (intOrNull policy.deliveryRateBytesPerSecond)
          (optionalText expiry) (optionalText (id.map uuidText)) policy.allowCombined
          policy.allowAudioOnly policy.allowVideoOnly
      | .premium => decodePremiumPolicy lib false (intOrNull policy.downloadLimit)
          (intOrNull policy.quotaWindowSeconds) (intOrNull policy.deliveryRateBytesPerSecond)
          (optionalText expiry) (optionalText (id.map uuidText)) policy.allowCombined
          policy.allowAudioOnly policy.allowVideoOnly := by
  have hmap : (policyPayload policy expiry id).map Prod.fst = policyKeys := rfl
  have hkeys : HasKeys (policyPayload policy expiry id) policyKeys := by
    rw [HasKeys, hmap]
    exact ⟨fun _ h => h, fun _ h => h⟩
  have hlegacy : ¬ HasKeys (policyPayload policy expiry id) legacyPolicyKeys := by
    rw [HasKeys, hmap]
    decide
  rw [decodePolicy, require_true (.inr hkeys), ok_bind]
  simp only [decide_eq_false hlegacy]
  cases htier : policy.tier with
  | free =>
    have hfield : field (policyPayload policy expiry id) "tier" = .str (tierText .free) := by
      rw [← htier]
      rfl
    rw [hfield]
    rfl
  | premium =>
    have hfield : field (policyPayload policy expiry id) "tier" = .str (tierText .premium) := by
      rw [← htier]
      rfl
    rw [hfield]
    rfl

theorem boundedInt_eq_ok {value low high n : ℕ} (h : boundedInt (.int value) low high = .ok n) :
    n = value := by
  obtain ⟨_, -, h⟩ := bind_eq_ok.mp h
  cases h
  rfl

theorem boundedRate_eq_ok {rate rate' : Option ℕ} (h : boundedRate (intOrNull rate) = .ok rate') :
    rate' = rate := by
  cases rate with
  | none =>
    cases h
    rfl
  | some rate =>
    rw [intOrNull, boundedRate] at h
    cases hbounded : boundedInt (.int rate) 262144 67108864 with
    | error e =>
      rw [hbounded] at h
      cases h
    | ok n =>
      rw [hbounded] at h
      cases h
      rw [boundedInt_eq_ok hbounded]
    · simp

/-- A policy of the Free tier is decoded as it was encoded. -/
theorem decodeFreePolicy_eq {limit window : ℕ} {rate : Option ℕ} {expiry identity : Json}
    {allowCombined allowAudioOnly allowVideoOnly : Bool}
    (h : decodeFreePolicy (.int limit) (.int window) (intOrNull rate) expiry identity allowCombined
      allowAudioOnly allowVideoOnly = .ok q) :
    q = { tier := .free, downloadLimit := some limit, quotaWindowSeconds := some window,
          deliveryRateBytesPerSecond := rate, premiumExpiresAt := none, allowCombined := true,
          allowAudioOnly := false, allowVideoOnly := false } := by
  obtain ⟨limit', hlimit, h⟩ := bind_eq_ok.mp h
  obtain ⟨window', hwindow, h⟩ := bind_eq_ok.mp h
  obtain ⟨rate', hrate, h⟩ := bind_eq_ok.mp h
  obtain ⟨_, -, h⟩ := bind_eq_ok.mp h
  cases boundedInt_eq_ok hlimit
  cases boundedInt_eq_ok hwindow
  cases h
  rw [boundedRate_eq_ok hrate]

theorem decodePremiumPolicy_eq {t : Timestamp} {text : Str} {i : Uuid} (ht : expiryText t = .ok text)
    (hi : i < 2 ^ 128) :
    decodePremiumPolicy lib false .null .null .null (.str text) (.str (uuidText i)) true true true =
      .ok { tier := .premium, downloadLimit := none, quotaWindowSeconds := none,
            deliveryRateBytesPerSecond := none, premiumExpiresAt := some t, allowCombined := true,
            allowAudioOnly := true, allowVideoOnly := true } := by
  have hlen : text.length ≤ maxStringLen := by
    obtain ⟨-, rfl⟩ := expiryText_eq ht
    have hbody := length_isoText_le (utcFields t)
    rw [List.length_append, List.length_singleton, maxStringLen]
    omega
  have hid : (uuidOf (.str (uuidText i))).isSome := by
    rw [uuidOf, parseUuid_uuidText hi]
    rfl
  rw [decodePremiumPolicy, require_true ⟨rfl, rfl, rfl, rfl⟩, ok_bind]
  simp only [require_true hlen, fromisoformat_expiryText ht, require_true fun _ => hid, ok_bind]

/-- What `attach_effective_policy_snapshot` went through. -/
structure Attached (lib : Library) (payload : Payload) (policy : EffectiveDownloadPolicy)
    (id : Option Uuid) (expiry : Option Str) (r : Payload) : Prop where
  format : ∃ fmt, decodeSelectedFormatSnapshot lib (.obj payload) (ownFormatOptionId payload)
    defaultMaxJsonBytes = .ok fmt
  expires : optionalExpiry policy.premiumExpiresAt = .ok expiry
  result : r = setItem payload policyKey (.obj (policyPayload policy expiry id))
  decoded : ∃ q, decodeEffectivePolicySnapshot lib (.obj r) = .ok q
  size : jsonByteSize lib (.obj r) ≤ defaultMaxJsonBytes

theorem attached_of_ok (h : attachEffectivePolicySnapshot lib s policy id = .ok r) :
    ∃ expiry, Attached lib s policy id expiry r := by
  rw [attachEffectivePolicySnapshot] at h
  obtain ⟨fmt, hformat, h⟩ := bind_eq_ok.mp h
  obtain ⟨expiry, hexpiry, h⟩ := bind_eq_ok.mp h
  obtain ⟨q, hdecoded, h⟩ := bind_eq_ok.mp h
  obtain ⟨_, hsize, h⟩ := bind_eq_ok.mp h
  rw [require_eq_ok] at hsize
  cases h
  exact ⟨expiry, ⟨fmt, hformat⟩, hexpiry, rfl, ⟨q, hdecoded⟩, hsize⟩

theorem lookup_append_singleton {key : Str} {value : Json} (h : key ∉ s.map Prod.fst) (k : Str) :
    (s ++ [(key, value)]).lookup k = if k = key then some value else s.lookup k := by
  rw [List.lookup_append]
  by_cases hk : k = key
  · have hnone : s.lookup k = none := by
      rw [List.lookup_eq_none_iff]
      intro entry hentry
      rw [bne_iff_ne]
      rintro rfl
      exact h (hk ▸ List.mem_map_of_mem hentry)
    rw [hnone, if_pos hk, hk]
    simp
  · rw [if_neg hk]
    have hnone : [(key, value)].lookup k = none := by
      rw [List.lookup_cons, beq_false_of_ne hk]
      rfl
    rw [hnone, Option.or_none]

namespace Attached

variable (h : Attached lib s policy id expiry r) (hkey : policyKey ∉ s.map Prod.fst)
include h hkey

theorem eq_append : r = s ++ [(policyKey, .obj (policyPayload policy expiry id))] := by
  rw [h.result, setItem, if_neg hkey]

theorem decodeEffective : decodeEffectivePolicySnapshot lib (.obj r) =
    (decodePolicy lib (policyPayload policy expiry id)).map some := by
  rw [decodeEffectivePolicySnapshot, h.eq_append hkey, lookup_append_singleton hkey, if_pos rfl]
  rfl

theorem strip_eq : stripEffectivePolicySnapshot r = s := by
  rw [stripEffectivePolicySnapshot, h.eq_append hkey, List.filter_append]
  have hsame : s.filter (fun entry => decide (entry.1 ≠ policyKey)) = s := by
    rw [List.filter_eq_self]
    intro entry hentry
    rw [decide_eq_true_eq]
    rintro heq
    exact hkey (heq ▸ List.mem_map_of_mem hentry)
  rw [hsame]
  simp

theorem get_eq {key : String} (hne : key.toList ≠ policyKey) : Json.get r key = Json.get s key := by
  rw [Json.get, h.eq_append hkey, lookup_append_singleton hkey, if_neg hne, Json.get]

/-- The decoder of the format does not see the policy. -/
theorem readFormat_eq : readFormat r expected = readFormat s expected := by
  have hget : ∀ key : String, key.toList ≠ policyKey → Json.get r key = Json.get s key :=
    fun key hne => h.get_eq hkey hne
  have hitem : ∀ key : String, key.toList ≠ policyKey → item r key = item s key := by
    intro key hne
    rw [item, hget key hne, item]
  simp (disch := decide) only [readFormat, hitem, hget]

theorem allowedKeys : AllowedKeys r := by
  obtain ⟨fmt, hformat⟩ := h.format
  have hmap : r.map Prod.fst = s.map Prod.fst ++ [policyKey] := by
    rw [h.eq_append hkey, List.map_append]
    rfl
  have hadd : ∀ keys, HasKeys s keys → HasKeys r (policyKey :: keys) := by
    rintro keys ⟨hsub, hall⟩
    rw [HasKeys, hmap]
    constructor
    · intro key hmem
      rcases List.mem_append.mp hmem with hmem | hmem
      · exact List.mem_cons_of_mem _ (hsub key hmem)
      · exact List.mem_cons.mpr (.inl (List.mem_singleton.mp hmem))
    · intro key hmem
      rcases List.mem_cons.mp hmem with rfl | hmem
      · exact List.mem_append_right _ List.mem_cons_self
      · exact List.mem_append_left _ (hall key hmem)
  rcases (allowed_of_decode hformat).1 with hkeys | hkeys | hkeys | hkeys
  · exact .inr (.inl (hadd _ hkeys))
  · exact (hkey (hkeys.2 _ List.mem_cons_self)).elim
  · exact .inr (.inr (.inr (hadd _ hkeys)))
  · exact (hkey (hkeys.2 _ List.mem_cons_self)).elim

theorem decodeSelected_eq (expected : Str) :
    decodeSelectedFormatSnapshot lib (.obj r) expected defaultMaxJsonBytes =
      decodeSelectedFormatSnapshot lib (.obj s) expected defaultMaxJsonBytes := by
  obtain ⟨fmt, hformat⟩ := h.format
  obtain ⟨hallowed, hsize⟩ := allowed_of_decode hformat
  rw [decode_of_allowed (h.allowedKeys hkey), decode_of_allowed hallowed, require_true h.size,
    require_true hsize, ok_bind, ok_bind, h.readFormat_eq hkey]

end Attached

/-- A policy is decoded as it was attached, and the format is as it was before. -/
structure RoundTrips (lib : Library) (s : Payload) (policy : EffectiveDownloadPolicy)
    (id : Option Uuid) (r : Payload) : Prop where
  policy : decodeEffectivePolicySnapshot lib (.obj r) = .ok (some policy)
  identity : decodeAuthorizedIdentityId lib (.obj r) = .ok id
  stripped : stripEffectivePolicySnapshot r = s
  format : ∀ expected, decodeSelectedFormatSnapshot lib (.obj r) expected defaultMaxJsonBytes =
    decodeSelectedFormatSnapshot lib (.obj s) expected defaultMaxJsonBytes
  again : ∀ policy' id' r',
    attachEffectivePolicySnapshot lib (stripEffectivePolicySnapshot r) policy' id' = .ok r' →
      stripEffectivePolicySnapshot r' = stripEffectivePolicySnapshot r ∧
      ∀ expected, decodeSelectedFormatSnapshot lib (.obj r') expected defaultMaxJsonBytes =
        decodeSelectedFormatSnapshot lib (.obj r) expected defaultMaxJsonBytes

theorem effectiveDownloadPolicy_cases
    (h : effectiveDownloadPolicy settings capability = .ok policy) :
    (∃ limit window rate, policy =
      { tier := .free, downloadLimit := some limit, quotaWindowSeconds := some window,
        deliveryRateBytesPerSecond := rate, premiumExpiresAt := none, allowCombined := true,
        allowAudioOnly := false, allowVideoOnly := false }) ∨
    ∃ t, policy =
      { tier := .premium, downloadLimit := none, quotaWindowSeconds := none,
        deliveryRateBytesPerSecond := none, premiumExpiresAt := some t, allowCombined := true,
        allowAudioOnly := true, allowVideoOnly := true } := by
  rw [effectiveDownloadPolicy] at h
  split at h
  · rename_i premium _
    obtain ⟨_, hexpiry, h⟩ := bind_eq_ok.mp h
    rw [require_eq_ok] at hexpiry
    obtain ⟨t, ht⟩ := Option.isSome_iff_exists.mp hexpiry
    cases h
    exact .inr ⟨t, by rw [ht]⟩
  · cases h
    exact .inl ⟨_, _, _, rfl⟩

/-- Decoding gives the projected policy and the identity back. -/
theorem Attached.decodePolicy_eq (h : Attached lib s policy id expiry r)
    (hpolicy : effectiveDownloadPolicy settings capability = .ok policy)
    (hid : id.isSome ↔ policy.tier = .premium) (hbits : ∀ i ∈ id, i < 2 ^ 128)
    (hkey : policyKey ∉ s.map Prod.fst) :
    decodePolicy lib (policyPayload policy expiry id) = .ok policy := by
  obtain ⟨q, hdecoded⟩ := h.decoded
  rw [h.decodeEffective hkey, decodePolicy_policyPayload] at hdecoded
  rw [decodePolicy_policyPayload]
  rcases effectiveDownloadPolicy_cases hpolicy with ⟨limit, window, rate, rfl⟩ | ⟨t, rfl⟩
  · simp only at hdecoded ⊢
    cases hfree : decodeFreePolicy (intOrNull (some limit)) (intOrNull (some window))
        (intOrNull rate) (optionalText expiry) (optionalText (id.map uuidText)) true false false with
    | error e =>
      rw [hfree] at hdecoded
      cases hdecoded
    | ok found => rw [decodeFreePolicy_eq hfree]
  · obtain ⟨i, rfl⟩ := Option.isSome_iff_exists.mp (hid.mpr rfl)
    have hexpires := h.expires
    rw [optionalExpiry] at hexpires
    cases htext : expiryText t with
    | error e =>
      rw [htext] at hexpires
      cases hexpires
    | ok text =>
      rw [htext] at hexpires
      cases hexpires
      exact decodePremiumPolicy_eq htext (hbits i rfl)

theorem Attached.decodeIdentity (h : Attached lib s policy id expiry r)
    (hpolicy : effectiveDownloadPolicy settings capability = .ok policy)
    (hid : id.isSome ↔ policy.tier = .premium) (hbits : ∀ i ∈ id, i < 2 ^ 128)
    (hkey : policyKey ∉ s.map Prod.fst) :
    decodeAuthorizedIdentityId lib (.obj r) = .ok id := by
  have hlookup : (r.lookup policyKey).getD .null = .obj (policyPayload policy expiry id) := by
    rw [h.eq_append hkey, lookup_append_singleton hkey, if_pos rfl]
    rfl
  have hfield : field (policyPayload policy expiry id) "authorizedIdentityId" =
      optionalText (id.map uuidText) := rfl
  rw [decodeAuthorizedIdentityId, h.decodeEffective hkey,
    h.decodePolicy_eq hpolicy hid hbits hkey]
  cases id with
  | none =>
    have htier : policy.tier ≠ .premium := fun htier => by simpa using hid.mpr htier
    simp [Except.map, htier]
  | some i =>
    have htier : policy.tier = .premium := hid.mp rfl
    have huuid : uuidOf (.str (uuidText i)) = some i := parseUuid_uuidText (hbits i rfl)
    simp only [Except.map, ok_bind, Option.filter_some, htier, decide_true, if_true, hlookup,
      hfield, Option.map_some, optionalText, huuid]

/-- An attached policy round-trips exactly when the payload had no policy before. -/
theorem roundTrips_iff (hpolicy : effectiveDownloadPolicy settings capability = .ok policy)
    (hid : id.isSome ↔ policy.tier = .premium) (hbits : ∀ i ∈ id, i < 2 ^ 128)
    (h : attachEffectivePolicySnapshot lib s policy id = .ok r) :
    RoundTrips lib s policy id r ↔ policyKey ∉ s.map Prod.fst := by
  obtain ⟨expiry, hattached⟩ := attached_of_ok h
  constructor
  · intro hround hmem
    rw [← hround.stripped] at hmem
    obtain ⟨entry, hentry, hkey⟩ := List.mem_map.mp hmem
    simpa [hkey] using (List.mem_filter.mp hentry).2
  · intro hkey
    have hstrip := hattached.strip_eq hkey
    refine ⟨?_, hattached.decodeIdentity hpolicy hid hbits hkey, hstrip,
      hattached.decodeSelected_eq hkey, ?_⟩
    · rw [hattached.decodeEffective hkey, hattached.decodePolicy_eq hpolicy hid hbits hkey]
      rfl
    · intro policy' id' r' hagain
      rw [hstrip] at hagain ⊢
      obtain ⟨expiry', hattached'⟩ := attached_of_ok hagain
      refine ⟨hattached'.strip_eq hkey, fun expected => ?_⟩
      rw [hattached'.decodeSelected_eq hkey, hattached.decodeSelected_eq hkey]

/-! ## The decoded parts -/

/-- The format part of a payload as the rest of the development sees it. -/
def formatView (lib : Library) (payload : Payload) : FormatSnapshot :=
  match decodeSelectedFormatSnapshot lib (.obj payload) (ownFormatOptionId payload)
      defaultMaxJsonBytes with
  | .ok fmt => ⟨fmt.formatOptionId, fmt.mediaKind, true⟩
  | .error _ => ⟨String.ofList (ownFormatOptionId payload), .normalVideo, false⟩

def policyView (lib : Library) (payload : Payload) : PolicySnapshot :=
  match decodeEffectivePolicySnapshot lib (.obj payload),
      decodeAuthorizedIdentityId lib (.obj payload) with
  | .ok none, _ => .absent
  | .ok (some policy), .ok id => .stored policy id
  | _, _ => .malformed

def view (lib : Library) (payload : Payload) : SelectedFormatSnapshot where
  format := formatView lib (stripEffectivePolicySnapshot payload)
  effectivePolicy := policyView lib payload

/-- What is attached to the payload is attached to its decoded parts. -/
theorem attach_view (hpolicy : effectiveDownloadPolicy settings capability = .ok policy)
    (hid : id.isSome ↔ policy.tier = .premium) (hbits : ∀ i ∈ id, i < 2 ^ 128)
    (hkey : policyKey ∉ s.map Prod.fst)
    (h : attachEffectivePolicySnapshot lib s policy id = .ok r) :
    FetchNow.attachEffectivePolicySnapshot (formatView lib s) policy id = .ok (view lib r) := by
  have hround := (roundTrips_iff hpolicy hid hbits h).mpr hkey
  obtain ⟨expiry, hattached⟩ := attached_of_ok h
  obtain ⟨fmt, hformat⟩ := hattached.format
  have hdecodable : (formatView lib s).decodable = true := by rw [formatView, hformat]
  have hview : view lib r = ⟨formatView lib s, .stored policy id⟩ := by
    rw [view, policyView, hround.stripped, hround.policy, hround.identity]
  rw [FetchNow.attachEffectivePolicySnapshot, FetchNow.decodeSelectedFormatSnapshot,
    require_true ⟨hdecodable, rfl⟩, hview]
  rfl

/-- A format round-trips exactly within the decoder's bounds, and a policy exactly when it is
attached to a payload without one. -/
theorem snapshots_round_trip_iff (hfmt : fmt.postInit = .ok fmt)
    (hencode : encodeSelectedFormatSnapshot lib fmt maxBytes = .ok payload)
    (hpolicy : effectiveDownloadPolicy settings capability = .ok policy)
    (hid : id.isSome ↔ policy.tier = .premium) (hbits : ∀ i ∈ id, i < 2 ^ 128)
    (hattach : attachEffectivePolicySnapshot lib s policy id = .ok r) :
    (decodeSelectedFormatSnapshot lib (.obj payload) fmt.formatOptionId.toList maxBytes = .ok fmt ↔
      WithinBounds fmt) ∧
    (RoundTrips lib s policy id r ↔ policyKey ∉ s.map Prod.fst) :=
  ⟨decode_encode_iff hfmt hencode, roundTrips_iff hpolicy hid hbits hattach⟩

section Sample

/-- Case folding of ASCII; a format without a frame rate has no float. -/
def sampleLibrary : Library where
  casefold s := s.map Char.toLower
  floatRepr _ := []
  otherIso _ := none
  casefold_ascii _ _ := rfl

def sampleFormat (approxBytes : ℕ) : MediaFormat where
  formatOptionId := "fmt_1080p"
  container := "mp4"
  width := some 1920
  height := some 1080
  fps := none
  hasVideo := true
  hasAudio := true
  category := .progressive
  videoCodec := .avc
  audioCodec := .aac
  approxBytes := some approxBytes
  qualityLabel := "q1080p"
  freeTierEligible := true
  mediaKind := .normalVideo
  requiresPremium := false
  bitrateKbps := none

abbrev smallFormat : MediaFormat := sampleFormat 1000000

/-- A format that a limit of more than a terabyte for source files admits. -/
abbrev hugeFormat : MediaFormat := sampleFormat 1000000000001

def premiumUntil : PremiumCapability := ⟨true, some 1767225600000000, none⟩

def sampleSettings : QuotaSettings := ⟨true, 3, 86400, false, 524288, true, 172800⟩

def premiumPolicy : EffectiveDownloadPolicy where
  tier := .premium
  downloadLimit := none
  quotaWindowSeconds := none
  deliveryRateBytesPerSecond := none
  premiumExpiresAt := some 1767225600000000
  allowCombined := true
  allowAudioOnly := true
  allowVideoOnly := true

end Sample

theorem snapshots_round_trip_premium : ∃ payload r,
    encodeSelectedFormatSnapshot sampleLibrary smallFormat 4096 = .ok payload ∧
    attachEffectivePolicySnapshot sampleLibrary payload premiumPolicy (some 7) = .ok r ∧
    (decodeSelectedFormatSnapshot sampleLibrary (.obj payload)
      smallFormat.formatOptionId.toList 4096 = .ok smallFormat ↔
        WithinBounds smallFormat) ∧
    (RoundTrips sampleLibrary payload premiumPolicy (some 7) r ↔
      policyKey ∉ payload.map Prod.fst) := by
  have hencode : encodeSelectedFormatSnapshot sampleLibrary smallFormat 4096 =
      .ok (formatPayload smallFormat) := by
    have hsize : jsonByteSize sampleLibrary (.obj (formatPayload smallFormat)) ≤ 4096 := by
      decide +kernel
    rw [encodeSelectedFormatSnapshot, require_true (hasKeys_formatPayload _), ok_bind,
      require_true hsize, ok_bind]
  have hattached : (attachEffectivePolicySnapshot sampleLibrary (formatPayload smallFormat)
      premiumPolicy (some 7)).isOk = true := by
    decide +kernel
  cases hattach : attachEffectivePolicySnapshot sampleLibrary (formatPayload smallFormat)
      premiumPolicy (some 7) with
  | error e =>
    rw [hattach] at hattached
    cases hattached
  | ok r =>
    have hpolicy : effectiveDownloadPolicy sampleSettings (some premiumUntil) =
        .ok premiumPolicy := by
      decide
    have hfmt : smallFormat.postInit = .ok smallFormat := by decide +kernel
    refine ⟨_, r, hencode, hattach, ?_⟩
    have hid : (some 7 : Option Uuid).isSome ↔ premiumPolicy.tier = .premium := iff_of_true rfl rfl
    have hbits : ∀ i ∈ (some 7 : Option Uuid), i < 2 ^ 128 := by simp
    exact snapshots_round_trip_iff hfmt hencode hpolicy hid hbits hattach

/-- The encoder writes a size that the decoder refuses. -/
theorem terabyte_format_not_decoded : ¬ ∀ (lib : Library) (fmt : MediaFormat) (payload : Payload),
    fmt.postInit = .ok fmt →
    encodeSelectedFormatSnapshot lib fmt defaultMaxJsonBytes = .ok payload →
    decodeSelectedFormatSnapshot lib (.obj payload) fmt.formatOptionId.toList defaultMaxJsonBytes =
      .ok fmt := by
  intro h
  have hfmt : hugeFormat.postInit = .ok hugeFormat := by decide +kernel
  have hsize : jsonByteSize sampleLibrary (.obj (formatPayload hugeFormat)) ≤
      defaultMaxJsonBytes := by decide +kernel
  have hencode : encodeSelectedFormatSnapshot sampleLibrary hugeFormat
      defaultMaxJsonBytes = .ok (formatPayload hugeFormat) := by
    rw [encodeSelectedFormatSnapshot, require_true (hasKeys_formatPayload _), ok_bind,
      require_true hsize, ok_bind]
  have hbounds := (decode_encode_iff hfmt hencode).mp (h _ _ _ hfmt hencode)
  exact absurd (hbounds.approxBytes 1000000000001 rfl) (by decide)

end FetchNow.SnapshotCodec
