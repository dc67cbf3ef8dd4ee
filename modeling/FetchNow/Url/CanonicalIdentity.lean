import FetchNow.Theory.Segments
import FetchNow.Url.Destination
import FetchNow.Url.ProviderIdentity

/-!
# Canonical paths

Which ids survive being written into the canonical path of their provider: those that begin no
forbidden marker there and keep to the characters and the length of a media id.
-/
namespace FetchNow.ProviderIdentity

open Transactions Segments FetchNow.Text

variable {tables : Unicode} {provider : ProviderID} {s t id seg path : Str} {segs : List Str} {c : ℕ}

/-! ## Markers and segments -/

theorem lower_append : lower (s ++ t) = lower s ++ lower t := List.flatMap_append

theorem mem_lower : c ∈ lower s ↔ ∃ d ∈ s, c ∈ lowerPoint d := List.mem_flatMap

theorem lowerPoint_cases (d : ℕ) : (65 ≤ d ∧ d ≤ 90 ∧ lowerPoint d = [d + 32]) ∨
    (d = 0x130 ∧ lowerPoint d = [105, 0x307]) ∨ (d = 0x212A ∧ lowerPoint d = [107]) ∨
    ((d < 65 ∨ 90 < d) ∧ d ≠ 0x130 ∧ d ≠ 0x212A ∧ lowerPoint d = [d]) := by
  simp only [lowerPoint]
  split_ifs with hupper hdotted hkelvin
  · exact Or.inl ⟨hupper.1, hupper.2, rfl⟩
  · exact Or.inr (Or.inl ⟨hdotted, rfl⟩)
  · exact Or.inr (Or.inr (Or.inl ⟨hkelvin, rfl⟩))
  · exact Or.inr (Or.inr (Or.inr ⟨by omega, hdotted, hkelvin, rfl⟩))

/-- Lower case brings in no ASCII character but letters. -/
theorem mem_of_mem_lower (h : c ∈ lower s) (hc : c < 97) : c ∈ s := by
  obtain ⟨d, hd, hcd⟩ := mem_lower.1 h
  rcases lowerPoint_cases d with ⟨hlow, -, he⟩ | ⟨-, he⟩ | ⟨-, he⟩ | ⟨-, -, -, he⟩
  all_goals
    rw [he] at hcd
    simp only [List.mem_cons, List.not_mem_nil, or_false] at hcd
  · omega
  · omega
  · omega
  · exact hcd ▸ hd

theorem lower_glue : lower (glue slash segs) = glue slash (segs.map lower) := by
  induction segs with
  | nil => rfl
  | cons s segs ih =>
    have hslash : lower (slash :: (s ++ glue slash segs)) =
        slash :: lower (s ++ glue slash segs) := rfl
    rw [glue_cons, hslash, lower_append, ih]
    rfl

/-- A segment no marker that begins with a slash begins. -/
def Unmarked (seg : Str) : Prop :=
  ¬ codePoints "embed" <+: lower seg ∧ ¬ codePoints "video_ext" <+: lower seg

theorem marker_infix_iff {marker : Str} (hm : slash ∉ marker) (hslash : ∀ s ∈ segs, slash ∉ s) :
    slash :: marker <:+: lower (glue slash segs) ↔ ∃ s ∈ segs, marker <+: lower s := by
  have hlower : ∀ s ∈ segs.map lower, slash ∉ s := by
    intro s hs hin
    obtain ⟨seg, hseg, rfl⟩ := List.mem_map.mp hs
    exact hslash seg hseg (mem_of_mem_lower hin (by decide))
  rw [lower_glue, infix_glue_iff hm hlower]
  simp

theorem isForbidden_eq_false_iff : isForbidden path = false ↔
    ∀ marker ∈ forbiddenPathMarkers, ¬ marker <:+: lower path := by
  simp [isForbidden, List.any_eq_false]

/-- No segment of an accepted path begins a marker. -/
theorem unmarked_of_accepted (hslash : ∀ s ∈ segs, slash ∉ s)
    (h : isForbidden (glue slash segs) = false) : ∀ s ∈ segs, Unmarked s := by
  rw [isForbidden_eq_false_iff] at h
  intro s hs
  constructor
  · intro hembed
    exact h (codePoints "/embed") (by decide)
      ((marker_infix_iff (by decide) hslash).mpr ⟨s, hs, hembed⟩)
  · intro hext
    exact h (codePoints "/video_ext") (by decide)
      ((marker_infix_iff (by decide) hslash).mpr ⟨s, hs, hext⟩)

/-- A path without dots is accepted when no segment begins a marker. -/
theorem accepted_of_unmarked (hslash : ∀ s ∈ segs, slash ∉ s) (hdot : dot ∉ glue slash segs)
    (h : ∀ s ∈ segs, Unmarked s) : isForbidden (glue slash segs) = false := by
  have hdots : ∀ marker, dot :: marker <:+: lower (glue slash segs) → False := by
    intro marker hin
    exact hdot (mem_of_mem_lower (hin.subset List.mem_cons_self) (by decide))
  rw [isForbidden_eq_false_iff]
  intro marker hmarker hin
  simp only [forbiddenPathMarkers, List.map_cons, List.map_nil, List.mem_cons, List.not_mem_nil,
    or_false] at hmarker
  rcases hmarker with rfl | rfl | rfl | rfl | rfl | rfl | rfl
  · have hext : codePoints "video_ext" <+: codePoints "video_ext.php" := by decide
    obtain ⟨s, hs, hpre⟩ := (marker_infix_iff (by decide) hslash).mp hin
    exact (h s hs).2 (hext.trans hpre)
  · obtain ⟨s, hs, hpre⟩ := (marker_infix_iff (by decide) hslash).mp hin
    exact (h s hs).2 hpre
  · obtain ⟨s, hs, hpre⟩ := (marker_infix_iff (by decide) hslash).mp hin
    exact (h s hs).1 hpre
  · exact hdots _ hin
  · exact hdots _ hin
  · exact hdots _ hin
  · exact hdots _ hin

/-- The segments of a path are those it is glued from, a final empty one apart. -/
theorem segments_eq_some (h : segments path = some segs) :
    (∀ s ∈ segs, slash ∉ s) ∧ (path = glue slash segs ∨ path = glue slash (segs ++ [[]])) := by
  simp only [segments] at h
  split at h
  · rename_i all hsplit
    obtain ⟨hpath, hslash⟩ := glue_of_splitOn hsplit
    split_ifs at h with hlast
    · obtain rfl : all.dropLast = segs := Option.some.inj h
      have hne : all ≠ [] := by
        rintro rfl
        cases hlast
      have hall := List.dropLast_append_getLast hne
      rw [List.getLast?_eq_some_getLast hne, Option.some.injEq] at hlast
      rw [hlast] at hall
      exact ⟨fun s hs => hslash s (List.dropLast_subset _ hs), Or.inr (hall.symm ▸ hpath)⟩
    · obtain rfl : all = segs := Option.some.inj h
      exact ⟨hslash, Or.inl hpath⟩
  · cases h

theorem segments_glue (hslash : ∀ s ∈ segs, slash ∉ s) (hlast : segs.getLast? ≠ some []) :
    segments (glue slash segs) = some segs := by
  simp only [segments, splitOn_glue hslash, if_neg hlast]

theorem segments_glue_nil (hslash : ∀ s ∈ segs, slash ∉ s) :
    segments (glue slash (segs ++ [[]])) = some segs := by
  have hall : ∀ s ∈ segs ++ [[]], slash ∉ s := by
    intro s hs
    rcases List.mem_append.mp hs with hs | hs
    · exact hslash s hs
    · simp_all
  simp only [segments, splitOn_glue hall, List.getLast?_concat, if_true, List.dropLast_concat]

/-! ## The characters of an id -/

theorem isToken_iff {bound : ℕ} {inClass : ℕ → Bool} : isToken bound inClass s ↔
    s ≠ [] ∧ s.length ≤ bound ∧ ∀ c ∈ s, inClass c := by
  simp [isToken, and_assoc]

/-- What a character of a written id can be, if it is ASCII. -/
def IdChar (c : ℕ) : Prop :=
  128 ≤ c ∨ 48 ≤ c ∧ c ≤ 57 ∨ 65 ≤ c ∧ c ≤ 90 ∨ 97 ≤ c ∧ c ≤ 122 ∨ c = underscore ∨ c = hyphen

theorem idChar_of_isDecimal (h : isDecimal tables c) : IdChar c := by
  have hdec := isDecimal_ascii h
  simp only [IdChar]
  omega

theorem isDzenChar_bounds (h : isDzenChar c) :
    128 ≤ c ∨ 48 ≤ c ∧ c ≤ 57 ∨ 65 ≤ c ∧ c ≤ 90 ∨ 97 ≤ c ∧ c ≤ 122 ∨ c = 45 := by
  by_contra hcon
  have hfold : fold c = c := by
    simp only [fold]
    rw [if_neg (by omega), if_neg (by omega), if_neg (by omega), if_neg (by omega)]
  simp only [isDzenChar, hfold, Bool.or_eq_true, Bool.and_eq_true, decide_eq_true_eq,
    beq_iff_eq] at h
  have hhyphen : hyphen = 45 := rfl
  omega

theorem SegmentId.idChar (h : SegmentId tables provider segs id) : ∀ c ∈ id, IdChar c := by
  intro c hc
  cases h with
  | @vk kind sign owner video _ hsign howner hvideo =>
    simp only [List.append_assoc, List.mem_append, List.mem_cons] at hc
    rcases hc with hc | hc | rfl | hc
    · rcases hsign with rfl | rfl
      · cases hc
      · simp only [List.mem_singleton] at hc
        simp [IdChar, hc]
    · exact idChar_of_isDecimal ((isDecimals_iff.mp howner).2 c hc)
    · simp [IdChar]
    · exact idChar_of_isDecimal ((isDecimals_iff.mp hvideo).2 c hc)
  | rutube _ hid =>
    have hchar := (isToken_iff.1 hid).2.2 c hc
    simp only [isRutubeChar, Bool.or_eq_true, Bool.and_eq_true, decide_eq_true_eq,
      beq_iff_eq] at hchar
    simp only [IdChar]
    omega
  | ok _ hid =>
    have hchar := (isToken_iff.1 hid).2.2 c hc
    simp only [Bool.or_eq_true, beq_iff_eq] at hchar
    rcases hchar with hdec | rfl
    · exact idChar_of_isDecimal hdec
    · simp [IdChar]
  | dzen _ _ hid | dzenSlug _ _ _ _ _ hid _ =>
    have hchar := isDzenChar_bounds ((isToken_iff.1 hid).2.2 c hc)
    have hhyphen : hyphen = 45 := rfl
    simp only [IdChar]
    omega

theorem IdChar.ne_slash (h : IdChar c) : c ≠ slash := by
  rintro rfl
  revert h
  simp only [IdChar]
  decide

theorem IdChar.ne_dot (h : IdChar c) : c ≠ dot := by
  rintro rfl
  revert h
  simp only [IdChar]
  decide

theorem isSafeMediaId_iff : isSafeMediaId s ↔ s ≠ [] ∧ s.length ≤ 128 ∧
    ∀ c ∈ s, 65 ≤ c ∧ c ≤ 90 ∨ 97 ≤ c ∧ c ≤ 122 ∨ 48 ≤ c ∧ c ≤ 57 ∨ c = dot ∨ c = underscore ∨
      c = codePoint ':' ∨ c = hyphen := by
  simp only [isSafeMediaId, isToken_iff, Bool.or_eq_true, Bool.and_eq_true, decide_eq_true_eq,
    beq_iff_eq, or_assoc]

theorem safe_ascii (h : isSafeMediaId s) (hc : c ∈ s) : c < 128 := by
  have hchar := (isSafeMediaId_iff.1 h).2.2 c hc
  have hdot : dot = 46 := rfl
  have hunder : underscore = 95 := rfl
  have hcolon : codePoint ':' = 58 := rfl
  have hhyphen : hyphen = 45 := rfl
  omega

theorem safe_of_ascii (hne : s ≠ []) (hlen : s.length ≤ 128) (hchar : ∀ c ∈ s, IdChar c)
    (hascii : ∀ c ∈ s, c < 128) : isSafeMediaId s := by
  refine isSafeMediaId_iff.2 ⟨hne, hlen, ?_⟩
  intro c hc
  have hlt := hascii c hc
  have hid := hchar c hc
  simp only [IdChar] at hid
  omega

theorem lower_lower : lower (lower s) = lower s := by
  apply lower_eq_self
  intro c hc
  obtain ⟨d, -, hcd⟩ := mem_lower.1 hc
  have hfix : ∀ e, (e < 65 ∨ 90 < e) → e ≠ 0x130 → e ≠ 0x212A → lowerPoint e = [e] := by
    intro e hupper hdotted hkelvin
    simp only [lowerPoint]
    rw [if_neg (by omega), if_neg hdotted, if_neg hkelvin]
  rcases lowerPoint_cases d with ⟨hlow, hhigh, he⟩ | ⟨-, he⟩ | ⟨-, he⟩ | ⟨hupper, hdot, hkelvin, he⟩
  all_goals
    rw [he] at hcd
    simp only [List.mem_cons, List.not_mem_nil, or_false] at hcd
  · exact hfix c (by omega) (by omega) (by omega)
  · rcases hcd with rfl | rfl <;> rfl
  · subst hcd
    rfl
  · subst hcd
    exact hfix c hupper hdot hkelvin

/-- A plain id of Dzen in lower case: letters, digits and hyphens, as many as before. -/
theorem lower_plain (hchar : ∀ c ∈ s, isDzenChar c) (hplain : ∀ c ∈ s, c < 128 ∨ c = 0x212A) :
    (lower s).length = s.length ∧
      ∀ c ∈ lower s, 97 ≤ c ∧ c ≤ 122 ∨ 48 ≤ c ∧ c ≤ 57 ∨ c = 45 := by
  induction s with
  | nil => simp [lower]
  | cons d s ih =>
    obtain ⟨hlen, hall⟩ := ih (fun c hc => hchar c (List.mem_cons_of_mem _ hc))
      fun c hc => hplain c (List.mem_cons_of_mem _ hc)
    have hd := isDzenChar_bounds (hchar d List.mem_cons_self)
    have hp := hplain d List.mem_cons_self
    have hcons : lower (d :: s) = lowerPoint d ++ lower s := rfl
    rw [hcons]
    rcases lowerPoint_cases d with ⟨hlow, hhigh, he⟩ | ⟨hdotted, he⟩ | ⟨-, he⟩ | ⟨hup, -, hk, he⟩
    · rw [he]
      refine ⟨by simp [hlen], ?_⟩
      intro c hc
      rcases List.mem_cons.mp hc with rfl | hc
      · omega
      · exact hall c hc
    · omega
    · rw [he]
      refine ⟨by simp [hlen], ?_⟩
      intro c hc
      rcases List.mem_cons.mp hc with rfl | hc
      · omega
      · exact hall c hc
    · rw [he]
      refine ⟨by simp [hlen], ?_⟩
      intro c hc
      rcases List.mem_cons.mp hc with rfl | hc
      · omega
      · exact hall c hc

/-! ## Canonical paths -/

def canonicalSegments : ProviderID → Str → List Str
  | .vk, id => [codePoints "video" ++ id]
  | .rutube, id => [codePoints "video", id]
  | .ok, id => [codePoints "video", id]
  | .dzen, id => [codePoints "video", codePoints "watch", id]

variable {host : Str}

theorem canonicalPath_eq (provider : ProviderID) (host id : Str) :
    (identityOf provider host id).canonicalPath =
      glue slash (canonicalSegments provider (identityOf provider host id).mediaId) ∨
    (identityOf provider host id).canonicalPath =
      glue slash (canonicalSegments provider (identityOf provider host id).mediaId ++ [[]]) := by
  cases provider with
  | vk => exact Or.inl (List.append_nil _).symm
  | rutube =>
    right
    simp [identityOf, canonicalSegments, codePoints, codePoint, slash]
  | ok =>
    left
    simp [identityOf, canonicalSegments, codePoints, codePoint, slash]
  | dzen =>
    left
    simp [identityOf, canonicalSegments, codePoints, codePoint, slash]

/-- The media id holds no slash and no dot. -/
theorem SegmentId.mediaId_plain (h : SegmentId tables provider segs id) (host : Str) :
    slash ∉ (identityOf provider host id).mediaId ∧ dot ∉ (identityOf provider host id).mediaId := by
  have hslash : slash ∉ id := fun hin => (h.idChar _ hin).ne_slash rfl
  have hdot : dot ∉ id := fun hin => (h.idChar _ hin).ne_dot rfl
  cases provider with
  | vk | rutube | ok => exact ⟨hslash, hdot⟩
  | dzen =>
    exact ⟨fun hin => hslash (mem_of_mem_lower hin (by decide)),
      fun hin => hdot (mem_of_mem_lower hin (by decide))⟩

theorem mediaId_ne_nil (h : SegmentId tables provider segs id) (host : Str) :
    (identityOf provider host id).mediaId ≠ [] := by
  cases provider with
  | vk | rutube | ok => exact h.ne_nil
  | dzen => exact lower_ne_nil h.ne_nil

theorem not_mem_canonicalSegments (hid : c ∉ id)
    (hc : c ∉ codePoints "video" ++ codePoints "watch") :
    ∀ s ∈ canonicalSegments provider id, c ∉ s := by
  rw [List.mem_append, not_or] at hc
  cases provider <;> simp [canonicalSegments, hid, hc]

theorem not_mem_glue (hc : c ≠ slash) (h : ∀ s ∈ segs, c ∉ s) : c ∉ glue slash segs := by
  simp only [glue, List.mem_flatMap, List.mem_cons, not_exists, not_and, not_or]
  exact fun s hs => ⟨hc, h s hs⟩

/-- The canonical path is split at its own slashes only, and marked by its own segments only. -/
theorem SegmentId.canonicalPath (h : SegmentId tables provider segs id) (host : Str) :
    segments (identityOf provider host id).canonicalPath =
      some (canonicalSegments provider (identityOf provider host id).mediaId) ∧
    (isForbidden (identityOf provider host id).canonicalPath = false ↔
      ∀ s ∈ canonicalSegments provider (identityOf provider host id).mediaId, Unmarked s) := by
  obtain ⟨hslash, hdot⟩ := h.mediaId_plain host
  have hne := mediaId_ne_nil h host
  have hpath := canonicalPath_eq provider host id
  generalize (identityOf provider host id).mediaId = mediaId at *
  generalize (identityOf provider host id).canonicalPath = path at *
  have hslashes := @not_mem_canonicalSegments provider _ _ hslash (by decide)
  have hdots := @not_mem_canonicalSegments provider _ _ hdot (by decide)
  have hlast : (canonicalSegments provider mediaId).getLast? ≠ some [] := by
    cases provider <;> simp [canonicalSegments, hne, codePoints]
  have hnil : Unmarked [] := by
    constructor <;> decide
  have hall : ∀ s ∈ canonicalSegments provider mediaId ++ [[]], slash ∉ s := by
    simpa [or_imp, forall_and] using hslashes
  have halld : ∀ s ∈ canonicalSegments provider mediaId ++ [[]], dot ∉ s := by
    simpa [or_imp, forall_and] using hdots
  rcases hpath with rfl | rfl
  · exact ⟨segments_glue hslashes hlast, unmarked_of_accepted hslashes,
      accepted_of_unmarked hslashes (not_mem_glue (by decide) hdots)⟩
  · refine ⟨segments_glue_nil hslashes, fun hacc s hs => unmarked_of_accepted hall hacc s
      (List.mem_append_left _ hs), fun hun => accepted_of_unmarked hall
      (not_mem_glue (by decide) halld) ?_⟩
    intro s hs
    rcases List.mem_append.mp hs with hs | hs
    · exact hun s hs
    · rw [List.mem_singleton.mp hs]
      exact hnil

theorem mem_e_of_lower (h : 101 ∈ lower s) : 69 ∈ s ∨ 101 ∈ s := by
  obtain ⟨d, hd, hcd⟩ := mem_lower.1 h
  rcases lowerPoint_cases d with ⟨-, -, he⟩ | ⟨-, he⟩ | ⟨-, he⟩ | ⟨-, -, -, he⟩
  all_goals
    rw [he] at hcd
    simp only [List.mem_cons, List.not_mem_nil, or_false] at hcd
  · obtain rfl : d = 69 := by omega
    exact Or.inl hd
  · omega
  · omega
  · exact Or.inr (hcd ▸ hd)

/-- Numbers, signs and underscores begin no marker. -/
theorem no_e_of_decimals (h : ∀ c ∈ id, isDecimal tables c ∨ c = hyphen ∨ c = underscore) :
    101 ∉ lower id := by
  intro he
  rcases mem_e_of_lower he with hin | hin
  all_goals
    rcases h _ hin with hdec | hbad | hbad
    · have hb := isDecimal_ascii hdec
      omega
    · exact absurd hbad (by decide)
    · exact absurd hbad (by decide)

theorem SegmentId.decimals (h : SegmentId tables provider segs id)
    (hp : provider = .vk ∨ provider = .ok) :
    ∀ c ∈ id, isDecimal tables c ∨ c = hyphen ∨ c = underscore := by
  intro c hc
  cases h with
  | @vk kind sign owner video _ hsign howner hvideo =>
    simp only [List.append_assoc, List.mem_append, List.mem_cons] at hc
    rcases hc with hc | hc | hc | hc
    · rcases hsign with rfl | rfl
      · cases hc
      · exact Or.inr (Or.inl (List.mem_singleton.mp hc))
    · exact Or.inl ((isDecimals_iff.mp howner).2 c hc)
    · exact Or.inr (Or.inr hc)
    · exact Or.inl ((isDecimals_iff.mp hvideo).2 c hc)
  | ok _ hid =>
    have hchar := (isToken_iff.1 hid).2.2 c hc
    simp only [Bool.or_eq_true, beq_iff_eq] at hchar
    exact hchar.imp (fun hdec => hdec) Or.inl
  | rutube | dzen | dzenSlug => simp at hp

theorem SegmentId.dzenChars (h : SegmentId tables .dzen segs id) :
    id.length ≤ 64 ∧ ∀ c ∈ id, isDzenChar c := by
  cases h with
  | dzen _ _ hid | dzenSlug _ _ _ _ _ hid _ => exact (isToken_iff.1 hid).2

theorem unmarked_of_no_e (h : 101 ∉ lower s) : Unmarked s :=
  ⟨fun hpre => h (hpre.subset (by decide)), fun hpre => h (hpre.subset (by decide))⟩

theorem unmarked_video : Unmarked (codePoints "video") := by
  constructor <;> decide

theorem unmarked_watch : Unmarked (codePoints "watch") := by
  constructor <;> decide

theorem unmarked_vk (h : 101 ∉ lower id) : Unmarked (codePoints "video" ++ id) := by
  have hlower : lower (codePoints "video" ++ id) = codePoints "video" ++ lower id := lower_append
  constructor
  · rw [hlower]
    rintro ⟨rest, hrest⟩
    cases hrest
  · rw [hlower]
    intro hpre
    have hext : codePoints "_ext" <+: lower id :=
      (List.prefix_append_right_inj (codePoints "video")).mp hpre
    exact h (hext.subset (by decide))

/-- The canonical path of an accepted path is forbidden for one kind of id only. -/
theorem SegmentId.unmarked_iff (h : SegmentId tables provider segs id)
    (hacc : ∀ s ∈ segs, Unmarked s) (host : Str) :
    (∀ s ∈ canonicalSegments provider (identityOf provider host id).mediaId, Unmarked s) ↔
      ¬ (provider = .dzen ∧ codePoints "embed" <+: lower id) := by
  cases provider with
  | vk =>
    have hun := unmarked_vk (no_e_of_decimals (h.decimals (Or.inl rfl)))
    simpa [canonicalSegments, identityOf] using hun
  | rutube =>
    have hid : id ∈ segs := by
      cases h with
      | rutube => simp
    simpa [canonicalSegments, identityOf, unmarked_video] using hacc id hid
  | ok =>
    have hun := unmarked_of_no_e (no_e_of_decimals (h.decimals (Or.inr rfl)))
    simpa [canonicalSegments, identityOf, unmarked_video] using hun
  | dzen =>
    have hunder : underscore ∉ id := by
      intro hin
      exact absurd (h.dzenChars.2 _ hin) (by decide)
    have hext : ¬ codePoints "video_ext" <+: lower id := by
      intro hpre
      exact hunder (mem_of_mem_lower (hpre.subset (by decide)) (by decide))
    have hid : Unmarked (lower id) ↔ ¬ codePoints "embed" <+: lower id := by
      rw [Unmarked, lower_lower]
      exact and_iff_left hext
    simpa [canonicalSegments, identityOf, unmarked_video, unmarked_watch] using hid

/-! ## What survives -/

theorem isDzenChar_low (h : 97 ≤ c ∧ c ≤ 122 ∨ 48 ≤ c ∧ c ≤ 57 ∨ c = 45) : isDzenChar c := by
  have hfold : fold c = c := by
    simp only [fold]
    rw [if_neg (by omega), if_neg (by omega), if_neg (by omega), if_neg (by omega)]
  simp only [isDzenChar, hfold, Bool.or_eq_true, Bool.and_eq_true, decide_eq_true_eq, beq_iff_eq,
    or_assoc]
  exact h

theorem plain_segmentId (h : SegmentId tables provider segs id) (hplain : PlainId provider id)
    (host : Str) : SegmentId tables provider
      (canonicalSegments provider (identityOf provider host id).mediaId)
      (identityOf provider host id).mediaId := by
  have htoken : provider = .dzen → isToken 64 isDzenChar (lower id) := by
    rintro rfl
    obtain ⟨hlen, hchars⟩ := h.dzenChars
    obtain ⟨hlower, hlow⟩ := lower_plain hchars fun c hc => (hplain.1 c hc).imp_right And.right
    exact isToken_iff.2 ⟨lower_ne_nil h.ne_nil, by omega, fun c hc => isDzenChar_low (hlow c hc)⟩
  have hlead : DzenLead [codePoints "video"] := Or.inr ⟨codePoints "video", by decide, rfl⟩
  cases h with
  | vk _ hsign howner hvideo => exact .vk (Or.inl rfl) hsign howner hvideo
  | rutube _ hid => exact .rutube (Or.inl rfl) hid
  | ok _ hid => exact .ok (Or.inl rfl) hid
  | dzen | dzenSlug => exact .dzen hlead (Or.inl (by decide)) (htoken rfl)

/-- The media id fits the media id columns exactly when the written id is in ASCII and short. -/
theorem safe_iff (h : SegmentId tables provider segs id) (host : Str) :
    isSafeMediaId (identityOf provider host id).mediaId ↔
      (∀ c ∈ id, c < 128 ∨ provider = .dzen ∧ c = 0x212A) ∧ id.length ≤ 128 := by
  cases provider with
  | vk | rutube | ok =>
    simp only [identityOf, reduceCtorEq, false_and, or_false]
    exact ⟨fun hsafe => ⟨fun c hc => safe_ascii hsafe hc, (isSafeMediaId_iff.1 hsafe).2.1⟩,
      fun ⟨hascii, hlen⟩ => safe_of_ascii h.ne_nil hlen h.idChar hascii⟩
  | dzen =>
    obtain ⟨hlen, hchars⟩ := h.dzenChars
    simp only [identityOf, true_and]
    constructor
    · intro hsafe
      refine ⟨fun c hc => ?_, by omega⟩
      have hlow : ∀ d ∈ lowerPoint c, d < 128 := fun d hd =>
        safe_ascii hsafe (mem_lower.2 ⟨c, hc, hd⟩)
      rcases lowerPoint_cases c with ⟨-, hhigh, -⟩ | ⟨-, he⟩ | ⟨hkelvin, -⟩ | ⟨-, -, -, he⟩
      · omega
      · have hmark := hlow 0x307 (by simp [he])
        omega
      · exact Or.inr hkelvin
      · exact Or.inl (hlow c (by simp [he]))
    · rintro ⟨hplain, -⟩
      obtain ⟨hlower, hlow⟩ := lower_plain hchars hplain
      refine isSafeMediaId_iff.2 ⟨lower_ne_nil h.ne_nil, by omega, ?_⟩
      intro c hc
      have hb := hlow c hc
      have hhyphen : hyphen = 45 := rfl
      omega

/-! ## Hosts -/

/-- The exact host names of a registered provider. -/
def hostnames (descriptor : Url.ProviderDescriptor) : List Str :=
  descriptor.exactHostnames.names.map fun name => name.map codePoint

theorem hostnames_vk (settings : Url.UrlSettings) : hostnames (Url.vk settings) =
    ["vk.com", "www.vk.com", "m.vk.com", "vk.ru", "www.vk.ru", "m.vk.ru", "vkvideo.ru",
      "www.vkvideo.ru", "m.vkvideo.ru"].map codePoints := rfl

theorem hostnames_rutube (settings : Url.UrlSettings) : hostnames (Url.rutube settings) =
    ["rutube.ru", "www.rutube.ru"].map codePoints := rfl

theorem hostnames_ok (settings : Url.UrlSettings) : hostnames (Url.ok settings) =
    ["ok.ru", "www.ok.ru", "m.ok.ru", "mobile.ok.ru", "odnoklassniki.ru", "www.odnoklassniki.ru",
      "m.odnoklassniki.ru", "mobile.odnoklassniki.ru"].map codePoints := rfl

theorem hostnames_dzen (settings : Url.UrlSettings) : hostnames (Url.dzen settings) =
    ["dzen.ru", "www.dzen.ru", "zen.yandex.ru", "www.zen.yandex.ru"].map codePoints := rfl

theorem canonicalHost_registered {settings : Url.UrlSettings} {descriptor : Url.ProviderDescriptor}
    (h : descriptor ∈ (Url.ProviderRegistry.fromSettings settings).providers)
    (hhost : host ∈ hostnames descriptor) : dzenHostCanonical host ∈ hostnames descriptor := by
  simp only [Url.ProviderRegistry.fromSettings, List.mem_cons, List.not_mem_nil, or_false] at h
  rcases h with rfl | rfl | rfl | rfl
  · rw [hostnames_vk] at hhost ⊢
    revert host
    decide
  · rw [hostnames_rutube] at hhost ⊢
    revert host
    decide
  · rw [hostnames_ok] at hhost ⊢
    revert host
    decide
  · rw [hostnames_dzen] at hhost ⊢
    revert host
    decide

theorem dzenHostCanonical_idem : dzenHostCanonical (dzenHostCanonical host) =
    dzenHostCanonical host := by
  simp only [dzenHostCanonical]
  split_ifs <;> first | rfl | contradiction

theorem normalizeHostname_canonical {hostname : Str} (h : normalizeHostname hostname = .ok host) :
    normalizeHostname (dzenHostCanonical host) = .ok (dzenHostCanonical host) := by
  simp only [dzenHostCanonical]
  split_ifs
  · decide +kernel
  · decide +kernel
  · exact normalizeHostname_idem h

theorem SegmentId.unique (h : SegmentId tables provider segs s) (h' : SegmentId tables provider segs t) :
    s = t := by
  cases provider with
  | vk => exact Option.some.inj ((vkStable_eq_some_iff.mpr h).symm.trans (vkStable_eq_some_iff.mpr h'))
  | rutube =>
    exact Option.some.inj
      ((rutubeStable_eq_some_iff.mpr h).symm.trans (rutubeStable_eq_some_iff.mpr h'))
  | ok => exact Option.some.inj ((okStable_eq_some_iff.mpr h).symm.trans (okStable_eq_some_iff.mpr h'))
  | dzen =>
    exact Option.some.inj ((dzenStable_eq_some_iff.mpr h).symm.trans (dzenStable_eq_some_iff.mpr h'))

theorem Writes.unique (h : Writes tables provider path s) (h' : Writes tables provider path t) :
    s = t := by
  obtain ⟨segs, hsegs, hs⟩ := h
  obtain ⟨segs', hsegs', ht⟩ := h'
  obtain rfl : segs = segs' := Option.some.inj (hsegs.symm.trans hsegs')
  exact hs.unique ht

theorem identityOf_idem : identityOf provider (identityOf provider host id).hostname
    (identityOf provider host id).mediaId = identityOf provider host id := by
  cases provider with
  | vk | rutube | ok => rfl
  | dzen => simp only [identityOf, lower_lower, dzenHostCanonical_idem]

/-- No segment of a path without markers begins one. -/
theorem unmarked_of_writes (hsegs : segments path = some segs) (hmarker : isForbidden path = false) :
    ∀ s ∈ segs, Unmarked s := by
  obtain ⟨hslash, rfl | rfl⟩ := segments_eq_some hsegs
  · exact unmarked_of_accepted hslash hmarker
  · have hall : ∀ s ∈ segs ++ [[]], slash ∉ s := by
      simpa [or_imp, forall_and] using hslash
    exact fun s hs => unmarked_of_accepted hall hmarker s (List.mem_append_left _ hs)

/-- An accepted identity is accepted again as itself, with a media id of the required grammar,
exactly when the path writes a plain id. -/
theorem identity_closed_iff (tables : Unicode) (settings : Url.UrlSettings)
    (descriptor : Url.ProviderDescriptor) (provider : ProviderID) (hostname path : Str)
    (I : StableProviderIdentity)
    (hregistered : descriptor ∈ (Url.ProviderRegistry.fromSettings settings).providers)
    (haccepted : parseStableProviderIdentity tables provider.value hostname path
      (hostnames descriptor) = .ok I) :
    (parseStableProviderIdentity tables provider.value I.hostname I.canonicalPath
        (hostnames descriptor) = .ok I ∧ isSafeMediaId I.mediaId) ↔
      ∃ id, Writes tables provider path id ∧ PlainId provider id := by
  obtain ⟨host, id, hnorm, hhost, hmarker, hwrites, rfl⟩ := parse_eq_ok_iff.mp haccepted
  have hsegments := hwrites
  obtain ⟨segs, hsegs, hid⟩ := hsegments
  obtain ⟨hcanonical, hforbidden⟩ := hid.canonicalPath host
  have hunmarked := hid.unmarked_iff (unmarked_of_writes hsegs hmarker) host
  constructor
  · rintro ⟨hagain, hsafe⟩
    obtain ⟨-, -, -, -, hclean, -, -⟩ := parse_eq_ok_iff.mp hagain
    obtain ⟨hascii, hlen⟩ := (safe_iff hid host).mp hsafe
    exact ⟨id, hwrites, hascii, hlen, hunmarked.mp (hforbidden.mp hclean)⟩
  · rintro ⟨id', hwrites', hplain⟩
    obtain rfl := hwrites.unique hwrites'
    have hhostname : normalizeHostname (identityOf provider host id).hostname =
        .ok (identityOf provider host id).hostname := by
      cases provider with
      | vk | rutube | ok => exact normalizeHostname_idem hnorm
      | dzen => exact normalizeHostname_canonical hnorm
    have hallowed : (identityOf provider host id).hostname ∈ hostnames descriptor := by
      cases provider with
      | vk | rutube | ok => exact hhost
      | dzen => exact canonicalHost_registered hregistered hhost
    refine ⟨parse_eq_ok_iff.mpr ⟨_, _, hhostname, hallowed, hforbidden.mpr
      (hunmarked.mpr hplain.2.2), ⟨_, hcanonical, plain_segmentId hid hplain host⟩,
      identityOf_idem.symm⟩, (safe_iff hid host).mpr ⟨hplain.1, hplain.2.1⟩⟩

/-- Settings with every provider enabled. -/
def defaultSettings : Url.UrlSettings where
  urlAllowedSchemes := [Url.http, Url.https]
  urlAllowedPorts := [80, 443]
  urlMaxLength := 2048
  urlMaxRedirects := 5
  providerVkEnabled := true
  providerRutubeEnabled := true
  providerOkEnabled := true
  providerDzenEnabled := true
  outboundAllowedContentTypes := ["text/html".toList]
  outboundProbeBodyBytes := 65536
  outboundMaxResponseBytes := 1048576
  schemes := Url.http_or_https

/-- Tables that know the Arabic-Indic digits. -/
def arabicTables : Unicode :=
  ⟨fun c => if h : 0x660 ≤ c ∧ c < 0x66A then some ⟨c - 0x660, by omega⟩ else none, fun _ => false⟩

def shortsIdentity : StableProviderIdentity :=
  ⟨"dzen", codePoints "abc123", codePoints "dzen.ru", codePoints "/video/watch/abc123"⟩

theorem identity_closed_shorts :
    parseStableProviderIdentity arabicTables "dzen" (codePoints "dzen.ru")
      (codePoints "/video/watch/abc123") (hostnames (Url.dzen defaultSettings)) =
        .ok shortsIdentity ∧ isSafeMediaId shortsIdentity.mediaId := by
  have hregistered : Url.dzen defaultSettings ∈
      (Url.ProviderRegistry.fromSettings defaultSettings).providers := by
    simp [Url.ProviderRegistry.fromSettings]
  have haccepted : parseStableProviderIdentity arabicTables ProviderID.dzen.value
      (codePoints "WWW.dzen.ru.") (codePoints "/shorts/ABC123/")
      (hostnames (Url.dzen defaultSettings)) = .ok shortsIdentity := by
    decide +kernel
  refine (identity_closed_iff arabicTables defaultSettings (Url.dzen defaultSettings) .dzen
    (codePoints "WWW.dzen.ru.") (codePoints "/shorts/ABC123/") shortsIdentity hregistered
    haccepted).mpr ⟨codePoints "ABC123", ⟨_, rfl, ?_⟩, ?_, by decide, ?_⟩
  · exact @SegmentId.dzen arabicTables [] (codePoints "shorts") (codePoints "ABC123") (Or.inl rfl)
      (Or.inr (Or.inl (by decide))) (by decide)
  · decide
  · decide

def embedIdentity : StableProviderIdentity :=
  ⟨"dzen", codePoints "embed", codePoints "dzen.ru", codePoints "/video/watch/embed"⟩

theorem embed_accepted : parseStableProviderIdentity arabicTables "dzen" (codePoints "dzen.ru")
    (codePoints "/media/channel/article-embed") (hostnames (Url.dzen defaultSettings)) =
      .ok embedIdentity := by decide

theorem embed_refused : parseStableProviderIdentity arabicTables "dzen" embedIdentity.hostname
    embedIdentity.canonicalPath (hostnames (Url.dzen defaultSettings)) =
      .error ⟨"FORBIDDEN_MEDIA_PATH"⟩ := by decide

example : parseStableProviderIdentity arabicTables "vk" (codePoints "vk.com")
    (codePoints "/clip-1_٢") (hostnames (Url.vk defaultSettings)) =
      .ok ⟨"vk", codePoints "-1_٢", codePoints "vk.com", codePoints "/video-1_٢"⟩ := by
  decide

theorem identity_not_closed : ¬ ∀ (tables : Unicode) (settings : Url.UrlSettings)
    (descriptor : Url.ProviderDescriptor) (provider : ProviderID) (hostname path : Str)
    (I : StableProviderIdentity),
    descriptor ∈ (Url.ProviderRegistry.fromSettings settings).providers →
    parseStableProviderIdentity tables provider.value hostname path (hostnames descriptor) = .ok I →
    parseStableProviderIdentity tables provider.value I.hostname I.canonicalPath
        (hostnames descriptor) = .ok I ∧ isSafeMediaId I.mediaId := by
  intro hclaim
  have hregistered : Url.dzen defaultSettings ∈
      (Url.ProviderRegistry.fromSettings defaultSettings).providers := by
    simp [Url.ProviderRegistry.fromSettings]
  have hagain := (hclaim arabicTables defaultSettings (Url.dzen defaultSettings) .dzen _ _ _
    hregistered embed_accepted).1
  rw [ProviderID.value, embed_refused] at hagain
  cases hagain

end FetchNow.ProviderIdentity
