import FetchNow.Downloads.Filename
import Mathlib.Data.List.Destutter

/-!
# Sanitized stems

What is left of a title is clean and tidy. Sanitizing it again is a matter of normalization alone.
-/
namespace FetchNow

open Text Transactions Separators

namespace Filename

variable {data : UnicodeData} {s t raw stem ext : Str} {c : ℕ} {within : Bool}

/-! ## Clean and tidy texts -/

/-- Single blanks, and neither a blank nor a full stop at an end. -/
structure Tidy (s : Str) : Prop where
  single : Single blank s
  head : ∀ c ∈ s.head?, isEnd c = false
  last : ∀ c ∈ s.getLast?, isEnd c = false

theorem cleanPoint_eq_some (h : cleanPoint data.isOther c = some c) :
    c ∉ bidi ∧ c ∉ forbidden ∧ data.isOther c = false ∧ (Text.isSpace c = true → c = blank) := by
  rw [cleanPoint] at h
  split at h
  · cases h
  rename_i hdeleted
  split at h
  · cases h
  rename_i hother
  rw [not_or] at hdeleted
  refine ⟨hdeleted.1, hdeleted.2, by simpa using hother, fun hspace => ?_⟩
  rw [if_pos hspace] at h
  exact (Option.some.inj h).symm

theorem cleanPoint_blank : cleanPoint data.isOther blank = some blank := by
  have hother : data.isOther blank = false := data.other_printable blank (by decide) (by decide)
  have hdeleted : ¬ (blank ∈ bidi ∨ blank ∈ forbidden) := by decide
  rw [cleanPoint, if_neg hdeleted, hother]
  rfl

/-- Every point that is kept is kept as it is the second time. -/
theorem cleanPoint_idem {d : ℕ} (h : cleanPoint data.isOther c = some d) :
    cleanPoint data.isOther d = some d := by
  have hcopy := h
  rw [cleanPoint] at h
  split at h
  · cases h
  split at h
  · cases h
  split at h
  · cases h
    exact cleanPoint_blank
  · cases h
    exact hcopy

theorem clean_cleaned : Clean data.isOther (cleaned data s) := by
  intro d hd
  obtain ⟨c, -, hc⟩ := List.mem_filterMap.mp hd
  exact cleanPoint_idem hc

theorem cleaned_eq_self (h : Clean data.isOther s) : cleaned data s = s := by
  induction s with
  | nil => rfl
  | cons c s ih =>
    obtain ⟨hc, hs⟩ := List.forall_mem_cons.mp h
    rw [cleaned, List.filterMap_cons_some hc]
    congr 1
    exact ih hs

theorem Clean.subset (h : Clean data.isOther s) (hsub : t ⊆ s) : Clean data.isOther t :=
  fun c hc => h c (hsub hc)

theorem collapseFrom_subset (h : Clean data.isOther s) : collapseFrom within s ⊆ s := by
  induction s generalizing within with
  | nil => simp [collapseFrom]
  | cons c s ih =>
    obtain ⟨hc, hs⟩ := List.forall_mem_cons.mp h
    rw [collapseFrom]
    split
    · rename_i hspace
      obtain rfl := (cleanPoint_eq_some hc).2.2.2 hspace
      split
      · exact List.Subset.trans (ih hs) (List.subset_cons_self _ _)
      · exact List.cons_subset_cons _ (ih hs)
    · exact List.cons_subset_cons _ (ih hs)

theorem single_collapseFrom (h : Clean data.isOther s) :
    Single blank (collapseFrom within s) ∧
      (within = true → (collapseFrom within s).head? ≠ some blank) := by
  induction s generalizing within with
  | nil => exact ⟨.nil, by simp [collapseFrom]⟩
  | cons c s ih =>
    obtain ⟨hc, hs⟩ := List.forall_mem_cons.mp h
    rw [collapseFrom]
    by_cases hspace : Text.isSpace c = true
    · rw [if_pos hspace]
      obtain ⟨hsingle, hhead⟩ := @ih true hs
      cases within with
      | true => exact ⟨hsingle, hhead⟩
      | false => exact ⟨single_cons.mpr ⟨hhead rfl, hsingle⟩, by simp⟩
    · rw [if_neg hspace]
      have hne : c ≠ blank := by
        rintro rfl
        exact hspace (by decide)
      refine ⟨?_, fun _ hhead => hne (by simpa using hhead)⟩
      refine List.isChain_cons.mpr ⟨?_, (ih hs).1⟩
      rintro b - ⟨hb, -⟩
      exact hne hb

theorem collapseFrom_eq_self (h : Clean data.isOther s) (hsingle : Single blank s)
    (hwithin : within = true → s.head? ≠ some blank) : collapseFrom within s = s := by
  induction s generalizing within with
  | nil => rfl
  | cons c s ih =>
    obtain ⟨hc, hs⟩ := List.forall_mem_cons.mp h
    rw [collapseFrom]
    by_cases hspace : Text.isSpace c = true
    · obtain rfl := (cleanPoint_eq_some hc).2.2.2 hspace
      obtain ⟨hhead, hrest⟩ := single_cons.mp hsingle
      cases within with
      | true => exact (hwithin rfl rfl).elim
      | false => rw [if_pos hspace, if_neg (by simp), ih hs hrest fun _ => hhead]
    · rw [if_neg hspace, ih hs hsingle.tail (by simp)]

/-! ## Ends -/

theorem rstripEnds_eq_self (h : ∀ c ∈ s.getLast?, isEnd c = false) : rstripEnds s = s := by
  rw [rstripEnds, List.rdropWhile_eq_self_iff]
  intro hne hend
  rw [h _ (List.getLast?_eq_some_getLast hne)] at hend
  cases hend

theorem rstripEnds_last : ∀ c ∈ (rstripEnds s).getLast?, isEnd c = false := by
  intro c hc
  have hne : rstripEnds s ≠ [] := by
    rintro hnil
    rw [hnil] at hc
    cases hc
  rw [List.getLast?_eq_some_getLast hne] at hc
  cases hc
  exact Bool.eq_false_iff.mpr (List.rdropWhile_last_not isEnd s hne)

theorem rstripEnds_initial : rstripEnds s <+: s := List.rdropWhile_prefix _ _

theorem head_of_prefix (h : t <+: s) (hs : ∀ c ∈ s.head?, isEnd c = false) :
    ∀ c ∈ t.head?, isEnd c = false := by
  obtain ⟨u, rfl⟩ := h
  intro c hc
  cases t with
  | nil => cases hc
  | cons d t =>
    cases hc
    exact hs c rfl

theorem stripEnds_infix : stripEnds s <:+: s :=
  rstripEnds_initial.isInfix.trans (List.dropWhile_suffix _).isInfix

theorem dropWhile_isEnd_head : ∀ c ∈ (s.dropWhile isEnd).head?, isEnd c = false := by
  intro c hc
  have hfirst := List.head?_dropWhile_not isEnd s
  rw [hc] at hfirst
  simpa using hfirst

theorem Single.infix (h : Single blank s) (ht : t <:+: s) : Single blank t :=
  List.IsChain.infix h ht

theorem tidy_stripEnds (h : Single blank s) : Tidy (stripEnds s) where
  single := Single.infix h stripEnds_infix
  head := head_of_prefix rstripEnds_initial dropWhile_isEnd_head
  last := rstripEnds_last

theorem stripEnds_eq_self (h : Tidy s) : stripEnds s = s := by
  rw [stripEnds, dropWhile_head h.head, rstripEnds_eq_self h.last]

theorem removeControls_eq_self (h : Clean data.isOther s) : removeControls s = s := by
  rw [removeControls, List.filter_eq_self]
  intro c hc
  have hother := (cleanPoint_eq_some (h c hc)).2.2.1
  have hcontrol : ¬ (c < 32 ∨ 127 ≤ c ∧ c < 160) := by
    intro hcontrol
    rw [data.other_control c hcontrol] at hother
    cases hother
  simp only [Bool.not_eq_true', Bool.or_eq_false_iff, Bool.and_eq_false_iff,
    decide_eq_false_iff_not]
  omega

/-- What is reduced is clean and tidy; what is clean and tidy is only normalized. -/
theorem reduced_spec : Clean data.isOther (reduced data raw) ∧ Tidy (reduced data raw) := by
  have hcleaned := @clean_cleaned data (data.nfc raw)
  have hcollapsed := hcleaned.subset (@collapseFrom_subset _ _ false hcleaned)
  have hstripped := hcollapsed.subset stripEnds_infix.subset
  rw [reduced, removeControls_eq_self hstripped]
  exact ⟨hstripped, tidy_stripEnds (single_collapseFrom hcleaned).1⟩

theorem reduced_eq_nfc (hclean : Clean data.isOther (data.nfc s)) (htidy : Tidy (data.nfc s)) :
    reduced data s = data.nfc s := by
  rw [reduced, cleaned_eq_self hclean, collapseFrom_eq_self hclean htidy.single (by simp),
    stripEnds_eq_self htidy, removeControls_eq_self hclean]

theorem tidy_nfc (h : Tidy s) : Tidy (data.nfc s) where
  single := data.nfc_blank.single h.single
  head c hc := by
    by_contra hend
    have hcases : c = blank ∨ c = dot := by simpa [isEnd, or_iff_not_imp_left] using hend
    have hhead : s.head? = some c := by
      rcases hcases with rfl | rfl
      · exact data.nfc_blank.head hc
      · exact data.nfc_dot.head hc
    exact hend (h.head c hhead)
  last c hc := by
    by_contra hend
    have hcases : c = blank ∨ c = dot := by simpa [isEnd, or_iff_not_imp_left] using hend
    have hlast : s.getLast? = some c := by
      rcases hcases with rfl | rfl
      · exact data.nfc_blank.last hc
      · exact data.nfc_dot.last hc
    exact hend (h.last c hlast)

/-! ## Cutting -/

theorem takeBytes_prefix (limit : ℕ) : takeBytes limit s <+: s := by
  induction s generalizing limit with
  | nil => exact List.prefix_rfl
  | cons c s ih =>
    rw [takeBytes]
    split
    · exact List.cons_prefix_cons.mpr ⟨rfl, ih _⟩
    · exact List.nil_prefix

theorem utf8Size_cons : utf8Size (c :: s) = utf8Bytes c + utf8Size s := by
  simp [utf8Size]

theorem utf8Size_append : utf8Size (s ++ t) = utf8Size s + utf8Size t := by
  simp [utf8Size]

theorem utf8Size_takeBytes (limit : ℕ) : utf8Size (takeBytes limit s) ≤ limit := by
  induction s generalizing limit with
  | nil => exact Nat.zero_le _
  | cons c s ih =>
    rw [takeBytes]
    split
    · have hrest := ih (limit - utf8Bytes c)
      rw [utf8Size_cons]
      omega
    · exact Nat.zero_le _

theorem utf8Size_mono (h : t <+: s) : utf8Size t ≤ utf8Size s := by
  obtain ⟨u, rfl⟩ := h
  rw [utf8Size_append]
  omega

theorem Tidy.of_prefix (h : Tidy s) (ht : t <+: s) (hlast : ∀ c ∈ t.getLast?, isEnd c = false) :
    Tidy t where
  single := Single.infix h.single ht.isInfix
  head := head_of_prefix ht h.head
  last := hlast

/-- A tidy text is tidy after it was cut and its end stripped. -/
theorem Tidy.cut (h : Tidy s) (ht : t <+: s) : Tidy (rstripEnds t) :=
  h.of_prefix (rstripEnds_initial.trans ht) rstripEnds_last

theorem cutChars_spec (h : Tidy s) :
    cutChars s <+: s ∧ Tidy (cutChars s) ∧ (cutChars s).length ≤ maxStemChars := by
  rw [cutChars]
  split
  · have htake := List.take_prefix maxStemChars s
    refine ⟨rstripEnds_initial.trans htake, h.cut htake, ?_⟩
    exact rstripEnds_initial.length_le.trans (List.length_take_le _ _)
  · exact ⟨List.prefix_rfl, h, by omega⟩

theorem cutBytes_spec (h : Tidy s) :
    cutBytes s <+: s ∧ Tidy (cutBytes s) ∧ utf8Size (cutBytes s) ≤ maxStemUtf8Bytes := by
  rw [cutBytes]
  split
  · have htake := takeBytes_prefix (s := s) maxStemUtf8Bytes
    refine ⟨rstripEnds_initial.trans htake, h.cut htake, ?_⟩
    exact (utf8Size_mono rstripEnds_initial).trans (utf8Size_takeBytes _)
  · exact ⟨List.prefix_rfl, h, by omega⟩

theorem cut_eq_self (hchars : s.length ≤ maxStemChars) (hbytes : utf8Size s ≤ maxStemUtf8Bytes) :
    cutBytes (cutChars s) = s := by
  have hcut : cutChars s = s := if_neg (by omega)
  rw [hcut, cutBytes, if_neg (by omega)]

/-! ## What is kept of a title -/

/-- The characters of a title that are kept, with single blanks for white space. -/
def keptText (data : UnicodeData) (title : Str) : Str :=
  stripEnds ((cleaned data (data.nfc title)).destutter fun a b => ¬ (a = blank ∧ b = blank))

/-- A beginning of a text that fits into a stem. -/
structure Fits (text stem : Str) : Prop where
  initial : stem <+: text
  last : ∀ c ∈ stem.getLast?, isEnd c = false
  chars : stem.length ≤ maxStemChars
  bytes : utf8Size stem ≤ maxStemUtf8Bytes

/-- The longest beginning that fits. -/
def IsStem (text stem : Str) : Prop := Fits text stem ∧ ∀ t, Fits text t → t <+: stem

theorem destutter'_eq (hc : cleanPoint data.isOther c = some c) (h : Clean data.isOther s) :
    s.destutter' (fun a b => ¬ (a = blank ∧ b = blank)) c = c :: collapseFrom (c = blank) s := by
  induction s generalizing c with
  | nil => rfl
  | cons d s ih =>
    obtain ⟨hd, hs⟩ := List.forall_mem_cons.mp h
    rw [collapseFrom]
    by_cases hspace : Text.isSpace d = true
    · obtain rfl := (cleanPoint_eq_some hd).2.2.2 hspace
      rw [if_pos hspace]
      by_cases hblank : c = blank
      · subst hblank
        rw [List.destutter'_cons_neg _ (by simp), ih hc hs]
        simp
      · rw [List.destutter'_cons_pos _ (by simp [hblank]), ih hd hs]
        simp [hblank]
    · have hne : d ≠ blank := by
        rintro rfl
        exact hspace (by decide)
      rw [if_neg hspace, List.destutter'_cons_pos _ (by simp [hne]), ih hd hs]
      simp [hne]

theorem keptText_eq_reduced : keptText data raw = reduced data raw := by
  have hcleaned := @clean_cleaned data (data.nfc raw)
  have hcollapse : ∀ s, Clean data.isOther s →
      s.destutter (fun a b => ¬ (a = blank ∧ b = blank)) = collapseFrom false s := by
    intro s hs
    cases s with
    | nil => rfl
    | cons c s =>
      obtain ⟨hc, hs⟩ := List.forall_mem_cons.mp hs
      rw [List.destutter_cons', destutter'_eq hc hs, collapseFrom]
      by_cases hspace : Text.isSpace c = true
      · obtain rfl := (cleanPoint_eq_some hc).2.2.2 hspace
        rw [if_pos hspace]
        simp
      · have hne : c ≠ blank := by
          rintro rfl
          exact hspace (by decide)
        rw [if_neg hspace]
        simp [hne]
  have hstripped :
      Clean data.isOther (stripEnds (collapseFrom false (cleaned data (data.nfc raw)))) :=
    (hcleaned.subset (collapseFrom_subset hcleaned)).subset stripEnds_infix.subset
  rw [keptText, hcollapse _ hcleaned, reduced, removeControls_eq_self hstripped]

theorem prefix_rstripEnds (h : t <+: s) (hlast : ∀ c ∈ t.getLast?, isEnd c = false) :
    t <+: rstripEnds s := by
  induction s using List.reverseRecOn with
  | nil => exact h
  | append_singleton s c ih =>
    rw [rstripEnds, List.rdropWhile_concat]
    split
    · rename_i hend
      apply ih
      rcases List.prefix_concat_iff.mp h with rfl | h
      · have hlast := hlast c (by simp)
        rw [hend] at hlast
        cases hlast
      · exact h
    · exact h

theorem prefix_takeBytes {limit : ℕ} (h : t <+: s) (hbytes : utf8Size t ≤ limit) :
    t <+: takeBytes limit s := by
  induction t generalizing s limit with
  | nil => exact List.nil_prefix
  | cons c t ih =>
    obtain ⟨u, rfl⟩ := h
    rw [utf8Size_cons] at hbytes
    rw [List.cons_append, takeBytes, if_pos (by omega)]
    exact List.cons_prefix_cons.mpr ⟨rfl, ih (List.prefix_append _ _) (by omega)⟩

/-- Cutting a tidy text leaves the longest beginning that fits. -/
theorem isStem_cut (h : Tidy s) : IsStem s (cutBytes (cutChars s)) := by
  obtain ⟨hprefix₁, htidy₁, hchars⟩ := cutChars_spec h
  obtain ⟨hprefix₂, htidy₂, hbytes⟩ := cutBytes_spec htidy₁
  refine ⟨⟨hprefix₂.trans hprefix₁, htidy₂.last, hprefix₂.length_le.trans hchars, hbytes⟩, ?_⟩
  intro t ht
  have hcut : t <+: cutChars s := by
    rw [cutChars]
    split
    · exact prefix_rstripEnds (List.prefix_take_iff.mpr ⟨ht.initial, ht.chars⟩) ht.last
    · exact ht.initial
  rw [cutBytes]
  split
  · exact prefix_rstripEnds (prefix_takeBytes hcut ht.bytes) ht.last
  · exact hcut

theorem IsStem.unique (hs : IsStem raw s) (ht : IsStem raw t) : s = t := by
  have hst := ht.2 s hs.1
  have hts := hs.2 t ht.1
  exact hst.eq_of_length (Nat.le_antisymm hst.length_le hts.length_le)

/-! ## Sanitized stems -/

/-- What a stem is that was not refused. -/
structure Sanitized (data : UnicodeData) (stem : Str) : Prop where
  clean : Clean data.isOther stem
  tidy : Tidy stem
  chars : stem.length ≤ maxStemChars
  bytes : utf8Size stem ≤ maxStemUtf8Bytes
  name : isNoName stem = false
  head : isReserved data (stem.takeWhile (· ≠ dot)) = false
  device : isReserved data stem = false

theorem sanitizeStem_eq_some : sanitizeStem data (some raw) = some stem ↔
    isNoName (reduced data raw) = false ∧
      isReserved data ((reduced data raw).takeWhile (· ≠ dot)) = false ∧
      isNoName stem = false ∧ isReserved data stem = false ∧
      stem = cutBytes (cutChars (reduced data raw)) := by
  simp only [sanitizeStem, Option.bind_some]
  cases hname : isNoName (reduced data raw) with
  | true => simp
  | false =>
    cases hhead : isReserved data ((reduced data raw).takeWhile (· ≠ dot)) with
    | true => simp
    | false =>
      simp only [Bool.false_eq_true, if_false, true_and]
      constructor
      · intro h
        split at h
        · cases h
        · rename_i hcut
          split at h
          · cases h
          · rename_i hdevice
            cases h
            exact ⟨by simpa using hcut, by simpa using hdevice, rfl⟩
      · rintro ⟨hcut, hdevice, rfl⟩
        rw [hcut, hdevice]
        rfl

theorem takeWhile_dot (h : t <+: s) :
    t.takeWhile (· ≠ dot) = t ∨ t.takeWhile (· ≠ dot) = s.takeWhile (· ≠ dot) := by
  obtain ⟨u, rfl⟩ := h
  rw [List.takeWhile_append]
  split
  · rename_i hlen
    exact Or.inl ((List.takeWhile_prefix _).eq_of_length hlen)
  · exact Or.inr rfl

/-- A stem is a part of the reduced title, and nothing more is to be done to it. -/
theorem sanitized_of_eq_some (h : sanitizeStem data (some raw) = some stem) :
    Sanitized data stem ∧ stem <+: reduced data raw := by
  obtain ⟨-, hhead, hname, hdevice, rfl⟩ := sanitizeStem_eq_some.mp h
  obtain ⟨hclean, htidy⟩ := @reduced_spec data raw
  obtain ⟨hprefix₁, htidy₁, hchars⟩ := cutChars_spec htidy
  obtain ⟨hprefix₂, htidy₂, hbytes⟩ := cutBytes_spec htidy₁
  have hprefix := hprefix₂.trans hprefix₁
  refine ⟨⟨hclean.subset hprefix.subset, htidy₂, hprefix₂.length_le.trans hchars, hbytes, hname,
    ?_, hdevice⟩, hprefix⟩
  rcases takeWhile_dot hprefix with hall | hsame
  · rw [hall]
    exact hdevice
  · rw [hsame]
    exact hhead

theorem Sanitized.sanitizeStem_eq (h : Sanitized data stem) (hreduced : reduced data stem = stem) :
    sanitizeStem data (some stem) = some stem := by
  rw [sanitizeStem_eq_some, hreduced, cut_eq_self h.chars h.bytes]
  exact ⟨h.name, h.head, h.name, h.device, rfl⟩

/-- Sanitizing a sanitized stem again is a matter of normalization alone. -/
theorem Sanitized.sanitizeStem_iff (h : Sanitized data stem) :
    sanitizeStem data (some stem) = some stem ↔ data.nfc stem = stem := by
  have hreduced : reduced data stem = data.nfc stem :=
    reduced_eq_nfc (data.nfc_clean stem h.clean) (tidy_nfc h.tidy)
  constructor
  · intro hsame
    have hprefix := (sanitized_of_eq_some hsame).2
    rw [hreduced] at hprefix
    exact data.nfc_infix _ _ (data.nfc_nfc stem) hprefix.isInfix
  · intro hnfc
    exact h.sanitizeStem_eq (hreduced.trans hnfc)

/-- What a clean and tidy text leaves is in normal form. -/
theorem nfc_of_clean (hclean : Clean data.isOther raw) (htidy : Tidy raw)
    (h : sanitizeStem data (some raw) = some stem) : data.nfc stem = stem := by
  have hprefix := (sanitized_of_eq_some h).2
  rw [reduced_eq_nfc (data.nfc_clean raw hclean) (tidy_nfc htidy)] at hprefix
  exact data.nfc_infix _ _ (data.nfc_nfc raw) hprefix.isInfix

end Filename

end FetchNow
