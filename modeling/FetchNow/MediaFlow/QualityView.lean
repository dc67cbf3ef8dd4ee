import FetchNow.MediaFlow.QualityRows
import FetchNow.MediaFlow.WholeNumbers
import Mathlib.Data.List.Pairwise

/-!
# The rows as a view of the formats

The rows are ordered by quality as long as their keys are. A key holds the text of a height, which
is read back as far as its digits go.
-/
namespace FetchNow.Quality

open EcmaScript Comparators Grouping TieBreaks

variable {rt : Runtime} {options : QualityGroupingOptions} {formats formats' : List MediaFormat}
  {f g : MediaFormat} {selected : Option JsString} {row row' : QualityOption} {a b : Number}
  {s t key key' : JsString}

/-! ## Keys -/

/-- The key of a height. -/
def heightKey (rt : Runtime) (height : Number) : JsString := codePoints "h:" ++ rt.numberText height

/-- What the rows of two keys are compared by. -/
def keyRank (rt : Runtime) (key : JsString) : WithTop Numberᵒᵈ ×ₗ JsString :=
  toLex (orTop ((groupHeight rt key).map OrderDual.toDual), key)

/-- A height that counts is an integer. -/
theorem finiteHeight_some (h : finiteHeight f = some a) : 0 ≤ a.1 ∧ trunc a = a := by
  obtain ⟨height, hheight, rfl⟩ := Option.map_eq_some_iff.mp h
  have hpos : 0 ≤ height.1 := by
    have hpositive := (Option.filter_eq_some_iff.mp hheight).2
    exact (of_decide_eq_true hpositive).le
  have hfloor : 0 ≤ (trunc height).1 := by
    rw [trunc_eq hpos]
    exact_mod_cast Int.floor_nonneg.mpr hpos
  refine ⟨hfloor, Subtype.ext ?_⟩
  rw [trunc_eq hfloor, trunc_eq hpos, Int.floor_intCast]

theorem qualityGroupKey_height (h : finiteHeight f = some a) :
    qualityGroupKey rt f = heightKey rt a := by
  rw [qualityGroupKey, h]
  rfl

theorem qualityGroupKey_label (h : finiteHeight f = none) : qualityGroupKey rt f =
    codePoints "l:" ++ normalizeQualityLabel rt f.qualityLabel := by
  rw [qualityGroupKey, h]

theorem groupHeight_heightKey : groupHeight rt (heightKey rt a) = rt.parseInt (rt.numberText a) :=
  rfl

theorem groupHeight_label : groupHeight rt (codePoints "l:" ++ s) = none := rfl

theorem heightKey_ne_label : heightKey rt a ≠ codePoints "l:" ++ s := by
  intro h
  have hfirst : (104 : ℕ) = 108 := (List.cons.inj h).1
  omega

/-- Formats with the same key have the same height. -/
theorem finiteHeight_eq_of_key (h : qualityGroupKey rt f = qualityGroupKey rt g) :
    finiteHeight f = finiteHeight g := by
  cases hf : finiteHeight f with
  | none =>
    cases hg : finiteHeight g with
    | none => rfl
    | some b =>
      rw [qualityGroupKey_label hf, qualityGroupKey_height hg] at h
      exact absurd h.symm heightKey_ne_label
  | some a =>
    cases hg : finiteHeight g with
    | none =>
      rw [qualityGroupKey_height hf, qualityGroupKey_label hg] at h
      exact absurd h heightKey_ne_label
    | some b =>
      rw [qualityGroupKey_height hf, qualityGroupKey_height hg] at h
      rw [rt.numberText_inj a b (List.append_cancel_left h)]

theorem compareOptions_lt (hne : row.key ≠ row'.key) :
    compareOptions rt row row' = .lt ↔ keyRank rt row.key < keyRank rt row'.key := by
  rw [compareOptions_by.lt_iff, optionRank, optionRank, keyRank, keyRank,
    Prod.Lex.toLex_lt_toLex, Prod.Lex.toLex_lt_toLex, Prod.Lex.toLex_lt_toLex]
  simp only [hne, false_and, or_false]

theorem keyRank_injective (h : keyRank rt key = keyRank rt key') : key = key' := (toLex_eq h).2

/-- The key of a height is before that of a label. -/
theorem heightKey_lt_label : keyRank rt (heightKey rt a) < keyRank rt (codePoints "l:" ++ s) := by
  rw [keyRank, keyRank, Prod.Lex.toLex_lt_toLex, groupHeight_label, groupHeight_heightKey]
  cases rt.parseInt (rt.numberText a) with
  | some height => exact .inl (WithTop.coe_lt_top _)
  | none =>
    have hfirst : List.Lex (· < ·) (heightKey rt a) (codePoints "l:" ++ s) :=
      List.Lex.rel (by decide)
    exact .inr ⟨rfl, hfirst⟩

/-! ## The order of the rows -/

/-- Higher, or with a height before a mere label, or with the first of two labels. -/
def Better (row row' : QualityOption) : Prop :=
  match finiteHeight row.representative, finiteHeight row'.representative with
  | some a, some b => b < a
  | some _, none => True
  | none, some _ => False
  | none, none => cmp row.key row'.key = .lt

/-- The keys of the heights that are shown rank as the heights do. -/
def RanksHeights (rt : Runtime) (formats : List MediaFormat) : Prop :=
  ∀ f ∈ formats, ∀ g ∈ formats, isDisplayableFormat f = true → isDisplayableFormat g = true →
    ∀ a b, finiteHeight f = some a → finiteHeight g = some b → b < a →
      keyRank rt (heightKey rt a) < keyRank rt (heightKey rt b)

/-- A height that is written in digits only is read back. -/
theorem ranksHeights_of_digits (h : ∀ f ∈ formats, isDisplayableFormat f = true →
    ∀ a, finiteHeight f = some a → a.1 < 10 ^ 21) : RanksHeights rt formats := by
  intro f hf g hg hshown hshown' a b ha hb hlt
  obtain ⟨hnonneg, htrunc⟩ := finiteHeight_some ha
  obtain ⟨hnonneg', htrunc'⟩ := finiteHeight_some hb
  have hread := rt.parseInt_text a hnonneg (h f hf hshown a ha) htrunc
  have hread' := rt.parseInt_text b hnonneg' (h g hg hshown' b hb) htrunc'
  rw [keyRank, keyRank, groupHeight_heightKey, groupHeight_heightKey, hread, hread',
    Prod.Lex.toLex_lt_toLex]
  exact .inl (WithTop.coe_lt_coe.mpr (OrderDual.toDual_lt_toDual.mpr hlt))

/-- Of two rows in the order of the comparator, the first is better if the heights rank. -/
theorem better_of_ranks (h : RanksHeights rt formats)
    (hrow : row ∈ groupQualityOptions rt formats options)
    (hrow' : row' ∈ groupQualityOptions rt formats options) (hne : row.key ≠ row'.key)
    (hle : compareOptions rt row row' ≠ .gt) : Better row row' := by
  obtain ⟨hhead, hkey, -⟩ := row_representative hrow
  obtain ⟨hhead', hkey', -⟩ := row_representative hrow'
  obtain ⟨⟨hmem, hshown⟩, -⟩ := (mem_members hrow).mp (List.mem_of_mem_head? hhead)
  obtain ⟨⟨hmem', hshown'⟩, -⟩ := (mem_members hrow').mp (List.mem_of_mem_head? hhead')
  have hgt : ¬ keyRank rt row'.key < keyRank rt row.key := by
    intro hlt
    have hcompare := (compareOptions_lt (Ne.symm hne)).mpr hlt
    rw [compareOptions_by.lt_iff, ← compareOptions_by.gt_iff] at hcompare
    exact hle hcompare
  rw [Better]
  cases ha : finiteHeight row.representative with
  | some a =>
    cases hb : finiteHeight row'.representative with
    | none => trivial
    | some b =>
      rw [qualityGroupKey_height ha] at hkey
      rw [qualityGroupKey_height hb] at hkey'
      rcases lt_trichotomy a b with hlt | rfl | hlt
      · have hrank := h _ hmem' _ hmem hshown' hshown b a hb ha hlt
        rw [← hkey, ← hkey'] at hrank
        exact absurd hrank hgt
      · exact absurd (hkey.trans hkey'.symm) hne
      · exact hlt
  | none =>
    rw [qualityGroupKey_label ha] at hkey
    cases hb : finiteHeight row'.representative with
    | some b =>
      rw [qualityGroupKey_height hb] at hkey'
      rw [hkey, hkey'] at hgt
      exact absurd heightKey_lt_label hgt
    | none =>
      rw [qualityGroupKey_label hb] at hkey'
      have hlabel : groupHeight rt row.key = groupHeight rt row'.key := by
        rw [hkey, hkey', groupHeight_label, groupHeight_label]
      have hlt := lt_of_le_of_ne (not_lt.mp hgt) fun heq => hne (keyRank_injective heq)
      rw [keyRank, keyRank, hlabel, Prod.Lex.toLex_lt_toLex] at hlt
      rcases hlt with hlt | ⟨-, hlt⟩
      · exact absurd hlt (lt_irrefl _)
      · exact ((comparesBy_list id).lt_iff _ _).mpr hlt

theorem ordered_of_ranks (h : RanksHeights rt formats) :
    (groupQualityOptions rt formats options).Pairwise Better := by
  have hsorted : Sorted (optionRank rt) (groupQualityOptions rt formats options) :=
    compareOptions_by.sorted _
  have hkeys : (groupQualityOptions rt formats options).Pairwise fun x y => x.key ≠ y.key :=
    List.pairwise_map.mp row_keys
  refine (hsorted.and hkeys).imp_of_mem ?_
  intro row row' hrow hrow' hboth
  exact better_of_ranks h hrow hrow' hboth.2 (compareOptions_by.le_iff.mpr hboth.1)

theorem better_heights (ha : finiteHeight row.representative = some a)
    (hb : finiteHeight row'.representative = some b) : Better row row' ↔ b < a := by
  rw [Better, ha, hb]

/-- Rows of two heights, the higher one first, have keys in this order. -/
theorem ranks_of_ordered (h : (groupQualityOptions rt formats options).Pairwise Better) :
    RanksHeights rt formats := by
  intro f hf g hg hshown hshown' a b ha hb hlt
  have hrows : ∀ f ∈ formats, isDisplayableFormat f = true →
      ∃ row ∈ groupQualityOptions rt formats options, row.key = qualityGroupKey rt f :=
    fun _ => exists_row_of
  obtain ⟨row, hrow, hkey⟩ := hrows f hf hshown
  obtain ⟨row', hrow', hkey'⟩ := hrows g hg hshown'
  have hheight : finiteHeight row.representative = some a := by
    rw [← ha]
    exact finiteHeight_eq_of_key ((row_representative hrow).2.1.symm.trans hkey)
  have hheight' : finiteHeight row'.representative = some b := by
    rw [← hb]
    exact finiteHeight_eq_of_key ((row_representative hrow').2.1.symm.trans hkey')
  have hne : row.key ≠ row'.key := by
    intro heq
    have hsame := finiteHeight_eq_of_key (hkey.symm.trans (heq.trans hkey'))
    rw [ha, hb] at hsame
    exact hlt.ne' (Option.some.inj hsame)
  have hsorted : Sorted (optionRank rt) (groupQualityOptions rt formats options) :=
    compareOptions_by.sorted _
  let Before (x y : QualityOption) := optionRank rt x ≤ optionRank rt y ∧ Better x y
  have hpairs : (groupQualityOptions rt formats options).Pairwise
      fun x y => Before x y ∨ Before y x := (hsorted.and h).imp .inl
  have hsymm : Std.Symm fun x y => Before x y ∨ Before y x := ⟨fun _ _ => Or.symm⟩
  have hlast : optionRank rt row ≤ optionRank rt row' := by
    have hneq : row ≠ row' := fun heq => hne (heq ▸ rfl)
    rcases hpairs.forall hrow hrow' hneq with ⟨hle, -⟩ | ⟨-, hbetter⟩
    · exact hle
    · exact absurd ((better_heights hheight' hheight).mp hbetter) hlt.not_gt
  have hgt : ¬ keyRank rt row'.key < keyRank rt row.key := by
    rw [← compareOptions_lt (Ne.symm hne), compareOptions_by.lt_iff]
    exact not_lt.mpr hlast
  rw [← qualityGroupKey_height ha, ← qualityGroupKey_height hb, ← hkey, ← hkey']
  exact lt_of_le_of_ne (not_lt.mp hgt) fun heq => hne (keyRank_injective heq)

theorem ordered_iff :
    (groupQualityOptions rt formats options).Pairwise Better ↔ RanksHeights rt formats :=
  ⟨ranks_of_ordered, ordered_of_ranks⟩

/-! ## What is eligible -/

theorem displayable_of_selectable {blocked : Bool} (h : isSelectableFormat f blocked = true) :
    isDisplayableFormat f = true := by
  rw [isSelectableFormat, isDownloadEligible] at h
  simp only [Bool.and_eq_true] at h
  rw [isDisplayableFormat]
  simp only [Bool.and_eq_true]
  exact h.2.1.1

theorem of_toLex_le {α β : Type*} [LinearOrder α] [LinearOrder β] {x x' : α} {y y' : β}
    (h : toLex (x, y) ≤ toLex (x', y')) : x ≤ x' ∧ (x = x' → y ≤ y') := by
  rcases Prod.Lex.toLex_le_toLex.mp h with hlt | ⟨heq, hle⟩
  · exact ⟨hlt.le, fun heq => absurd heq hlt.ne⟩
  · exact ⟨heq.le, fun _ => hle⟩

/-- What ranks before a format that can be selected can be selected, and is the selected one if the
other is. -/
theorem selectable_of_rank (h : representativeRank rt options f ≤ representativeRank rt options g)
    (hg : isSelectableFormat g options.muxingBlocked = true) :
    isSelectableFormat f options.muxingBlocked = true ∧
      (some g.formatOptionId.1 = options.selectedFormatId →
        some f.formatOptionId.1 = options.selectedFormatId) := by
  obtain ⟨hfirst, hrest⟩ := of_toLex_le h
  rw [hg] at hfirst hrest
  have hf : isSelectableFormat f options.muxingBlocked = true := by
    by_contra hnot
    rw [Bool.not_eq_true] at hnot
    rw [hnot] at hfirst
    exact absurd hfirst (by decide)
  rw [hf] at hrest
  obtain ⟨hsecond, -⟩ := of_toLex_le (hrest rfl)
  refine ⟨hf, fun hselected => ?_⟩
  by_contra hnot
  rw [decide_eq_true hnot, decide_eq_false (not_not.mpr hselected)] at hsecond
  exact absurd hsecond (by decide)

theorem eligible_iff (h : row ∈ groupQualityOptions rt formats options) : row.eligible = true ↔
    ∃ f ∈ row.members, isSelectableFormat f options.muxingBlocked = true := by
  have hmem := List.mem_of_mem_head? (row_representative h).1
  have heligible : row.eligible = isSelectableFormat row.representative options.muxingBlocked := by
    obtain ⟨f, -, rfl⟩ := mem_groupQualityOptions.mp h
    rfl
  rw [heligible]
  constructor
  · intro hselectable
    exact ⟨row.representative, hmem, hselectable⟩
  · rintro ⟨f, hf, hselectable⟩
    exact (selectable_of_rank (representative_le h hf) hselectable).1

theorem pickHighestEligibleFormat_eq : pickHighestEligibleFormat rt formats options =
    ((groupQualityOptions rt formats options).find? (·.eligible)).map
      (·.representative.formatOptionId.1) := by
  rw [pickHighestEligibleFormat, ← List.head?_filter]
  cases (groupQualityOptions rt formats options).filter (·.eligible) <;> rfl

/-- Nothing is picked if nothing that is shown can be selected. -/
theorem pick_none : pickHighestEligibleFormat rt formats options = none ↔
    ∀ f ∈ formats, isDisplayableFormat f = true →
      isSelectableFormat f options.muxingBlocked = false := by
  rw [pickHighestEligibleFormat_eq, Option.map_eq_none_iff, List.find?_eq_none]
  constructor
  · intro h f hf hshown
    obtain ⟨row, hrow, hkey⟩ := exists_row_of hf hshown
    have hmember := (mem_members hrow).mpr ⟨⟨hf, hshown⟩, hkey.symm⟩
    have hnot := h row hrow
    rw [eligible_iff hrow] at hnot
    rw [Bool.eq_false_iff]
    intro hselectable
    exact hnot ⟨f, hmember, hselectable⟩
  · intro h row hrow heligible
    obtain ⟨f, hf, hselectable⟩ := (eligible_iff hrow).mp heligible
    obtain ⟨⟨hmem, hshown⟩, -⟩ := (mem_members hrow).mp hf
    rw [h f hmem hshown] at hselectable
    cases hselectable

/-! ## What is kept -/

theorem formatOptionId_ne_nil (f : MediaFormat) : f.formatOptionId.1 ≠ [] := by
  intro hnil
  have hvalid := f.formatOptionId.2
  rw [hnil] at hvalid
  exact absurd hvalid (by decide)

/-- An identifier is kept if the format can still be selected. -/
theorem reconcile_some {id : JsString} :
    reconcileSelectedFormatId formats (some id) options = some id ↔
      ∃ f ∈ formats, f.formatOptionId.1 = id ∧
        isSelectableFormat f options.muxingBlocked = true := by
  constructor
  · intro h
    cases id with
    | nil => cases h
    | cons c rest =>
      obtain ⟨f, hfind, hid⟩ := Option.map_eq_some_iff.mp h
      have hp := List.find?_some hfind
      simp only [Bool.and_eq_true] at hp
      exact ⟨f, List.mem_of_find?_eq_some hfind, hid, hp.2⟩
  · rintro ⟨f, hf, rfl, hselectable⟩
    have hshown := displayable_of_selectable hselectable
    obtain ⟨c, rest, hid⟩ := List.exists_cons_of_ne_nil (formatOptionId_ne_nil f)
    rw [hid, reconcileSelectedFormatId, ← hid]
    · cases hfind : formats.find? _ with
      | none =>
        have hnone := List.find?_eq_none.mp hfind f hf
        simp only [hshown, hselectable, decide_true, Bool.and_true, not_true] at hnone
      | some g =>
        have hp := List.find?_some hfind
        simp only [Bool.and_eq_true, decide_eq_true_eq] at hp
        rw [Option.map_some, hp.1.1]
    · nofun

/-- What is kept is what was selected. -/
theorem reconcile_or : reconcileSelectedFormatId formats selected options = none ∨
    reconcileSelectedFormatId formats selected options = selected := by
  cases hresult : reconcileSelectedFormatId formats selected options with
  | none => exact .inl rfl
  | some id =>
    right
    match selected with
    | none => cases hresult
    | some [] => cases hresult
    | some (c :: rest) =>
      obtain ⟨f, hfind, rfl⟩ := Option.map_eq_some_iff.mp hresult
      have hp := List.find?_some hfind
      simp only [Bool.and_eq_true, decide_eq_true_eq] at hp
      rw [hp.1.1]

/-- A selected format that can be selected represents its row. -/
theorem selected_represents {id : JsString} (hf : f ∈ formats) (hid : f.formatOptionId.1 = id)
    (hselectable : isSelectableFormat f options.muxingBlocked = true) :
    ∃ row ∈ groupQualityOptions rt formats { options with selectedFormatId := some id },
      f ∈ row.members ∧ row.representative.formatOptionId.1 = id := by
  have hshown := displayable_of_selectable hselectable
  have hrow : ∃ row ∈ groupQualityOptions rt formats { options with selectedFormatId := some id },
      row.key = qualityGroupKey rt f := exists_row_of hf hshown
  obtain ⟨row, hrow, hkey⟩ := hrow
  have hmember := (mem_members hrow).mpr ⟨⟨hf, hshown⟩, hkey.symm⟩
  refine ⟨row, hrow, hmember, ?_⟩
  have hfirst := (selectable_of_rank (representative_le hrow hmember) hselectable).2
  exact Option.some.inj (hfirst (congrArg some hid))

/-! ## The view -/

/-- The rows are a complete view of the formats, which does not depend on their order. -/
structure QualityView (rt : Runtime) (formats : List MediaFormat)
    (options : QualityGroupingOptions) : Prop where
  anyOrder : ∀ formats', formats.Perm formats' →
    groupQualityOptions rt formats' options = groupQualityOptions rt formats options
  anyOrderStandalone : ∀ formats' premiumActive selectedFormatId, formats.Perm formats' →
    groupStandaloneOptions rt formats' premiumActive selectedFormatId =
      groupStandaloneOptions rt formats premiumActive selectedFormatId
  partition : ((groupQualityOptions rt formats options).flatMap (·.members)).Perm
    (formats.filter isDisplayableFormat)
  grouped : ∀ row ∈ groupQualityOptions rt formats options,
    row.members.head? = some row.representative ∧ ∀ f ∈ row.members, qualityGroupKey rt f = row.key
  keys : ((groupQualityOptions rt formats options).map (·.key)).Nodup
  ordered : (groupQualityOptions rt formats options).Pairwise Better
  strictTotal : ∀ row ∈ groupQualityOptions rt formats options,
    StrictTotal (compareRepresentatives rt options) row.members
  eligible : ∀ row ∈ groupQualityOptions rt formats options, row.eligible = true ↔
    ∃ f ∈ row.members, isSelectableFormat f options.muxingBlocked = true
  picksNone : pickHighestEligibleFormat rt formats options = none ↔
    ∀ f ∈ formats, isDisplayableFormat f = true →
      isSelectableFormat f options.muxingBlocked = false
  picksFirst : pickHighestEligibleFormat rt formats options =
    ((groupQualityOptions rt formats options).find? (·.eligible)).map
      (·.representative.formatOptionId.1)
  keeps : ∀ id, reconcileSelectedFormatId formats (some id) options = some id ↔
    ∃ f ∈ formats, f.formatOptionId.1 = id ∧ isSelectableFormat f options.muxingBlocked = true
  keepsOnly : ∀ selected, reconcileSelectedFormatId formats selected options = none ∨
    reconcileSelectedFormatId formats selected options = selected
  represents : ∀ f ∈ formats,
    reconcileSelectedFormatId formats (some f.formatOptionId.1) options =
      some f.formatOptionId.1 →
    ∃ row ∈ groupQualityOptions rt formats
        { options with selectedFormatId := some f.formatOptionId.1 },
      f ∈ row.members ∧ row.representative = f

theorem rows_partition : ((groupQualityOptions rt formats options).flatMap (·.members)).Perm
    (formats.filter isDisplayableFormat) := by
  rw [groupQualityOptions_eq]
  exact ((sortBy_perm _ _).flatMap_right _).trans (flatMap_rows fun _ _ _ => rfl)

theorem members_strictTotal (h : DistinctIds formats)
    (hrow : row ∈ groupQualityOptions rt formats options) :
    StrictTotal (compareRepresentatives rt options) row.members := by
  apply compareRepresentatives_by.strictTotal
  intro f hf g hg
  exact representativeRank_ties h ((mem_members hrow).mp hf).1.1 ((mem_members hrow).mp hg).1.1

/-- The rows are the view that they should be where the keys of the heights rank as the heights do,
and only there. -/
theorem qualityView_iff (h : DistinctIds formats) :
    QualityView rt formats options ↔ RanksHeights rt formats := by
  refine ⟨fun hview => ordered_iff.mp hview.ordered, fun hranks => ?_⟩
  refine ⟨fun _ => groupQualityOptions_perm h, fun _ _ _ => groupStandaloneOptions_perm h,
    rows_partition, ?_, row_keys, ordered_iff.mpr hranks, fun _ => members_strictTotal h,
    fun _ => eligible_iff, pick_none, pickHighestEligibleFormat_eq, fun _ => reconcile_some,
    fun _ => reconcile_or, ?_⟩
  · intro row hrow
    exact ⟨(row_representative hrow).1, fun f hf => ((mem_members hrow).mp hf).2⟩
  · intro f hf hkept
    obtain ⟨g, hg, hid, hselectable⟩ := reconcile_some.mp hkept
    obtain ⟨row, hrow, hmem, hrepresentative⟩ := selected_represents hg hid hselectable
    have hmember := List.mem_of_mem_head? (row_representative hrow).1
    have hrepresented := ((mem_members hrow).mp hmember).1.1
    obtain rfl := h.eq hg hf (congrArg rt.sortKey hid)
    exact ⟨row, hrow, hmem, h.eq hrepresented hf (congrArg rt.sortKey hrepresentative)⟩

/-- For formats with identifiers of their own, the rows are a complete view of them in any order
where the keys of the heights rank as the heights do, and only there: always where each height is
written in digits. -/
theorem rows_view_exactly (rt : Runtime) (formats : List MediaFormat)
    (options : QualityGroupingOptions) (h : DistinctIds formats) :
    (QualityView rt formats options ↔ RanksHeights rt formats) ∧
      ((∀ f ∈ formats, isDisplayableFormat f = true →
        ∀ a, finiteHeight f = some a → a.1 < 10 ^ 21) → QualityView rt formats options) :=
  ⟨qualityView_iff h, fun hdigits => (qualityView_iff h).mpr (ranksHeights_of_digits hdigits)⟩

/-! ## A height beyond the digits -/

/-- A finished video of a height. -/
def sampleFormat (digit : ℕ) (hdigit : isHexDigit digit = true) (height : Number) : MediaFormat where
  formatOptionId := ⟨codePoints "fmt_" ++ List.replicate 28 digit, by
    simp [isFormatOptionId, codePoints, hdigit]⟩
  container := ⟨codePoints "mp4", by decide⟩
  height := some height
  fps := none
  hasVideo := true
  hasAudio := true
  category := .progressive
  videoCodec := codePoints "h264"
  audioCodec := codePoints "aac"
  approxBytes := none
  qualityLabel := codePoints "source"
  freeTierEligible := true
  mediaKind := .normalVideo
  bitrateKbps := none

def h720 : Number := ⟨(720 : ℕ), isDouble_intCast (by norm_num : |((720 : ℕ) : ℤ)| < 2 ^ 53)⟩

/-- The first number that is written with an exponent. -/
def h1e21 : Number := ⟨(10 ^ 21 : ℕ), 5 ^ 21, 21, by norm_num, by norm_num, by norm_num, by norm_num⟩

def sampleFormats : List MediaFormat :=
  [sampleFormat 97 (by decide) h720, sampleFormat 98 (by decide) h1e21]

theorem sampleFormats_distinct : DistinctIds sampleFormats := by
  simp [DistinctIds, sampleFormats, sampleFormat]

theorem finiteHeight_sample {n : ℕ} (digit : ℕ) (hdigit : isHexDigit digit = true) (hn : 0 < n)
    (ha : a.1 = n) : finiteHeight (sampleFormat digit hdigit a) = some a := by
  have hpos : 0 < a.1 := by
    rw [ha]
    exact_mod_cast hn
  have htrunc : trunc a = a := by
    apply Subtype.ext
    rw [trunc_eq hpos.le, ha, Int.floor_natCast]
    rfl
  have hpositive : positive (some a) = some a := by
    rw [positive, Option.filter_some, if_pos (decide_eq_true hpos)]
  rw [finiteHeight, sampleFormat, hpositive, Option.map_some, htrunc]

/-- The exponent is not read back: the height beyond the digits ranks as the height `1`. -/
theorem not_ranks_sample : ¬ RanksHeights wholeRuntime sampleFormats := by
  have hone : IsDouble ((1 : ℕ) : ℚ) := isDouble_intCast (by norm_num : |((1 : ℕ) : ℤ)| < 2 ^ 53)
  intro h
  have hlt := h _ (List.mem_cons_of_mem _ List.mem_cons_self) _ List.mem_cons_self rfl rfl h1e21 h720
    (finiteHeight_sample (n := 10 ^ 21) 98 rfl (by norm_num) rfl)
    (finiteHeight_sample (n := 720) 97 rfl (by norm_num) rfl) (by
      show ((720 : ℕ) : ℚ) < ((10 ^ 21 : ℕ) : ℚ)
      norm_num)
  have htext : wholeText h1e21 = codePoints "1e+21" := by
    rw [wholeText, if_pos]
    show ((10 ^ 21 : ℕ) : ℚ) = 10 ^ 21
    norm_num
  have hread : groupHeight wholeRuntime (heightKey wholeRuntime h1e21) = some ⟨_, hone⟩ := by
    have hdigits : parseDigits (codePoints "1e+21") = roundedDown 1 := rfl
    rw [groupHeight_heightKey]
    show parseDigits (wholeText h1e21) = _
    rw [htext, hdigits]
    exact roundedDown_eq (x := ⟨_, hone⟩) rfl
  have hread' : groupHeight wholeRuntime (heightKey wholeRuntime h720) = some h720 := by
    have hheight : finiteHeight (sampleFormat 97 rfl h720) = some h720 :=
      finiteHeight_sample (n := 720) 97 rfl (by norm_num) rfl
    have hfloor := (finiteHeight_some hheight).2
    exact parseDigits_text h720 (by norm_num [h720]) (by norm_num [h720]) hfloor
  rw [keyRank, keyRank, hread, hread', Prod.Lex.toLex_lt_toLex] at hlt
  rcases hlt with hlt | ⟨heq, -⟩
  · have hnumbers := WithTop.coe_lt_coe.mp hlt
    have hcast : ((720 : ℕ) : ℚ) < ((1 : ℕ) : ℚ) := OrderDual.toDual_lt_toDual.mp hnumbers
    norm_num at hcast
  · have hnumbers := congrArg Subtype.val (OrderDual.toDual.injective (WithTop.coe_injective heq))
    have hcast : ((1 : ℕ) : ℚ) = ((720 : ℕ) : ℚ) := hnumbers
    norm_num at hcast

/-- A row of a height beyond the digits is shown below that of an ordinary one. -/
theorem tall_row_last :
    DistinctIds sampleFormats ∧ ¬ QualityView wholeRuntime sampleFormats {} := by
  refine ⟨sampleFormats_distinct, ?_⟩
  intro hview
  exact not_ranks_sample (ranks_of_ordered hview.ordered)

def h1080 : Number := ⟨(1080 : ℕ), isDouble_intCast (by norm_num : |((1080 : ℕ) : ℤ)| < 2 ^ 53)⟩

/-- Two formats of one height, a higher one, and one without a height. -/
def mixedFormats : List MediaFormat :=
  [sampleFormat 97 (by decide) h720, sampleFormat 98 (by decide) h1080,
    { sampleFormat 99 (by decide) h720 with
      hasAudio := false, category := .videoOnly, mediaKind := .videoOnly },
    { sampleFormat 100 (by decide) h720 with height := none }]

theorem mixedFormats_digits {a : Number} (hf : f ∈ mixedFormats) (ha : finiteHeight f = some a) :
    a.1 < 10 ^ 21 := by
  have h720_sample (digit : ℕ) (hdigit : isHexDigit digit = true) :=
    finiteHeight_sample (a := h720) (n := 720) digit hdigit (by norm_num) rfl
  have h1080_sample := finiteHeight_sample (a := h1080) (n := 1080) 98 (by decide) (by norm_num) rfl
  have hlow : h720.1 < 10 ^ 21 := by norm_num [h720]
  have hhigh : h1080.1 < 10 ^ 21 := by norm_num [h1080]
  simp only [mixedFormats, List.mem_cons, List.not_mem_nil, or_false] at hf
  rcases hf with rfl | rfl | rfl | rfl
  · rwa [← Option.some.inj ((h720_sample 97 (by decide)).symm.trans ha)]
  · rwa [← Option.some.inj (h1080_sample.symm.trans ha)]
  · have ha' : finiteHeight (sampleFormat 99 (by decide) h720) = some a := ha
    rwa [← Option.some.inj ((h720_sample 99 (by decide)).symm.trans ha')]
  · cases ha

theorem rows_view_mixed : QualityView wholeRuntime mixedFormats {} := by
  have hids : DistinctIds mixedFormats := by simp [DistinctIds, mixedFormats, sampleFormat]
  exact (rows_view_exactly wholeRuntime mixedFormats {} hids).2
    fun f hf _ a => mixedFormats_digits hf

end FetchNow.Quality
