import FetchNow.MediaFlow.Quality

/-!
# Quality rows do not depend on the order of the formats

The rows partition the formats that are shown, each row shows its best member, and the rows are
ordered by quality where the keys are.
-/
namespace FetchNow.Quality

open EcmaScript Comparators Grouping TieBreaks

variable {rt : Runtime} {options : QualityGroupingOptions} {formats formats' : List MediaFormat}
  {f g : MediaFormat} {selected : Option JsString} {premium : Bool} {row row' : QualityOption}
  {ρ : Type}

/-! ## Rankings are total -/

theorem comparesBy_locale (f : ρ → JsString) :
    ComparesBy (fun x y => localeCompare rt (f x) (f y)) fun x => rt.sortKey (f x) :=
  comparesBy_list _

theorem comparesBy_higherFirst (f : ρ → Option Number) :
    ComparesBy (fun x y => higherFirst (f x) (f y)) fun x => orTop ((f x).map OrderDual.toDual) :=
  comparesBy_nullsLast (comparesBy_cmp id).flip f

theorem comparesBy_lowerFirst (f : ρ → Option Number) :
    ComparesBy (fun x y => lowerFirst (f x) (f y)) fun x => orTop ((f x).map id) :=
  comparesBy_nullsLast (comparesBy_cmp id) f

/-- What `compareRepresentatives` compares, in its order. -/
def representativeRank (rt : Runtime) (options : QualityGroupingOptions) (f : MediaFormat) :
    ℕ ×ₗ ℕ ×ₗ ℕ ×ₗ JsString ×ₗ WithTop Numberᵒᵈ ×ₗ WithTop Number ×ₗ List ℕ :=
  toLex (number !(isSelectableFormat f options.muxingBlocked),
    toLex (number (some f.formatOptionId.1 ≠ options.selectedFormatId),
      toLex (containerRank f.container, toLex (f.container.1,
        toLex (orTop (f.fps.map OrderDual.toDual), toLex (orTop (f.approxBytes.map id),
          rt.sortKey f.formatOptionId.1))))))

theorem compareRepresentatives_by :
    ComparesBy (compareRepresentatives rt options) (representativeRank rt options) :=
  (comparesBy_cmp fun f => number !(isSelectableFormat f options.muxingBlocked)).chain <|
    (comparesBy_cmp fun f : MediaFormat =>
      number (some f.formatOptionId.1 ≠ options.selectedFormatId)).chain <|
    (comparesBy_cmp fun f : MediaFormat => containerRank f.container).chain <|
    (comparesBy_list fun f : MediaFormat => f.container.1).chain <|
    (comparesBy_higherFirst fun f : MediaFormat => f.fps).chain <|
    (comparesBy_lowerFirst fun f : MediaFormat => f.approxBytes).chain <|
    comparesBy_locale fun f : MediaFormat => f.formatOptionId.1

/-- What `compareMembers` compares, in its order. -/
def memberRank (rt : Runtime) (selectedFormatId : Option JsString) (f : MediaFormat) :
    ℕᵒᵈ ×ₗ ℕᵒᵈ ×ₗ List ℕ ×ₗ List ℕ ×ₗ List ℕ ×ₗ List ℕ :=
  toLex (OrderDual.toDual (number (some f.formatOptionId.1 = selectedFormatId)),
    toLex (OrderDual.toDual (number (f.container.1 = codePoints "mp4")),
      toLex (rt.sortKey f.container.1, toLex (rt.sortKey f.audioCodec,
        toLex (rt.sortKey f.videoCodec, rt.sortKey f.formatOptionId.1)))))

theorem compareMembers_by :
    ComparesBy (compareMembers rt selected) (memberRank rt selected) :=
  (comparesBy_cmp fun f : MediaFormat => number (some f.formatOptionId.1 = selected)).flip.chain <|
    (comparesBy_cmp fun f : MediaFormat =>
      number (f.container.1 = codePoints "mp4")).flip.chain <|
    (comparesBy_locale fun f : MediaFormat => f.container.1).chain <|
    (comparesBy_locale fun f : MediaFormat => f.audioCodec).chain <|
    (comparesBy_locale fun f : MediaFormat => f.videoCodec).chain <|
    comparesBy_locale fun f : MediaFormat => f.formatOptionId.1

/-- What `compareOptions` compares, in its order. -/
def optionRank (rt : Runtime) (row : QualityOption) : WithTop Numberᵒᵈ ×ₗ JsString ×ₗ List ℕ :=
  toLex (orTop ((groupHeight rt row.key).map OrderDual.toDual),
    toLex (row.key, rt.sortKey row.representative.formatOptionId.1))

theorem compareOptions_by : ComparesBy (compareOptions rt) (optionRank rt) :=
  (comparesBy_higherFirst fun row : QualityOption => groupHeight rt row.key).chain <|
    (comparesBy_list fun row : QualityOption => row.key).chain <|
    comparesBy_locale fun row : QualityOption => row.representative.formatOptionId.1

/-- What the standalone rows are compared by. -/
def standaloneRank (rt : Runtime) (row : QualityOption) : List ℕ ×ₗ ℚᵒᵈ ×ₗ List ℕ ×ₗ List ℕ :=
  toLex (rt.sortKey row.representative.mediaKind.value,
    toLex (OrderDual.toDual (metricOr row.representative),
      toLex (rt.sortKey row.key, rt.sortKey row.representative.formatOptionId.1)))

theorem compareStandalone_by : ComparesBy (compareStandalone rt) (standaloneRank rt) :=
  (comparesBy_locale fun row : QualityOption => row.representative.mediaKind.value).chain <|
    (comparesBy_cmp fun row : QualityOption => metricOr row.representative).flip.chain <|
    (comparesBy_locale fun row : QualityOption => row.key).chain <|
    comparesBy_locale fun row : QualityOption => row.representative.formatOptionId.1

/-! ## Ties are between equal members -/

/-- The formats of a response have identifiers of their own. -/
def DistinctIds (formats : List MediaFormat) : Prop := (formats.map (·.formatOptionId)).Nodup

theorem DistinctIds.eq (h : DistinctIds formats) (hf : f ∈ formats) (hg : g ∈ formats)
    (hkey : rt.sortKey f.formatOptionId.1 = rt.sortKey g.formatOptionId.1) : f = g :=
  List.inj_on_of_nodup_map h hf hg (rt.sortKey_ids _ _ hkey)

theorem toLex_eq {α β : Type*} {a a' : α} {b b' : β} (h : toLex (a, b) = toLex (a', b')) :
    a = a' ∧ b = b' := Prod.mk.inj (toLex.injective h)

theorem representativeRank_ties (h : DistinctIds formats) (hf : f ∈ formats) (hg : g ∈ formats)
    (hrank : representativeRank rt options f = representativeRank rt options g) : f = g := by
  obtain ⟨-, hrank⟩ := toLex_eq hrank
  obtain ⟨-, hrank⟩ := toLex_eq hrank
  obtain ⟨-, hrank⟩ := toLex_eq hrank
  obtain ⟨-, hrank⟩ := toLex_eq hrank
  obtain ⟨-, hrank⟩ := toLex_eq hrank
  obtain ⟨-, hkey⟩ := toLex_eq hrank
  exact h.eq hf hg hkey

theorem memberRank_ties (h : DistinctIds formats) (hf : f ∈ formats) (hg : g ∈ formats)
    (hrank : memberRank rt selected f = memberRank rt selected g) : f = g := by
  obtain ⟨-, hrank⟩ := toLex_eq hrank
  obtain ⟨-, hrank⟩ := toLex_eq hrank
  obtain ⟨-, hrank⟩ := toLex_eq hrank
  obtain ⟨-, hrank⟩ := toLex_eq hrank
  obtain ⟨-, hkey⟩ := toLex_eq hrank
  exact h.eq hf hg hkey

/-! ## The rows of the groups -/

/-- The members of a row, its representative first. -/
abbrev qualityMembers (rt : Runtime) (options : QualityGroupingOptions)
    (formats : List MediaFormat) (key : JsString) : List MediaFormat :=
  membersOf (qualityGroupKey rt) (compareRepresentatives rt options)
    (formats.filter isDisplayableFormat) key

/-- The row of the members with a key. -/
def makeRow (rt : Runtime) (options : QualityGroupingOptions) (key : JsString)
    (members : List MediaFormat) (representative : MediaFormat) : QualityOption :=
  { key, representative, members
    label := qualityDisplayLabel rt representative
    eligible := isSelectableFormat representative options.muxingBlocked }

def makeStandalone (premiumActive : Bool) (key : JsString) (members : List MediaFormat)
    (representative : MediaFormat) : QualityOption :=
  { key, representative, members, label := representative.qualityLabel, eligible := premiumActive }

theorem groupQualityOptions_eq : groupQualityOptions rt formats options =
    sortBy (compareOptions rt) (rows (qualityGroupKey rt) (compareRepresentatives rt options)
      (makeRow rt options) (formats.filter isDisplayableFormat)) := rfl

theorem groupStandaloneOptions_eq : groupStandaloneOptions rt formats premium selected =
    sortBy (compareStandalone rt) (rows (standaloneKey rt) (compareMembers rt selected)
      (makeStandalone premium) (formats.filter fun f => f.mediaKind ≠ .normalVideo)) := rfl

theorem mem_groupQualityOptions : row ∈ groupQualityOptions rt formats options ↔ ∃ f,
    (qualityMembers rt options formats (qualityGroupKey rt f)).head? = some f ∧
      row = makeRow rt options (qualityGroupKey rt f)
        (qualityMembers rt options formats (qualityGroupKey rt f)) f := by
  rw [groupQualityOptions_eq, (sortBy_perm _ _).mem_iff, mem_rows]

theorem row_keys : ((groupQualityOptions rt formats options).map (·.key)).Nodup := by
  rw [groupQualityOptions_eq, ((sortBy_perm _ _).map _).nodup_iff]
  exact keys_rows fun _ _ _ => rfl

/-- The representative is the first of the members, and has the key of the row. -/
theorem row_representative (h : row ∈ groupQualityOptions rt formats options) :
    row.members.head? = some row.representative ∧ row.key = qualityGroupKey rt row.representative ∧
      row.members = qualityMembers rt options formats row.key := by
  obtain ⟨f, hhead, rfl⟩ := mem_groupQualityOptions.mp h
  exact ⟨hhead, rfl, rfl⟩

theorem mem_members (h : row ∈ groupQualityOptions rt formats options) : f ∈ row.members ↔
    (f ∈ formats ∧ isDisplayableFormat f = true) ∧ qualityGroupKey rt f = row.key := by
  rw [(row_representative h).2.2, qualityMembers, mem_membersOf, List.mem_filter]

/-- A format that is shown is shown in the row of its key. -/
theorem exists_row_of (hf : f ∈ formats) (hshown : isDisplayableFormat f = true) :
    ∃ row ∈ groupQualityOptions rt formats options, row.key = qualityGroupKey rt f := by
  have hmem := List.mem_filter.mpr ⟨hf, hshown⟩
  have hrow : ∃ first, qualityGroupKey rt first = qualityGroupKey rt f ∧
      (qualityMembers rt options formats (qualityGroupKey rt first)).head? = some first :=
    exists_row hmem
  obtain ⟨first, hkey, hhead⟩ := hrow
  exact ⟨_, mem_groupQualityOptions.mpr ⟨first, hhead, rfl⟩, hkey⟩

/-- The representative ranks first in its row. -/
theorem representative_le (h : row ∈ groupQualityOptions rt formats options)
    (hf : f ∈ row.members) :
    representativeRank rt options row.representative ≤ representativeRank rt options f := by
  obtain ⟨hhead, -, hmembers⟩ := row_representative h
  rw [hmembers] at hhead hf
  exact compareRepresentatives_by.head_le hhead ((sortBy_perm _ _).mem_iff.mp hf)

/-! ## Any order of the formats -/

theorem groupQualityOptions_perm (h : DistinctIds formats) (hp : formats.Perm formats') :
    groupQualityOptions rt formats' options = groupQualityOptions rt formats options := by
  rw [groupQualityOptions_eq, groupQualityOptions_eq, eq_comm]
  apply compareOptions_by.sortBy_eq
  · apply rows_perm compareRepresentatives_by _ (hp.filter _)
    intro f hf g hg
    exact representativeRank_ties h (List.mem_filter.mp hf).1 (List.mem_filter.mp hg).1
  · intro row hrow row' hrow' hrank
    obtain ⟨-, hrank⟩ := toLex_eq hrank
    obtain ⟨hkey, -⟩ := toLex_eq hrank
    exact List.inj_on_of_nodup_map (keys_rows fun _ _ _ => rfl) hrow hrow' hkey

theorem groupStandaloneOptions_perm (h : DistinctIds formats) (hp : formats.Perm formats') :
    groupStandaloneOptions rt formats' premium selected =
      groupStandaloneOptions rt formats premium selected := by
  rw [groupStandaloneOptions_eq, groupStandaloneOptions_eq, eq_comm]
  apply compareStandalone_by.sortBy_eq
  · apply rows_perm compareMembers_by _ (hp.filter _)
    intro f hf g hg
    exact memberRank_ties h (List.mem_filter.mp hf).1 (List.mem_filter.mp hg).1
  · intro row hrow row' hrow' hrank
    obtain ⟨-, hrank⟩ := toLex_eq hrank
    obtain ⟨-, hrank⟩ := toLex_eq hrank
    obtain ⟨-, hids⟩ := toLex_eq hrank
    obtain ⟨first, hhead, rfl⟩ := mem_rows.mp hrow
    obtain ⟨first', hhead', rfl⟩ := mem_rows.mp hrow'
    have hmem := (mem_membersOf.mp (List.mem_of_mem_head? hhead)).1
    have hmem' := (mem_membersOf.mp (List.mem_of_mem_head? hhead')).1
    obtain rfl := h.eq (List.mem_filter.mp hmem).1 (List.mem_filter.mp hmem').1 hids
    rfl

end FetchNow.Quality
