import FetchNow.PgBackup.AttestationOrder

/-!
# Runs of attestations

A backup's attestations in the order in which they are written, under a clock that does not go
backwards.
-/
namespace FetchNow.Attestation

open Transactions Texts PgBackup

/-- An attestation and the moment at which it was built. -/
structure Entry where
  attestation : ParsedAttestation
  now : Moment
  built : Built attestation now

def Entry.result (e : Entry) : String := e.attestation.common.result

/-- Two attestations of the same second with the same result. -/
def Entry.sameName (e f : Entry) : Bool := e.now.number = f.now.number ∧ e.result = f.result

/-- Every file is new and leaves the others as they are, is read back, and is then the latest one.
An attestation whose name is refused is not written. -/
def AllLatest (lib : Library) : Directory → List ParsedAttestation → Prop
  | _, [] => True
  | dir, a :: rest =>
    match writeAttestation dir a with
    | .error _ => AllLatest lib dir rest
    | .ok (path, dir') =>
      (path ∉ dir.names ∧ dir' = dir ++ [(path, a.toJson)]) ∧ ReadsBack lib a ∧
        latestFile dir' = some (path, a.toJson) ∧ AllLatest lib dir' rest

/-- The attestations of a second come in the order of their names. -/
structure InOrder (written : List Entry) : Prop where
  failedFirst : written.Pairwise fun e f =>
    e.now.number = f.now.number → e.result = "passed" → f.result = "passed"
  few : ∀ e : Entry, written.countP e.sameName ≤ 9

variable {lib : Library} {base dir : Directory} {w rest written : List Entry} {e f : Entry}
  {n k : ℕ}

/-! ## The latest file -/

theorem latestFile_spec {file : String × Object} (h : latestFile dir = some file) :
    file ∈ dir ∧ ∀ other ∈ dir, isAttestationName other.1 = true → other.1 ≤ file.1 := by
  obtain ⟨init, hsorted⟩ := List.getLast?_eq_some_iff.mp h
  have hperm := List.perm_insertionSort (fun a b : String × Object => a.1 ≤ b.1)
    (dir.filter fun file => isAttestationName file.1)
  have hpairwise := List.pairwise_insertionSort (fun a b : String × Object => a.1 ≤ b.1)
    (dir.filter fun file => isAttestationName file.1)
  rw [hsorted] at hperm hpairwise
  constructor
  · have hmem := hperm.mem_iff.mp (List.mem_append_right _ (List.mem_singleton_self file))
    exact (List.mem_filter.mp hmem).1
  · intro other hother hname
    have hmem := hperm.mem_iff.mpr (List.mem_filter.mpr ⟨hother, hname⟩)
    rcases List.mem_append.mp hmem with hinit | hlast
    · exact (List.pairwise_append.mp hpairwise).2.2 other hinit file (by simp)
    · obtain rfl := List.mem_singleton.mp hlast
      exact le_rfl

/-- A file above all other attestations is the latest one. -/
theorem latestFile_eq {file : String × Object} (hmem : file ∈ dir)
    (hname : isAttestationName file.1 = true)
    (hlast : ∀ other ∈ dir, isAttestationName other.1 = true → other = file ∨ other.1 < file.1) :
    latestFile dir = some file := by
  cases hlatest : latestFile dir with
  | none =>
    rw [latestFile, List.getLast?_eq_none_iff] at hlatest
    have hfiltered : file ∈ dir.filter fun file => isAttestationName file.1 :=
      List.mem_filter.mpr ⟨hmem, hname⟩
    rw [← List.mem_insertionSort fun a b : String × Object => a.1 ≤ b.1, hlatest] at hfiltered
    cases hfiltered
  | some latest =>
    obtain ⟨hdir, habove⟩ := latestFile_spec hlatest
    have hlatestName : isAttestationName latest.1 = true := by
      have hsorted := List.mem_of_getLast? hlatest
      rw [List.mem_insertionSort] at hsorted
      exact (List.mem_filter.mp hsorted).2
    rcases hlast latest hdir hlatestName with rfl | hlt
    · rfl
    · exact absurd hlt (not_lt.mpr (habove file hmem hname))

/-! ## Names -/

theorem Entry.verifiedAt (e : Entry) :
    e.attestation.common.verifiedAtUtc = String.ofList e.now.strftime :=
  e.built.regular.verifiedAt

theorem Entry.result_cases (e : Entry) : e.result = "passed" ∨ e.result = "failed" :=
  e.built.regular.result

/-- The name that is used for the n-th attestation of a second with its result. -/
def Entry.name (e : Entry) (n : ℕ) : String := nameOf e.now.stamp e.result n

theorem Entry.name_eq (e : Entry) (n : ℕ) :
    fileName (stampOf e.attestation.common.verifiedAtUtc) e.attestation.common.result (counter n) =
      e.name n := by
  rw [e.verifiedAt]
  rfl

theorem name_lt_of_number (h : e.now.number < f.now.number) : e.name n < f.name k :=
  nameOf_lt_of_stamp (Moment.stamp_lt h) (by rw [Moment.length_stamp, Moment.length_stamp])

theorem name_lt_of_result (h : e.now.number = f.now.number) (he : e.result = "failed")
    (hf : f.result = "passed") : e.name n < f.name k := by
  rw [Entry.name, Entry.name, he, hf, Moment.stamp_eq_of_number h]
  exact nameOf_failed_lt_passed

theorem sameName_iff : e.sameName f = true ↔ e.now.number = f.now.number ∧ e.result = f.result :=
  decide_eq_true_iff

theorem name_congr (h : e.sameName f = true) (n : ℕ) : e.name n = f.name n := by
  obtain ⟨hnumber, hresult⟩ := sameName_iff.mp h
  rw [Entry.name, Entry.name, hresult, Moment.stamp_eq_of_number hnumber]

theorem counter_injective : ∀ n ≤ 10, ∀ k ≤ 10, 1 ≤ n → 1 ≤ k →
    (counter n).toList ++ ".json".toList = (counter k).toList ++ ".json".toList → n = k := by
  decide +kernel

theorem name_injective (hn : 1 ≤ n) (hn' : n ≤ 10) (hk : 1 ≤ k) (hk' : k ≤ 10)
    (h : e.name n = e.name k) : n = k := by
  have hlists := congrArg String.toList h
  rw [Entry.name, Entry.name, toList_nameOf, toList_nameOf] at hlists
  have hsuffix := List.append_cancel_left (List.append_cancel_left hlists)
  rw [List.cons.injEq] at hsuffix
  exact counter_injective n hn' k hk' hn hk (List.append_cancel_left hsuffix.2)

/-- Attestations of other seconds or results have other names. -/
theorem name_ne (h : e.sameName f = false) : e.name n ≠ f.name k := by
  intro hname
  rcases Nat.lt_trichotomy e.now.number f.now.number with hlt | heq | hgt
  · exact absurd hname (name_lt_of_number hlt).ne
  · have hresult : e.result ≠ f.result := by
      intro hresult
      rw [sameName_iff.mpr ⟨heq, hresult⟩] at h
      cases h
    rcases e.result_cases with he | he
    · rcases f.result_cases with hf | hf
      · exact hresult (he.trans hf.symm)
      · exact absurd hname (name_lt_of_result heq.symm hf he).ne'
    · rcases f.result_cases with hf | hf
      · exact absurd hname (name_lt_of_result heq he hf).ne
      · exact hresult (he.trans hf.symm)
  · exact absurd hname (name_lt_of_number hgt).ne'

theorem isAttestationName_name (e : Entry) (n : ℕ) : isAttestationName (e.name n) = true := by
  have hlist : (e.name n).toList = "verify_".toList ++ ((e.now.stamp ++ '_' :: (e.result.toList ++
      (counter n).toList)) ++ ".json".toList) := by
    rw [Entry.name, toList_nameOf]
    simp
  have hdrop : (e.name n).toList.drop 7 = (e.now.stamp ++ '_' :: (e.result.toList ++
      (counter n).toList)) ++ ".json".toList := by
    rw [hlist]
    exact List.drop_left' rfl
  rw [isAttestationName, Bool.and_eq_true, hdrop, hlist]
  exact ⟨List.isPrefixOf_iff_prefix.mpr (List.prefix_append _ _),
    List.isSuffixOf_iff_suffix.mpr (List.suffix_append _ _)⟩

theorem isSafeRelativeFilename_name (e : Entry) : isSafeRelativeFilename (e.name 1) = true := by
  have hlist : (e.name 1).toList = 'v' :: ("erify_".toList ++ (e.now.stamp ++ '_' ::
      (e.result.toList ++ ".json".toList))) := by
    rw [Entry.name, toList_nameOf]
    rfl
  have hresult : ∀ c ∈ e.result.toList, c.isAlphanum = true := by
    rcases e.result_cases with he | he
    · rw [he]
      exact List.all_eq_true.mp (by decide +kernel)
    · rw [he]
      exact List.all_eq_true.mp (by decide +kernel)
  have hchars : ∀ c ∈ (e.name 1).toList, c ∉ ['/', '\\', '\x00'] := by
    intro c hc
    have hnot : c.isAlphanum = true ∨ c = '_' ∨ c = '.' := by
      have hliteral : ∀ c ∈ 'v' :: "erify_".toList ++ ".json".toList,
          c.isAlphanum = true ∨ c = '_' ∨ c = '.' := by
        have hall : ('v' :: "erify_".toList ++ ".json".toList).all
            (fun c => c.isAlphanum || c == '_' || c == '.') = true := by
          decide +kernel
        intro c hc
        have hc := List.all_eq_true.mp hall c hc
        simpa only [Bool.or_eq_true, beq_iff_eq, or_assoc] using hc
      rw [hlist, List.mem_cons, List.mem_append, List.mem_append, List.mem_cons,
        List.mem_append] at hc
      rcases hc with rfl | hc | hc | rfl | hc | hc
      · exact .inl (by decide)
      · exact hliteral c (List.mem_append_left _ (List.mem_cons_of_mem _ hc))
      · exact .inl (e.now.stamp_chars c hc)
      · exact .inr (.inl rfl)
      · exact .inl (hresult c hc)
      · exact hliteral c (List.mem_append_right _ hc)
    have hbad : ∀ c ∈ ['/', '\\', '\x00'], ¬(c.isAlphanum = true ∨ c = '_' ∨ c = '.') := by
      rw [List.forall_mem_cons, List.forall_mem_cons, List.forall_mem_singleton]
      decide
    exact fun hmem => hbad c hmem hnot
  have hnames : e.name 1 ∉ ["", ".", ".."] := by
    have hheads : ∀ name ∈ ["", ".", ".."], name.toList.head? ≠ some 'v' := by decide +kernel
    intro hmem
    exact hheads _ hmem (by rw [hlist]; rfl)
  have hhead : (e.name 1).toList.head? ≠ some '.' := by
    rw [hlist]
    simp
  simp only [isSafeRelativeFilename, Bool.and_eq_true, decide_eq_true_eq, bne_iff_ne,
    List.all_eq_true]
  exact ⟨⟨hnames, hchars⟩, hhead⟩

/-! ## One write -/

def slotCount (w : List Entry) (e : Entry) : ℕ := w.countP e.sameName

/-- The files after the entries were written, the latest one first. -/
def filesOf (base : Directory) : List Entry → Directory
  | [] => base
  | e :: older =>
    filesOf base older ++ [(e.name (slotCount older e + 1), e.attestation.toJson)]

/-- What is in the directory and no attestation. -/
def NoAttestations (base : Directory) : Prop := ∀ file ∈ base, isAttestationName file.1 = false

theorem slotCount_cons (f e : Entry) (w : List Entry) :
    slotCount (f :: w) e = slotCount w e + if e.sameName f = true then 1 else 0 :=
  List.countP_cons

theorem slotCount_congr (h : e.sameName f = true) : slotCount w e = slotCount w f := by
  obtain ⟨hnumber, hresult⟩ := sameName_iff.mp h
  have hsame : e.sameName = f.sameName := by
    funext g
    rw [Entry.sameName, hnumber, hresult]
    rfl
  rw [slotCount, hsame]
  rfl

theorem mem_filesOf {file : String × Object} (h : file ∈ filesOf base w) :
    file ∈ base ∨ ∃ f ∈ w, ∃ k, 1 ≤ k ∧ k ≤ slotCount w f ∧ file.1 = f.name k := by
  induction w with
  | nil => exact .inl h
  | cons e w ih =>
    rcases List.mem_append.mp h with h | h
    · rcases ih h with h | ⟨f, hf, k, hk, hcount, hname⟩
      · exact .inl h
      · refine .inr ⟨f, List.mem_cons_of_mem _ hf, k, hk, ?_, hname⟩
        rw [slotCount_cons]
        omega
    · obtain rfl := List.mem_singleton.mp h
      refine .inr ⟨e, List.mem_cons_self, slotCount w e + 1, by omega, ?_, rfl⟩
      rw [slotCount_cons, if_pos (sameName_iff.mpr ⟨rfl, rfl⟩)]

/-- The names in use are the first ones of each second and result. -/
theorem mem_names_iff (hbase : NoAttestations base) (hw : ∀ f, slotCount w f ≤ 10) (hk : 1 ≤ k)
    (hk' : k ≤ 10) : e.name k ∈ (filesOf base w).names ↔ k ≤ slotCount w e := by
  induction w with
  | nil =>
    refine iff_of_false (fun h => ?_) (by simp only [slotCount, List.countP_nil]; omega)
    obtain ⟨file, hfile, hname⟩ := List.mem_map.mp h
    have hother := hbase file hfile
    rw [hname, isAttestationName_name] at hother
    cases hother
  | cons f w ih =>
    have hcounts (f' : Entry) : slotCount w f' ≤ 10 := by
      have h := hw f'
      rw [slotCount_cons] at h
      omega
    have hlast := hw f
    rw [slotCount_cons, if_pos (sameName_iff.mpr ⟨rfl, rfl⟩)] at hlast
    have hnames : (filesOf base (f :: w)).names =
        (filesOf base w).names ++ [f.name (slotCount w f + 1)] :=
      List.map_append
    rw [hnames, List.mem_append, List.mem_singleton, ih hcounts, slotCount_cons]
    by_cases hsame : e.sameName f = true
    · rw [if_pos hsame, name_congr hsame, slotCount_congr hsame]
      constructor
      · rintro (h | h)
        · omega
        · have heq := name_injective hk hk' (by omega) hlast h
          omega
      · intro h
        rcases h.lt_or_eq with hlt | rfl
        · exact .inl (by omega)
        · exact .inr rfl
    · rw [if_neg hsame]
      exact or_iff_left (name_ne (Bool.eq_false_iff.mpr hsame))

/-- The next name is the first free one. -/
theorem writeAttestation_filesOf (hbase : NoAttestations base) (hw : ∀ f, slotCount w f ≤ 9) :
    writeAttestation (filesOf base w) e.attestation =
      .ok (e.name (slotCount w e + 1), filesOf base (e :: w)) := by
  have hcount := hw e
  have hmem (k : ℕ) (hk : 1 ≤ k) (hk' : k ≤ 10) :
      e.name k ∈ (filesOf base w).names ↔ k ≤ slotCount w e :=
    mem_names_iff hbase (fun f => (hw f).trans (by omega)) hk hk'
  unfold writeAttestation
  simp only [e.name_eq]
  rw [require_true (isSafeRelativeFilename_name e), ok_bind]
  by_cases hfirst : e.name 1 ∈ (filesOf base w).names
  · have hpos := (hmem 1 le_rfl (by omega)).mp hfirst
    have hfind : (List.range' 2 9999).find? (e.name · ∉ (filesOf base w).names) =
        some (slotCount w e + 1) := by
      rw [List.find?_range'_eq_some]
      refine ⟨?_, List.mem_range'_1.mpr (by omega), fun k hk hk' => ?_⟩
      · rw [decide_eq_true_eq, hmem _ (by omega) (by omega)]
        omega
      · rw [Bool.not_eq_true', decide_eq_false_iff_not, not_not, hmem k (by omega) (by omega)]
        omega
    rw [if_pos hfirst, hfind]
    rfl
  · have hzero : slotCount w e = 0 := by
      rw [hmem 1 le_rfl (by omega)] at hfirst
      omega
    rw [if_neg hfirst, hzero]
    simp only [filesOf, hzero]

/-- What the next attestation has to satisfy to be the latest one. -/
def IsNext (w : List Entry) (e : Entry) : Prop :=
  slotCount w e ≤ 8 ∧
    ∀ f ∈ w, f.now.number = e.now.number → f.result = "passed" → e.result = "passed"

theorem le_slotCount (h : f ∈ w) : 1 ≤ slotCount w f :=
  List.countP_pos_iff.mpr ⟨f, h, sameName_iff.mpr ⟨rfl, rfl⟩⟩

theorem name_mem {f : Entry} (hbase : NoAttestations base) (hw : ∀ f, slotCount w f ≤ 9)
    (hk : 1 ≤ k) (h : k ≤ slotCount w f) : f.name k ∈ (filesOf base w).names := by
  have hbound := hw f
  exact (mem_names_iff hbase (fun f => (hw f).trans (by omega)) hk (by omega)).mpr h

/-- A written attestation is the latest one if and only if nothing of its second sorts after it. -/
theorem latestFile_filesOf (hbase : NoAttestations base) (hw : ∀ f, slotCount w f ≤ 9)
    (hclock : ∀ f ∈ w, f.now.number ≤ e.now.number) :
    latestFile (filesOf base (e :: w)) =
      some (e.name (slotCount w e + 1), e.attestation.toJson) ↔ IsNext w e := by
  have hbound := hw e
  constructor
  · intro h
    have habove : ∀ f : Entry, ∀ k, f.name k ∈ (filesOf base w).names →
        f.name k ≤ e.name (slotCount w e + 1) := by
      intro f k hname
      obtain ⟨file, hfile, hfileName⟩ := List.mem_map.mp hname
      have hle := (latestFile_spec h).2 file (List.mem_append_left _ hfile)
        (by rw [hfileName]; exact isAttestationName_name f k)
      rwa [hfileName] at hle
    constructor
    · by_contra hnine
      have heq : slotCount w e = 9 := by omega
      have hle := habove e 2 (name_mem hbase hw (by omega) (by omega))
      rw [heq] at hle
      exact absurd nameOf_ten_lt (not_lt.mpr hle)
    · intro f hf hnumber hpassed
      rcases e.result_cases with he | he
      · exact he
      · have hle := habove f 1 (name_mem hbase hw le_rfl (le_slotCount hf))
        exact absurd (name_lt_of_result hnumber.symm he hpassed) (not_lt.mpr hle)
  · rintro ⟨hfew, hpassed⟩
    apply latestFile_eq
    · exact List.mem_append_right _ (List.mem_singleton_self _)
    · exact isAttestationName_name e _
    · intro other hother hname
      rcases List.mem_append.mp hother with hother | hother
      · rcases mem_filesOf hother with hother | ⟨f, hf, k, hk, hcount, hother⟩
        · rw [hbase other hother] at hname
          cases hname
        · right
          rw [hother]
          rcases (hclock f hf).lt_or_eq with hlt | heq
          · exact name_lt_of_number hlt
          · by_cases hsame : e.sameName f = true
            · rw [← name_congr hsame]
              rw [← slotCount_congr hsame] at hcount
              exact nameOf_lt hk (by omega) (by omega)
            · have hresult : f.result ≠ e.result :=
                fun hresult => hsame (sameName_iff.mpr ⟨heq.symm, hresult.symm⟩)
              rcases f.result_cases with hf' | hf'
              · exact absurd (hf'.trans (hpassed f hf heq hf').symm) hresult
              · rcases e.result_cases with he | he
                · exact name_lt_of_result heq hf' he
                · exact absurd (hf'.trans he.symm) hresult
      · exact .inl (List.mem_singleton.mp hother)

/-! ## Runs -/

theorem InOrder.of_append (h : InOrder (w ++ rest)) : InOrder w := by
  refine ⟨(List.pairwise_append.mp h.failedFirst).1, fun e => ?_⟩
  have hfew := h.few e
  rw [List.countP_append] at hfew
  omega

theorem inOrder_append_iff (h : InOrder w.reverse) :
    InOrder (w.reverse ++ [e]) ↔ IsNext w e := by
  have hcount (f : Entry) : (w.reverse ++ [e]).countP f.sameName =
      slotCount w f + if f.sameName e = true then 1 else 0 := by
    rw [List.countP_append, List.countP_reverse, List.countP_singleton]
    rfl
  constructor
  · intro hnext
    constructor
    · have hfew := hnext.few e
      rw [hcount, if_pos (sameName_iff.mpr ⟨rfl, rfl⟩)] at hfew
      omega
    · intro f hf
      exact (List.pairwise_append.mp hnext.failedFirst).2.2 f (List.mem_reverse.mpr hf) e (by simp)
  · rintro ⟨hfew, hpassed⟩
    constructor
    · refine List.pairwise_append.mpr ⟨h.failedFirst, List.pairwise_singleton _ _, ?_⟩
      intro f hf e' he'
      obtain rfl := List.mem_singleton.mp he'
      exact hpassed f (List.mem_reverse.mp hf)
    · intro f
      rw [hcount]
      have hf : slotCount w f ≤ 9 := by
        have hfew := h.few f
        rwa [List.countP_reverse] at hfew
      by_cases hsame : f.sameName e = true
      · rw [if_pos hsame, slotCount_congr hsame]
        omega
      · rw [if_neg hsame]
        omega

/-- Induction on the rest of the run: the files so far are those of an ordered sequence. -/
theorem allLatest_filesOf (hbase : NoAttestations base) (hw : InOrder w.reverse)
    (hclock : (w.reverse ++ rest).Pairwise fun e f => e.now.number ≤ f.now.number) :
    AllLatest lib (filesOf base w) (rest.map (·.attestation)) ↔
      (∀ e ∈ rest, IsReadable lib e.attestation) ∧ InOrder (w.reverse ++ rest) := by
  induction rest generalizing w with
  | nil =>
    rw [List.append_nil]
    exact iff_of_true trivial ⟨fun _ he => absurd he List.not_mem_nil, hw⟩
  | cons e rest ih =>
    have hfew (f : Entry) : slotCount w f ≤ 9 := by
      have hfew := hw.few f
      rwa [List.countP_reverse] at hfew
    have hbound := hfew e
    have hfresh : e.name (slotCount w e + 1) ∉ (filesOf base w).names := by
      rw [mem_names_iff hbase (fun f => (hfew f).trans (by omega)) (by omega) (by omega)]
      omega
    have hearlier : ∀ f ∈ w, f.now.number ≤ e.now.number := fun f hf =>
      (List.pairwise_append.mp hclock).2.2 f (List.mem_reverse.mpr hf) e List.mem_cons_self
    have happend : w.reverse ++ e :: rest = (e :: w).reverse ++ rest := by simp
    have hstep : AllLatest lib (filesOf base w) ((e :: rest).map (·.attestation)) ↔
        IsReadable lib e.attestation ∧ IsNext w e ∧
          AllLatest lib (filesOf base (e :: w)) (rest.map (·.attestation)) := by
      rw [List.map_cons, AllLatest, writeAttestation_filesOf hbase hfew]
      dsimp only
      rw [latestFile_filesOf hbase hfew hearlier, e.built.readsBack_iff]
      exact and_iff_right ⟨hfresh, rfl⟩
    rw [hstep, List.forall_mem_cons, happend]
    rw [happend] at hclock
    by_cases hnext : IsNext w e
    · have hw' : InOrder (e :: w).reverse := by
        rw [List.reverse_cons]
        exact (inOrder_append_iff hw).mpr hnext
      rw [ih hw' hclock, and_iff_right hnext, and_assoc]
    · refine iff_of_false (fun h => hnext h.2.1) fun h => hnext ?_
      have hprefix := h.2.of_append
      rw [List.reverse_cons] at hprefix
      exact (inOrder_append_iff hw).mp hprefix

/-- Every attestation is read back and is the latest one when it was written, if and only if all of
them are readable and those of a second come in the order of their names. -/
theorem allLatest_iff (hbase : NoAttestations base)
    (hclock : written.Pairwise fun e f => e.now.number ≤ f.now.number) :
    AllLatest lib base (written.map (·.attestation)) ↔
      (∀ e ∈ written, IsReadable lib e.attestation) ∧ InOrder written :=
  allLatest_filesOf (w := []) hbase ⟨List.Pairwise.nil, fun _ => by simp⟩ hclock

/-! ## Two attestations in one second -/

def sampleLibrary : Library := ⟨⟨fun _ => none, fun _ => false⟩, fun _ => ""⟩

def sampleMoment : Moment :=
  ⟨2025, 11, 19, 12, 30, 59, by decide, by decide, by decide, by decide, by decide, by decide⟩

def sampleArguments (result : String) : Arguments where
  backupId := "20251119T120000Z_1"
  backupSha256 := String.ofList (List.replicate 64 'a')
  postgresVersion := "16.4"
  pgRestoreVersion := "16.4"
  temporaryDatabase := some "fetchnow_verify_1"
  restoreDurationSeconds := none
  semanticChecks := []
  cleanupOk := true
  droppedDatabase := some "fetchnow_verify_1"
  result
  failureReason := none
  toolVersion := "1"

def samplePassed : Entry where
  attestation := .v1 ((sampleArguments "passed").attestation sampleMoment)
  now := sampleMoment
  built := @Built.v1 _ (sampleArguments "passed") _ rfl

def sampleFailed : Entry where
  attestation := .v1 ((sampleArguments "failed").attestation sampleMoment)
  now := sampleMoment
  built := @Built.v1 _ (sampleArguments "failed") _ rfl

/-- A failure and then a success, within a second and beside another file. -/
theorem failed_then_passed : AllLatest sampleLibrary [("README.txt", [])]
    [sampleFailed.attestation, samplePassed.attestation] := by
  have hreadable : ∀ e ∈ [sampleFailed, samplePassed],
      IsReadable sampleLibrary e.attestation := by
    have hsha : IsSha256 sampleLibrary (String.ofList (List.replicate 64 'a')) := by
      decide +kernel
    intro e he
    rcases List.mem_cons.mp he with rfl | he
    · exact ⟨hsha, nofun⟩
    · obtain rfl := List.mem_singleton.mp he
      exact ⟨hsha, nofun⟩
  have hfew (e : Entry) : [sampleFailed, samplePassed].countP e.sameName ≤ 9 :=
    List.countP_le_length.trans (by decide)
  have hbase : NoAttestations [("README.txt", [])] := by
    intro file hfile
    obtain rfl := List.mem_singleton.mp hfile
    decide
  have hclock : [sampleFailed, samplePassed].Pairwise fun e f => e.now.number ≤ f.now.number :=
    List.pairwise_pair.mpr le_rfl
  exact (allLatest_iff hbase hclock).mpr ⟨hreadable, List.pairwise_pair.mpr fun _ _ => rfl, hfew⟩

/-- After a success, a failure of the same second does not become the latest attestation. -/
theorem passed_then_failed : ¬AllLatest sampleLibrary []
    [samplePassed.attestation, sampleFailed.attestation] := by
  intro h
  have hclock : [samplePassed, sampleFailed].Pairwise fun e f => e.now.number ≤ f.now.number :=
    List.pairwise_pair.mpr le_rfl
  have hbase : NoAttestations [] := fun _ hfile => absurd hfile List.not_mem_nil
  have hall := (@allLatest_filesOf sampleLibrary [] [] [samplePassed, sampleFailed] hbase
    ⟨List.Pairwise.nil, fun _ => by simp⟩ hclock).mp h
  have hpassed := List.rel_of_pairwise_cons hall.2.failedFirst (List.mem_singleton_self _) rfl rfl
  exact absurd hpassed (by decide)

end FetchNow.Attestation
