import FetchNow.Release.EnvFile
import FetchNow.Theory.Segments
import Mathlib.Data.List.Flatten
import Mathlib.Data.List.Perm.Basic
import Mathlib.Data.List.Pairwise
import Mathlib.Data.List.Perm.Lattice
import Mathlib.Data.Option.Basic

/-!
# The env file of a rollback, read back

The reader sees a text as the items of its lines, in any order as long as no key repeats. A rollback
takes away the lines that begin with its keys and adds one line for each of them.
-/
namespace FetchNow.EnvFile

open Audit (splitlines splitlinesFrom isLineBreak)

variable {β : Type} {key value line text raw file s : List Char} {values previous : Values}
  {lines : List (List Char)} {item : List Char × List Char}

/-! ## Items -/

/-- A line that says something, or that is refused. -/
def itemOf (raw : List Char) : Option (Option (List Char × List Char)) :=
  match readLine 0 raw with
  | .error _ => some none
  | .ok none => none
  | .ok (some item) => some (some item)

def items (lines : List (List Char)) : List (Option (List Char × List Char)) :=
  lines.filterMap itemOf

theorem readLine_cases (lineno : ℕ) (raw : List Char) :
    (readLine lineno raw = .ok none ∧ itemOf raw = none) ∨
    (∃ item, readLine lineno raw = .ok (some item) ∧ itemOf raw = some (some item)) ∨
    ((∃ e, readLine lineno raw = .error e) ∧ itemOf raw = some none) := by
  unfold itemOf readLine
  dsimp only
  by_cases hblank : strip raw = [] ∨ (strip raw).head? = some '#'
  · rw [if_pos hblank, if_pos hblank]
    exact .inl ⟨rfl, rfl⟩
  · rw [if_neg hblank, if_neg hblank]
    by_cases heq : '=' ∉ strip raw
    · rw [if_pos heq, if_pos heq]
      exact .inr (.inr ⟨⟨_, rfl⟩, rfl⟩)
    · rw [if_neg heq, if_neg heq]
      by_cases hkey : isKey (strip ((strip raw).takeWhile (· ≠ '='))) = true
      · rw [if_pos hkey, if_pos hkey]
        exact .inr (.inl ⟨_, rfl, rfl⟩)
      · rw [if_neg hkey, if_neg hkey]
        exact .inr (.inr ⟨⟨_, rfl⟩, rfl⟩)

/-- Lines are read if none is refused and no key repeats. -/
theorem readLines_iff {lineno : ℕ} {result : Values} (hvalues : values.keys.Nodup) :
    readLines lineno values lines = .ok result ↔
      ∃ entries : Values, items lines = entries.map some ∧ result = values ++ entries ∧
        result.keys.Nodup := by
  induction lines generalizing lineno values with
  | nil =>
    constructor
    · rintro ⟨⟩
      exact ⟨[], rfl, by simp, hvalues⟩
    · rintro ⟨entries, hentries, rfl, -⟩
      obtain rfl : entries = [] := List.map_eq_nil_iff.mp hentries.symm
      rw [List.append_nil]
      rfl
  | cons raw lines ih =>
    rw [readLines]
    rcases readLine_cases lineno raw with ⟨hread, hitem⟩ | ⟨item, hread, hitem⟩ | ⟨⟨e, hread⟩, hitem⟩
    · rw [hread, items, List.filterMap_cons_none hitem]
      exact ih hvalues
    · rw [hread, items, List.filterMap_cons_some hitem]
      dsimp only
      by_cases hmem : item.1 ∈ values.keys
      · rw [if_pos hmem]
        refine ⟨nofun, ?_⟩
        rintro ⟨entries, hentries, rfl, hnodup⟩
        cases entries with
        | nil => cases hentries
        | cons entry entries =>
          obtain rfl : item = entry := by simpa using (List.cons.inj hentries).1
          rw [Values.keys, List.map_append, List.nodup_append] at hnodup
          exact absurd rfl (hnodup.2.2 _ hmem item.1 (by simp))
      · rw [if_neg hmem]
        have hsnoc : (values ++ [item] : Values).keys.Nodup := by
          rw [Values.keys, List.map_append, List.nodup_append]
          refine ⟨hvalues, List.nodup_singleton _, ?_⟩
          rintro k hk k' hk' rfl
          obtain rfl : k = item.1 := by simpa using hk'
          exact hmem hk
        rw [ih hsnoc]
        constructor
        · rintro ⟨entries, hentries, rfl, hnodup⟩
          refine ⟨item :: entries, ?_, by simp, hnodup⟩
          rw [List.map_cons, ← hentries]
          rfl
        · rintro ⟨entries, hentries, rfl, hnodup⟩
          cases entries with
          | nil => cases hentries
          | cons entry entries =>
            have hentry : some item = some entry := (List.cons.inj hentries).1
            have htail : items lines = entries.map some := (List.cons.inj hentries).2
            obtain rfl : item = entry := Option.some.inj hentry
            exact ⟨entries, htail, by simp, hnodup⟩
    · rw [hread, items, List.filterMap_cons_some hitem]
      refine ⟨nofun, ?_⟩
      rintro ⟨entries, hentries, -⟩
      cases entries <;> cases hentries

theorem itemOf_nil : itemOf [] = none := rfl

/-! ## Lines of a text -/

/-- The items of what stands between two line feeds. -/
def lineItems (line : List Char) : List (Option (List Char × List Char)) :=
  items (line.splitOnP isLineBreak)

def textItems (text : List Char) : List (Option (List Char × List Char)) :=
  (text.splitOn '\n').flatMap lineItems

theorem splitOnP_intercalate {p : Char → Bool} (hp : p '\n' = true) (hlines : lines ≠ []) :
    (['\n'].intercalate lines).splitOnP p = lines.flatMap (List.splitOnP p) := by
  induction lines with
  | nil => exact absurd rfl hlines
  | cons line lines ih =>
    cases lines with
    | nil => simp [List.intercalate]
    | cons next lines =>
      have hcons : ['\n'].intercalate (line :: next :: lines) =
          line ++ '\n' :: ['\n'].intercalate (next :: lines) := by
        simp [List.intercalate]
      rw [hcons, List.splitOnP_append_cons _ _ hp, ih (by simp), List.flatMap_cons, List.flatMap_cons,
        List.flatMap_cons]

theorem textItems_eq : textItems text = items (text.splitOnP isLineBreak) := by
  have hsplit : ['\n'].intercalate (text.splitOn '\n') = text := List.intercalate_splitOn '\n'
  have hflat := splitOnP_intercalate (p := isLineBreak) (by decide)
    (List.splitOn_ne_nil '\n' text)
  rw [hsplit] at hflat
  rw [hflat, textItems, items, List.filterMap_flatMap]
  rfl

theorem universalNewlines_cons {c : Char} (hc : c ≠ '\r') :
    universalNewlines (c :: s) = c :: universalNewlines s := by
  rw [universalNewlines.eq_def]
  split
  · rename_i h
    cases h
  · rename_i h
    injection h with h
    exact absurd h hc
  · rename_i h
    injection h with h
    exact absurd h hc
  · rename_i h
    injection h with h1 h2
    rw [h1, h2]

theorem splitlinesFrom_cons {c : Char} (hc : c ≠ '\r') : splitlinesFrom line (c :: s) =
    if isLineBreak c then line.reverse :: splitlinesFrom [] s else splitlinesFrom (c :: line) s := by
  rw [splitlinesFrom]
  rintro rest rfl
  exact absurd rfl hc

theorem modifyHead_nil (l : List (List Char)) : l.modifyHead ([].reverse ++ ·) = l := by
  cases l <;> rfl

/-- The ends of lines make no difference to the items. -/
theorem items_splitlines (s line : List Char) :
    items (splitlinesFrom line (universalNewlines s)) =
      items ((s.splitOnP isLineBreak).modifyHead (line.reverse ++ ·)) := by
  have hbreak : isLineBreak '\n' = true := by decide
  have hreturn : isLineBreak '\r' = true := by decide
  induction s using universalNewlines.induct generalizing line with
  | case1 =>
    by_cases hline : line = []
    · simp [universalNewlines, splitlinesFrom, hline, items, itemOf_nil]
    · simp [universalNewlines, splitlinesFrom, hline]
  | case2 rest ih =>
    rw [universalNewlines, splitlinesFrom_cons (by decide), if_pos hbreak, items,
      List.splitOnP_cons_eq_if_modifyHead, if_pos hreturn, List.splitOnP_cons_eq_if_modifyHead,
      if_pos hbreak]
    have hrest := ih []
    rw [modifyHead_nil] at hrest
    rw [items] at hrest
    simp [List.filterMap_cons, hrest, items, itemOf_nil]
  | case3 rest hne ih =>
    rw [universalNewlines.eq_3 _ hne, splitlinesFrom_cons (by decide), if_pos hbreak, items,
      List.splitOnP_cons_eq_if_modifyHead, if_pos hreturn]
    have hrest := ih []
    rw [modifyHead_nil] at hrest
    rw [items] at hrest
    simp [List.filterMap_cons, hrest, items]
  | case4 c rest hne hc ih =>
    have hc' : c ≠ '\r' := fun h => hc h
    rw [universalNewlines_cons hc', splitlinesFrom_cons hc', List.splitOnP_cons_eq_if_modifyHead]
    by_cases hlb : isLineBreak c = true
    · rw [if_pos hlb, if_pos hlb, items]
      have hrest := ih []
      rw [modifyHead_nil] at hrest
      rw [items] at hrest
      simp [List.filterMap_cons, hrest, items]
    · rw [if_neg hlb, if_neg hlb, ih (c :: line)]
      obtain ⟨first, more, hsplit⟩ := List.exists_cons_of_ne_nil (List.splitOnP_ne_nil isLineBreak rest)
      simp [hsplit]

theorem not_mem_universalNewlines (s : List Char) : '\r' ∉ universalNewlines s := by
  induction s using universalNewlines.induct with
  | case1 => simp [universalNewlines]
  | case2 rest ih => simp [universalNewlines, ih]
  | case3 rest hne ih => simp [universalNewlines.eq_3 _ hne, ih]
  | case4 c rest hne hc ih =>
    have hc' : c ≠ '\r' := fun h => hc h
    simp [universalNewlines_cons hc', ih, Ne.symm hc']

theorem universalNewlines_eq_self (h : '\r' ∉ s) : universalNewlines s = s := by
  induction s with
  | nil => rfl
  | cons c s ih =>
    rw [List.mem_cons, not_or] at h
    rw [universalNewlines_cons (Ne.symm h.1), ih h.2]

/-- A file is read if none of its items is refused and no key repeats. -/
theorem loadEnvFile_iff {result : Values} : loadEnvFile file = .ok result ↔
    textItems file = result.map some ∧ result.keys.Nodup := by
  have hitems : items (splitlines (universalNewlines file)) = textItems file := by
    rw [textItems_eq]
    have hsplit := items_splitlines file []
    rwa [modifyHead_nil] at hsplit
  have hread := @readLines_iff [] (splitlines (universalNewlines file)) 1 result List.nodup_nil
  rw [hitems] at hread
  rw [loadEnvFile, hread]
  constructor
  · rintro ⟨entries, hentries, rfl, hnodup⟩
    exact ⟨hentries, hnodup⟩
  · rintro ⟨hentries, hnodup⟩
    exact ⟨result, hentries, rfl, hnodup⟩

theorem textItems_universalNewlines : textItems (universalNewlines file) = textItems file := by
  rw [textItems_eq, textItems_eq]
  have htranslated := items_splitlines (universalNewlines file) []
  have hfile := items_splitlines file []
  rw [modifyHead_nil] at htranslated hfile
  rw [universalNewlines_eq_self (not_mem_universalNewlines file)] at htranslated
  rw [← htranslated, hfile]

/-! ## Setting a key -/

theorem subFirst_eq (h : lines.filter (begins key) ≠ []) :
    ∃ pre line post, lines = pre ++ line :: post ∧ begins key line = true ∧
      (∀ l ∈ pre, begins key l = false) ∧
      subFirst key value lines = pre ++ assignment key value :: post := by
  induction lines with
  | nil => exact absurd rfl h
  | cons l lines ih =>
    by_cases hl : begins key l = true
    · exact ⟨[], l, lines, rfl, hl, by simp, by simp [subFirst, hl]⟩
    · rw [List.filter_cons_of_neg hl] at h
      obtain ⟨pre, line, post, rfl, hline, hpre, hsub⟩ := ih h
      refine ⟨l :: pre, line, post, rfl, hline, ?_, by simp [subFirst, hl, hsub]⟩
      intro l' hl'
      rcases List.mem_cons.mp hl' with rfl | hl'
      · exact Bool.eq_false_iff.mpr hl
      · exact hpre l' hl'

theorem flatMap_splitOn (h : ∀ l ∈ lines, '\n' ∉ l) :
    lines.flatMap (List.splitOn '\n') = lines := by
  induction lines with
  | nil => rfl
  | cons l lines ih =>
    rw [List.flatMap_cons, List.splitOn_eq_singleton (h l List.mem_cons_self),
      ih fun l' hl' => h l' (List.mem_cons_of_mem _ hl'), List.singleton_append]

theorem splitOn_snoc : (s ++ ['\n']).splitOn '\n' = s.splitOn '\n' ++ [[]] := by
  rw [List.splitOn_append_cons_self, List.splitOn_nil]

/-- Up to their order, the lines are those that did not begin with the key, and what was set. -/
theorem setKey_spec (key value text : List Char)
    (hone : ((text.splitOn '\n').filter (begins key)).length ≤ 1) :
    ∃ text', setKey text key value = .ok text' ∧ ∀ {β : Type} (f : List Char → List β), f [] = [] →
      ((text'.splitOn '\n').flatMap f).Perm
        (((text.splitOn '\n').filter fun l => !begins key l).flatMap f ++
          ((assignment key value).splitOn '\n').flatMap f) := by
  unfold setKey
  dsimp only
  rw [if_neg (not_lt.mpr hone)]
  by_cases hfound : (text.splitOn '\n').filter (begins key) ≠ []
  · rw [if_pos hfound]
    refine ⟨_, rfl, fun f _ => ?_⟩
    obtain ⟨pre, line, post, hlines, hline, hpre, hsub⟩ := @subFirst_eq key value _ hfound
    have hpost : ∀ l ∈ post, begins key l = false := by
      rw [hlines, List.filter_append, List.filter_cons_of_pos hline, List.length_append,
        List.length_cons] at hone
      have hnone : (post.filter (begins key)).length = 0 := by omega
      intro l hl
      exact Bool.eq_false_iff.mpr fun h =>
        List.filter_eq_nil_iff.mp (List.length_eq_zero_iff.mp hnone) l hl h
    have hfeed : ∀ l ∈ pre ++ line :: post, '\n' ∉ l := by
      intro l hl
      rw [← hlines] at hl
      exact Segments.not_mem_of_mem_splitOn hl
    have hsplit : (['\n'].intercalate (pre ++ assignment key value :: post)).splitOn '\n' =
        pre ++ ((assignment key value).splitOn '\n' ++ post) := by
      have hnonempty : pre ++ assignment key value :: post ≠ [] := by simp
      have hflat := splitOnP_intercalate (p := (· == '\n')) rfl hnonempty
      rw [List.flatMap_append, List.flatMap_cons] at hflat
      have hpre' : pre.flatMap (List.splitOnP (· == '\n')) = pre :=
        flatMap_splitOn fun l hl => hfeed l (List.mem_append_left _ hl)
      have hpost' : post.flatMap (List.splitOnP (· == '\n')) = post :=
        flatMap_splitOn fun l hl => hfeed l (List.mem_append_right _ (List.mem_cons_of_mem _ hl))
      rw [hpre', hpost'] at hflat
      exact hflat
    have hkept : (pre ++ line :: post).filter (fun l => !begins key l) = pre ++ post := by
      rw [List.filter_append, List.filter_cons_of_neg (by simp [hline]),
        List.filter_eq_self.mpr fun l hl => by simp [hpre l hl],
        List.filter_eq_self.mpr fun l hl => by simp [hpost l hl]]
    rw [hsub, hsplit, hlines, hkept]
    simp only [List.flatMap_append, List.append_assoc]
    exact List.perm_append_comm.append_left _
  · rw [if_neg hfound]
    have hkept : (text.splitOn '\n').filter (fun l => !begins key l) = text.splitOn '\n' := by
      refine List.filter_eq_self.mpr fun l hl => ?_
      have hnone := List.filter_eq_nil_iff.mp (not_not.mp hfound) l hl
      simpa using hnone
    refine ⟨_, rfl, fun f hf => ?_⟩
    rw [hkept]
    have hlast : (((assignment key value) ++ ['\n']).splitOn '\n').flatMap f =
        ((assignment key value).splitOn '\n').flatMap f := by
      simp [splitOn_snoc, hf]
    by_cases hempty : text = []
    · simp [hempty, hf, hlast]
    · by_cases hend : text.getLast? = some '\n'
      · obtain ⟨t, rfl⟩ := List.getLast?_eq_some_iff.mp hend
        have hwritten : (t ++ ['\n'] ++ (assignment key value ++ ['\n'])).splitOn '\n' =
            t.splitOn '\n' ++ (assignment key value ++ ['\n']).splitOn '\n' := by
          rw [List.append_assoc, List.singleton_append, List.splitOn_append_cons_self]
        have htext : (t ++ ['\n']).splitOn '\n' = t.splitOn '\n' ++ [[]] := splitOn_snoc
        rw [if_neg (by simp [hend]), hwritten, htext, List.flatMap_append, hlast,
          List.flatMap_append]
        simp [hf]
      · rw [if_pos ⟨hempty, hend⟩, List.append_assoc, List.singleton_append,
          List.splitOn_append_cons_self, List.flatMap_append, hlast]

/-! ## Keys and the lines that begin with them -/

theorem isKeyChar_facts {c : Char} (h : isKeyChar c = true) :
    c ≠ '=' ∧ c ≠ '#' ∧ isSpace c = false ∧ isLineBreak c = false := by
  have hrange : 48 ≤ c.toNat ∧ c.toNat ≤ 122 ∧ c.toNat ≠ 61 := by
    simp only [isKeyChar, Bool.or_eq_true, decide_eq_true_eq, isAlphanum_iff] at h
    rcases h with h | h
    · omega
    · subst h
      decide
  refine ⟨?_, ?_, ?_, ?_⟩
  · rintro rfl
    exact hrange.2.2 rfl
  · rintro rfl
    exact absurd hrange.1 (by decide)
  · simp [isSpace]
    omega
  · simp [isLineBreak]
    omega

theorem isKey_iff : isKey key = true → key ≠ [] ∧ ∀ c ∈ key, isKeyChar c = true := by
  cases key with
  | nil => simp [isKey]
  | cons c rest =>
    intro h
    rw [isKey, Bool.and_eq_true, List.all_eq_true] at h
    refine ⟨by simp, ?_⟩
    intro c' hc'
    rcases List.mem_cons.mp hc' with rfl | hc'
    · have hstart := h.1
      simp only [isKeyStart, Bool.or_eq_true] at hstart
      simp only [isKeyChar, Char.isAlphanum, Bool.or_eq_true]
      tauto
    · exact h.2 c' hc'

theorem begins_iff : begins key line = true ↔ ∃ rest, line = assignment key rest := by
  rw [begins, List.isPrefixOf_iff_prefix]
  constructor
  · rintro ⟨rest, rfl⟩
    exact ⟨rest, by simp [assignment]⟩
  · rintro ⟨rest, rfl⟩
    exact ⟨rest, by simp [assignment]⟩

/-- What stands before the first `=`. -/
theorem assignment_inj {key' : List Char} (h : assignment key value = assignment key' s)
    (hkey : '=' ∉ key) (hkey' : '=' ∉ key') : key = key' ∧ value = s := by
  induction key generalizing key' with
  | nil =>
    cases key' with
    | nil => exact ⟨rfl, (List.cons.inj h).2⟩
    | cons c key' =>
      obtain ⟨rfl, -⟩ := List.cons.inj h
      exact absurd List.mem_cons_self hkey'
  | cons c key ih =>
    cases key' with
    | nil =>
      obtain ⟨rfl, -⟩ := List.cons.inj h
      exact absurd List.mem_cons_self hkey
    | cons c' key' =>
      obtain ⟨rfl, htail⟩ := List.cons.inj h
      rw [List.mem_cons, not_or] at hkey hkey'
      obtain ⟨rfl, rfl⟩ := ih htail hkey.2 hkey'.2
      exact ⟨rfl, rfl⟩

theorem forall_splitOnP {p : Char → Bool} {P : Char → Prop} (h : ∀ c ∈ s, P c) :
    ∀ l ∈ s.splitOnP p, ∀ c ∈ l, P c := by
  induction s with
  | nil => simp
  | cons c s ih =>
    have hs := ih fun c' hc' => h c' (List.mem_cons_of_mem _ hc')
    rw [List.splitOnP_cons_eq_if_modifyHead]
    split
    · simpa using hs
    · obtain ⟨first, more, hsplit⟩ := List.exists_cons_of_ne_nil (List.splitOnP_ne_nil p s)
      rw [hsplit] at hs ⊢
      intro l hl c' hc'
      rcases List.mem_cons.mp hl with rfl | hl
      · rcases List.mem_cons.mp hc' with rfl | hc'
        · exact h _ List.mem_cons_self
        · exact hs first List.mem_cons_self c' hc'
      · exact hs l (List.mem_cons_of_mem _ hl) c' hc'

/-- The first piece ends before the first separator. -/
theorem splitOnP_eq_cons (p : Char → Bool) (s : List Char) :
    ∃ more, s.splitOnP p = (s.takeWhile fun c => !p c) :: more ∧
      ((∀ c ∈ s, p c = false) → more = []) := by
  induction s with
  | nil => exact ⟨[], by simp⟩
  | cons c s ih =>
    obtain ⟨more, hsplit, hnone⟩ := ih
    rw [List.splitOnP_cons_eq_if_modifyHead]
    by_cases hc : p c = true
    · rw [if_pos hc, hsplit]
      exact ⟨(s.takeWhile fun c => !p c) :: more, by simp [hc],
        fun h => absurd hc (by simp [h c List.mem_cons_self])⟩
    · rw [if_neg hc, hsplit]
      exact ⟨more, by simp [hc], fun h => hnone fun c' hc' => h c' (List.mem_cons_of_mem _ hc')⟩

theorem splitOnP_append {p : Char → Bool} {t : List Char} (h : ∀ c ∈ s, p c = false) :
    (s ++ t).splitOnP p = (t.splitOnP p).modifyHead (s ++ ·) := by
  induction s with
  | nil => exact (modifyHead_nil _).symm
  | cons c s ih =>
    rw [List.cons_append, List.splitOnP_cons_eq_if_modifyHead, if_neg (by simp [h c List.mem_cons_self]),
      ih fun c' hc' => h c' (List.mem_cons_of_mem _ hc')]
    cases t.splitOnP p <;> rfl

/-! ## Assignments -/

theorem takeWhile_assignment {p : Char → Bool} (hkey : ∀ c ∈ key, p c = true) (hp : p '=' = false) :
    (assignment key value).takeWhile p = key := by
  rw [assignment, List.takeWhile_append_of_pos hkey, List.takeWhile_cons_of_neg (by simp [hp]),
    List.append_nil]

theorem tail_assignment (hkey : '=' ∉ key) :
    ((assignment key value).dropWhile (· ≠ '=')).tail = value := by
  rw [assignment, List.dropWhile_append_of_pos]
  · simp
  · intro c hc
    simpa using fun h : c = '=' => hkey (h ▸ hc)

variable (hkey : isKey key = true)
include hkey

theorem isKey_not_mem : '=' ∉ key := fun h =>
  (isKeyChar_facts ((isKey_iff hkey).2 _ h)).1 rfl

theorem strip_assignment : strip (assignment key value) = assignment key (rstrip value) := by
  obtain ⟨hne, hchars⟩ := isKey_iff hkey
  obtain ⟨c, rest, rfl⟩ := List.exists_cons_of_ne_nil hne
  have hc := (isKeyChar_facts (hchars c List.mem_cons_self)).2.2.1
  have hdrop : (assignment (c :: rest) value).dropWhile isSpace = assignment (c :: rest) value :=
    List.dropWhile_cons_of_neg (by simp [hc])
  rw [strip, hdrop, assignment, rstrip_append (by decide)]
  rfl

/-- A line that begins with a key is read as that key. -/
theorem itemOf_assignment :
    itemOf (assignment key value) = some (some (key, unquote (rstrip value))) := by
  obtain ⟨hne, hchars⟩ := isKey_iff hkey
  obtain ⟨c, rest, rfl⟩ := List.exists_cons_of_ne_nil hne
  have hc := (isKeyChar_facts (hchars c List.mem_cons_self)).2.1
  have hword : (assignment (c :: rest) (rstrip value)).takeWhile (· ≠ '=') = c :: rest := by
    apply takeWhile_assignment
    · intro c' hc'
      simpa using (isKeyChar_facts (hchars c' hc')).1
    · rfl
  have hself : strip (c :: rest) = c :: rest :=
    strip_eq_self fun c' hc' => (isKeyChar_facts (hchars c' hc')).2.2.1
  unfold itemOf readLine
  dsimp only
  rw [strip_assignment hkey, hword, hself, tail_assignment (isKey_not_mem hkey),
    if_neg (by simp [assignment, hc]), if_neg (by simp [assignment]), if_pos hkey]

/-- Only the value of an assignment is split. -/
theorem splitOnP_assignment {p : Char → Bool} (hp : ∀ c, p c = true → isLineBreak c = true) :
    (assignment key value).splitOnP p = (value.splitOnP p).modifyHead (assignment key) := by
  have hsplit := @splitOnP_append (key ++ ['=']) p value ?_
  · rw [List.append_assoc, List.singleton_append] at hsplit
    rw [assignment, hsplit]
    cases value.splitOnP p with
    | nil => rfl
    | cons first more => simp [assignment]
  · intro c hc
    rw [Bool.eq_false_iff]
    intro hsep
    have hbreak := hp c hsep
    rcases List.mem_append.mp hc with hc | hc
    · rw [(isKeyChar_facts ((isKey_iff hkey).2 c hc)).2.2.2] at hbreak
      cases hbreak
    · obtain rfl := List.mem_singleton.mp hc
      revert hbreak
      decide

theorem lineItems_assignment :
    ∃ more, lineItems (assignment key value) =
      some (key, unquote (rstrip (value.takeWhile fun c => !isLineBreak c))) :: items more ∧
        ((∀ c ∈ value, isLineBreak c = false) → more = []) := by
  obtain ⟨more, hsplit, hnone⟩ := splitOnP_eq_cons isLineBreak value
  refine ⟨more, ?_, hnone⟩
  rw [lineItems, splitOnP_assignment hkey fun _ h => h, hsplit, List.modifyHead_cons, items,
    List.filterMap_cons_some (itemOf_assignment hkey)]
  rfl

/-- No line of an assignment begins with another key. -/
theorem begins_assignment {key' : List Char} (hkey' : isKey key' = true) (hne : key ≠ key')
    (hvalue : '=' ∉ value) :
    ∀ l ∈ (assignment key value).splitOn '\n', begins key' l = false := by
  have hpieces : ∀ l ∈ value.splitOnP (· == '\n'), ∀ c ∈ l, c ≠ '=' :=
    forall_splitOnP fun c hc h => hvalue (h ▸ hc)
  obtain ⟨more, hsplit, -⟩ := splitOnP_eq_cons (· == '\n') value
  intro l hl
  have hfeed : ∀ c, (c == '\n') = true → isLineBreak c = true := by
    intro c hc
    obtain rfl := beq_iff_eq.mp hc
    decide
  rw [List.splitOn_eq_splitOnP, splitOnP_assignment hkey hfeed, hsplit, List.modifyHead_cons] at hl
  rw [hsplit] at hpieces
  rw [Bool.eq_false_iff]
  intro hbegins
  obtain ⟨rest, rfl⟩ := begins_iff.mp hbegins
  rcases List.mem_cons.mp hl with heq | hl
  · exact hne (assignment_inj heq (isKey_not_mem hkey') (isKey_not_mem hkey)).1.symm
  · exact hpieces _ (List.mem_cons_of_mem _ hl) '=' (by simp [assignment]) rfl

omit hkey

/-! ## A run of the writer -/

/-- A map of values that no line of the writer confuses with another key. -/
structure Settable (previous : Values) : Prop where
  nodup : previous.keys.Nodup
  isKey : ∀ e ∈ previous, isKey e.1 = true
  value : ∀ e ∈ previous, '=' ∉ e.2

theorem Settable.tail {e : List Char × List Char} (h : Settable (e :: previous)) :
    Settable previous where
  nodup := (List.nodup_cons.mp h.nodup).2
  isKey e he := h.isKey e (List.mem_cons_of_mem _ he)
  value e he := h.value e (List.mem_cons_of_mem _ he)

/-- The line begins with one of the keys. -/
def Values.begun (previous : Values) (line : List Char) : Bool :=
  previous.any fun e => begins e.1 line

theorem flatMap_filter {α : Type} (p : α → Bool) (f : α → List β) (l : List α) :
    (l.filter p).flatMap f = l.flatMap fun a => if p a then f a else [] := by
  induction l with
  | nil => rfl
  | cons a l ih =>
    by_cases ha : p a = true
    · rw [List.filter_cons_of_pos ha, List.flatMap_cons, List.flatMap_cons, ih, if_pos ha]
    · rw [List.filter_cons_of_neg ha, List.flatMap_cons, ih, if_neg ha, List.nil_append]

/-- Setting a key takes no line away that begins with another one, and adds none. -/
theorem setKey_filter {p : List Char → Bool} {text' : List Char}
    (hset : setKey text key value = .ok text')
    (hone : ((text.splitOn '\n').filter (begins key)).length ≤ 1) (hp : p [] = false)
    (hnone : ∀ l ∈ (assignment key value).splitOn '\n', p l = false) :
    ((text'.splitOn '\n').filter p).length ≤ ((text.splitOn '\n').filter p).length := by
  obtain ⟨_, hset', hperm⟩ := setKey_spec key value text hone
  obtain rfl := Except.ok.inj (hset.symm.trans hset')
  have hlines := hperm (fun l => if p l then [l] else []) (by simp [hp])
  have hself : ∀ lines : List (List Char),
      (lines.flatMap fun l => if p l then [l] else []) = lines.filter p := by
    intro lines
    rw [← flatMap_filter p fun l => [l]]
    simp
  have hadded : ((assignment key value).splitOn '\n').filter p = [] :=
    List.filter_eq_nil_iff.mpr fun l hl => by simp [hnone l hl]
  rw [hself, hself, hself, hadded, List.append_nil, List.filter_comm] at hlines
  rw [hlines.length_eq]
  exact (List.filter_sublist).length_le

/-- Up to their order, what is written has the items of the lines that begin with no key that is
set, and those of the assignments. -/
theorem setKeys_spec (hprevious : Settable previous)
    (hone : ∀ e ∈ previous, ((text.splitOn '\n').filter (begins e.1)).length ≤ 1) :
    ∃ text', setKeys text previous = .ok text' ∧ (textItems text').Perm
      (((text.splitOn '\n').filter fun l => !Values.begun previous l).flatMap lineItems ++
        previous.flatMap fun e => lineItems (assignment e.1 e.2)) := by
  induction previous generalizing text with
  | nil =>
    refine ⟨text, rfl, ?_⟩
    simp [Values.begun, textItems]
  | cons e previous ih =>
    obtain ⟨key, value⟩ := e
    have hkey := hprevious.isKey _ List.mem_cons_self
    have hvalue := hprevious.value _ List.mem_cons_self
    have hothers : ∀ e ∈ previous, ∀ l ∈ (assignment key value).splitOn '\n',
        begins e.1 l = false := by
      intro e he
      refine begins_assignment hkey (hprevious.isKey e (List.mem_cons_of_mem _ he)) ?_ hvalue
      intro heq
      exact (List.nodup_cons.mp hprevious.nodup).1 (List.mem_map.mpr ⟨e, he, heq.symm⟩)
    have hempty : ∀ key : List Char, begins key [] = false := by simp [begins, assignment]
    obtain ⟨text₁, hset, hperm⟩ := setKey_spec key value text (hone _ List.mem_cons_self)
    have hnext : ∀ e ∈ previous, ((text₁.splitOn '\n').filter (begins e.1)).length ≤ 1 := by
      intro e he
      exact (setKey_filter hset (hone _ List.mem_cons_self) (hempty e.1) (hothers e he)).trans
        (hone e (List.mem_cons_of_mem _ he))
    obtain ⟨text', htext', hitems⟩ := ih hprevious.tail hnext
    refine ⟨text', ?_, hitems.trans ?_⟩
    · rw [setKeys, hset]
      exact htext'
    · have hlines := hperm (fun l => if !Values.begun previous l then lineItems l else [])
        (by simp [lineItems, items, itemOf_nil])
      have hkept : ((assignment key value).splitOn '\n').filter (fun l => !Values.begun previous l) =
          (assignment key value).splitOn '\n' := by
        refine List.filter_eq_self.mpr fun l hl => ?_
        have hnone : Values.begun previous l = false :=
          List.any_eq_false.mpr fun e he => by simp [hothers e he l hl]
        simp [hnone]
      have hself : ((assignment key value).splitOn '\n').flatMap lineItems =
          lineItems (assignment key value) := textItems_eq
      have hfilter : (text.splitOn '\n').filter (fun l => !Values.begun ((key, value) :: previous) l) =
          ((text.splitOn '\n').filter fun l => !begins key l).filter fun l => !Values.begun previous l := by
        rw [List.filter_filter]
        refine List.filter_congr fun l _ => ?_
        simp [Values.begun, Bool.and_comm]
      simp only [← flatMap_filter] at hlines
      rw [hkept, hself] at hlines
      rw [hfilter, List.flatMap_cons, ← List.append_assoc]
      exact hlines.append_right _

/-! ## Allowed values -/

theorem mem_strip_or {c : Char} (h : c ∈ s) : isSpace c = true ∨ c ∈ strip s := by
  have hsplit := List.takeWhile_append_dropWhile (p := isSpace) (l := s)
  rw [← hsplit] at h
  rcases List.mem_append.mp h with h | h
  · exact .inl (List.all_eq_true.mp List.all_takeWhile c h)
  · obtain ⟨v, hv, hspaces⟩ := rstrip_spec (s.dropWhile isSpace)
    rw [hv] at h
    rcases List.mem_append.mp h with h | h
    · exact .inr h
    · exact .inl (hspaces c h)

theorem isAlphanum_of_toLower {c : Char} (h : c.toLower.isAlpha = true) :
    c.isAlphanum = true := by
  by_cases hupper : c.isUpper = true
  · exact isAlphanum_iff.mpr (.inl (.inl (isUpper_iff.mp hupper)))
  · have hself : c.toLower = c :=
      dif_neg fun hrange => hupper (isUpper_iff.mpr hrange)
    rw [hself] at h
    exact isAlphanum_iff.mpr (.inl (isAlpha_iff.mp h))

/-- An allowed value is letters or digits with blanks around them. -/
theorem normalizeValue_chars {key : String} {kind : Kind} {normalized : List Char}
    (h : normalizeValue key value kind = .ok normalized) :
    ∀ c ∈ value, isSpace c = true ∨ c.isAlphanum = true := by
  intro c hc
  refine (mem_strip_or hc).imp_right fun hc => ?_
  cases kind with
  | boolean =>
    have hlower : c.toLower ∈ lower (strip value) := List.mem_map_of_mem hc
    apply isAlphanum_of_toLower
    unfold normalizeValue normalizeBoolean at h
    dsimp only at h
    by_cases hword : lower (strip value) = "true".toList ∨ lower (strip value) = "false".toList
    · have htrue : ∀ c ∈ "true".toList, c.isAlpha = true := List.all_eq_true.mp (by decide)
      have hfalse : ∀ c ∈ "false".toList, c.isAlpha = true := List.all_eq_true.mp (by decide)
      rcases hword with hword | hword
      · exact htrue _ (hword ▸ hlower)
      · exact hfalse _ (hword ▸ hlower)
    · rw [if_neg hword] at h
      cases h
  | integer minimum maximum =>
    unfold normalizeValue normalizeInteger at h
    dsimp only at h
    by_cases hdigits : strip value = [] ∨ (strip value).all Char.isDigit = false
    · rw [if_pos hdigits] at h
      cases h
    · rw [not_or, Bool.not_eq_false, List.all_eq_true] at hdigits
      simp [Char.isAlphanum, hdigits.2 c hc]

theorem normalizeEach_mem {specs : List (String × Kind)} {normalized : Values}
    (h : normalizeEach values specs = .ok normalized) :
    ∀ spec ∈ specs, ∃ value result, values.lookup spec.1.toList = some value ∧
      normalizeValue spec.1 value spec.2 = .ok result := by
  induction specs generalizing normalized with
  | nil => simp
  | cons spec specs ih =>
    obtain ⟨key, kind⟩ := spec
    rw [normalizeEach] at h
    cases hvalue : values.lookup key.toList with
    | none =>
      rw [hvalue] at h
      cases h
    | some value =>
      rw [hvalue] at h
      cases hresult : normalizeValue key value kind with
      | error e =>
        dsimp only at h
        rw [hresult] at h
        cases h
      | ok result =>
        dsimp only at h
        rw [hresult] at h
        cases hrest : normalizeEach values specs with
        | error e =>
          dsimp only [bind, Except.bind] at h
          rw [hrest] at h
          cases h
        | ok rest =>
          intro spec hspec
          rcases List.mem_cons.mp hspec with rfl | hspec
          · exact ⟨value, result, hvalue, hresult⟩
          · exact ih hrest spec hspec

/-- In a map without repeated keys, looking a key up finds its entry. -/
theorem lookup_iff_mem (h : values.keys.Nodup) : values.lookup key = some value ↔
    (key, value) ∈ values := by
  induction values with
  | nil => simp
  | cons e values ih =>
    obtain ⟨k, v⟩ := e
    have htail := List.nodup_cons.mp h
    by_cases hk : key = k
    · subst hk
      rw [List.lookup_cons_self, List.mem_cons, Option.some.injEq, Prod.mk.injEq]
      constructor
      · exact fun h => .inl ⟨rfl, h.symm⟩
      · rintro (⟨-, rfl⟩ | hmem)
        · rfl
        · exact absurd (List.mem_map_of_mem (f := Prod.fst) hmem) htail.1
    · have hbeq : (key == k) = false := by simpa using hk
      rw [List.lookup_cons, hbeq, List.mem_cons, Prod.mk.injEq]
      dsimp only
      rw [ih htail.2]
      simp [hk]

theorem lookup_eq_none (h : key ∉ values.keys) : values.lookup key = none := by
  rw [List.lookup_eq_none_iff]
  intro e he
  rw [bne_iff_ne]
  rintro rfl
  exact h (List.mem_map_of_mem he)

/-- What the reviewed contract lets pass. -/
structure Reviewed (previous : Values) : Prop where
  nodup : previous.keys.Nodup
  isKey : ∀ e ∈ previous, isKey e.1 = true
  chars : ∀ e ∈ previous, ∀ c ∈ e.2, isSpace c = true ∨ c.isAlphanum = true

theorem reviewed_of_normalize {normalized : Values} (hnodup : previous.keys.Nodup)
    (h : normalizeRuntimeValues previous = .ok normalized) : Reviewed previous := by
  unfold normalizeRuntimeValues at h
  by_cases hkeys : previous.keys.all (· ∈ RUNTIME_CONFIG_ALLOWLIST.map fun spec => spec.1.toList)
  · rw [if_pos hkeys] at h
    have hspec : ∀ e ∈ previous, ∃ spec ∈ RUNTIME_CONFIG_ALLOWLIST, spec.1.toList = e.1 := by
      intro e he
      have hmem := List.all_eq_true.mp hkeys e.1 (List.mem_map_of_mem he)
      exact List.mem_map.mp (of_decide_eq_true hmem)
    refine ⟨hnodup, ?_, ?_⟩
    · intro e he
      obtain ⟨spec, hmem, heq⟩ := hspec e he
      have hall : ∀ spec ∈ RUNTIME_CONFIG_ALLOWLIST, isKey spec.1.toList = true := by decide
      rw [← heq]
      exact hall spec hmem
    · intro e he
      obtain ⟨spec, hmem, heq⟩ := hspec e he
      obtain ⟨value, result, hlookup, hresult⟩ := normalizeEach_mem h spec hmem
      rw [heq, lookup_iff_mem hnodup] at hlookup
      have he' := (lookup_iff_mem hnodup).mpr he
      rw [(lookup_iff_mem hnodup).mpr hlookup] at he'
      rw [← Option.some.inj he']
      exact normalizeValue_chars hresult
  · rw [if_neg hkeys] at h
    cases h

theorem Reviewed.settable (h : Reviewed previous) : Settable previous where
  nodup := h.nodup
  isKey := h.isKey
  value e he hmem := by
    rcases h.chars e he _ hmem with hc | hc
    · revert hc
      decide
    · revert hc
      decide

theorem unquote_eq_self (h : ∀ c ∈ value, isQuote c = false) : unquote value = value := by
  unfold unquote
  rw [if_neg]
  rintro ⟨-, -, hquote⟩
  cases value with
  | nil => cases hquote
  | cons c value =>
    have hc := h c List.mem_cons_self
    rw [List.head?_cons, Option.any_some, hc] at hquote
    cases hquote

theorem mem_of_mem_rstrip {c : Char} (h : c ∈ rstrip s) : c ∈ s := by
  obtain ⟨v, hv, -⟩ := rstrip_spec s
  rw [hv]
  exact List.mem_append_left _ h

/-- What is read of a value that is written. -/
def readBack (value : List Char) : List Char := rstrip (value.takeWhile fun c => !isLineBreak c)

theorem Reviewed.lineItems_eq (h : Reviewed previous) (hitem : item ∈ previous) :
    ∃ more, lineItems (assignment item.1 item.2) = some (item.1, readBack item.2) :: items more ∧
      ((∀ c ∈ item.2, isLineBreak c = false) → more = []) := by
  obtain ⟨more, heq, hmore⟩ := @lineItems_assignment item.1 item.2 (h.isKey item hitem)
  refine ⟨more, ?_, hmore⟩
  rw [heq, unquote_eq_self]
  · rfl
  · intro c hc
    have hmem := List.takeWhile_subset _ (mem_of_mem_rstrip hc)
    have hquote : ∀ c, isQuote c = true → isSpace c = false ∧ c.isAlphanum = false := by
      intro c hc
      simp only [isQuote, Bool.or_eq_true, decide_eq_true_eq] at hc
      rcases hc with rfl | rfl
      · decide
      · decide
    rw [Bool.eq_false_iff]
    intro hq
    rcases h.chars item hitem c hmem with hspace | halnum
    · rw [(hquote c hq).1] at hspace
      cases hspace
    · rw [(hquote c hq).2] at halnum
      cases halnum

/-- A value on one line that does not end in a blank. -/
def Plain (value : List Char) : Prop :=
  (∀ c ∈ value, isLineBreak c = false) ∧ ∀ c ∈ value.getLast?, isSpace c = false

theorem readBack_eq_self_iff : readBack value = value ↔ Plain value := by
  constructor
  · intro h
    have hprefix : (value.takeWhile fun c => !isLineBreak c).length ≤ value.length :=
      (List.takeWhile_prefix _).length_le
    have hstrip : (readBack value).length ≤ (value.takeWhile fun c => !isLineBreak c).length := by
      obtain ⟨v, hv, -⟩ := rstrip_spec (value.takeWhile fun c => !isLineBreak c)
      have hlength := congrArg List.length hv
      rw [List.length_append] at hlength
      rw [readBack]
      omega
    rw [h] at hstrip
    have hself : (value.takeWhile fun c => !isLineBreak c) = value :=
      (List.takeWhile_prefix _).eq_of_length (by omega)
    refine ⟨?_, ?_⟩
    · intro c hc
      rw [← hself] at hc
      simpa using List.all_eq_true.mp List.all_takeWhile c hc
    · intro c hc
      rw [Bool.eq_false_iff]
      intro hspace
      have hlt := length_rstrip_lt hc hspace
      rw [readBack, hself] at h
      rw [h] at hlt
      exact absurd hlt (lt_irrefl _)
  · rintro ⟨hbreaks, hlast⟩
    have hself : (value.takeWhile fun c => !isLineBreak c) = value :=
      List.takeWhile_eq_self_iff.mpr fun c hc => by simp [hbreaks c hc]
    rw [readBack, hself, rstrip_eq_self hlast]

/-! ## What the rollback restores -/

/-- An entry has a previous key if and only if the line it stands on begins with one. -/
def Aligned (file : List Char) (previous : Values) : Prop :=
  ∀ line ∈ (universalNewlines file).splitOn '\n', ∀ e : List Char × List Char,
    some e ∈ lineItems line → (e.1 ∈ previous.keys ↔ previous.begun line = true)

/-- The text is accepted and has the previous values, and the original ones where there are none. -/
def Restores (orig previous : Values) (text : List Char) : Prop :=
  ∃ written, loadEnvFile text = .ok written ∧
    ∀ key, written.lookup key = (previous.lookup key).or (orig.lookup key)

def lineKeys (line : List Char) : List (List Char) :=
  (lineItems line).filterMap fun item => item.map Prod.fst

theorem mem_lineKeys {e : List Char × List Char} (h : some e ∈ lineItems line) :
    e.1 ∈ lineKeys line := List.mem_filterMap.mpr ⟨some e, h, rfl⟩

theorem filterMap_some (entries : Values) :
    (entries.map some).filterMap (fun item => item.map Prod.fst) = entries.keys := by
  rw [List.filterMap_map, Values.keys, ← List.filterMap_eq_map]
  rfl

/-- The lines of a file that is accepted share no key. -/
theorem pairwise_lineKeys {orig : Values} (hitems : textItems text = orig.map some)
    (hnodup : orig.keys.Nodup) :
    (text.splitOn '\n').Pairwise fun a b => List.Disjoint (lineKeys a) (lineKeys b) := by
  rw [← filterMap_some, ← hitems, textItems, List.filterMap_flatMap] at hnodup
  exact (List.nodup_flatMap.mp hnodup).2

theorem length_begins_le (hkey : isKey key = true)
    (hlines : lines.Pairwise fun a b => List.Disjoint (lineKeys a) (lineKeys b)) :
    (lines.filter (begins key)).length ≤ 1 := by
  have hmem : ∀ l ∈ lines.filter (begins key), key ∈ lineKeys l := by
    intro l hl
    obtain ⟨rest, rfl⟩ := begins_iff.mp (List.mem_filter.mp hl).2
    obtain ⟨more, heq, -⟩ := @lineItems_assignment key rest hkey
    rw [lineKeys, heq]
    exact List.mem_cons_self
  have hfilter := hlines.filter (begins key)
  match hfound : lines.filter (begins key) with
  | [] => simp
  | [_] => simp
  | a :: b :: rest =>
    rw [hfound] at hfilter hmem
    have hdisjoint := (List.pairwise_cons.mp hfilter).1 b List.mem_cons_self
    exact absurd (hmem b (by simp)) fun hb => hdisjoint (hmem a (by simp)) hb

/-- The items of the lines that begin with no key that is set. -/
def keptItems (text : List Char) (previous : Values) : List (Option (List Char × List Char)) :=
  ((text.splitOn '\n').filter fun l => !Values.begun previous l).flatMap lineItems

def setItems (previous : Values) : List (Option (List Char × List Char)) :=
  previous.flatMap fun e => lineItems (assignment e.1 e.2)

theorem mem_keptItems {e : Option (List Char × List Char)} : e ∈ keptItems text previous ↔
    ∃ l ∈ text.splitOn '\n', previous.begun l = false ∧ e ∈ lineItems l := by
  simp [keptItems, and_assoc]

theorem Reviewed.setItems_eq (h : Reviewed previous) (hplain : ∀ e ∈ previous, Plain e.2) :
    setItems previous = previous.map some := by
  rw [setItems, List.map_eq_flatMap]
  apply List.flatMap_congr
  intro e he
  obtain ⟨more, heq, hmore⟩ := h.lineItems_eq he
  rw [heq, hmore (hplain e he).1, readBack_eq_self_iff.mpr (hplain e he)]
  rfl

theorem Reviewed.mem_setItems (h : Reviewed previous) (hitem : item ∈ previous) :
    some (item.1, readBack item.2) ∈ setItems previous := by
  obtain ⟨more, heq, -⟩ := h.lineItems_eq hitem
  refine List.mem_flatMap.mpr ⟨item, hitem, ?_⟩
  rw [heq]
  exact List.mem_cons_self

section Restoring

variable {orig : Values} {text' : List Char}

theorem exists_map_some {l : List (Option (List Char × List Char))} (h : none ∉ l) :
    ∃ entries : Values, l = entries.map some := by
  induction l with
  | nil => exact ⟨[], rfl⟩
  | cons item l ih =>
    rw [List.mem_cons, not_or] at h
    obtain ⟨entries, rfl⟩ := ih h.2
    cases item with
    | none => exact absurd rfl h.1
    | some e => exact ⟨e :: entries, rfl⟩

theorem restores_of_aligned (hreviewed : Reviewed previous)
    (hitems : textItems text = orig.map some) (hnodup : orig.keys.Nodup)
    (hwritten : (textItems text').Perm (keptItems text previous ++ setItems previous))
    (haligned : ∀ line ∈ text.splitOn '\n', ∀ e : List Char × List Char,
      some e ∈ lineItems line → (e.1 ∈ previous.keys ↔ previous.begun line = true))
    (hplain : ∀ e ∈ previous, Plain e.2) : Restores orig previous text' := by
  have horig : ∀ e, some e ∈ textItems text ↔ e ∈ orig := by
    intro e
    rw [hitems]
    simp
  have hsub : (keptItems text previous).Sublist (orig.map some) := by
    rw [← hitems]
    exact List.Sublist.flatMap List.filter_sublist _
  obtain ⟨kept, hkept, hkeptItems⟩ := List.sublist_map_iff.mp hsub
  have hmem : ∀ e, e ∈ kept ↔ e ∈ orig ∧ e.1 ∉ previous.keys := by
    intro e
    have hkeptMem : e ∈ kept ↔ some e ∈ keptItems text previous := by
      rw [hkeptItems]
      simp
    rw [hkeptMem, mem_keptItems, ← horig, textItems, List.mem_flatMap]
    constructor
    · rintro ⟨l, hl, hbegun, he⟩
      refine ⟨⟨l, hl, he⟩, fun hkey => ?_⟩
      rw [(haligned l hl e he).mp hkey] at hbegun
      cases hbegun
    · rintro ⟨⟨l, hl, he⟩, hkey⟩
      refine ⟨l, hl, ?_, he⟩
      rw [Bool.eq_false_iff]
      exact fun hbegun => hkey ((haligned l hl e he).mpr hbegun)
  rw [hkeptItems, hreviewed.setItems_eq hplain, ← List.map_append] at hwritten
  obtain ⟨written, hwrittenItems⟩ : ∃ written : Values, textItems text' = written.map some :=
    exists_map_some fun hnone => by simpa using hwritten.mem_iff.mp hnone
  rw [hwrittenItems, List.map_perm_map_iff (Option.some_injective _)] at hwritten
  have hkeptNodup : Values.keys kept |>.Nodup := (hkept.map Prod.fst).nodup hnodup
  have hwrittenNodup : written.keys.Nodup := by
    rw [Values.keys, (hwritten.map Prod.fst).nodup_iff, List.map_append, List.nodup_append]
    refine ⟨hkeptNodup, hreviewed.nodup, ?_⟩
    rintro k hk k' hk' rfl
    obtain ⟨e, he, rfl⟩ := List.mem_map.mp hk
    exact ((hmem e).mp he).2 hk'
  refine ⟨written, loadEnvFile_iff.mpr ⟨hwrittenItems, hwrittenNodup⟩, fun key => ?_⟩
  ext value
  rw [lookup_iff_mem hwrittenNodup, hwritten.mem_iff, List.mem_append, hmem]
  by_cases hkey : key ∈ previous.keys
  · obtain ⟨⟨key, v⟩, he, rfl⟩ := List.mem_map.mp hkey
    rw [(lookup_iff_mem hreviewed.nodup).mpr he, Option.some_or, ← lookup_iff_mem hreviewed.nodup,
      (lookup_iff_mem hreviewed.nodup).mpr he]
    simp [hkey]
  · rw [lookup_eq_none hkey, Option.none_or, lookup_iff_mem hnodup]
    have hnot : (key, value) ∉ previous := fun h => hkey (List.mem_map_of_mem h)
    simp [hkey, hnot]

theorem aligned_of_restores (hreviewed : Reviewed previous)
    (hitems : textItems text = orig.map some) (hnodup : orig.keys.Nodup)
    (hwritten : (textItems text').Perm (keptItems text previous ++ setItems previous))
    (h : Restores orig previous text') :
    (∀ line ∈ text.splitOn '\n', ∀ e : List Char × List Char,
      some e ∈ lineItems line → (e.1 ∈ previous.keys ↔ previous.begun line = true)) ∧
    ∀ e ∈ previous, Plain e.2 := by
  obtain ⟨written, hload, hlookup⟩ := h
  obtain ⟨hwrittenItems, hwrittenNodup⟩ := loadEnvFile_iff.mp hload
  rw [hwrittenItems] at hwritten
  have hmem : ∀ e, e ∈ written ↔ some e ∈ keptItems text previous ∨ some e ∈ setItems previous := by
    intro e
    rw [← List.mem_append, ← hwritten.mem_iff]
    simp
  have hplain : ∀ e ∈ previous, Plain e.2 := by
    rintro ⟨key, value⟩ he
    have hvalue := hlookup key
    rw [(lookup_iff_mem hreviewed.nodup).mpr he, Option.some_or, lookup_iff_mem hwrittenNodup]
      at hvalue
    have hread := (hmem _).mpr (.inr (hreviewed.mem_setItems he))
    rw [← lookup_iff_mem hwrittenNodup] at hvalue hread
    rw [hvalue] at hread
    exact readBack_eq_self_iff.mp (Option.some.inj hread).symm
  refine ⟨?_, hplain⟩
  intro line hline e he
  constructor
  · intro hkey
    obtain ⟨e', he', heq⟩ := List.mem_map.mp hkey
    by_contra hbegun
    have hkept : some e ∈ keptItems text previous :=
      mem_keptItems.mpr ⟨line, hline, Bool.eq_false_iff.mpr hbegun, he⟩
    have hset := hreviewed.mem_setItems he'
    -- the key would stand in the file twice
    have hkeys := (hwritten.filterMap fun item => item.map Prod.fst).nodup_iff.mp
      (by rw [filterMap_some]; exact hwrittenNodup)
    rw [List.filterMap_append, List.nodup_append] at hkeys
    exact hkeys.2.2 e.1 (List.mem_filterMap.mpr ⟨_, hkept, rfl⟩) e'.1
      (List.mem_filterMap.mpr ⟨_, hset, rfl⟩) heq.symm
  · intro hbegun
    by_contra hkey
    have horig : (e.1, e.2) ∈ orig := by
      have hin : some e ∈ textItems text := List.mem_flatMap.mpr ⟨line, hline, he⟩
      rw [hitems] at hin
      simpa using hin
    have hvalue := hlookup e.1
    rw [lookup_eq_none hkey, Option.none_or, (lookup_iff_mem hnodup).mpr horig,
      lookup_iff_mem hwrittenNodup, hmem] at hvalue
    rcases hvalue with hkept | hset
    · obtain ⟨line', hline', hbegun', he'⟩ := mem_keptItems.mp hkept
      have hne : line ≠ line' := by
        rintro rfl
        rw [hbegun] at hbegun'
        cases hbegun'
      have hsymm : Std.Symm fun a b => List.Disjoint (lineKeys a) (lineKeys b) :=
        ⟨fun _ _ h => h.symm⟩
      have hdisjoint := (pairwise_lineKeys hitems hnodup).forall hline hline' hne
      exact hdisjoint (mem_lineKeys he) (mem_lineKeys he')
    · rw [hreviewed.setItems_eq hplain] at hset
      have hprevious : e ∈ previous := by simpa using hset
      exact hkey (List.mem_map_of_mem hprevious)

end Restoring

/-- A rollback writes what it should if and only if the lines of the file are aligned with the
previous keys and the previous values are plain. -/
theorem rollback_restores_iff (file : List Char) (orig previous normalized : Values)
    (hload : loadEnvFile file = .ok orig) (hnodup : previous.keys.Nodup)
    (hreviewed : normalizeRuntimeValues previous = .ok normalized) :
    (∀ text, rollbackEnvFile file previous = .ok text → Restores orig previous text) ↔
      Aligned file previous ∧ ∀ e ∈ previous, Plain e.2 := by
  obtain ⟨hitems, horig⟩ := loadEnvFile_iff.mp hload
  rw [← textItems_universalNewlines] at hitems
  have hprevious := reviewed_of_normalize hnodup hreviewed
  have hone : ∀ e ∈ previous,
      (((universalNewlines file).splitOn '\n').filter (begins e.1)).length ≤ 1 :=
    fun e he => length_begins_le (hprevious.isKey e he) (pairwise_lineKeys hitems horig)
  obtain ⟨text', hset, hwritten⟩ := setKeys_spec hprevious.settable hone
  constructor
  · intro h
    exact aligned_of_restores hprevious hitems horig hwritten (h text' hset)
  · rintro ⟨haligned, hplain⟩ text htext
    obtain rfl : text' = text := by
      rw [rollbackEnvFile, hset] at htext
      injection htext
    exact restores_of_aligned hprevious hitems horig hwritten haligned hplain

def reviewedValues : Values :=
  [("PREMIUM_TEST_CHECKOUT_VISIBLE".toList, "false".toList),
    ("FREE_DOWNLOAD_QUOTA_ENABLED".toList, "true".toList),
    ("FREE_DOWNLOAD_QUOTA_READY_COMPATIBILITY_MODE".toList, "false".toList),
    ("FREE_DELIVERY_RATE_LIMIT_ENABLED".toList, "true".toList),
    ("FREE_DELIVERY_RATE_BYTES_PER_SECOND".toList, "1048576".toList)]

/-- A file with a blank before the `=` of a key. -/
def spacedFile : List Char := "FREE_DOWNLOAD_QUOTA_ENABLED =false\n".toList

def plainFile : List Char := "FREE_DOWNLOAD_QUOTA_ENABLED=false\n".toList

/-- The key is assigned a second time, and the text is refused. -/
theorem rollback_refused : (∃ orig, loadEnvFile spacedFile = .ok orig) ∧
    (∃ normalized, normalizeRuntimeValues reviewedValues = .ok normalized) ∧
    ∃ text, rollbackEnvFile spacedFile reviewedValues = .ok text ∧
      loadEnvFile text = .error (.duplicateKey "FREE_DOWNLOAD_QUOTA_ENABLED".toList) := by
  refine ⟨⟨[("FREE_DOWNLOAD_QUOTA_ENABLED".toList, "false".toList)], by decide +kernel⟩,
    ⟨reviewedValues, by decide +kernel⟩, ?_⟩
  refine ⟨("FREE_DOWNLOAD_QUOTA_ENABLED =false\n" ++
    "PREMIUM_TEST_CHECKOUT_VISIBLE=false\n" ++
    "FREE_DOWNLOAD_QUOTA_ENABLED=true\n" ++
    "FREE_DOWNLOAD_QUOTA_READY_COMPATIBILITY_MODE=false\n" ++
    "FREE_DELIVERY_RATE_LIMIT_ENABLED=true\n" ++
    "FREE_DELIVERY_RATE_BYTES_PER_SECOND=1048576\n").toList, by decide +kernel, by decide +kernel⟩

theorem rollback_restores_plain :
    (∀ text, rollbackEnvFile plainFile reviewedValues = .ok text →
      Restores [("FREE_DOWNLOAD_QUOTA_ENABLED".toList, "false".toList)] reviewedValues text) ↔
      Aligned plainFile reviewedValues ∧ ∀ e ∈ reviewedValues, Plain e.2 :=
  rollback_restores_iff plainFile _ reviewedValues reviewedValues (by decide +kernel)
    (by decide +kernel) (by decide +kernel)

end FetchNow.EnvFile
