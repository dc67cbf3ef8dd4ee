import Mathlib.Data.List.Basic

/-!
# Segments behind a separator

A list in which a separator stands before each of its segments. Splitting at the separator gives
the segments back, and a word that begins with the separator occurs in the list exactly where a
segment begins with the rest of the word.
-/
namespace Segments

variable {α : Type*} {separator : α} {segs : List (List α)} {l word s t : List α}

def glue (separator : α) (segs : List (List α)) : List α := segs.flatMap (separator :: ·)

@[simp] theorem glue_nil : glue separator [] = [] := rfl

@[simp] theorem glue_cons : glue separator (s :: segs) = separator :: (s ++ glue separator segs) :=
  rfl

theorem intercalate_eq_glue : [separator].intercalate ([] :: segs) = glue separator segs := by
  have hcons : ∀ s, [separator].intercalate (s :: segs) = s ++ glue separator segs := by
    induction segs with
    | nil => intro s; simp [List.intercalate]
    | cons t segs ih =>
      intro s
      have ht := ih t
      simp only [List.intercalate, List.intersperse, List.flatten_cons] at ht ⊢
      simp [ht]
  simpa using hcons []

theorem prefix_append_glue (hw : separator ∉ word) :
    word <+: s ++ glue separator segs ↔ word <+: s := by
  constructor
  · intro h
    rcases List.prefix_or_prefix_of_prefix h (List.prefix_append s _) with hs | ⟨rest, rfl⟩
    · exact hs
    · have hrest := (List.prefix_append_right_inj s).mp h
      cases rest with
      | nil => simp
      | cons a rest =>
        cases segs with
        | nil => simp at hrest
        | cons t segs =>
          rw [glue_cons, List.cons_prefix_cons] at hrest
          simp [hrest.1] at hw
  · exact fun h => h.trans (List.prefix_append _ _)

theorem infix_append_of_not_mem (hs : separator ∉ s) :
    separator :: word <:+: s ++ t ↔ separator :: word <:+: t := by
  induction s with
  | nil => rfl
  | cons a s ih =>
    rw [List.mem_cons, not_or] at hs
    rw [List.cons_append, List.infix_cons_iff, List.cons_prefix_cons, ih hs.2]
    exact or_iff_right fun h => hs.1 h.1

theorem infix_glue_iff (hw : separator ∉ word) (h : ∀ s ∈ segs, separator ∉ s) :
    separator :: word <:+: glue separator segs ↔ ∃ s ∈ segs, word <+: s := by
  induction segs with
  | nil => simp
  | cons s segs ih =>
    have hs := h s List.mem_cons_self
    have hsegs := ih fun t ht => h t (List.mem_cons_of_mem _ ht)
    rw [glue_cons, List.infix_cons_iff, List.cons_prefix_cons, infix_append_of_not_mem hs, hsegs,
      prefix_append_glue hw]
    simp

variable [DecidableEq α]

theorem splitOn_glue (h : ∀ s ∈ segs, separator ∉ s) :
    (glue separator segs).splitOn separator = [] :: segs := by
  rw [← intercalate_eq_glue]
  apply List.splitOn_intercalate
  · simpa using h
  · simp

theorem not_mem_of_mem_splitOn (h : s ∈ l.splitOn separator) : separator ∉ s := by
  induction l generalizing s with
  | nil =>
    simp only [List.splitOn_nil, List.mem_singleton] at h
    simp [h]
  | cons a l ih =>
    rw [List.splitOn_cons_eq_if_modifyHead] at h
    split_ifs at h with ha
    · rcases List.mem_cons.mp h with rfl | h
      · simp
      · exact ih h
    · obtain ⟨first, rest, hsplit⟩ := List.exists_cons_of_ne_nil (List.splitOn_ne_nil separator l)
      rw [hsplit, List.modifyHead_cons] at h
      rcases List.mem_cons.mp h with rfl | h
      · have hfirst := ih (hsplit ▸ List.mem_cons_self)
        rw [beq_iff_eq] at ha
        simp [hfirst, Ne.symm ha]
      · exact ih (hsplit ▸ List.mem_cons_of_mem _ h)

theorem glue_of_splitOn (h : l.splitOn separator = [] :: segs) :
    l = glue separator segs ∧ ∀ s ∈ segs, separator ∉ s := by
  constructor
  · rw [← intercalate_eq_glue, ← h, List.intercalate_splitOn]
  · intro s hs
    exact not_mem_of_mem_splitOn (h ▸ List.mem_cons_of_mem _ hs)

/-! ## Empty segments -/

theorem head_splitOn : (l.splitOn separator).head? = some [] ↔ ∀ a ∈ l.head?, a = separator := by
  cases l with
  | nil => simp
  | cons a l =>
    obtain ⟨first, rest, hsplit⟩ := List.exists_cons_of_ne_nil (List.splitOn_ne_nil separator l)
    rw [List.splitOn_cons_eq_if_modifyHead, hsplit]
    by_cases ha : a = separator <;> simp [ha]

/-- Where an empty segment comes from, behind the first one. -/
theorem nil_mem_tail_splitOn : [] ∈ (l.splitOn separator).tail ↔
    [separator, separator] <:+: l ∨ l.getLast? = some separator := by
  induction l with
  | nil => simp
  | cons a l ih =>
    obtain ⟨first, rest, hsplit⟩ := List.exists_cons_of_ne_nil (List.splitOn_ne_nil separator l)
    have hhead := @head_splitOn _ separator l _
    rw [hsplit] at ih hhead
    rw [List.splitOn_cons_eq_if_modifyHead, hsplit, List.infix_cons_iff, List.cons_prefix_cons]
    by_cases ha : a = separator
    · subst ha
      have hfirst : [] = first ↔ l = [] ∨ [a] <+: l := by
        rw [List.head?_cons, Option.some.injEq] at hhead
        rw [eq_comm, hhead]
        cases l <;> simp [eq_comm]
      have hlast : (a :: l).getLast? = some a ↔ l = [] ∨ l.getLast? = some a := by
        cases l <;> simp
      simp only [beq_self_eq_true, if_true, List.tail_cons, List.mem_cons, hfirst, hlast, true_and]
      simp only [List.tail_cons] at ih
      rw [ih]
      simp only [or_assoc, or_left_comm]
    · have hbeq : (a == separator) = false := by simpa using ha
      have hlast : (a :: l).getLast? = some separator ↔ l.getLast? = some separator := by
        cases l <;> simp [ha]
      rw [hbeq]
      simp only [Bool.false_eq_true, if_false, List.modifyHead_cons, List.tail_cons, hlast,
        eq_comm (a := separator), ha, false_and, false_or]
      exact ih

theorem nil_mem_splitOn : [] ∈ l.splitOn separator ↔
    l = [] ∨ l.head? = some separator ∨ [separator, separator] <:+: l ∨
      l.getLast? = some separator := by
  obtain ⟨first, rest, hsplit⟩ := List.exists_cons_of_ne_nil (List.splitOn_ne_nil separator l)
  have hhead := @head_splitOn _ separator l _
  have htail := @nil_mem_tail_splitOn _ separator l _
  rw [hsplit] at hhead htail ⊢
  rw [List.tail_cons] at htail
  rw [List.mem_cons, htail, eq_comm, ← or_assoc]
  simp only [List.head?_cons, Option.some.injEq] at hhead
  rw [hhead]
  cases l <;> simp [or_assoc]

end Segments
