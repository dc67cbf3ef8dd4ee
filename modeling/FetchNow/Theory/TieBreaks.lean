import Mathlib.Data.List.Perm.Basic
import Mathlib.Data.List.Sort

/-!
# Sorting by a key that leaves ties

A stable sort leaves rows with the same key in the order in which they came. What is cut off from
a sorted list, and what is found first in it, may then depend on that order.
-/
namespace FetchNow.TieBreaks

variable {α β κ : Type*} [LinearOrder κ]

section

variable (key : α → κ)

/-- Sorted by the key, ties in any order. -/
def Sorted (l : List α) : Prop := l.Pairwise fun a b => key a ≤ key b

/-- The number of rows that come before those with a key. -/
def below (l : List α) (k : κ) : ℕ := l.countP fun a => decide (key a < k)

/-- The number of rows up to the last one with a key. -/
def upTo (l : List α) (k : κ) : ℕ := l.countP fun a => decide (key a ≤ k)

end

variable {key : α → κ} {l l' : List α} {k : κ} {n : ℕ} {x y a : α}

theorem below_perm (hp : l.Perm l') : below key l k = below key l' k := hp.countP_eq _

theorem upTo_perm (hp : l.Perm l') : upTo key l k = upTo key l' k := hp.countP_eq _

theorem upTo_eq : upTo key l k = below key l k + (l.filter fun a => decide (key a = k)).length := by
  induction l with
  | nil => rfl
  | cons a l ih =>
    rw [upTo, below, ← List.countP_eq_length_filter] at ih ⊢
    rcases lt_trichotomy (key a) k with ha | ha | ha
    · simp only [List.countP_cons, ha, ha.le, ha.ne, decide_true, decide_false, if_true,
        Bool.false_eq_true, if_false]
      omega
    · simp only [List.countP_cons, ha, le_refl, lt_self_iff_false, decide_true, decide_false,
        if_true, Bool.false_eq_true, if_false]
      omega
    · simp only [List.countP_cons, ha.not_gt, ha.not_ge, ha.ne', decide_false, Bool.false_eq_true,
        if_false]
      omega

theorem sorted_insertionSort [DecidableRel fun a b : α => key a ≤ key b] (l : List α) :
    Sorted key (l.insertionSort fun a b => key a ≤ key b) := by
  have htrans : IsTrans α fun a b => key a ≤ key b := ⟨fun _ _ _ => le_trans⟩
  have htotal : Std.Total fun a b : α => key a ≤ key b := ⟨fun a b => le_total (key a) (key b)⟩
  exact List.pairwise_insertionSort _ l

/-- A row among the first ones comes after fewer rows. -/
theorem Sorted.below_lt (h : Sorted key l) (ha : a ∈ l.take n) : below key l (key a) < n := by
  obtain ⟨s, t, hst⟩ := List.append_of_mem ha
  have hsplit : l = s ++ a :: (t ++ l.drop n) := by
    rw [← List.cons_append, ← List.append_assoc, ← hst, List.take_append_drop]
  have hlen : s.length < n := by
    have := congrArg List.length hst
    rw [List.length_take, List.length_append, List.length_cons] at this
    omega
  rw [hsplit] at h ⊢
  obtain ⟨-, hafter, -⟩ := List.pairwise_append.mp h
  have hzero : (a :: (t ++ l.drop n)).countP (fun b => decide (key b < key a)) = 0 := by
    apply List.countP_eq_zero.mpr
    intro b hb
    rcases List.mem_cons.mp hb with rfl | hb
    · simp
    · simpa using (List.pairwise_cons.mp hafter).1 b hb
  have hbound := @List.countP_le_length _ (fun b => decide (key b < key a)) s
  rw [below, List.countP_append, hzero]
  omega

/-- A row up to which there are few is among the first ones. -/
theorem Sorted.mem_take (h : Sorted key l) (ha : a ∈ l) (hupTo : upTo key l (key a) ≤ n) :
    a ∈ l.take n := by
  by_contra hnot
  have hdrop : a ∈ l.drop n := by
    rw [← List.take_append_drop n l] at ha
    exact (List.mem_append.mp ha).resolve_left hnot
  have hlen : (l.take n).length = n := by
    have hpos := List.length_pos_of_mem hdrop
    rw [List.length_drop] at hpos
    rw [List.length_take]
    omega
  have hsorted := h
  rw [Sorted, ← List.take_append_drop n l, List.pairwise_append] at hsorted
  have hall : (l.take n).countP (fun b => decide (key b ≤ key a)) = (l.take n).length := by
    apply List.countP_eq_length.mpr
    intro b hb
    simpa using hsorted.2.2 b hb a hdrop
  have hone : 0 < (l.drop n).countP (fun b => decide (key b ≤ key a)) :=
    List.countP_pos_iff.mpr ⟨a, hdrop, by simp⟩
  have hcount : upTo key l (key a) = (l.take n).countP (fun b => decide (key b ≤ key a)) +
      (l.drop n).countP (fun b => decide (key b ≤ key a)) := by
    rw [upTo, ← List.countP_append, List.take_append_drop]
  omega

/-- Sorted lists with the same rows are equal if ties are between equal rows. -/
theorem Sorted.eq_of_ties (h : Sorted key l) (h' : Sorted key l') (hp : l.Perm l')
    (hties : ∀ x ∈ l, ∀ y ∈ l, key x = key y → x = y) : l = l' := by
  apply List.Perm.eq_of_pairwise ?_ h h' hp
  intro x y hx hy hxy hyx
  exact hties x hx y (hp.mem_iff.mpr hy) (le_antisymm hxy hyx)

/-- A sorted list is split by what is closed downwards. -/
theorem Sorted.split (h : Sorted key l) {p : α → Bool}
    (hp : ∀ a b, key a ≤ key b → p b = true → p a = true) :
    l = l.filter p ++ l.filter (fun a => !p a) := by
  induction l with
  | nil => rfl
  | cons a l ih =>
    obtain ⟨hle, hl⟩ := List.pairwise_cons.mp h
    cases ha : p a with
    | true =>
      have hrest := ih hl
      simpa [List.filter_cons, ha] using hrest
    | false =>
      have hnone : ∀ b ∈ l, p b = false := by
        intro b hb
        by_contra hb'
        have := hp a b (hle b hb) (by simpa using hb')
        rw [ha] at this
        cases this
      have hfilter : l.filter p = [] := List.filter_eq_nil_iff.mpr (by simpa using hnone)
      have hkept : l.filter (fun a => !p a) = l := List.filter_eq_self.mpr (by simpa using hnone)
      simp [ha, hfilter, hkept]

/-- The start of a sorted list that ends within the rows of a key. -/
theorem Sorted.take_eq (h : Sorted key l) (hbelow : below key l k ≤ n) (hupTo : n ≤ upTo key l k) :
    l.take n = l.filter (fun a => decide (key a < k)) ++
      (l.filter fun a => decide (key a = k)).take (n - below key l k) := by
  have hle := h.split (p := fun a => decide (key a ≤ k))
    (fun a b hab hb => by simpa using hab.trans (by simpa using hb))
  have hsub : Sorted key (l.filter fun a => decide (key a ≤ k)) := h.filter _
  have hlt := hsub.split (p := fun a => decide (key a < k))
    (fun a b hab hb => by simpa using hab.trans_lt (by simpa using hb))
  have hfirst : (l.filter fun a => decide (key a ≤ k)).filter (fun a => decide (key a < k)) =
      l.filter fun a => decide (key a < k) := by
    rw [List.filter_filter]
    apply List.filter_congr
    intro a _
    by_cases ha : key a < k
    · simp [ha, ha.le]
    · simp [ha]
  have hsecond : (l.filter fun a => decide (key a ≤ k)).filter (fun a => !decide (key a < k)) =
      l.filter fun a => decide (key a = k) := by
    rw [List.filter_filter]
    apply List.filter_congr
    intro a _
    rcases lt_trichotomy (key a) k with ha | ha | ha
    · simp [ha, ha.ne]
    · simp [ha]
    · simp [ha.ne', ha.not_ge]
  rw [hfirst, hsecond] at hlt
  have hlen : n ≤ (l.filter fun a => decide (key a ≤ k)).length := by
    rwa [← List.countP_eq_length_filter]
  have hlen' : (l.filter fun a => decide (key a < k)).length = below key l k :=
    (List.countP_eq_length_filter).symm
  conv_lhs => rw [hle, List.take_append_of_le_length hlen, hlt, List.take_append, hlen']
  rw [List.take_of_length_le (by omega)]

/-- A start of a sorted list ends within the rows of some key. -/
theorem Sorted.exists_cut (h : Sorted key l) (hpos : 0 < n) (hlen : n ≤ l.length) :
    ∃ x ∈ l, below key l (key x) < n ∧ n ≤ upTo key l (key x) := by
  obtain ⟨m, rfl⟩ : ∃ m, n = m + 1 := ⟨n - 1, by omega⟩
  have hlt : m < l.length := by omega
  have hsplit : l = l.take m ++ l[m] :: l.drop (m + 1) := by
    rw [List.getElem_cons_drop, List.take_append_drop]
  have htake : (l.take m).length = m := by
    rw [List.length_take]
    omega
  have hsorted := h
  rw [Sorted, hsplit, List.pairwise_append, List.pairwise_cons] at hsorted
  obtain ⟨-, ⟨hafter, -⟩, hbefore⟩ := hsorted
  refine ⟨l[m], List.getElem_mem hlt, ?_, ?_⟩
  · have hzero : (l[m] :: l.drop (m + 1)).countP (fun a => decide (key a < key l[m])) = 0 := by
      apply List.countP_eq_zero.mpr
      intro a ha
      rcases List.mem_cons.mp ha with rfl | ha
      · simp
      · simpa using hafter a ha
    have hcount : below key l (key l[m]) = (l.take m).countP (fun a => decide (key a < key l[m])) +
        (l[m] :: l.drop (m + 1)).countP (fun a => decide (key a < key l[m])) := by
      rw [below, ← List.countP_append, ← hsplit]
    have hbound := @List.countP_le_length _ (fun a => decide (key a < key l[m])) (l.take m)
    omega
  · have hall : (l.take m).countP (fun a => decide (key a ≤ key l[m])) = (l.take m).length := by
      apply List.countP_eq_length.mpr
      intro a ha
      simpa using hbefore a ha _ List.mem_cons_self
    have hcount : upTo key l (key l[m]) = (l.take m).countP (fun a => decide (key a ≤ key l[m])) +
        (l[m] :: l.drop (m + 1)).countP (fun a => decide (key a ≤ key l[m])) := by
      rw [upTo, ← List.countP_append, ← hsplit]
    have hone : 0 < (l[m] :: l.drop (m + 1)).countP (fun a => decide (key a ≤ key l[m])) :=
      List.countP_pos_iff.mpr ⟨_, List.mem_cons_self, by simp⟩
    omega

/-- What the first rows contribute does not depend on the order of ties if those that a cut divides
contribute the same. -/
theorem Sorted.perm_map_take (h : Sorted key l) (h' : Sorted key l') (hp : l.Perm l')
    {f : α → β} (hcut : ∀ x ∈ l, ∀ y ∈ l, key x = key y → below key l (key x) < n →
      n < upTo key l (key x) → f x = f y) : ((l.take n).map f).Perm ((l'.take n).map f) := by
  rcases Nat.eq_zero_or_pos n with rfl | hpos
  · simp
  rcases Nat.lt_or_ge l.length n with hlen | hlen
  · have hlen' := hp.length_eq
    rw [List.take_of_length_le (by omega), List.take_of_length_le (by omega)]
    exact hp.map f
  obtain ⟨x, hx, hbelow, hupTo⟩ := h.exists_cut hpos hlen
  have htake := h.take_eq (Nat.le_of_lt hbelow) hupTo
  have hbelow' : below key l' (key x) = below key l (key x) := below_perm hp.symm
  have hupTo' : upTo key l' (key x) = upTo key l (key x) := upTo_perm hp.symm
  have htake' : l'.take n = _ := @Sorted.take_eq _ _ _ key l' (key x) n h' (by omega) (by omega)
  have hgroup := hp.filter fun a => decide (key a = key x)
  rw [htake, htake', hbelow', List.map_append, List.map_append]
  apply ((hp.filter _).map f).append
  rcases Nat.lt_or_ge n (upTo key l (key x)) with hdivided | hwhole
  · -- the rows of the key are divided, and all contribute the same
    have hconst : ∀ l₀ : List α, (∀ y ∈ l₀, y ∈ l ∧ key y = key x) →
        l₀.map f = List.replicate l₀.length (f x) := by
      intro l₀ hl₀
      apply List.map_eq_replicate_iff.mpr
      intro y hy
      obtain ⟨hmem, hkey⟩ := hl₀ y hy
      exact (hcut x hx y hmem hkey.symm hbelow hdivided).symm
    rw [hconst _ (fun y hy => by simpa using List.mem_of_mem_take hy),
      hconst _ (fun y hy => by simpa using hgroup.mem_iff.mpr (List.mem_of_mem_take hy)),
      List.length_take, List.length_take, hgroup.length_eq]
  · have hadd := @upTo_eq _ _ _ key l (key x)
    have hcount := hgroup.length_eq
    rw [List.take_of_length_le (by omega), List.take_of_length_le (by omega)]
    exact hgroup.map f

/-- The row that is found first is one with the least key of those that can be found. -/
theorem Sorted.found (h : Sorted key l) {f : α → Option β}
    (hties : ∀ x ∈ l, ∀ y ∈ l, key x = key y → (f x).isSome = (f y).isSome)
    (hsome : ∃ a ∈ l, f a ≠ none) (n : ℕ) :
    ∃ x ∈ l, (f x).isSome = true ∧ (∀ a ∈ l, (f a).isSome = true → key x ≤ key a) ∧
      (l.take n).findSome? f = if below key l (key x) < n then f x else none := by
  obtain ⟨a, ha, hne⟩ := hsome
  obtain ⟨b, hb⟩ : ∃ b, l.findSome? f = some b := by
    apply Option.ne_none_iff_exists'.mp
    intro hnone
    exact hne (List.findSome?_eq_none_iff.mp hnone a ha)
  obtain ⟨l₁, x, l₂, rfl, hx, hbefore⟩ := List.findSome?_eq_some_iff.mp hb
  have hsorted := h
  rw [Sorted, List.pairwise_append, List.pairwise_cons] at hsorted
  obtain ⟨-, ⟨hafter, -⟩, hle⟩ := hsorted
  have hfound : (f x).isSome = true := by rw [hx, Option.isSome_some]
  have hmem : x ∈ l₁ ++ x :: l₂ := by simp
  refine ⟨x, hmem, hfound, ?_, ?_⟩
  · intro a ha hsome
    rcases List.mem_append.mp ha with ha | ha
    · rw [hbefore a ha] at hsome
      cases hsome
    · rcases List.mem_cons.mp ha with rfl | ha
      · exact le_rfl
      · exact hafter a ha
  · have hlt : ∀ a ∈ l₁, key a < key x := by
      intro a ha
      apply lt_of_le_of_ne (hle a ha x List.mem_cons_self)
      intro heq
      have hagree := hties a (List.mem_append_left _ ha) x hmem heq
      rw [hbefore a ha, hfound] at hagree
      cases hagree
    have hbelow : below key (l₁ ++ x :: l₂) (key x) = l₁.length := by
      have hzero : (x :: l₂).countP (fun a => decide (key a < key x)) = 0 := by
        apply List.countP_eq_zero.mpr
        intro a ha
        rcases List.mem_cons.mp ha with rfl | ha
        · simp
        · simpa using hafter a ha
      rw [below, List.countP_append, hzero, List.countP_eq_length.mpr (by simpa using hlt),
        Nat.add_zero]
    rw [hbelow, List.take_append]
    have hnone : (l₁.take n).findSome? f = none :=
      List.findSome?_eq_none_iff.mpr fun a ha => hbefore a (List.mem_of_mem_take ha)
    rw [List.findSome?_append, hnone, Option.none_or]
    split
    · rename_i hn
      obtain ⟨m, hm⟩ : ∃ m, n - l₁.length = m + 1 := ⟨n - l₁.length - 1, by omega⟩
      rw [hm, List.take_succ_cons, List.findSome?_cons, hx]
    · rename_i hn
      have hzero : n - l₁.length = 0 := by omega
      rw [hzero, List.take_zero, List.findSome?_nil]

/-- What is found first does not depend on the order of ties if they agree on whether they are found,
and those that are found first agree. -/
theorem Sorted.findSome?_take (h : Sorted key l) (h' : Sorted key l') (hp : l.Perm l')
    {f : α → Option β}
    (hties : ∀ x ∈ l, ∀ y ∈ l, key x = key y → (f x).isSome = (f y).isSome)
    (hfirst : ∀ x ∈ l, ∀ y ∈ l, key x = key y → (f x).isSome = true →
      (∀ a ∈ l, (f a).isSome = true → key x ≤ key a) → below key l (key x) < n → f x = f y) :
    (l.take n).findSome? f = (l'.take n).findSome? f := by
  by_cases hnone : ∀ a ∈ l, f a = none
  · have hsome : ∀ l₀ : List α, (∀ a ∈ l₀, a ∈ l) → l₀.findSome? f = none :=
      fun l₀ hl₀ => List.findSome?_eq_none_iff.mpr fun a ha => hnone a (hl₀ a ha)
    rw [hsome _ fun a ha => List.mem_of_mem_take ha,
      hsome _ fun a ha => hp.mem_iff.mpr (List.mem_of_mem_take ha)]
  · simp only [not_forall, exists_prop] at hnone
    obtain ⟨a, ha, hne⟩ := hnone
    obtain ⟨x, hx, hsome, hmin, hfound⟩ := h.found hties ⟨a, ha, hne⟩ n
    obtain ⟨y, hy, hsome', hmin', hfound'⟩ := h'.found
      (fun x hx y hy => hties x (hp.mem_iff.mpr hx) y (hp.mem_iff.mpr hy))
      ⟨a, hp.mem_iff.mp ha, hne⟩ n
    have hkey : key x = key y := le_antisymm (hmin y (hp.mem_iff.mpr hy) hsome')
      (hmin' x (hp.mem_iff.mp hx) hsome)
    rw [hfound, hfound', ← hkey, ← below_perm hp]
    split
    · rename_i hlt
      exact hfirst x hx y (hp.mem_iff.mpr hy) hkey hsome hmin hlt
    · rfl

end FetchNow.TieBreaks
