import Mathlib.Data.List.DropRight
import Mathlib.Tactic.SplitIfs

/-!
# Text in UTF-16

A text is a sequence of code points, its encoding one of 16-bit units. A unit that is no part of a
pair stands for itself.
-/
namespace Utf16

/-- A code point that is no surrogate. -/
def Scalar (c : ℕ) : Prop := c < 0xD800 ∨ 0xDFFF < c ∧ c < 0x110000

def unitsOf (c : ℕ) : List ℕ :=
  if c < 0x10000 then [c]
  else [0xD800 + (c - 0x10000) / 0x400, 0xDC00 + (c - 0x10000) % 0x400]

def encode (s : List ℕ) : List ℕ := s.flatMap unitsOf

def isLead (u : ℕ) : Bool := 0xD800 ≤ u && u < 0xDC00

def isTrail (u : ℕ) : Bool := 0xDC00 ≤ u && u < 0xE000

def decode : List ℕ → List ℕ
  | [] => []
  | [u] => [u]
  | u :: v :: rest =>
    if isLead u && isTrail v then (0x10000 + (u - 0xD800) * 0x400 + (v - 0xDC00)) :: decode rest
    else u :: decode (v :: rest)

variable {s t : List ℕ} {c u v : ℕ} {p : ℕ → Bool}

theorem toNat_ofNat (h : Scalar c) : (Char.ofNat c).toNat = c := by
  have hvalid : c.isValidChar := h
  rw [Char.ofNat, dif_pos hvalid]
  rfl

theorem encode_cons : encode (c :: s) = unitsOf c ++ encode s := List.flatMap_cons

theorem encode_append : encode (s ++ t) = encode s ++ encode t := List.flatMap_append

theorem unitsOf_low (h : c < 0x10000) : unitsOf c = [c] := if_pos h

theorem unitsOf_high (h : 0x10000 ≤ c) :
    unitsOf c = [0xD800 + (c - 0x10000) / 0x400, 0xDC00 + (c - 0x10000) % 0x400] :=
  if_neg (Nat.not_lt.mpr h)

theorem unitsOf_ne_nil : unitsOf c ≠ [] := by
  rw [unitsOf]
  split <;> exact List.cons_ne_nil _ _

theorem encode_eq_nil : encode s = [] ↔ s = [] := by
  cases s with
  | nil => exact iff_of_true rfl rfl
  | cons c s =>
    refine iff_of_false ?_ (List.cons_ne_nil c s)
    intro h
    exact unitsOf_ne_nil (List.append_eq_nil_iff.mp h).1

/-- A text without what takes two units is its own encoding. -/
theorem encode_low (h : ∀ c ∈ s, c < 0x10000) : encode s = s := by
  induction s with
  | nil => rfl
  | cons c s ih =>
    obtain ⟨hc, hs⟩ := List.forall_mem_cons.mp h
    rw [encode_cons, unitsOf_low hc, ih hs]
    rfl

/-- Only a text below the surrogates is encoded as one. -/
theorem encode_eq_low (ht : ∀ c ∈ t, c < 0xD800) : encode s = t ↔ s = t := by
  constructor
  · rintro rfl
    refine (encode_low ?_).symm
    intro c hc
    by_contra hhigh
    have hlead : 0xD800 + (c - 0x10000) / 0x400 ∈ encode s := by
      refine List.mem_flatMap.mpr ⟨c, hc, ?_⟩
      rw [unitsOf_high (by omega)]
      exact List.mem_cons_self
    have hlow := ht _ hlead
    omega
  · rintro rfl
    exact encode_low fun c hc => (ht c hc).trans (by omega)

/-- The units of a code point: itself, or surrogates. -/
theorem mem_unitsOf (h : u ∈ unitsOf c) : u = c ∧ c < 0x10000 ∨ 0xD800 ≤ u ∧ 0x10000 ≤ c := by
  rw [unitsOf] at h
  split at h
  · rename_i hlow
    exact .inl ⟨List.mem_singleton.mp h, hlow⟩
  · right
    simp only [List.mem_cons, List.not_mem_nil, or_false] at h
    omega

/-- A unit below the surrogates is a code point of the text. -/
theorem mem_encode (hu : u < 0xD800) : u ∈ encode s ↔ u ∈ s := by
  rw [encode, List.mem_flatMap]
  constructor
  · rintro ⟨c, hc, hmem⟩
    rcases mem_unitsOf hmem with ⟨rfl, -⟩ | ⟨hhigh, -⟩
    · exact hc
    · omega
  · intro hmem
    exact ⟨u, hmem, by rw [unitsOf_low (by omega)]; exact List.mem_singleton_self u⟩

/-! ## Decoding -/

theorem decode_cons (h : isLead u = false) : decode (u :: s) = u :: decode s := by
  cases s with
  | nil => rfl
  | cons v s => rw [decode, h, Bool.false_and, if_neg Bool.false_ne_true]

theorem decode_pair (hu : isLead u = true) (hv : isTrail v = true) : decode (u :: v :: s) =
    (0x10000 + (u - 0xD800) * 0x400 + (v - 0xDC00)) :: decode s := by
  rw [decode, hu, hv, Bool.and_self, if_pos rfl]

/-- A text of scalar values is read back. -/
theorem decode_encode (h : ∀ c ∈ s, Scalar c) : decode (encode s) = s := by
  induction s with
  | nil => rfl
  | cons c s ih =>
    obtain ⟨hc, hs⟩ := List.forall_mem_cons.mp h
    rw [encode_cons]
    rcases Nat.lt_or_ge c 0x10000 with hlow | hhigh
    · have hlead : isLead c = false := by
        rw [isLead, Bool.and_eq_false_iff, decide_eq_false_iff_not, decide_eq_false_iff_not]
        rcases hc with hc | hc <;> omega
      rw [unitsOf_low hlow, List.singleton_append, decode_cons hlead, ih hs]
    · have hmax : c < 0x110000 := by
        rcases hc with hc | hc <;> omega
      have hlead : isLead (0xD800 + (c - 0x10000) / 0x400) = true := by
        rw [isLead, Bool.and_eq_true, decide_eq_true_eq, decide_eq_true_eq]
        omega
      have htrail : isTrail (0xDC00 + (c - 0x10000) % 0x400) = true := by
        rw [isTrail, Bool.and_eq_true, decide_eq_true_eq, decide_eq_true_eq]
        omega
      have hback : 0x10000 + (0xD800 + (c - 0x10000) / 0x400 - 0xD800) * 0x400 +
          (0xDC00 + (c - 0x10000) % 0x400 - 0xDC00) = c := by omega
      rw [unitsOf_high hhigh, List.cons_append, List.singleton_append, decode_pair hlead htrail,
        ih hs, hback]

theorem encode_inj (hs : ∀ c ∈ s, Scalar c) (ht : ∀ c ∈ t, Scalar c) :
    encode s = encode t ↔ s = t := by
  constructor
  · intro h
    rw [← decode_encode hs, h, decode_encode ht]
  · rintro rfl
    rfl

/-- Units behind which no pair ends are decoded on their own. -/
theorem decode_append (h : ∀ u ∈ t.head?, isTrail u = false) :
    decode (s ++ t) = decode s ++ decode t := by
  induction s using decode.induct with
  | case1 => rfl
  | case2 u =>
    cases t with
    | nil => rfl
    | cons v t =>
      have hv := h v rfl
      show decode (u :: v :: t) = u :: decode (v :: t)
      rw [decode, hv, Bool.and_false, if_neg Bool.false_ne_true]
  | case3 u v rest hpair ih =>
    rw [List.cons_append, List.cons_append, decode, if_pos hpair, decode, if_pos hpair, ih]
    rfl
  | case4 u v rest hpair ih =>
    rw [List.cons_append, List.cons_append, decode, if_neg hpair, decode, if_neg hpair,
      ← List.cons_append, ih]
    rfl

theorem decode_low (h : ∀ c ∈ s, c < 0xD800) : decode s = s := by
  have hself : encode s = s := encode_low fun c hc => (h c hc).trans (by omega)
  have hback := decode_encode fun c hc => .inl (h c hc)
  rwa [hself] at hback

/-! ## Ends -/

theorem dropWhile_encode (hp : ∀ c, 0xD800 ≤ c → p c = false) :
    (encode s).dropWhile p = encode (s.dropWhile p) := by
  induction s with
  | nil => rfl
  | cons c s ih =>
    rw [encode_cons]
    rcases Nat.lt_or_ge c 0x10000 with hlow | hhigh
    · rw [unitsOf_low hlow, List.singleton_append, List.dropWhile_cons, List.dropWhile_cons, ih]
      split
      · rfl
      · rw [encode_cons, unitsOf_low hlow, List.singleton_append]
    · have hc := hp c (by omega)
      have hlead := hp (0xD800 + (c - 0x10000) / 0x400) (by omega)
      rw [unitsOf_high hhigh, List.cons_append, List.dropWhile_cons, List.dropWhile_cons, hc, hlead,
        if_neg Bool.false_ne_true, if_neg Bool.false_ne_true, encode_cons, unitsOf_high hhigh]
      rfl

theorem rdropWhile_encode (hp : ∀ c, 0xD800 ≤ c → p c = false) :
    (encode s).rdropWhile p = encode (s.rdropWhile p) := by
  induction s using List.reverseRecOn with
  | nil => rfl
  | append_singleton s c ih =>
    have hlast : encode [c] = unitsOf c := List.flatMap_singleton _ _
    rw [encode_append, hlast]
    rcases Nat.lt_or_ge c 0x10000 with hlow | hhigh
    · rw [unitsOf_low hlow, List.rdropWhile_concat, List.rdropWhile_concat, ih]
      split
      · rfl
      · rw [encode_append, hlast, unitsOf_low hlow]
    · have hc := hp c (by omega)
      have htrail := hp (0xDC00 + (c - 0x10000) % 0x400) (by omega)
      rw [List.rdropWhile_concat, hc, if_neg Bool.false_ne_true, encode_append, hlast,
        unitsOf_high hhigh, List.append_cons, List.rdropWhile_concat, htrail,
        if_neg Bool.false_ne_true]

theorem takeWhile_encode (hp : ∀ c, 0xD800 ≤ c → p c = true) :
    (encode s).takeWhile p = encode (s.takeWhile p) := by
  induction s with
  | nil => rfl
  | cons c s ih =>
    rw [encode_cons]
    rcases Nat.lt_or_ge c 0x10000 with hlow | hhigh
    · rw [unitsOf_low hlow, List.singleton_append, List.takeWhile_cons, List.takeWhile_cons, ih]
      split
      · rw [encode_cons, unitsOf_low hlow, List.singleton_append]
      · rfl
    · have hc := hp c (by omega)
      have hlead := hp (0xD800 + (c - 0x10000) / 0x400) (by omega)
      have htrail := hp (0xDC00 + (c - 0x10000) % 0x400) (by omega)
      rw [unitsOf_high hhigh, List.cons_append, List.singleton_append, List.takeWhile_cons,
        List.takeWhile_cons, List.takeWhile_cons, hc, hlead, htrail, if_pos rfl, if_pos rfl,
        if_pos rfl, ih, encode_cons, unitsOf_high hhigh]
      rfl

/-- An end below the surrogates is one of the text. -/
theorem suffix_encode (hs : ∀ c ∈ s, Scalar c) (ht : ∀ c ∈ t, c < 0xD800) :
    t <:+ encode s ↔ t <:+ s := by
  have hself : encode t = t := encode_low fun c hc => (ht c hc).trans (by omega)
  constructor
  · rintro ⟨a, ha⟩
    have hhead : ∀ u ∈ t.head?, isTrail u = false := by
      intro u hu
      have hlow := ht u (List.mem_of_mem_head? hu)
      rw [isTrail, Bool.and_eq_false_iff, decide_eq_false_iff_not]
      omega
    have hdecoded := decode_append (s := a) hhead
    rw [ha, decode_encode hs, decode_low ht] at hdecoded
    exact ⟨decode a, hdecoded.symm⟩
  · rintro ⟨a, rfl⟩
    rw [encode_append, hself]
    exact List.suffix_append _ _

end Utf16
