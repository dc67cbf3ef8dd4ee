import Mathlib.Algebra.GroupWithZero.Nat
import Mathlib.Data.List.Infix

/-!
# Prefixes of a text in UTF-8

The first bytes of an encoded text are an encoded text where they end with a character.
-/
namespace Utf8Prefix

/-- The bytes of a text. -/
def bytes (l : List Char) : List UInt8 := l.flatMap String.utf8EncodeChar

/-- The text of the bytes, if they are valid. -/
def read (bs : List UInt8) : Option (List Char) := (String.fromUTF8? ⟨bs.toArray⟩).map String.toList

/-- The characters whose bytes fit. -/
def fit : ℕ → List Char → List Char
  | _, [] => []
  | limit, c :: l => if c.utf8Size ≤ limit then c :: fit (limit - c.utf8Size) l else []

def size (l : List Char) : ℕ := (l.map Char.utf8Size).sum

variable {l l' : List Char} {bs : List UInt8} {m n : ℕ} {c : Char}

theorem bytes_append : bytes (l ++ l') = bytes l ++ bytes l' := List.flatMap_append

theorem size_cons : size (c :: l) = c.utf8Size + size l := List.sum_cons

theorem length_bytes : (bytes l).length = size l := by
  induction l with
  | nil => rfl
  | cons c l ih =>
    rw [bytes, List.flatMap_cons, List.length_append, String.length_utf8EncodeChar, size_cons, ← ih]
    rfl

theorem toByteArray_bytes : (⟨(bytes l).toArray⟩ : ByteArray) = l.utf8Encode := by
  rw [List.utf8Encode, ← bytes]
  apply ByteArray.ext
  simp

theorem read_eq_some : read bs = some l ↔ bs = bytes l := by
  rw [read, Option.map_eq_some_iff]
  constructor
  · rintro ⟨t, ht, rfl⟩
    rw [String.fromUTF8?] at ht
    split at ht
    · rename_i hvalid
      have hbytes : t.toByteArray = ⟨bs.toArray⟩ := by
        rw [← Option.some.inj ht]
        rfl
      rw [← String.utf8Encode_toList, ← toByteArray_bytes] at hbytes
      have harray := congrArg ByteArray.data hbytes
      exact (List.toArray_inj harray).symm
    · cases ht
  · rintro rfl
    refine ⟨String.ofList l, ?_, String.toList_ofList⟩
    have hvalid : (⟨(bytes l).toArray⟩ : ByteArray).IsValidUTF8 := by
      rw [toByteArray_bytes]
      exact ByteArray.isValidUTF8_utf8Encode
    rw [String.fromUTF8?, dif_pos hvalid, Option.some_inj, ← String.toByteArray_inj,
      String.toByteArray_ofList]
    exact toByteArray_bytes

theorem bytes_prefix (h : bytes l' <+: bytes l) : l' <+: l := by
  obtain ⟨rest, hrest⟩ := h
  apply List.isPrefix_of_utf8Encode_append_eq_utf8Encode ⟨rest.toArray⟩
  rw [← toByteArray_bytes, ← toByteArray_bytes, ← hrest]
  apply ByteArray.ext
  rw [ByteArray.data_append, List.append_toArray]

/-! ## What fits -/

theorem fit_prefix (n : ℕ) : fit n l <+: l := by
  induction l generalizing n with
  | nil => exact List.prefix_refl _
  | cons c l ih =>
    rw [fit]
    split
    · exact (List.cons_prefix_cons).mpr ⟨rfl, ih _⟩
    · exact List.nil_prefix

/-- A prefix of just this size is what fits. -/
theorem fit_of_prefix (h : l' <+: l) : fit (size l') l = l' := by
  induction l' generalizing l with
  | nil =>
    cases l with
    | nil => rfl
    | cons c l =>
      have hpos := c.utf8Size_pos
      rw [fit, if_neg]
      show ¬ c.utf8Size ≤ 0
      omega
  | cons c l' ih =>
    obtain ⟨rest, rfl⟩ := h
    rw [List.cons_append, fit, size_cons, if_pos (by omega), Nat.add_sub_cancel_left,
      ih (List.prefix_append l' rest)]

/-- What fits does not change before it is used up. -/
theorem fit_mono (h : size (fit m l) ≤ n) (hle : n ≤ m) : fit n l = fit m l := by
  induction l generalizing m n with
  | nil => rfl
  | cons c l ih =>
    rw [fit] at h
    rw [fit, fit]
    split at h
    · rename_i hm
      rw [size_cons] at h
      have hrest : fit (n - c.utf8Size) l = fit (m - c.utf8Size) l := ih (by omega) (by omega)
      rw [if_pos hm, if_pos (by omega), hrest]
    · rename_i hm
      rw [if_neg hm, if_neg (by omega)]

/-- The first bytes are read where they end with a character. -/
theorem read_take (hn : n ≤ size l) : read ((bytes l).take n) =
    if size (fit n l) = n then some (fit n l) else none := by
  have hlength : ((bytes l).take n).length = n := by
    rw [List.length_take, length_bytes]
    omega
  split
  · rename_i hsize
    rw [read_eq_some]
    obtain ⟨rest, hrest⟩ := fit_prefix (l := l) n
    have hbytes : bytes l = bytes (fit n l) ++ bytes rest := by
      rw [← bytes_append, hrest]
    rw [hbytes, List.take_left' (length_bytes.trans hsize)]
  · rename_i hsize
    cases hread : read ((bytes l).take n) with
    | none => rfl
    | some l' =>
      rw [read_eq_some] at hread
      have hprefix : l' <+: l := bytes_prefix (hread ▸ List.take_prefix n (bytes l))
      have hsize' : size l' = n := by rw [← length_bytes, ← hread, hlength]
      have hfit := fit_of_prefix hprefix
      rw [hsize'] at hfit
      exact absurd (hfit ▸ hsize') hsize

end Utf8Prefix
