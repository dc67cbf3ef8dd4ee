import Mathlib.Data.List.Basic
import Mathlib.Data.Int.Init

/-!
# Texts as the interpreter has them

A `str` is a sequence of code points, lone surrogates among them. What `int`, `str.isdigit` and
`str.isspace` make of a code point past ASCII is a matter of the interpreter's Unicode tables.
-/
namespace FetchNow

/-- Texts are compared by their code points. -/
instance listNatLawful : LawfulBEq (List ℕ) := inferInstance

/-- A `str`, as its code points. -/
abbrev Str := List ℕ

def codePoint (c : Char) : ℕ := c.toNat

def codePoints (s : String) : Str := s.toList.map codePoint

/-- The tables of the Unicode version an interpreter is built with. -/
structure Unicode where
  /-- The value of a decimal digit past ASCII. -/
  decimal : ℕ → Option (Fin 10)
  /-- Any other digit past ASCII, such as a superscript. -/
  otherDigit : ℕ → Bool

namespace Text

/-- The white space of a C library, which `int` skips. -/
def isAsciiSpace (c : ℕ) : Bool := c == 32 || 9 ≤ c && c ≤ 13

/-- `str.isspace` of a single code point. -/
def isSpace (c : ℕ) : Bool :=
  isAsciiSpace c || 28 ≤ c && c ≤ 31 || c == 0x85 || c == 0xA0 || c == 0x1680 ||
    0x2000 ≤ c && c ≤ 0x200A || c == 0x2028 || c == 0x2029 || c == 0x202F || c == 0x205F ||
    c == 0x3000

def isAsciiDigit (c : ℕ) : Bool := 48 ≤ c && c ≤ 57

/-- `str.isdigit` of a single code point. -/
def isDigit (tables : Unicode) (c : ℕ) : Bool :=
  isAsciiDigit c || 127 < c && ((tables.decimal c).isSome || tables.otherDigit c)

/-- A code point as `int` sees it: other white space is a blank, other digits are ASCII ones. -/
def toAscii (tables : Unicode) (c : ℕ) : ℕ :=
  if c < 128 then c
  else if isSpace c then 32
  else match tables.decimal c with
    | some d => 48 + d
    | none => codePoint '?'

/-- The value of a digit, if it is below the base. -/
def digitValue (base c : ℕ) : Option ℕ :=
  let value :=
    if 48 ≤ c ∧ c ≤ 57 then some (c - 48)
    else if 65 ≤ c ∧ c ≤ 90 then some (c - 55)
    else if 97 ≤ c ∧ c ≤ 122 then some (c - 87)
    else none
  value.filter (· < base)

/-- Digits, single underscores between them, behind those that make up `value`. -/
def moreDigits (base : ℕ) : ℕ → Str → Option ℕ
  | value, [] => some value
  | value, c :: rest =>
    if c = codePoint '_' then
      match rest with
      | [] => none
      | d :: rest => (digitValue base d).bind fun v => moreDigits base (value * base + v) rest
    else (digitValue base c).bind fun v => moreDigits base (value * base + v) rest

def digits (base : ℕ) : Str → Option ℕ
  | [] => none
  | c :: rest => (digitValue base c).bind fun v => moreDigits base v rest

/-- A `0x` in front of a hexadecimal number, and an underscore behind it, are skipped. -/
def skipPrefix (base : ℕ) : Str → Str
  | 48 :: x :: rest =>
    if base = 16 ∧ (x = codePoint 'x' ∨ x = codePoint 'X') then
      match rest with
      | 95 :: rest => rest
      | rest => rest
    else 48 :: x :: rest
  | rest => rest

def trimmed (s : Str) : Str :=
  ((s.dropWhile isAsciiSpace).reverse.dropWhile isAsciiSpace).reverse

/-- `int(s, base)`; nothing stands for its `ValueError`. -/
def int (tables : Unicode) (base : ℕ) (s : Str) : Option ℤ :=
  match trimmed (s.map (toAscii tables)) with
  | 45 :: rest => (digits base (skipPrefix base rest)).map fun n : ℕ => -(n : ℤ)
  | 43 :: rest => (digits base (skipPrefix base rest)).map fun n : ℕ => (n : ℤ)
  | rest => (digits base (skipPrefix base rest)).map fun n : ℕ => (n : ℤ)

example : int ⟨fun _ => none, fun _ => false⟩ 16 (codePoints " -0x_fF ") = some (-255) := by
  decide +kernel

/-- `str.strip` -/
def stripped (s : Str) : Str := ((s.dropWhile isSpace).reverse.dropWhile isSpace).reverse

/-- `str.lower`, as far as ASCII comes of it: a capital dotted i becomes two code points and the
Kelvin sign a k; the lower case of any other code point past ASCII lies past ASCII. -/
def lowerPoint (c : ℕ) : Str :=
  if 65 ≤ c ∧ c ≤ 90 then [c + 32]
  else if c = 0x130 then [105, 0x307]
  else if c = 0x212A then [107]
  else [c]

def lower (s : Str) : Str := s.flatMap lowerPoint

/-- `\d` of a pattern: a decimal digit of any script. -/
def isDecimal (tables : Unicode) (c : ℕ) : Bool :=
  isAsciiDigit c || 127 < c && (tables.decimal c).isSome

/-- The texts before and after the first separator, if there is one. -/
def splitOnce (separator : ℕ) : Str → Option (Str × Str)
  | [] => none
  | c :: rest =>
    if c = separator then some ([], rest)
    else (splitOnce separator rest).map fun parts => (c :: parts.1, parts.2)

variable {text a b : Str} {separator : ℕ}

theorem splitOnce_eq_some_iff :
    splitOnce separator text = some (a, b) ↔ text = a ++ separator :: b ∧ separator ∉ a := by
  induction text generalizing a with
  | nil => simp [splitOnce]
  | cons c text ih =>
    rw [splitOnce]
    split_ifs with hc
    · cases a with
      | nil => simp [hc]
      | cons d a => simp +contextual [hc]
    · cases a with
      | nil => simp [hc]
      | cons d a =>
        constructor
        · intro h
          obtain ⟨⟨a₁, b₁⟩, hparts, he⟩ := Option.map_eq_some_iff.mp h
          simp only [Prod.mk.injEq, List.cons.injEq] at he
          obtain ⟨⟨rfl, rfl⟩, rfl⟩ := he
          obtain ⟨rfl, hmem⟩ := ih.mp hparts
          exact ⟨rfl, by simp [hmem, Ne.symm hc]⟩
        · rintro ⟨htext, hmem⟩
          rw [List.cons_append, List.cons.injEq] at htext
          obtain ⟨rfl, rfl⟩ := htext
          rw [ih.mpr ⟨rfl, fun hin => hmem (List.mem_cons_of_mem _ hin)⟩]
          rfl

theorem dropWhile_head {p : ℕ → Bool} (h : ∀ c ∈ text.head?, p c = false) :
    text.dropWhile p = text := by
  cases text with
  | nil => rfl
  | cons c text => exact List.dropWhile_cons_of_neg (by simp [h c rfl])

theorem stripped_eq_self (h : ∀ c ∈ text.head?, isSpace c = false)
    (h' : ∀ c ∈ text.getLast?, isSpace c = false) : stripped text = text := by
  rw [stripped, dropWhile_head h, dropWhile_head (by simpa using h'), List.reverse_reverse]

end Text

end FetchNow
