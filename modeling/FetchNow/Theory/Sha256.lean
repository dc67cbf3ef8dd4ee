import Mathlib.Data.List.Basic
import Mathlib.Tactic.IntervalCases

/-!
# SHA-256

The digest of a list of bytes, and its lower-case hexadecimal text.
-/
namespace FetchNow.Sha256

def constants : List UInt32 :=
  [0x428a2f98, 0x71374491, 0xb5c0fbcf, 0xe9b5dba5, 0x3956c25b, 0x59f111f1, 0x923f82a4, 0xab1c5ed5,
   0xd807aa98, 0x12835b01, 0x243185be, 0x550c7dc3, 0x72be5d74, 0x80deb1fe, 0x9bdc06a7, 0xc19bf174,
   0xe49b69c1, 0xefbe4786, 0x0fc19dc6, 0x240ca1cc, 0x2de92c6f, 0x4a7484aa, 0x5cb0a9dc, 0x76f988da,
   0x983e5152, 0xa831c66d, 0xb00327c8, 0xbf597fc7, 0xc6e00bf3, 0xd5a79147, 0x06ca6351, 0x14292967,
   0x27b70a85, 0x2e1b2138, 0x4d2c6dfc, 0x53380d13, 0x650a7354, 0x766a0abb, 0x81c2c92e, 0x92722c85,
   0xa2bfe8a1, 0xa81a664b, 0xc24b8b70, 0xc76c51a3, 0xd192e819, 0xd6990624, 0xf40e3585, 0x106aa070,
   0x19a4c116, 0x1e376c08, 0x2748774c, 0x34b0bcb5, 0x391c0cb3, 0x4ed8aa4a, 0x5b9cca4f, 0x682e6ff3,
   0x748f82ee, 0x78a5636f, 0x84c87814, 0x8cc70208, 0x90befffa, 0xa4506ceb, 0xbef9a3f7, 0xc67178f2]

def rotateRight (x n : UInt32) : UInt32 := x >>> n ||| x <<< (32 - n)

structure Registers where
  a : UInt32
  b : UInt32
  c : UInt32
  d : UInt32
  e : UInt32
  f : UInt32
  g : UInt32
  h : UInt32

def initial : Registers :=
  ⟨0x6a09e667, 0xbb67ae85, 0x3c6ef372, 0xa54ff53a, 0x510e527f, 0x9b05688c, 0x1f83d9ab, 0x5be0cd19⟩

def Registers.add (r s : Registers) : Registers :=
  ⟨r.a + s.a, r.b + s.b, r.c + s.c, r.d + s.d, r.e + s.e, r.f + s.f, r.g + s.g, r.h + s.h⟩

def Registers.words (r : Registers) : List UInt32 := [r.a, r.b, r.c, r.d, r.e, r.f, r.g, r.h]

/-- One round, with the sum of a round constant and a word of the schedule. -/
def round (r : Registers) (word : UInt32) : Registers :=
  let s1 := rotateRight r.e 6 ^^^ rotateRight r.e 11 ^^^ rotateRight r.e 25
  let choice := (r.e &&& r.f) ^^^ (~~~r.e &&& r.g)
  let first := r.h + s1 + choice + word
  let s0 := rotateRight r.a 2 ^^^ rotateRight r.a 13 ^^^ rotateRight r.a 22
  let majority := (r.a &&& r.b) ^^^ (r.a &&& r.c) ^^^ (r.b &&& r.c)
  ⟨first + s0 + majority, r.a, r.b, r.c, r.d + first, r.e, r.f, r.g⟩

/-- Prepend `n` words to a schedule whose last word comes first. -/
def extend : Nat → List UInt32 → List UInt32
  | 0, words => words
  | n + 1, words =>
    let w2 := words.getD 1 0
    let w15 := words.getD 14 0
    let s0 := rotateRight w15 7 ^^^ rotateRight w15 18 ^^^ w15 >>> 3
    let s1 := rotateRight w2 17 ^^^ rotateRight w2 19 ^^^ w2 >>> 10
    extend n ((words.getD 15 0 + s0 + words.getD 6 0 + s1) :: words)

def compress (r : Registers) (block : List UInt32) : Registers :=
  let schedule := (extend 48 block.reverse).reverse
  r.add ((List.zipWith (· + ·) constants schedule).foldl round r)

/-- The bytes of a number, most significant first. -/
def bigEndian (width n : Nat) : List UInt8 :=
  (List.range width).reverse.map fun i => UInt8.ofNat (n >>> (8 * i))

def pad (message : List UInt8) : List UInt8 :=
  message ++ 0x80 :: List.replicate ((119 - message.length % 64) % 64) 0 ++
    bigEndian 8 (8 * message.length)

def wordOf (bytes : List UInt8) : UInt32 :=
  bytes.foldl (fun word byte => word <<< 8 ||| byte.toUInt32) 0

def sha256 (message : List UInt8) : List UInt8 :=
  let words := ((pad message).toChunks 4).map wordOf
  ((words.toChunks 16).foldl compress initial).words.flatMap fun word => bigEndian 4 word.toNat

def hexDigit (n : Nat) : Char := Char.ofNat (if n < 10 then 48 + n else 87 + n)

/-- `hexdigest` of the UTF-8 encoding of a text. -/
def hexdigest (text : String) : List Char :=
  (sha256 text.toUTF8.data.toList).flatMap fun byte =>
    [hexDigit (byte.toNat / 16), hexDigit (byte.toNat % 16)]

/-- The lower-case hexadecimal digits. -/
def digits : List Char := "0123456789abcdef".toList

theorem hexDigit_mem {n : Nat} (h : n < 16) : hexDigit n ∈ digits := by
  interval_cases n <;> decide

theorem hexdigest_mem {text : String} {c : Char} (h : c ∈ hexdigest text) : c ∈ digits := by
  obtain ⟨byte, _, hc⟩ := List.mem_flatMap.mp h
  have hbyte := byte.toNat_lt
  rcases List.mem_pair.mp hc with rfl | rfl
  · exact hexDigit_mem (by omega)
  · exact hexDigit_mem (by omega)

end FetchNow.Sha256
