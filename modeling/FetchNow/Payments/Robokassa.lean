import FetchNow.Payments.Models
import Mathlib.Algebra.Group.Nat.Defs
import Mathlib.Data.Nat.Log

/-! Amounts, receipts and signatures as the payment provider expects them. -/
namespace FetchNow

open Transactions

namespace Robokassa

def formatOutSum (amountMinor : Int) : Except Raised String := do
  require (0 < amountMinor) (.valueError "amount_minor must be a positive integer")
  let whole := amountMinor.toNat / 100
  let fractional := amountMinor.toNat % 100
  .ok (toString whole ++ "." ++ toString (fractional / 10) ++ toString (fractional % 10))

/-- A finite `decimal.Decimal`, `coefficient * 10 ^ exponent`. -/
structure Decimal where
  coefficient : Nat
  exponent : Int
  deriving DecidableEq, Repr

namespace Decimal

/-- The default context: 28 significant digits, half to even. -/
def precision : Nat := 28

def rounded (d : Decimal) : Decimal :=
  let digits := Nat.log 10 d.coefficient + 1
  if digits ≤ precision then d
  else
    let unit := 10 ^ (digits - precision)
    let quotient := d.coefficient / unit
    let remainder := d.coefficient % unit
    let up := unit < 2 * remainder ∨ unit = 2 * remainder ∧ quotient % 2 = 1
    ⟨if up then quotient + 1 else quotient, d.exponent + (digits - precision : Nat)⟩

/-- `value * n`. -/
def scale (d : Decimal) (n : Nat) : Decimal := rounded ⟨d.coefficient * n, d.exponent⟩

/-- `int(value)`, if `value == value.to_integral_value()`. -/
def integral? (d : Decimal) : Option Nat :=
  if 0 ≤ d.exponent then some (d.coefficient * 10 ^ d.exponent.toNat)
  else if 10 ^ (-d.exponent).toNat ∣ d.coefficient then
    some (d.coefficient / 10 ^ (-d.exponent).toNat)
  else none

end Decimal

/-- The digits before and after the point of a text that `_OUT_SUM` matches. -/
def outSumDigits (raw : List Char) : Option (List Char × List Char) :=
  let whole := raw.takeWhile Char.isDigit
  if whole = ['0'] ∨ whole ≠ [] ∧ whole.head? ≠ some '0' then
    match raw.dropWhile Char.isDigit with
    | [] => some (whole, [])
    | '.' :: fraction =>
      if fraction ≠ [] ∧ fraction.all Char.isDigit then some (whole, fraction) else none
    | _ => none
  else none

/-- `Decimal(raw)`. -/
def decimal (whole fraction : List Char) : Decimal :=
  ⟨(whole ++ fraction).foldl (fun n c => 10 * n + (c.toNat - '0'.toNat)) 0, -fraction.length⟩

def maxAmount : Nat := 9223372036854775807

def parseCallbackOutSum (raw : String) : Except Raised Int := do
  require (raw.length ≤ 64) (.paymentError .invalidCallback)
  match outSumDigits raw.toList with
  | none => .error (.paymentError .invalidCallback)
  | some (whole, fraction) =>
    match ((decimal whole fraction).scale 100).integral? with
    | none => .error (.paymentError .invalidCallback)
    | some amount =>
      require (0 < amount ∧ amount ≤ maxAmount) (.paymentError .invalidCallback)
      .ok amount

example : parseCallbackOutSum "199.00" = .ok 19900 := by rfl

example : parseCallbackOutSum "01.00" = .error (.paymentError .invalidCallback) := by rfl

/-- `json.dumps(value, ensure_ascii=False)` of a text without control characters. -/
def jsonString (value : String) : String :=
  "\"" ++ String.ofList (value.toList.flatMap fun c =>
    if c = '"' ∨ c = '\\' then ['\\', c] else [c]) ++ "\""

def callbackSignatureBase (rawOutSum : String) (invId : Nat) (password2 : String) : String :=
  rawOutSum ++ ":" ++ toString invId ++ ":" ++ password2

def isHexDigit (c : Char) : Bool :=
  c.isDigit || ('A' ≤ c && c ≤ 'F') || ('a' ≤ c && c ≤ 'f')

def signatureMatches (supplied expected : String) : Bool :=
  supplied.length = 64 && supplied.toList.all isHexDigit &&
    supplied.toList.map Char.toLower = expected.toList.map Char.toLower

end Robokassa

end FetchNow
