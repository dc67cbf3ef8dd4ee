import FetchNow.Basic
import Mathlib.Data.Rat.Defs

/-!
# Decoded JSON

What `json.loads` returns, and the results of the tools the dependency audit runs.
-/
namespace FetchNow.Audit

abbrev Str := List Char

/-- A decoded value. A float has no rational value if it is infinite or not a number; the keys of
an object are distinct. -/
inductive Json where
  | null
  | bool (value : Bool)
  | int (value : Int)
  | float (value : Option ℚ)
  | str (value : Str)
  | arr (items : List Json)
  | obj (fields : List (Str × Json))

namespace Json

/-- `d.get(key)`. -/
def get (fields : List (Str × Json)) (key : String) : Option Json := fields.lookup key.toList

theorem mem_of_lookup {fields : List (Str × Json)} {key : Str} {value : Json}
    (h : fields.lookup key = some value) : (key, value) ∈ fields := by
  obtain ⟨before, after, rfl, -⟩ := List.lookup_eq_some_iff.mp h
  simp

def asStr : Option Json → Option Str
  | some (str value) => some value
  | _ => none

/-- A string that is not empty. -/
def asNonemptyStr (value : Option Json) : Option Str := (asStr value).filter (· ≠ [])

def asArr : Option Json → Option (List Json)
  | some (arr items) => some items
  | _ => none

def asObj : Option Json → Option (List (Str × Json))
  | some (obj fields) => some fields
  | _ => none

/-- `isinstance(value, int)`, which a `bool` is too, as `f"{value}"` shows it. -/
def asIntText : Option Json → Option Str
  | some (int value) => some (toString value).toList
  | some (bool true) => some "True".toList
  | some (bool false) => some "False".toList
  | _ => none

/-- `value == 2`. -/
def isTwo : Option Json → Bool
  | some (int value) => value = 2
  | some (float (some value)) => value = 2
  | _ => false

/-- The value of a `_nonneg_int`. -/
def asNonnegInt : Option Json → Option ℕ
  | some (int (.ofNat value)) => some value
  | _ => none

/-- A list or nothing at all, as `or []` after a check reads it. -/
def asArrOrNull : Option Json → Option (List Json)
  | none | some null => some []
  | value => asArr value

theorem asStr_eq_some {value : Option Json} {s : Str} :
    asStr value = some s ↔ value = some (.str s) := by
  unfold asStr
  split <;> simp_all

theorem asNonemptyStr_eq_some {value : Option Json} {s : Str} :
    asNonemptyStr value = some s ↔ value = some (.str s) ∧ s ≠ [] := by
  simp [asNonemptyStr, Option.filter_eq_some_iff, asStr_eq_some]

theorem asArr_eq_some {value : Option Json} {items : List Json} :
    asArr value = some items ↔ value = some (.arr items) := by
  unfold asArr
  split <;> simp_all

theorem asObj_eq_some {value : Option Json} {fields : List (Str × Json)} :
    asObj value = some fields ↔ value = some (.obj fields) := by
  unfold asObj
  split <;> simp_all

end Json

/-- The codes of `ERROR_CODES` that a section or the run ends with. -/
inductive ErrorCode where
  | missingLock
  | lockStale
  | exportFailed
  | exportEmpty
  | exportParseError
  | exportSilentLoss
  | scannerTimeout
  | scannerCancelled
  | scannerOutputLimit
  | scannerEmptyOutput
  | scannerBadExit
  | scannerExitPayloadMismatch
  | jsonMalformed
  | jsonIncomplete
  | inventoryIncomplete
  | exceptionsMalformed
  | toolMissing
  | toolVersionMismatch
  | toolVersionUnreadable
  | boundedError
  deriving DecidableEq, Repr

/-- A function returns an error code, or an exception leaves it. -/
inductive Failure where
  | code (code : ErrorCode)
  | raised
  deriving DecidableEq, Repr

inductive Status where
  | clean
  | findings
  | timeout
  | cancelled
  | sourceUnavailable
  | scannerError
  | malformed
  | incomplete
  deriving DecidableEq, Repr

/-- The subclasses of `BoundedSubprocessError`. -/
inductive BoundedError where
  | timeout
  | cancelled
  | outputLimit
  | other
  deriving DecidableEq, Repr

/-- What a tool leaves. `payload` is its output decoded by `json.loads`, if that succeeds. -/
structure BoundedResult where
  returncode : Option Int
  stdoutBytes : ℕ
  stdoutText : Str
  payload : Option Json

abbrev Ran := Except BoundedError BoundedResult

end FetchNow.Audit
