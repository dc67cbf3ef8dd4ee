import FetchNow.MediaInspection.Models
import FetchNow.Text.Json

/-!
# Numbers of a document

What `float` and `int` make of the numbers of the interpreter. The value of a float is a rational;
an operation on floats gives the float nearest to the exact result.
-/
namespace FetchNow

/-- An integer of this size or more has no nearest float. -/
@[irreducible] def floatOverflow : ℕ := 2 ^ 1024 - 2 ^ 970

/-- `float(n)`, where nothing stands for its `OverflowError`. -/
def intToFloat (n : ℤ) : Option ℚ :=
  if floatOverflow ≤ n.natAbs then none else some (n.sign * nearestFloat n.natAbs)

/-- The float nearest to a number that is not negative. -/
def roundToFloat (x : ℚ) : PyFloat :=
  let nearest := nearestFloat x
  if (floatOverflow : ℚ) ≤ nearest then .inf false else .finite nearest

/-- `int(x)` of a finite float. -/
def truncate (x : ℚ) : ℤ := if 0 ≤ x then x.floor else x.ceil

/-- An argument that is annotated as a float. -/
inductive PyNumber where
  | int (value : ℤ)
  | float (value : PyFloat)
  deriving DecidableEq

/-- `float(x)` -/
def PyNumber.toFloat : PyNumber → Option PyFloat
  | int value => (intToFloat value).map .finite
  | float value => some value

namespace PyFloat

/-- `abs(x - y)`, for a finite `x`. -/
def distance (x : ℚ) : PyFloat → PyFloat
  | finite y => roundToFloat |x - y|
  | inf _ => .inf false
  | nan => .nan

/-- `x > y` -/
def gt : PyFloat → PyFloat → Bool
  | finite x, finite y => y < x
  | finite _, inf negative => negative
  | inf negative, finite _ => !negative
  | inf false, inf true => true
  | _, _ => false

/-- `x <= y` -/
def le : PyFloat → PyFloat → Bool
  | nan, _ => false
  | _, nan => false
  | x, y => !x.gt y

theorem le_iff {x y : PyFloat} : x.le y = true ↔ x.gt y = false ∧ x ≠ .nan ∧ y ≠ .nan := by
  cases x <;> cases y <;> simp [le, gt]

theorem distance_eq_nan {x : ℚ} {y : PyFloat} : distance x y = .nan ↔ y = .nan := by
  cases y with
  | finite y =>
    refine iff_of_false (fun h => ?_) nofun
    unfold distance roundToFloat at h
    dsimp only at h
    split_ifs at h
  | inf negative => exact iff_of_false nofun nofun
  | nan => exact iff_of_true rfl rfl

end PyFloat

end FetchNow
