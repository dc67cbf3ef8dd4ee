import Mathlib.Tactic.Ring

/-!
# Rounding half to even

The multiple of a unit next to a natural number. Two facts determine it: it lies within half
a unit, and where two multiples do it is the even one.
-/
namespace Rounding

def halfEven (x unit : ℕ) : ℕ :=
  if unit < 2 * (x % unit) ∨ unit = 2 * (x % unit) ∧ x / unit % 2 = 1 then x / unit + 1
  else x / unit

/-- `y` lies within half a unit of `x`. -/
def Near (unit x y : ℕ) : Prop := 2 * x ≤ 2 * y + unit ∧ 2 * y ≤ 2 * x + unit

instance {unit x y : ℕ} : Decidable (Near unit x y) := inferInstanceAs (Decidable (_ ∧ _))

variable {unit x r : ℕ}

theorem near_self : Near unit x x := ⟨by omega, by omega⟩

theorem eq_of_near_one {y : ℕ} (h : Near 1 x y) : x = y := by
  obtain ⟨hlow, hhigh⟩ := h
  omega

theorem halfEven_near (hu : 0 < unit) : Near unit x (halfEven x unit * unit) := by
  have hx : x / unit * unit + x % unit = x := Nat.div_add_mod' x unit
  have hlt : x % unit < unit := Nat.mod_lt x hu
  simp only [halfEven]
  split_ifs with hup
  · have hs : (x / unit + 1) * unit = x / unit * unit + unit := by ring
    constructor <;> omega
  · constructor <;> omega

theorem halfEven_of_near (hr : r % 2 = 0) (h : Near unit x (r * unit)) (hu : 0 < unit) :
    halfEven x unit = r := by
  have hx : x / unit * unit + x % unit = x := Nat.div_add_mod' x unit
  have hlt : x % unit < unit := Nat.mod_lt x hu
  obtain ⟨hlow, hhigh⟩ := h
  rcases Nat.lt_trichotomy r (x / unit) with hless | heq | hmore
  · have hm : (r + 1) * unit ≤ x / unit * unit := Nat.mul_le_mul_right _ hless
    have hs : (r + 1) * unit = r * unit + unit := by ring
    omega
  · subst heq
    simp only [halfEven]
    rw [if_neg]
    rintro (hgt | ⟨-, hodd⟩) <;> omega
  · have hm : (x / unit + 1) * unit ≤ r * unit := Nat.mul_le_mul_right _ hmore
    have hs : (x / unit + 1) * unit = x / unit * unit + unit := by ring
    have hr' : r = x / unit + 1 := by
      by_contra hne
      have hm' : (x / unit + 2) * unit ≤ r * unit := Nat.mul_le_mul_right _ (by omega)
      have hs' : (x / unit + 2) * unit = x / unit * unit + 2 * unit := by ring
      omega
    subst hr'
    simp only [halfEven]
    rw [if_pos]
    by_cases hgt : unit < 2 * (x % unit)
    · exact Or.inl hgt
    · exact Or.inr ⟨by omega, by omega⟩

theorem halfEven_mul (hu : 0 < unit) : halfEven (r * unit) unit = r := by
  have hmod : r * unit % unit = 0 := Nat.mul_mod_left r unit
  have hdiv : r * unit / unit = r := Nat.mul_div_cancel r hu
  simp only [halfEven, hmod, hdiv]
  rw [if_neg]
  rintro (hgt | ⟨hgt, -⟩) <;> omega

@[simp] theorem halfEven_one : halfEven x 1 = x := by simpa using halfEven_mul (r := x) one_pos

end Rounding
