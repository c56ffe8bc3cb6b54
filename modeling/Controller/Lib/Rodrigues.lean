import Controller.Lib.Numerals
import Mathlib.Analysis.SpecialFunctions.Trigonometric.Basic
import Mathlib.LinearAlgebra.Matrix.Notation
import Mathlib.Tactic

/-!
# Rotation vectors

The rotation with axis `v / |v|` and angle `|v|` (Rodrigues' formula): with `c = cos |v|`,
`s = sin |v|` and the unit axis `k`, the matrix `c 1 + (1 - c) k kᵀ + s [k]ₓ`.
The zero vector is the identity.
-/

namespace Rotation

open Real Matrix

/-- The length of a vector. -/
noncomputable def angle (v : Fin 3 → ℝ) : ℝ := √(v 0 ^ 2 + v 1 ^ 2 + v 2 ^ 2)

/-- The rotation about the unit axis `(x, y, z)` whose angle has cosine `c` and sine `s`. -/
def axisRotation {K : Type*} [CommRing K] (c s x y z : K) : Matrix (Fin 3) (Fin 3) K :=
  !![c + (1 - c) * x * x, (1 - c) * x * y - s * z, (1 - c) * x * z + s * y;
     (1 - c) * y * x + s * z, c + (1 - c) * y * y, (1 - c) * y * z - s * x;
     (1 - c) * z * x - s * y, (1 - c) * z * y + s * x, c + (1 - c) * z * z]

/-- The rotation matrix of a rotation vector. -/
noncomputable def rodrigues (v : Fin 3 → ℝ) : Matrix (Fin 3) (Fin 3) ℝ :=
  if angle v = 0 then 1
  else axisRotation (cos (angle v)) (sin (angle v)) (v 0 / angle v) (v 1 / angle v) (v 2 / angle v)

theorem angle_sq (v : Fin 3 → ℝ) : angle v ^ 2 = v 0 ^ 2 + v 1 ^ 2 + v 2 ^ 2 :=
  sq_sqrt (by positivity)

@[simp] theorem angle_zero : angle 0 = 0 := by simp [angle]

theorem rodrigues_zero : rodrigues 0 = 1 := if_pos angle_zero

/-- A rotation about a unit axis is orthogonal.  In the entry `(i, j)` the products with one factor
`s` cancel, and what is left is a multiple of the two hypotheses. -/
theorem axisRotation_orthogonal {K : Type*} [CommRing K] {c s x y z : K} (hcs : s ^ 2 + c ^ 2 = 1)
    (hk : x ^ 2 + y ^ 2 + z ^ 2 = 1) :
    axisRotation c s x y z * (axisRotation c s x y z)ᵀ = 1 := by
  ext i j
  fin_cases i <;> fin_cases j <;>
    simp [axisRotation, Matrix.mul_apply, Fin.sum_univ_three]
  · linear_combination ((1 - c) ^ 2 * x ^ 2 + s ^ 2) * hk + (1 - x ^ 2) * hcs
  · linear_combination (1 - c) ^ 2 * x * y * hk - x * y * hcs
  · linear_combination (1 - c) ^ 2 * x * z * hk - x * z * hcs
  · linear_combination (1 - c) ^ 2 * x * y * hk - x * y * hcs
  · linear_combination ((1 - c) ^ 2 * y ^ 2 + s ^ 2) * hk + (1 - y ^ 2) * hcs
  · linear_combination (1 - c) ^ 2 * y * z * hk - y * z * hcs
  · linear_combination (1 - c) ^ 2 * x * z * hk - x * z * hcs
  · linear_combination (1 - c) ^ 2 * y * z * hk - y * z * hcs
  · linear_combination ((1 - c) ^ 2 * z ^ 2 + s ^ 2) * hk + (1 - z ^ 2) * hcs

theorem rodrigues_orthogonal (v : Fin 3 → ℝ) : rodrigues v * (rodrigues v)ᵀ = 1 := by
  unfold rodrigues
  split_ifs with h
  · simp
  · refine axisRotation_orthogonal (sin_sq_add_cos_sq _) ?_
    have hsq := angle_sq v
    field_simp
    exact hsq.symm

@[simp] theorem angle_neg (v : Fin 3 → ℝ) : angle (-v) = angle v := by simp [angle]

/-- The opposite axis turns back. -/
theorem axisRotation_neg {K : Type*} [CommRing K] (c s x y z : K) :
    axisRotation c s (-x) (-y) (-z) = (axisRotation c s x y z)ᵀ := by
  ext i j
  fin_cases i <;> fin_cases j <;> simp [axisRotation] <;> ring

theorem rodrigues_neg (v : Fin 3 → ℝ) : rodrigues (-v) = (rodrigues v)ᵀ := by
  unfold rodrigues
  rw [angle_neg]
  split_ifs with h
  · simp
  · simp only [Pi.neg_apply, neg_div]
    exact axisRotation_neg _ _ _ _ _

/-- A rotation and its inverse move `(1, 1, 1)` to the same place only if the axis is the diagonal
or the sine of the angle vanishes: the difference is `2 s k × (1, 1, 1)`. -/
theorem axisRotation_ones_iff {K : Type*} [Field K] [CharZero K] {c s x y z : K} :
    axisRotation c s x y z *ᵥ ![1, 1, 1] = (axisRotation c s x y z)ᵀ *ᵥ ![1, 1, 1] ↔
      s = 0 ∨ x = y ∧ y = z := by
  have hvec : axisRotation c s x y z *ᵥ ![1, 1, 1] - (axisRotation c s x y z)ᵀ *ᵥ ![1, 1, 1] =
      ![2 * s * (y - z), 2 * s * (z - x), 2 * s * (x - y)] := by
    ext i
    fin_cases i <;> simp [axisRotation, mulVec, dotProduct, Fin.sum_univ_three] <;> ring
  rw [← sub_eq_zero, hvec]
  constructor
  · intro h
    have h0 : 2 * s * (y - z) = 0 := congrFun h 0
    have h2 : 2 * s * (x - y) = 0 := congrFun h 2
    rcases eq_or_ne s 0 with hs | hs
    · exact Or.inl hs
    · have h2s : 2 * s ≠ 0 := mul_ne_zero two_ne_zero hs
      exact Or.inr ⟨sub_eq_zero.1 ((mul_eq_zero.1 h2).resolve_left h2s),
        sub_eq_zero.1 ((mul_eq_zero.1 h0).resolve_left h2s)⟩
  · rintro (rfl | ⟨rfl, rfl⟩) <;> simp

theorem rodrigues_ones_iff (v : Fin 3 → ℝ) :
    rodrigues v *ᵥ ![1, 1, 1] = (rodrigues v)ᵀ *ᵥ ![1, 1, 1] ↔
      sin (angle v) = 0 ∨ v 0 = v 1 ∧ v 1 = v 2 := by
  unfold rodrigues
  split_ifs with h
  · simp [h]
  · rw [axisRotation_ones_iff, div_left_inj' h, div_left_inj' h]

/-- Half a turn about the third axis. -/
theorem rodrigues_half_turn : rodrigues ![0, 0, -π] = !![-1, 0, 0; 0, -1, 0; 0, 0, 1] := by
  have ha : angle ![0, 0, -π] = π := by
    simp only [angle, Matrix.cons_val]
    rw [show (0 : ℝ) ^ 2 + 0 ^ 2 + (-π) ^ 2 = π ^ 2 by ring]
    exact sqrt_sq pi_pos.le
  rw [rodrigues, if_neg (by rw [ha]; exact pi_ne_zero), ha]
  ext i j
  fin_cases i <;> fin_cases j <;> simp [axisRotation, pi_ne_zero]

end Rotation
