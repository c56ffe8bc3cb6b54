import Mathlib.Analysis.Convex.Combination
import Mathlib.Tactic

/-!
# Triangles and parallelograms

The parallelogram with corner `a` and neighbouring corners `b` and `c`, over an ordered field, and
its two triangles along the diagonal from `b` to `c`.  This is how a surface that is given face by
face becomes a list of triangles.

* `triangle_eq_half`: the points of a triangle, by two coordinates.
* `parallelogram_eq`: a parallelogram is its two triangles.
-/

namespace Triangles

variable (K : Type*) {E : Type*} [Field K] [LinearOrder K] [AddCommGroup E] [Module K E]

/-- The points `a + u (b - a) + v (c - a)` with `u` and `v` between zero and one. -/
def parallelogram (a b c : E) : Set E :=
  {x | ∃ u v : K, (0 ≤ u ∧ u ≤ 1) ∧ (0 ≤ v ∧ v ≤ 1) ∧ x = a + u • (b - a) + v • (c - a)}

/-- Those of them with `u + v ≤ 1`. -/
def half (a b c : E) : Set E :=
  {x | ∃ u v : K, 0 ≤ u ∧ 0 ≤ v ∧ u + v ≤ 1 ∧ x = a + u • (b - a) + v • (c - a)}

variable {K}

theorem left_mem_half [IsStrictOrderedRing K] (a b c : E) : a ∈ half K a b c :=
  ⟨0, 0, le_refl _, le_refl _, by norm_num, by simp⟩

theorem mid_mem_half [IsStrictOrderedRing K] (a b c : E) : b ∈ half K a b c :=
  ⟨1, 0, zero_le_one, le_refl _, by norm_num, by simp⟩

theorem right_mem_half [IsStrictOrderedRing K] (a b c : E) : c ∈ half K a b c :=
  ⟨0, 1, le_refl _, zero_le_one, by norm_num, by simp⟩

theorem convex_half [IsStrictOrderedRing K] (a b c : E) : Convex K (half K a b c) := by
  rintro x ⟨u, v, hu, hv, huv, rfl⟩ y ⟨u', v', hu', hv', huv', rfl⟩ r s hr hs hrs
  refine ⟨r * u + s * u', r * v + s * v', by positivity, by positivity, ?_, ?_⟩
  · calc r * u + s * u' + (r * v + s * v') = r * (u + v) + s * (u' + v') := by ring
      _ ≤ r * 1 + s * 1 := by gcongr
      _ = 1 := by rw [mul_one, mul_one, hrs]
  · obtain rfl : s = 1 - r := by linarith
    module

/-- The points of a triangle. -/
theorem triangle_eq_half [IsStrictOrderedRing K] (a b c : E) :
    convexHull K {a, b, c} = half K a b c := by
  apply Set.Subset.antisymm
  · refine convexHull_min ?_ (convex_half a b c)
    rintro x (rfl | rfl | rfl)
    · exact left_mem_half _ _ _
    · exact mid_mem_half _ _ _
    · exact right_mem_half _ _ _
  · rintro x ⟨u, v, hu, hv, huv, rfl⟩
    have hmem : ∀ y ∈ ({a, b, c} : Set E), y ∈ convexHull K {a, b, c} :=
      fun y hy => subset_convexHull K _ hy
    have hsum : ∑ i : Fin 3, (![1 - u - v, u, v] : Fin 3 → K) i • (![a, b, c] : Fin 3 → E) i ∈
        convexHull K {a, b, c} := by
      refine (convex_convexHull K _).sum_mem (fun i _ => ?_) ?_ fun i _ => hmem _ ?_
      · fin_cases i
        · exact sub_nonneg.2 (by simpa using le_sub_iff_add_le'.2 huv)
        · exact hu
        · exact hv
      · simp only [Fin.sum_univ_three, Matrix.cons_val_zero, Matrix.cons_val_one, Matrix.cons_val_two,
          Matrix.head_cons, Matrix.tail_cons]
        ring
      · fin_cases i <;> simp
    rw [Fin.sum_univ_three] at hsum
    convert hsum using 1
    simp only [Matrix.cons_val_zero, Matrix.cons_val_one, Matrix.cons_val_two, Matrix.head_cons,
      Matrix.tail_cons]
    module

/-- **A parallelogram is its two triangles** along the diagonal from `b` to `c`; `d` is the corner
opposite to `a`. -/
theorem parallelogram_eq [IsStrictOrderedRing K] {a b c d : E} (hd : d = b + c - a) :
    parallelogram K a b c = convexHull K {a, b, c} ∪ convexHull K {d, b, c} := by
  rw [triangle_eq_half, triangle_eq_half]
  apply Set.Subset.antisymm
  · rintro x ⟨u, v, ⟨hu, hu1⟩, ⟨hv, hv1⟩, rfl⟩
    rcases le_total (u + v) 1 with h | h
    · exact .inl ⟨u, v, hu, hv, h, rfl⟩
    · -- beyond the diagonal the coordinates are counted from `d`
      refine .inr ⟨1 - v, 1 - u, by linarith, by linarith, by linarith, ?_⟩
      rw [hd]
      module
  · rintro x (⟨u, v, hu, hv, h, rfl⟩ | ⟨u, v, hu, hv, h, rfl⟩)
    · exact ⟨u, v, ⟨hu, by linarith⟩, ⟨hv, by linarith⟩, rfl⟩
    · refine ⟨1 - v, 1 - u, ⟨by linarith, by linarith⟩, ⟨by linarith, by linarith⟩, ?_⟩
      rw [hd]
      module

end Triangles
