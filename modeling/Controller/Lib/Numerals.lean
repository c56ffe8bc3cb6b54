import Mathlib.Algebra.Order.Field.Basic

/-!
# Numerals

A numeral of a field carries a proof that it is at least two, and a numeral of `Fin n` one that `n` is
not zero.  Lean gives such a proof a name of its own in every module that needs it; with the instances
here the proofs of all modules are the same terms, so that a definition says the same whichever module
it is in.
-/

namespace Numerals

/-- A condition that evaluates to `true`. -/
class Holds (b : Bool) : Prop where
  eq_true : b = true

instance holds : Holds true := ⟨rfl⟩

/-- `2 ≤ n`, in a form that evaluates on a literal. -/
abbrev twoLe (n : ℕ) : Bool :=
  n.rec false fun m _ => m.rec false fun _ _ => true

instance atLeastTwo {n : ℕ} [h : Holds (twoLe n)] : Nat.AtLeastTwo n where
  prop := by
    cases n with
    | zero => exact absurd h.eq_true (by decide)
    | succ m =>
      cases m with
      | zero => exact absurd h.eq_true (by decide)
      | succ _ => omega

instance neZero_2 : NeZero 2 := inferInstance

instance neZero_3 : NeZero 3 := inferInstance

instance neZero_4 : NeZero 4 := inferInstance

end Numerals
