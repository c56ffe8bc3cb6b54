import Mathlib.Data.List.Basic
import Mathlib.Tactic.Common

/-!
# Programs that may stop halfway

A method that throws an exception leaves the object as it is at that moment.  `Prog σ` is such a
method: it returns (`ok`) or throws (`error`), and in both cases there is a state.  Methods are
put together with `>=>`, statement by statement.

`Triple P m Q E`: started in `P`, the program `m` returns in `Q` or throws in `E`.
-/

namespace Abort

variable {σ : Type}

/-- A method: the state when it returns, or the state in which it throws. -/
abbrev Prog (σ : Type) := σ → Except σ σ

/-- The state a call leaves behind, however it ends. -/
def final : Except σ σ → σ
  | .ok s => s
  | .error s => s

/-- The call returns in `Q` or throws in `E`. -/
def Ends (Q E : σ → Prop) : Except σ σ → Prop
  | .ok s => Q s
  | .error s => E s

/-- Started in `P`, the program returns in `Q` or throws in `E`. -/
def Triple (P : σ → Prop) (m : Prog σ) (Q E : σ → Prop) : Prop :=
  ∀ s, P s → Ends Q E (m s)

section

variable {m n : Prog σ} {P P' Q Q' R E E' I : σ → Prop} {s t : σ}

@[simp] theorem final_ok : final (.ok s) = s := rfl

@[simp] theorem final_error : final (.error s) = s := rfl

theorem seq_ok (h : m s = .ok t) : (m >=> n) s = n t := by
  simp only [Bind.kleisliRight, h]
  rfl

theorem seq_error (h : m s = .error t) : (m >=> n) s = .error t := by
  simp only [Bind.kleisliRight, h]
  rfl

theorem Triple.seq (hm : Triple P m Q E) (hn : Triple Q n R E) : Triple P (m >=> n) R E := by
  intro s hs
  have h := hm s hs
  cases hms : m s with
  | ok t =>
    rw [hms] at h
    rw [seq_ok hms]
    exact hn t h
  | error t =>
    rw [hms] at h
    rw [seq_error hms]
    exact h

theorem Ends.mono {r : Except σ σ} (h : Ends Q E r) (hQ : ∀ s, Q s → Q' s)
    (hE : ∀ s, E s → E' s) : Ends Q' E' r := by
  cases r with
  | ok t => exact hQ t h
  | error t => exact hE t h

theorem Triple.weaken (hm : Triple P m Q E) (hE : ∀ s, E s → E' s) : Triple P m Q E' :=
  fun s hs => (hm s hs).mono (fun _ h => h) hE

/-- A statement that cannot throw. -/
theorem Triple.pure {f : σ → σ} (h : ∀ s, P s → Q (f s)) : Triple P (fun s => .ok (f s)) Q E :=
  h

/-- An invariant of both outcomes holds of the state the call leaves behind. -/
theorem Ends.final {r : Except σ σ} (h : Ends I I r) : I (final r) := by
  cases r with
  | ok t => exact h
  | error t => exact h

theorem Triple.final (hm : Triple P m I I) (hs : P s) : I (final (m s)) :=
  Ends.final (hm s hs)

/-- A program that cannot return throws. -/
theorem Triple.throws (hm : Triple P m (fun _ => False) E) (hs : P s) :
    ∃ t, m s = .error t ∧ E t := by
  have h := hm s hs
  cases hms : m s with
  | ok t => rw [hms] at h; exact h.elim
  | error t => rw [hms] at h; exact ⟨t, rfl, h⟩

end

end Abort
