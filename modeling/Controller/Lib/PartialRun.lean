import Mathlib.Data.List.Induction
import Mathlib.Tactic

/-!
# Runs of a partial step function

A system is a state type `σ`, an event type `ε` and a step function `σ → ε → Option σ`; a step
that is not enabled, or that has no defined outcome, is `none`.

* `run step s es` is the state after the events `es`, when all of them are defined;
* `Along step C s es` says that every step of that run meets the condition `C` on the state
  before the step and the event;
* `run_induction` is the invariant rule.  The invariant may also speak about the events so far,
  and a step may use that it met `C`;
* `length_add_rank_le` bounds runs of events that lower a rank;
* `outputs` lists what a step function with an output produces along a run, and
  `outputs_congr` compares two runs of it.
-/

namespace PartialRun

variable {σ ε ω : Type*}

/-- The state after a list of events (`none` once a step is undefined). -/
def run (step : σ → ε → Option σ) (s : σ) : List ε → Option σ
  | [] => some s
  | e :: es => (step s e).bind fun s' => run step s' es

/-- Every step of the run from `s` meets `C`. -/
def Along (step : σ → ε → Option σ) (C : σ → ε → Prop) (s : σ) : List ε → Prop
  | [] => True
  | e :: es => C s e ∧ ∀ s', step s e = some s' → Along step C s' es

section Basic

variable {step : σ → ε → Option σ} {C D : σ → ε → Prop} {s t u : σ} {e : ε} {es fs : List ε}

@[simp] theorem run_nil : run step s [] = some s := rfl

theorem run_cons : run step s (e :: es) = (step s e).bind fun s' => run step s' es := rfl

theorem run_append : run step s (es ++ fs) = (run step s es).bind fun t => run step t fs := by
  induction es generalizing s with
  | nil => rfl
  | cons e es ih =>
    rw [List.cons_append, run_cons, run_cons]
    cases step s e with
    | none => rfl
    | some s' => exact ih

theorem run_append_some (h : run step s es = some t) :
    run step s (es ++ fs) = run step t fs := by
  rw [run_append, h]; rfl

theorem run_singleton : run step s [e] = step s e := by
  rw [run_cons]
  cases step s e <;> rfl

theorem run_concat : run step s (es ++ [e]) = (run step s es).bind fun t => step t e := by
  simp only [run_append, run_singleton]

theorem run_concat_some (h : run step s (es ++ [e]) = some u) :
    ∃ t, run step s es = some t ∧ step t e = some u := by
  rw [run_concat] at h
  exact Option.bind_eq_some_iff.1 h

theorem Along.cons (hC : C s e) (ht : step s e = some t) (h : Along step C t es) :
    Along step C s (e :: es) := by
  refine ⟨hC, fun s' hs' => ?_⟩
  rw [ht] at hs'
  cases hs'
  exact h

/-- The condition at a step of the run, given by the events before it. -/
theorem Along.at_step (h : Along step C s (es ++ e :: fs)) (ht : run step s es = some t) :
    C t e := by
  induction es generalizing s with
  | nil => cases ht; exact h.1
  | cons e' es ih =>
    rw [run_cons] at ht
    obtain ⟨s', hs', ht⟩ := Option.bind_eq_some_iff.1 ht
    exact ih (h.2 s' hs') ht

/-- `Along` collects the condition at all steps of the run. -/
theorem along_iff : Along step C s es ↔
    ∀ pre e post t, es = pre ++ e :: post → run step s pre = some t → C t e := by
  constructor
  · rintro h pre e post t rfl ht
    exact h.at_step ht
  · intro h
    induction es generalizing s with
    | nil => exact trivial
    | cons e es ih =>
      refine ⟨h [] e es s rfl rfl, fun s' hs' => ih fun pre e' post t hes ht => ?_⟩
      refine h (e :: pre) e' post t (by rw [hes]; rfl) ?_
      rw [run_cons, hs']
      exact ht

/-- A condition on the events alone. -/
theorem along_of_forall (h : ∀ s, ∀ e ∈ es, C s e) : Along step C s es := by
  refine along_iff.2 fun pre e post t hes _ => h t e ?_
  rw [hes]
  simp

theorem Along.append_left (h : Along step C s (es ++ fs)) : Along step C s es := by
  rw [along_iff] at h ⊢
  rintro pre e post t rfl ht
  exact h pre e (post ++ fs) t (by simp) ht

theorem Along.append_right (h : Along step C s (es ++ fs)) (ht : run step s es = some t) :
    Along step C t fs := by
  rw [along_iff] at h ⊢
  rintro pre e post u rfl hu
  exact h (es ++ pre) e post u (by simp) (by rw [run_append_some ht]; exact hu)

theorem Along.and (hC : Along step C s es) (hD : Along step D s es) :
    Along step (fun s e => C s e ∧ D s e) s es := by
  rw [along_iff] at hC hD ⊢
  exact fun pre e post t hes ht => ⟨hC pre e post t hes ht, hD pre e post t hes ht⟩

theorem along_concat : Along step C s (es ++ [e]) ↔
    Along step C s es ∧ ∀ t, run step s es = some t → C t e := by
  constructor
  · intro h
    exact ⟨h.append_left, fun t ht => h.at_step ht⟩
  · rintro ⟨h, he⟩
    induction es generalizing s with
    | nil => exact ⟨he s rfl, fun _ _ => trivial⟩
    | cons e' es ih =>
      refine ⟨h.1, fun s' hs' => ih (h.2 s' hs') fun t ht => he t ?_⟩
      rw [run_cons, hs']
      exact ht

end Basic

/-- The invariant rule.  `P` may mention the events so far, and a step that the run takes is
known to meet `C`. -/
theorem run_induction {step : σ → ε → Option σ} {C : σ → ε → Prop} {s₀ : σ}
    (P : List ε → σ → Prop) (h0 : P [] s₀)
    (hstep : ∀ es s e s', run step s₀ es = some s → P es s → C s e → step s e = some s' →
      P (es ++ [e]) s')
    {es : List ε} (hC : Along step C s₀ es) {s : σ} (hs : run step s₀ es = some s) : P es s := by
  induction es using List.reverseRecOn generalizing s with
  | nil => cases hs; exact h0
  | append_singleton es e ih =>
    obtain ⟨t, ht, hte⟩ := run_concat_some hs
    exact hstep es t e s ht (ih hC.append_left ht) (hC.at_step ht) hte

/-- The invariant rule for a property of states and unconditional steps. -/
theorem run_invariant {step : σ → ε → Option σ} {s₀ : σ} (P : σ → Prop) (h0 : P s₀)
    (hstep : ∀ s e s', P s → step s e = some s' → P s') {es : List ε} {s : σ}
    (hs : run step s₀ es = some s) : P s := by
  induction es generalizing s₀ with
  | nil => cases hs; exact h0
  | cons e es ih =>
    rw [run_cons] at hs
    obtain ⟨s', hs', hs⟩ := Option.bind_eq_some_iff.1 hs
    exact ih (hstep _ _ _ h0 hs') hs

/-- A run of events that each lower a rank is no longer than the rank it starts with. -/
theorem length_add_rank_le {step : σ → ε → Option σ} (rank : σ → ℕ) (I : ε → Prop)
    (hdec : ∀ s e s', I e → step s e = some s' → rank s' < rank s) {es : List ε} {s t : σ}
    (hI : ∀ e ∈ es, I e) (h : run step s es = some t) : es.length + rank t ≤ rank s := by
  induction es generalizing s with
  | nil => cases h; simp
  | cons e es ih =>
    rw [run_cons] at h
    obtain ⟨s', hs', h⟩ := Option.bind_eq_some_iff.1 h
    have hlt := hdec s e s' (hI e (by simp)) hs'
    have hle := ih (fun e' he' => hI e' (by simp [he'])) h
    simp only [List.length_cons]
    omega

/-! ### Outputs -/

/-- The outputs of a run (`none` once a step is undefined). -/
def outputs (step : σ → ε → Option (σ × ω)) (s : σ) : List ε → Option (List ω)
  | [] => some []
  | e :: es => (step s e).bind fun r => (outputs step r.1 es).map (r.2 :: ·)

/-- Two runs produce the same outputs when a relation between their states forces equal outputs
and is kept by every step. -/
theorem outputs_congr {τ : Type*} {step : σ → ε → Option (σ × ω)} {step' : τ → ε → Option (τ × ω)}
    (R : σ → τ → Prop)
    (hR : ∀ s t e, R s t → ∃ s' t' o, step s e = some (s', o) ∧ step' t e = some (t', o) ∧ R s' t')
    {s : σ} {t : τ} (h : R s t) (es : List ε) : outputs step s es = outputs step' t es := by
  induction es generalizing s t with
  | nil => rfl
  | cons e es ih =>
    obtain ⟨s', t', o, hs, ht, hst⟩ := hR s t e h
    simp only [outputs, hs, ht, Option.bind_some]
    rw [ih hst]

end PartialRun
