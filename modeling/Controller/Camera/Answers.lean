import Controller.Camera.AsyncServiceHelper

/-!
# The answers of the loader

Every connection of a helper, and every binding that fails, asks for an answer.  `answers_accounted`
says what becomes of it: a report to `onManagerConnected`, a dialog that is still open, an installation
that was started without a report, or a dialog that vanished with its activity.
-/

namespace Controller
namespace OpenCVLoader

open PartialRun

section Tally

variable {s s' : State} {i : ℕ}

theorem any_onDestroy {p : Helper → Bool}
    (h : ∀ x, p { x with bound := false, connected := false } = p x) (s : State) (a j : ℕ) :
    (s.onDestroy a).helpers[j]?.any p = s.helpers[j]?.any p := by
  rw [onDestroy_helper]
  cases s.helpers[j]? with
  | none => rfl
  | some x =>
    simp only [Option.map_some, Option.any_some]
    split_ifs
    · exact h x
    · rfl

/-- The dialogs that went were of helpers of destroyed activities. -/
def Gone (s : State) : Prop := ∀ d ∈ s.vanished, ∃ a ∈ s.destroyed, s.belongs a d.1 = true

theorem Effect.belongs {q : Option Query} {status : Option Status} {released : Bool}
    (h : Effect s s' i q status released) (a j : ℕ) : s'.belongs a j = s.belongs a j := by
  unfold State.belongs
  rw [h.helpers]
  split
  · rw [any_modify]
    exact fun _ => rfl
  · rfl

theorem Gone.of_same (h : Gone s) (hv : s'.vanished = s.vanished) (hd : s'.destroyed = s.destroyed)
    (hb : ∀ a j, s.belongs a j = true → s'.belongs a j = true) : Gone s' := by
  intro d hmem
  rw [hv] at hmem
  obtain ⟨a, ha, hbel⟩ := h d hmem
  exact ⟨a, hd ▸ ha, hb a d.1 hbel⟩

theorem Gone.effect {q : Option Query} {status : Option Status} {released : Bool} (h : Gone s)
    (he : Effect s s' i q status released) : Gone s' :=
  h.of_same he.vanished he.destroyed fun a j hb => by rwa [he.belongs]

theorem Gone.newHelper (h : Gone s) (a : ℕ) (bindService : Bool) : Gone (s.newHelper a bindService) :=
  h.of_same rfl rfl fun b j hb => by
    unfold State.belongs at hb ⊢
    rw [State.newHelper, any_concat, hb]
    rfl

theorem Gone.noteConnection (h : Gone s) (engine : Bool) : Gone (s.noteConnection i engine) :=
  h.of_same rfl rfl fun a j hb => by
    unfold State.belongs State.noteConnection
    rwa [any_modify]
    exact fun _ => rfl

theorem Gone.onResume (h : Gone s) (a : ℕ) (info : Option (Option (List Char)))
    (load : List Char → Bool) (bindService : Bool) : Gone (s.onResume a info load bindService) := by
  unfold State.onResume
  dsimp only
  split
  · exact h
  · cases bindService with
    | true => exact Gone.newHelper (by exact h) a true
    | false =>
      obtain ⟨q, -, he⟩ := effect_initAsync { s with
        loaded := s.loaded ++ (loadLibraries load (packageLibraries info)).2 } a
      exact (Gone.newHelper (by exact h) a false).effect he

theorem Gone.onDestroy (h : Gone s) (a : ℕ) : Gone (s.onDestroy a) := by
  have hb : ∀ b j, (s.onDestroy a).belongs b j = s.belongs b j := by
    intro b j
    unfold State.belongs
    rw [any_onDestroy]
    exact fun _ => rfl
  intro d hd
  rcases List.mem_append.1 hd with hd | hd
  · obtain ⟨b, hmem, hbel⟩ := h d hd
    exact ⟨b, List.mem_cons_of_mem _ hmem, by rwa [hb]⟩
  · exact ⟨a, List.mem_cons_self, by rw [hb]; exact (List.mem_filter.1 hd).2⟩

theorem Gone.step {e : Event} (h : Gone s) (hstep : s.step e = some s') (halive : s'.died = false) :
    Gone s' := by
  obtain ⟨-, hcases⟩ := step_cases hstep halive
  rcases hcases with ⟨a, info, load, b, rfl, rfl⟩ | ⟨k, service, load, rfl, -, hk⟩ | ⟨k, rfl, rfl⟩ |
    ⟨k, q, positive, startActivity, answer, rfl, -, hk⟩ | ⟨k, status, rfl, rfl⟩ | ⟨a, rfl, rfl⟩
  · exact h.onResume a info load b
  · rcases effect_onServiceConnected hk with ⟨-, q, -, he⟩ | ⟨-, q, -, he⟩ | ⟨-, status, -, he, -⟩
    · exact (h.noteConnection false).effect he
    · exact (h.noteConnection true).effect he
    · exact (h.noteConnection true).effect he
  · refine h.of_same rfl rfl fun a j hb => ?_
    unfold State.belongs State.onServiceDisconnected
    rwa [any_modify]
    exact fun _ => rfl
  · obtain ⟨status, he, -, -⟩ := effect_click hk
    exact Gone.effect (by exact h) he
  · exact h
  · exact h.onDestroy a

end Tally

end OpenCVLoader
end Controller
