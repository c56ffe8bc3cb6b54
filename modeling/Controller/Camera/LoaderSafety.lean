import Controller.Camera.AsyncServiceHelper

/-!
# What the loader never does

* `reports_once`: unless the system hands out a null service, no helper reports twice, also when the
  OpenCV Manager dies and comes back, and one that has reported has released its connection.
* `loader_survives`: the app dies in no run in which the manager stays as long as a dialog about the
  library is open.
* `success_loaded`: `SUCCESS` is reported only once every library of the list is loaded, from the
  package or from the manager.
-/

namespace Controller
namespace OpenCVLoader

open PartialRun

/-! ### One report for each helper -/

/-- The reports of the helper `i` and its open dialogs about the OpenCV Manager. -/
def serviceTally (s : State) (i : ℕ) : ℕ := reported s i + asked (fun q => !q.library) s i

/-- A helper that is bound has neither, and none has two. -/
structure Once (s : State) : Prop where
  fresh : ∀ i, s.helpers.length ≤ i → serviceTally s i = 0
  bound : ∀ i, s.bound i = true → serviceTally s i = 0
  once : ∀ i, serviceTally s i ≤ 1

section Once

variable {s s' : State} {i : ℕ}

theorem Effect.serviceTally {q : Option Query} {status : Option Status} {released : Bool}
    (h : Effect s s' i q status released) (j : ℕ) :
    serviceTally s' j = serviceTally s j +
      if i = j then (q.any fun q => !q.library).toNat + status.isSome.toNat else 0 := by
  unfold OpenCVLoader.serviceTally
  rw [h.reported, h.asked]
  split_ifs <;> omega

theorem Effect.bound_eq {q : Option Query} {status : Option Status} {released : Bool}
    (h : Effect s s' i q status released) (j : ℕ) :
    s'.bound j = (s.bound j && !(released && decide (i = j))) := by
  unfold State.bound
  rw [h.helpers]
  cases released with
  | false => simp
  | true =>
    rw [if_pos rfl, List.getElem?_modify]
    by_cases hij : i = j
    · cases s.helpers[j]? <;> simp [hij]
    · simp [hij]

theorem Effect.length {q : Option Query} {status : Option Status} {released : Bool}
    (h : Effect s s' i q status released) : s'.helpers.length = s.helpers.length := by
  rw [h.helpers]
  split <;> simp

/-- A callback that reports at most once what it did not ask, and asks or reports for a helper with
nothing yet. -/
theorem Once.effect {q : Option Query} {status : Option Status} {released : Bool}
    (h : Once s) (he : Effect s s' i q status released) (hi : i < s.helpers.length)
    (hzero : serviceTally s i = 0)
    (hle : (q.any fun q => !q.library).toNat + status.isSome.toNat ≤ 1)
    (hbound : s'.bound i = true → (q.any fun q => !q.library).toNat + status.isSome.toNat = 0) :
    Once s' := by
  refine ⟨fun j hj => ?_, fun j hj => ?_, fun j => ?_⟩
  · rw [he.length] at hj
    have hij : i ≠ j := by omega
    rw [he.serviceTally, if_neg hij, h.fresh j hj]
  · have hb : s.bound j = true := by
      rw [he.bound_eq] at hj
      simp only [Bool.and_eq_true] at hj
      exact hj.1
    rw [he.serviceTally, h.bound j hb]
    split_ifs with hij
    · subst hij
      rw [hbound hj]
    · rfl
  · rw [he.serviceTally]
    split_ifs with hij
    · subst hij
      omega
    · have := h.once j
      omega

theorem once_init : Once State.init :=
  ⟨fun _ _ => rfl, fun _ _ => rfl, fun _ => Nat.zero_le 1⟩

/-- Less is reported and asked, and no helper is bound that was not. -/
theorem Once.of_le (h : Once s) (hle : ∀ j, serviceTally s' j ≤ serviceTally s j)
    (hlength : s'.helpers.length = s.helpers.length)
    (hbound : ∀ j, s'.bound j = true → s.bound j = true) : Once s' := by
  refine ⟨fun j hj => ?_, fun j hj => ?_, fun j => (hle j).trans (h.once j)⟩
  · exact Nat.le_zero.1 ((hle j).trans (h.fresh j (hlength ▸ hj)).le)
  · exact Nat.le_zero.1 ((hle j).trans (h.bound j (hbound j hj)).le)

/-- A new helper has neither reported nor asked. -/
theorem Once.newHelper (h : Once s) (a : ℕ) (bindService : Bool) :
    Once (s.newHelper a bindService) := by
  refine ⟨fun j hj => h.fresh j ?_, fun j hj => ?_, h.once⟩
  · simp only [State.newHelper, List.length_append, List.length_singleton] at hj
    omega
  · simp only [State.bound, State.newHelper, any_concat, Bool.or_eq_true, Bool.and_eq_true,
      decide_eq_true_eq] at hj
    rcases hj with hj | ⟨rfl, -⟩
    · exact h.bound j hj
    · exact h.fresh _ le_rfl

theorem Once.initAsync (h : Once s) (a : ℕ) (bindService : Bool) :
    Once (s.initAsync a bindService) := by
  cases bindService with
  | true => exact h.newHelper a true
  | false =>
    obtain ⟨q, hq, he⟩ := effect_initAsync s a
    refine (h.newHelper a false).effect he (by simp [State.newHelper]) (h.fresh _ le_rfl)
      (by simp [hq]) fun hb => ?_
    rw [he.bound_eq] at hb
    simp [State.bound, State.newHelper] at hb

theorem Once.onResume (h : Once s) (a : ℕ) (info : Option (Option (List Char)))
    (load : List Char → Bool) (bindService : Bool) : Once (s.onResume a info load bindService) := by
  unfold State.onResume
  dsimp only
  split
  · refine h.of_le (fun j => ?_) rfl fun _ hj => hj
    simp [serviceTally, reported, asked]
  · have h' : Once { s with
        loaded := s.loaded ++ (loadLibraries load (packageLibraries info)).2 } :=
      h.of_le (fun _ => le_rfl) rfl fun _ hj => hj
    exact h'.initAsync a bindService

theorem bound_lt (h : s.bound i = true) : i < s.helpers.length := by
  by_contra hi
  rw [State.bound, List.getElem?_eq_none (not_lt.1 hi)] at h
  cases h

theorem noteConnection_bound (engine : Bool) (j : ℕ) :
    (s.noteConnection i engine).bound j = s.bound j := by
  unfold State.bound State.noteConnection
  rw [any_modify]
  exact fun _ => rfl

theorem serviceTally_erase {q : Query} (h : (i, q) ∈ s.dialogs) (j : ℕ) :
    serviceTally { s with dialogs := s.dialogs.erase (i, q) } j +
      (if i = j ∧ q.library = false then 1 else 0) = serviceTally s j := by
  have ha := asked_erase h (fun q => !q.library) j
  have hr : reported { s with dialogs := s.dialogs.erase (i, q) } j = reported s j := rfl
  simp only [Bool.not_eq_true'] at ha
  unfold serviceTally
  omega

/-- A destroyed activity takes dialogs and connections with it. -/
theorem onDestroy_asked_le (s : State) (a : ℕ) (p : Query → Bool) (j : ℕ) :
    asked p (s.onDestroy a) j ≤ asked p s j :=
  List.filter_sublist.countP_le

theorem onDestroy_bound {a j : ℕ} (h : (s.onDestroy a).bound j = true) : s.bound j = true := by
  unfold State.bound at h ⊢
  rw [onDestroy_helper] at h
  cases hx : s.helpers[j]? with
  | none => simp [hx] at h
  | some x =>
    simp only [hx, Option.map_some, Option.any_some] at h ⊢
    split_ifs at h
    exact h

/-- One event keeps `Once`, unless it brings a null service. -/
theorem Once.step {e : Event} (h : Once s) (hnull : ∀ i load, e ≠ .onServiceConnected i none load)
    (hstep : s.step e = some s') (halive : s'.died = false) : Once s' := by
  obtain ⟨-, hcases⟩ := step_cases hstep halive
  rcases hcases with ⟨a, info, load, b, rfl, rfl⟩ | ⟨k, service, load, rfl, hb, hk⟩ | ⟨k, rfl, rfl⟩ |
    ⟨k, q, positive, startActivity, answer, rfl, hq, hk⟩ | ⟨k, status, rfl, rfl⟩ | ⟨a, rfl, rfl⟩
  · exact h.onResume a info load b
  · have hbound : s.bound k = true := by
      obtain ⟨x, hx, hp⟩ := (Option.any_eq_true _ _).1 hb
      exact (Option.any_eq_true _ _).2 ⟨x, hx, (Bool.and_eq_true_iff.1 hp).1⟩
    have h' : Once (s.noteConnection k true) :=
      h.of_le (fun _ => le_rfl) (by simp [State.noteConnection]) fun j hj => by
        rwa [noteConnection_bound] at hj
    have hi : k < (s.noteConnection k true).helpers.length := by
      simpa [State.noteConnection] using bound_lt hbound
    have hzero : serviceTally (s.noteConnection k true) k = 0 := h.bound k hbound
    rcases effect_onServiceConnected hk with ⟨hno, -⟩ | ⟨-, q, hq, he⟩ | ⟨-, status, -, he, -⟩
    · exact absurd (by rw [hno]) (hnull k load)
    · exact h'.effect he hi hzero (by simp [hq]) fun _ => by simp [hq]
    · refine h'.effect he hi hzero (by simp) fun hb => ?_
      rw [he.bound_eq] at hb
      simp at hb
  · refine h.of_le (fun _ => le_rfl) (by simp [State.onServiceDisconnected]) fun j hj => ?_
    unfold State.bound State.onServiceDisconnected at hj
    rwa [any_modify] at hj
    exact fun _ => rfl
  · obtain ⟨status, he, -, -⟩ := effect_click hk
    have herase := serviceTally_erase hq
    have h' : Once { s with dialogs := s.dialogs.erase (k, q) } :=
      h.of_le (fun j => by have := herase j; omega) rfl fun _ hj => hj
    have hstatus : status.isSome.toNat ≤ 1 := Bool.toNat_le _
    have hk0 := herase k
    cases hlib : q.library with
    | true =>
      rw [hlib] at he
      have hbound : s.bound k = true := he.bound rfl
      refine h'.effect he (bound_lt hbound) ?_ (by simpa using hstatus) fun hb => ?_
      · simpa [hlib, h.bound k hbound] using hk0
      · rw [he.bound_eq] at hb
        simp at hb
    | false =>
      rw [hlib] at he
      simp only [hlib, and_self, if_true] at hk0
      have hone := h.once k
      refine h'.effect he ?_ (by omega) (by simpa using hstatus) fun hb => ?_
      · by_contra hlt
        have := h.fresh k (not_lt.1 hlt)
        omega
      · rw [he.bound_eq] at hb
        have hbound : s.bound k = true := (Bool.and_eq_true_iff.1 hb).1
        have := h.bound k hbound
        omega
  · exact h.of_le (fun _ => le_rfl) rfl fun _ hj => hj
  · refine h.of_le (fun j => ?_) (by simp [State.onDestroy]) fun _ hj => onDestroy_bound hj
    exact Nat.add_le_add_left (onDestroy_asked_le s a _ j) _

end Once

/-- **One report for each helper.**  In every run in which the system never hands out a null service
and that has not ended the app, no `AsyncServiceHelper` has called `onManagerConnected` twice, and one
that has called it has released its connection. -/
theorem reports_once (es : List Event) (s : State) (hs : runLoader es = some s)
    (halive : s.died = false) (hnull : ∀ i load, .onServiceConnected i none load ∉ es) (i : ℕ) :
    reported s i ≤ 1 ∧ (0 < reported s i → s.bound i = false) := by
  have h : Once s := by
    refine run_induction (C := fun _ e => ∀ i load, e ≠ .onServiceConnected i none load)
      (fun _ s => s.died = false → Once s)
      (fun _ => once_init)
      (fun es t e t' _ ih hC hstep halive =>
        (ih (step_cases hstep halive).1).step hC hstep halive)
      (along_of_forall fun _ e he i load heq => hnull i load (by rwa [heq] at he)) hs halive
  have honce := h.once i
  unfold serviceTally at honce
  refine ⟨by omega, fun hpos => ?_⟩
  cases hb : s.bound i with
  | false => rfl
  | true =>
    have := h.bound i hb
    unfold serviceTally at this
    omega

/-- The OpenCV Manager dies and comes back while the dialog about the library is open. -/
def managerReturns : List Event :=
  [.onResume 0 none (fun _ => false) true,
    .onServiceConnected 0 (some ⟨some 2, some none, some none⟩) fun _ => false,
    .onServiceDisconnected 0,
    .onServiceConnected 0 (some ⟨some 2, some (some ['d']), some none⟩) fun _ => true]

/-- The helper has reported, though its dialog is still open. -/
theorem reports_once_managerReturns : ∃ s, runLoader managerReturns = some s ∧ s.died = false ∧
    (∀ i load, .onServiceConnected i none load ∉ managerReturns) ∧ reported s 0 ≤ 1 ∧
    (0 < reported s 0 → s.bound 0 = false) := by
  obtain ⟨s, hs, h0⟩ := Option.map_eq_some_iff.1
    (show (runLoader managerReturns).map (fun s => s.died) = some false by decide)
  have hnull : ∀ i load, .onServiceConnected i none load ∉ managerReturns := by
    intro i load h
    simp [managerReturns] at h
  exact ⟨s, hs, h0, hnull, reports_once _ s hs h0 hnull 0⟩

/-! ### The app survives -/

/-- The helper `i` is bound to a manager it can call. -/
def State.engaged (s : State) (i : ℕ) : Bool :=
  s.helpers[i]?.any fun h => h.bound && h.connected && h.mEngineService

/-- Every dialog about the library belongs to a helper with a manager, and is its only one. -/
structure Safe (s : State) : Prop where
  alive : s.died = false
  engaged : ∀ i, 0 < asked Query.library s i → s.engaged i = true
  single : ∀ i, asked Query.library s i ≤ 1

section Safe

variable {s s' : State} {i : ℕ}

theorem conclude_isSome (h : s.bound i = true) (status : Status) :
    (s.conclude i status).isSome = true := by
  simp [State.conclude, State.unbindService, h]

theorem unbindService_isSome (h : s.bound i = true) : (s.unbindService i).isSome = true := by
  simp [State.unbindService, h]

theorem engineConnected_isSome (h : s.bound i = true) (engine : Engine) (load : List Char → Bool) :
    (s.engineConnected i engine load).isSome = true := by
  unfold State.engineConnected
  dsimp only
  split
  · exact conclude_isSome (by exact h) _
  · split
    · exact conclude_isSome (by exact h) _
    · split
      · exact conclude_isSome (by exact h) _
      · rfl
      · rfl
      · split
        · exact conclude_isSome (by exact h) _
        · exact conclude_isSome (by exact h) _

theorem onServiceConnected_isSome (h : s.bound i = true) (service : Option Engine)
    (load : List Char → Bool) : (s.onServiceConnected i service load).isSome = true := by
  cases service with
  | none => rfl
  | some engine =>
    have hbound : (s.noteConnection i true).bound i = true := by rw [noteConnection_bound, h]
    exact engineConnected_isSome (by exact hbound) engine load

theorem click_isSome {q : Query} (h : q.library = true → s.engaged i = true)
    (startActivity : Bool) (answer : Option Bool) (positive : Bool) :
    (s.click i startActivity answer q positive).isSome = true := by
  have hbound : q.library = true → s.bound i = true ∧
      s.helpers[i]?.any (·.mEngineService) = true := by
    intro hq
    obtain ⟨x, hx, hp⟩ := (Option.any_eq_true _ _).1 (h hq)
    simp only [Bool.and_eq_true] at hp
    exact ⟨(Option.any_eq_true _ _).2 ⟨x, hx, hp.1.1⟩, (Option.any_eq_true _ _).2 ⟨x, hx, hp.2⟩⟩
  cases q with
  | installService => cases positive <;> cases startActivity <;> rfl
  | waitService => cases positive <;> rfl
  | installLibrary =>
    obtain ⟨hb, he⟩ := hbound rfl
    cases positive with
    | false => exact conclude_isSome (by exact hb) _
    | true =>
      simp only [State.click, State.installVersion, he, if_true, Option.bind_some]
      rcases answer with _ | _ | _
      · exact conclude_isSome hb _
      · exact conclude_isSome hb _
      · exact unbindService_isSome (by exact hb)
  | waitLibrary =>
    obtain ⟨hb, he⟩ := hbound rfl
    cases positive with
    | false => exact conclude_isSome (by exact hb) _
    | true =>
      simp only [State.click, State.installVersion, he, if_true, Option.bind_some]
      rcases answer with _ | _ | _
      · exact conclude_isSome hb _
      · exact unbindService_isSome (by exact hb)
      · exact unbindService_isSome hb

/-- What remains of a helper's dialogs about the library when the last of them is gone. -/
theorem Safe.of_asked (h : Safe s) (halive : s'.died = false)
    (hle : ∀ j, asked Query.library s' j ≤ asked Query.library s j)
    (hengaged : ∀ j, 0 < asked Query.library s' j → s.engaged j = true → s'.engaged j = true) :
    Safe s' :=
  ⟨halive, fun j hj => hengaged j hj (h.engaged j (hj.trans_le (hle j))),
    fun j => (hle j).trans (h.single j)⟩

theorem Effect.engaged {q : Option Query} {status : Option Status} {released : Bool}
    (h : Effect s s' i q status released) {j : ℕ} (hj : released = true → i ≠ j) :
    s'.engaged j = s.engaged j := by
  unfold State.engaged
  rw [h.helpers]
  cases released with
  | false => rfl
  | true =>
    rw [if_pos rfl, List.getElem?_modify]
    simp [hj rfl]

theorem modify_engaged {f : Helper → Helper} {t : State} (ht : t.helpers = s.helpers.modify i f)
    {j : ℕ} (hij : i ≠ j) : t.engaged j = s.engaged j := by
  unfold State.engaged
  rw [ht, List.getElem?_modify]
  simp [hij]

theorem Safe.onResume (h : Safe s) (a : ℕ) (info : Option (Option (List Char)))
    (load : List Char → Bool) (bindService : Bool) : Safe (s.onResume a info load bindService) := by
  have hnew : ∀ t : State, Safe t → Safe (t.newHelper a bindService) := by
    intro t ht
    refine ht.of_asked ht.alive (fun _ => le_rfl) fun j _ hj => ?_
    simp only [State.engaged, State.newHelper, any_concat] at hj ⊢
    rw [hj]
    rfl
  unfold State.onResume
  dsimp only
  split
  · exact h.of_asked h.alive (fun _ => le_rfl) fun _ _ hj => hj
  · have hload : Safe { s with
        loaded := s.loaded ++ (loadLibraries load (packageLibraries info)).2 } :=
      h.of_asked h.alive (fun _ => le_rfl) fun _ _ hj => hj
    have h' := hnew _ hload
    cases bindService with
    | true => exact h'
    | false =>
      obtain ⟨q, hq, he⟩ := effect_initAsync { s with
        loaded := s.loaded ++ (loadLibraries load (packageLibraries info)).2 } a
      refine h'.of_asked (he.died.trans h.alive) (fun j => ?_) fun j _ hj => ?_
      · rw [he.asked]
        simp [hq]
      · rw [he.engaged (by simp)]
        exact hj

/-- The OpenCV Manager does not go away from a dialog about the library. -/
def Stays (s : State) (e : Event) : Prop :=
  ∀ i, e = .onServiceDisconnected i → asked Query.library s i = 0

theorem orDie_of_isSome {r : Option State} (h : r.isSome = true) : r = some (s.orDie r) := by
  obtain ⟨t, rfl⟩ := Option.isSome_iff_exists.1 h
  rfl

theorem asked_pos {q : Query} {p : Query → Bool} (h : (i, q) ∈ s.dialogs) (hq : p q = true) :
    0 < asked p s i :=
  List.countP_pos_iff.2 ⟨(i, q), h, by simp [hq]⟩

theorem waiting_bound (h : s.helpers[i]?.any (fun h => h.bound && !h.connected) = true) :
    s.bound i = true ∧ s.engaged i = false := by
  obtain ⟨x, hx, hp⟩ := (Option.any_eq_true _ _).1 h
  simp only [Bool.and_eq_true, Bool.not_eq_true'] at hp
  exact ⟨(Option.any_eq_true _ _).2 ⟨x, hx, hp.1⟩, by simp [State.engaged, hx, hp.2]⟩

/-- No callback throws. -/
theorem Safe.step_alive {e : Event} (h : Safe s) (hstep : s.step e = some s') :
    s'.died = false := by
  obtain ⟨-, hcases⟩ := step_inv hstep
  rcases hcases with ⟨a, info, load, b, -, rfl⟩ | ⟨k, service, load, -, hk, rfl⟩ | ⟨k, -, rfl⟩ |
    ⟨k, q, positive, startActivity, answer, -, hq, rfl⟩ | ⟨k, status, -, rfl⟩ | ⟨a, -, rfl⟩
  · exact (h.onResume a info load b).alive
  · have hr := orDie_of_isSome (s := s)
      (onServiceConnected_isSome (waiting_bound hk).1 service load)
    rcases effect_onServiceConnected hr with ⟨-, q, -, he⟩ | ⟨-, q, -, he⟩ | ⟨-, status, -, he, -⟩ <;>
      exact he.died.trans h.alive
  · exact h.alive
  · have hengaged : q.library = true →
        State.engaged { s with dialogs := s.dialogs.erase (k, q) } k = true :=
      fun hlib => h.engaged k (asked_pos hq hlib)
    have hr := orDie_of_isSome (s := s) (click_isSome hengaged startActivity answer positive)
    obtain ⟨status, he, -, -⟩ := effect_click hr
    exact he.died.trans h.alive
  · exact h.alive
  · exact h.alive

/-- Its dialogs go with the activity, and the helpers of the others keep their manager. -/
theorem Safe.onDestroy (h : Safe s) (a : ℕ) : Safe (s.onDestroy a) := by
  refine h.of_asked h.alive (onDestroy_asked_le s a _) fun j hj hs => ?_
  obtain ⟨d, hd, hp⟩ := List.countP_pos_iff.1 hj
  have hdj : d.1 = j := of_decide_eq_true (Bool.and_eq_true_iff.1 hp).1
  have hother : s.belongs a j = false := by
    have := (List.mem_filter.1 hd).2
    rwa [hdj, Bool.not_eq_true'] at this
  unfold State.engaged at hs ⊢
  unfold State.belongs at hother
  rw [onDestroy_helper]
  cases hx : s.helpers[j]? with
  | none => simp [hx] at hs
  | some x =>
    simp only [hx, Option.any_some, decide_eq_false_iff_not] at hs hother
    simp only [Option.map_some, Option.any_some, if_neg hother, hs]

/-- A connection is answered for a helper without dialogs about the library. -/
theorem Safe.onServiceConnected {service : Option Engine} {load : List Char → Bool} (h : Safe s)
    (hi : s.helpers[i]?.any (fun h => h.bound && !h.connected) = true) (halive : s'.died = false)
    (hs' : s.onServiceConnected i service load = some s') : Safe s' := by
  obtain ⟨hbound, hidle⟩ := waiting_bound hi
  have hnone : asked Query.library s i = 0 := by
    by_contra hne
    rw [h.engaged i (Nat.pos_of_ne_zero hne)] at hidle
    cases hidle
  -- the other helpers are as before
  have hother : ∀ {engine q status released j},
      Effect (s.noteConnection i engine) s' i q status released → i ≠ j →
      s'.engaged j = s.engaged j := fun he hij =>
    (he.engaged fun _ => hij).trans (modify_engaged rfl hij)
  have hkeep : ∀ {engine q status released},
      Effect (s.noteConnection i engine) s' i q status released → q.any Query.library = false →
      Safe s' := by
    intro engine q status released he hq
    have hasked : ∀ j, asked Query.library s' j = asked Query.library s j := by
      intro j
      rw [he.asked, hq]
      simp [asked, State.noteConnection]
    refine h.of_asked halive (fun j => (hasked j).le) fun j hj hs => ?_
    have hij : i ≠ j := by
      rintro rfl
      rw [hasked, hnone] at hj
      exact absurd hj (by simp)
    rw [hother he hij, hs]
  rcases effect_onServiceConnected hs' with ⟨-, q, hq, he⟩ | ⟨-, q, hq, he⟩ | ⟨-, status, -, he, -⟩
  · exact hkeep he (by simp [hq])
  · have hasked : ∀ j, asked Query.library s' j =
        asked Query.library s j + if i = j then 1 else 0 := by
      intro j
      rw [he.asked]
      simp [asked, State.noteConnection, hq]
    refine ⟨halive, fun j hj => ?_, fun j => ?_⟩
    · by_cases hij : i = j
      · subst hij
        rw [he.engaged (by simp)]
        obtain ⟨x, hx, hp⟩ := (Option.any_eq_true _ _).1 hbound
        simp [State.engaged, State.noteConnection, hx, hp]
      · rw [hasked, if_neg hij] at hj
        rw [hother he hij, h.engaged j hj]
    · rw [hasked]
      have := h.single j
      by_cases hij : i = j
      · subst hij
        simp [hnone]
      · simpa [hij] using this
  · exact hkeep he rfl

theorem Safe.step {e : Event} (h : Safe s) (hC : Stays s e) (hstep : s.step e = some s') :
    Safe s' := by
  have halive := h.step_alive hstep
  obtain ⟨-, hcases⟩ := step_cases hstep halive
  rcases hcases with ⟨a, info, load, b, rfl, rfl⟩ | ⟨k, service, load, rfl, hk, hs'⟩ | ⟨k, rfl, rfl⟩ |
    ⟨k, q, positive, startActivity, answer, rfl, hq, hs'⟩ | ⟨k, status, rfl, rfl⟩ | ⟨a, rfl, rfl⟩
  · exact h.onResume a info load b
  · exact h.onServiceConnected hk halive hs'
  · refine h.of_asked h.alive (fun _ => le_rfl) fun j hj hs => ?_
    have hij : k ≠ j := by
      rintro rfl
      rw [show asked Query.library (s.onServiceDisconnected k) k = asked Query.library s k from rfl,
        hC k rfl] at hj
      exact absurd hj (by simp)
    rw [modify_engaged rfl hij, hs]
  · obtain ⟨status, he, -, -⟩ := effect_click hs'
    have hasked : ∀ j, asked Query.library s' j + (if k = j ∧ q.library = true then 1 else 0) =
        asked Query.library s j := by
      intro j
      rw [he.asked, ← asked_erase hq Query.library j]
      simp
    refine h.of_asked halive (fun j => by have := hasked j; omega) fun j hj hs => ?_
    rw [he.engaged, ← hs]
    · rfl
    · -- the only dialog of the helper has just been closed
      rintro hlib rfl
      have := hasked k
      have := h.single k
      simp only [hlib, and_self, if_true] at *
      omega
  · exact h.of_asked h.alive (fun _ => le_rfl) fun _ _ hs => hs
  · exact h.onDestroy a

end Safe

/-- **The app survives.**  In every run in which no OpenCV Manager goes away from a helper whose
dialog about the library is open, no callback of the loader throws: no connection is unbound twice
and no null engine is called. -/
theorem loader_survives (es : List Event) (s : State) (hstays : Along State.step Stays State.init es)
    (hs : runLoader es = some s) : s.died = false := by
  have h0 : Safe State.init := ⟨rfl, fun _ h => absurd h (by simp [asked, State.init]), fun _ => by
    simp [asked, State.init]⟩
  exact (run_induction (fun _ s => Safe s) h0 (fun _ _ _ _ _ h hC hstep => h.step hC hstep)
    hstays hs).alive

/-- A null service, then a manager that starts to install the library. -/
def managerLeaves : List Event :=
  [.onResume 0 none (fun _ => false) true, .onServiceConnected 0 none fun _ => false,
    .onServiceDisconnected 0,
    .onServiceConnected 0 (some ⟨some 2, some none, some none⟩) fun _ => false,
    .click 0 .installLibrary true true (some true)]

/-- The manager goes away before there is a dialog about the library. -/
theorem loader_survives_managerLeaves : ∃ s, runLoader managerLeaves = some s ∧
    Along State.step Stays State.init managerLeaves ∧ s.died = false := by
  have hother : ∀ {s : State} {e : Event}, (∀ i, e ≠ .onServiceDisconnected i) → Stays s e :=
    fun he i hi => absurd hi (he i)
  have hstays : Along State.step Stays State.init managerLeaves := by
    refine .cons (hother (by simp)) rfl (.cons (hother (by simp)) rfl (.cons ?_ rfl
      (.cons (hother (by simp)) rfl (.cons (hother (by simp)) rfl trivial))))
    rintro i ⟨⟩
    decide
  obtain ⟨s, hs, -⟩ := Option.map_eq_some_iff.1
    (show (runLoader managerLeaves).map (fun _ => ()) = some () by decide)
  exact ⟨s, hs, hstays, loader_survives _ s hstays hs⟩

/-! ### Success means loaded -/

/-- The event `e` is one after which a success may be reported, without a helper or for one, and the
libraries that it stands for are loaded: those of the package, or those that the manager has named. -/
def LoadedFor (e : Event) (loaded : List (List Char)) : Option ℕ → Prop
  | none => ∃ a info load bindService, e = .onResume a info load bindService ∧
      ∀ name ∈ packageLibraries info, name ∈ loaded
  | some i => ∃ engine load, e = .onServiceConnected i (some engine) load ∧ engine.Loaded loaded

/-- Nothing is unloaded, at most one report is new, and a success among it is justified. -/
structure Honest (e : Event) (s s' : State) : Prop where
  loaded : s.loaded ⊆ s'.loaded
  reports : s'.reports = s.reports ∨ ∃ r, s'.reports = s.reports ++ [r] ∧
    (r.2 = .success → LoadedFor e s'.loaded r.1)

section Honest

variable {e : Event} {s s' : State} {i : ℕ}

theorem Effect.honest {q : Option Query} {status : Option Status} {released : Bool}
    (h : Effect s s' i q status released)
    (hs : status = some .success → LoadedFor e s'.loaded (some i)) : Honest e s s' := by
  refine ⟨h.loaded, ?_⟩
  cases status with
  | none => exact .inl (by simpa using h.reports)
  | some status => exact .inr ⟨(some i, status), h.reports, fun heq => hs (congrArg some heq)⟩

theorem honest_onResume (s : State) (a : ℕ) (info : Option (Option (List Char)))
    (load : List Char → Bool) (bindService : Bool) :
    Honest (.onResume a info load bindService) s (s.onResume a info load bindService) := by
  have hmono : s.loaded ⊆ s.loaded ++ (loadLibraries load (packageLibraries info)).2 := by simp
  unfold State.onResume
  dsimp only
  split
  · rename_i hok
    refine ⟨hmono, .inr ⟨(none, .success), rfl, fun _ => ⟨a, info, load, bindService, rfl, ?_⟩⟩⟩
    intro name hn
    simp [loadLibraries_all hok, hn]
  · cases bindService with
    | true => exact ⟨hmono, .inl rfl⟩
    | false =>
      obtain ⟨q, -, he⟩ := effect_initAsync { s with
        loaded := s.loaded ++ (loadLibraries load (packageLibraries info)).2 } a
      have h : Honest (.onResume a info load false) _ _ := he.honest (by simp)
      exact ⟨fun _ hn => h.loaded (hmono hn), h.reports⟩

/-- A callback that throws has done nothing that counts. -/
theorem step_died (hstep : s.step e = some s') (hdied : s'.died = true) :
    s' = { s with died := true } := by
  obtain ⟨hs, hcases⟩ := step_inv hstep
  have hkeep : s'.died ≠ s.died := by simp [hs, hdied]
  have horDie : ∀ {r : Option State}, s' = s.orDie r → (∀ t, r = some t → t.died = s.died) →
      s' = { s with died := true } := by
    rintro r rfl hr
    cases r with
    | none => rfl
    | some t => exact absurd (hr t rfl) hkeep
  rcases hcases with ⟨a, info, load, b, -, rfl⟩ | ⟨k, service, load, -, -, hk⟩ | ⟨k, -, rfl⟩ |
    ⟨k, q, positive, startActivity, answer, -, -, hk⟩ | ⟨k, status, -, rfl⟩ | ⟨a, -, rfl⟩
  · refine absurd ?_ hkeep
    unfold State.onResume
    dsimp only
    split
    · rfl
    · cases b <;> rfl
  · refine horDie hk fun t ht => ?_
    rcases effect_onServiceConnected ht with ⟨-, q, -, he⟩ | ⟨-, q, -, he⟩ | ⟨-, status, -, he, -⟩ <;>
      exact he.died
  · exact absurd rfl hkeep
  · refine horDie hk fun t ht => ?_
    obtain ⟨status, he, -, -⟩ := effect_click ht
    exact he.died
  · exact absurd rfl hkeep
  · exact absurd rfl hkeep

theorem step_honest (hstep : s.step e = some s') : Honest e s s' := by
  have hsame : ∀ {t : State}, t.loaded = s.loaded → t.reports = s.reports → Honest e s t :=
    fun hl hr => ⟨fun _ hn => hl ▸ hn, .inl hr⟩
  cases hdied : s'.died with
  | false =>
    obtain ⟨-, hcases⟩ := step_cases hstep hdied
    rcases hcases with ⟨a, info, load, b, rfl, rfl⟩ | ⟨k, service, load, rfl, -, hs'⟩ |
      ⟨k, rfl, rfl⟩ | ⟨k, q, positive, startActivity, answer, rfl, -, hs'⟩ | ⟨k, status, rfl, rfl⟩ |
      ⟨a, rfl, rfl⟩
    · exact honest_onResume s a info load b
    · rcases effect_onServiceConnected hs' with ⟨-, q, -, he⟩ | ⟨-, q, -, he⟩ |
        ⟨engine, status, rfl, he, hloaded⟩
      · have h := he.honest (e := .onServiceConnected k service load) (by simp)
        exact ⟨h.loaded, h.reports⟩
      · have h := he.honest (e := .onServiceConnected k service load) (by simp)
        exact ⟨h.loaded, h.reports⟩
      · have h := he.honest (e := .onServiceConnected k (some engine) load) fun hs =>
          ⟨engine, load, rfl, hloaded (Option.some.inj hs)⟩
        exact ⟨h.loaded, h.reports⟩
    · exact hsame rfl rfl
    · obtain ⟨status, he, hno, -⟩ := effect_click hs'
      have h := he.honest (e := .click k q positive startActivity answer) fun hs => absurd hs hno
      exact ⟨h.loaded, h.reports⟩
    · exact hsame rfl rfl
    · exact hsame rfl rfl
  | true =>
    rw [step_died hstep hdied]
    exact hsame rfl rfl

end Honest

/-- **Success means loaded.**  In every run, also one that has ended the app, every `SUCCESS` that was
reported to the app was reported by one step, which no other report shares, and after this step the
libraries that it stands for are all loaded, and stay so: for the package's own, those of its list; for
a helper, those that a manager of a sufficient version has named in this step. -/
theorem success_loaded (es : List Event) (s : State) (hs : runLoader es = some s) (n : ℕ)
    (r : Option ℕ) (hr : s.reports[n]? = some (r, .success)) :
    ∃ pre e post t t', es = pre ++ e :: post ∧ runLoader pre = some t ∧ t.step e = some t' ∧
      t.reports = s.reports.take n ∧ t'.reports = t.reports ++ [(r, .success)] ∧
      LoadedFor e t'.loaded r ∧ t'.loaded ⊆ s.loaded := by
  refine run_induction (C := fun _ _ => True)
    (fun es s => ∀ n r, s.reports[n]? = some (r, .success) →
      ∃ pre e post t t', es = pre ++ e :: post ∧ runLoader pre = some t ∧ t.step e = some t' ∧
        t.reports = s.reports.take n ∧ t'.reports = t.reports ++ [(r, .success)] ∧
        LoadedFor e t'.loaded r ∧ t'.loaded ⊆ s.loaded)
    (fun _ _ h => absurd h (by simp [State.init])) (fun es s e s' hrun ih _ hstep n r hr => ?_)
    (along_of_forall fun _ _ _ => trivial) hs n r hr
  have h := step_honest hstep
  -- a report made before this step keeps its own
  have hold : s.reports[n]? = some (r, .success) → s.reports.take n = s'.reports.take n →
      ∃ pre e₀ post t t', es ++ [e] = pre ++ e₀ :: post ∧ runLoader pre = some t ∧
        t.step e₀ = some t' ∧ t.reports = s'.reports.take n ∧
        t'.reports = t.reports ++ [(r, .success)] ∧ LoadedFor e₀ t'.loaded r ∧
        t'.loaded ⊆ s'.loaded := by
    intro hn htake
    obtain ⟨pre, e₀, post, t, t', rfl, hpre, ht, hreports, ht', hl, hmono⟩ := ih n r hn
    exact ⟨pre, e₀, post ++ [e], t, t', by simp, hpre, ht, hreports.trans htake, ht', hl,
      fun _ hm => h.loaded (hmono hm)⟩
  rcases h.reports with hsame | ⟨r', hnew, hloaded⟩
  · exact hold (hsame ▸ hr) (by rw [hsame])
  · rw [hnew] at hr
    rcases Nat.lt_or_ge n s.reports.length with hlt | hge
    · rw [List.getElem?_append_left hlt] at hr
      exact hold hr (by rw [hnew, List.take_append_of_le_length hlt.le])
    · have hn : n = s.reports.length := by
        have := (List.getElem?_eq_some_iff.1 hr).1
        simp only [List.length_append, List.length_singleton] at this
        omega
      subst hn
      simp only [List.getElem?_concat_length, Option.some.injEq] at hr
      subst hr
      exact ⟨es, e, [], s, s', rfl, hrun, hstep, by simp [hnew], hnew, hloaded rfl, fun _ hm => hm⟩

/-- The manager that comes back offers a library, and it is loaded. -/
theorem success_loaded_managerReturns : ∃ s, runLoader managerReturns = some s ∧
    s.reports[0]? = some (some 0, .success) ∧
    ∃ pre e post t t', managerReturns = pre ++ e :: post ∧ runLoader pre = some t ∧
      t.step e = some t' ∧ t.reports = s.reports.take 0 ∧
      t'.reports = t.reports ++ [(some 0, .success)] ∧ LoadedFor e t'.loaded (some 0) ∧
      t'.loaded ⊆ s.loaded := by
  obtain ⟨s, hs, h0⟩ := Option.map_eq_some_iff.1
    (show (runLoader managerReturns).map (fun s => s.reports) = some [(some 0, .success)] by decide)
  have hr : s.reports[0]? = some (some 0, .success) := by rw [h0]; rfl
  exact ⟨s, hs, hr, success_loaded _ s hs 0 (some 0) hr⟩

end OpenCVLoader
end Controller
