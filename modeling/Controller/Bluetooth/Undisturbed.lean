import Controller.Bluetooth.Superseded

/-!
# Runs that superseded workers do not disturb

`Undisturbed` is what one would like of a run: superseded workers have no effect, a stopped service
stays stopped until the next client call, and a reader that `connect` has cancelled does not undo
it.

A `ConnectThread` that has reset `mConnectThread` and has not yet called `connected` is in no field,
so `stop()` cannot cancel it.  A run is undisturbed exactly when no step of it is that of a
superseded worker that makes a difference, nor that of such a `ConnectThread` on a stopped service
(`Calm`): `undisturbed_iff`.  `stop_disturbed` is a run that is disturbed.
-/

namespace Controller.Bluetooth

open Abort PartialRun

/-- `mState` and all three fields are as `stop()` sets them. -/
structure Stopped (s : Service) : Prop where
  mState : s.mState = .stateNone
  mAcceptThread : s.mAcceptThread = none
  mConnectThread : s.mConnectThread = none
  mConnectedThread : s.mConnectedThread = none

/-- A client call that starts something. -/
def Action.Starts : Action → Prop
  | .start _ => True
  | .connect _ => True
  | _ => False

/-- What one would like of a run. -/
structure Undisturbed (as : List Action) : Prop where
  superseded : ∀ pre a post s s', as = pre ++ a :: post → runService pre = some s →
    step s a = some s' → Superseded s a → NoEffect s s'
  stopped : ∀ pre e mid post s t u, as = pre ++ .stop e :: (mid ++ post) →
    runService pre = some s → stop e s = .ok t → (∀ a ∈ mid, ¬ a.Starts) →
    run step t mid = some u → Stopped u
  connecting : ∀ pre e mid i a post s t u u',
    as = pre ++ .connect e :: (mid ++ .connectedThread i a :: post) → runService pre = some s →
    s.mState = .stateConnected → s.mConnectedThread = some i → connect e s = .ok t →
    run step t mid = some u → step u (.connectedThread i a) = some u' → SameFields u u'

/-- A `ConnectThread` that has reset `mConnectThread` itself calls `connected()`. -/
def HandsOver (s : Service) : Action → Prop
  | .connectThread j (.connected _) =>
    ∃ t : ConnectThread, s.connects[j]? = some t ∧ t.pc = .reset true
  | _ => False

/-- The steps that disturb nothing. -/
structure Calm (s : Service) (a : Action) : Prop where
  idle : Superseded s a → Idle s a
  noHandOver : s.mState = .stateNone → ¬ HandsOver s a

/-! ### A stopped service -/

section Stop

variable {s t s' : Service}

theorem stop_stopped (e : Env) (s : Service) : Ends Stopped (fun _ => True) (stop e s) := by
  refine Triple.seq (P := fun _ => True) (Q := fun t => t.mConnectThread = none) ?_
    (Triple.seq (Q := fun t => t.mConnectThread = none ∧ t.mConnectedThread = none) ?_
      (Triple.seq (Q := fun t => t.mConnectThread = none ∧ t.mConnectedThread = none ∧
        t.mAcceptThread = none) ?_
        (triple_setState fun t ht => ⟨rfl, ht.2.2, ht.1, ht.2.1⟩))) s trivial
  · exact triple_cancelField (fun t _ hj => hj) (fun _ _ _ _ _ => trivial) fun _ _ _ _ _ _ => rfl
  · exact triple_cancelField (fun t ht hd => ⟨ht, hd⟩) (fun _ _ _ _ _ => trivial)
      fun t _ _ ht _ _ => ⟨ht, rfl⟩
  · exact triple_cancelField (fun t ht ha => ⟨ht.1, ht.2, ha⟩) (fun _ _ _ _ _ => trivial)
      fun t _ _ ht _ _ => ⟨ht.1, ht.2, rfl⟩

/-- On a stopped service no method throws. -/
theorem Stopped.cancel (h : Stopped s) (e : Env) :
    cancelConnectThread e s = .ok s ∧ cancelConnectedThread e s = .ok s ∧
      cancelAcceptThread e s = .ok s :=
  ⟨cancelField_none h.mConnectThread, cancelField_none h.mConnectedThread,
    cancelField_none h.mAcceptThread⟩

theorem Stopped.stop (h : Stopped s) (e : Env) :
    Bluetooth.stop e s = .ok { s with mState := .stateNone } := by
  obtain ⟨h1, h2, h3⟩ := h.cancel e
  rw [Bluetooth.stop, seq_ok h1, seq_ok h2, seq_ok h3]
  rfl

theorem Stopped.starts (h : Stopped s) {a : Action} (ha : a.Starts) (hstep : step s a = some s') :
    s'.mState ≠ .stateNone := by
  cases a with
  | start e =>
    obtain ⟨h1, h2, -⟩ := h.cancel e
    obtain ⟨t, h3⟩ : ∃ t, startAcceptThread e s = .ok t := by
      simp [startAcceptThread, h.mAcceptThread]
    have hm : start e s = .ok { t with mState := .stateListen } := by
      rw [start, seq_ok h1, seq_ok h2, seq_ok h3]
      rfl
    simp only [step, hm, final_ok, Option.some.injEq] at hstep
    rw [← hstep]
    simp
  | connect e =>
    obtain ⟨-, h2, -⟩ := h.cancel e
    have h1 : cancelConnecting e s = .ok s := by simp [cancelConnecting, h.mState]
    obtain ⟨t, h3⟩ : ∃ t, startConnectThread e s = .ok t := ⟨_, rfl⟩
    have hm : connect e s = .ok { t with mState := .stateConnecting } := by
      rw [connect, seq_ok h1, seq_ok h2, seq_ok h3]
      rfl
    simp only [step, hm, final_ok, Option.some.injEq] at hstep
    rw [← hstep]
    simp
  | stop e => exact ha.elim
  | write => exact ha.elim
  | initMainUi => exact ha.elim
  | acceptThread i a => exact ha.elim
  | connectThread j a => exact ha.elim
  | connectedThread i a => exact ha.elim

/-- A `ConnectThread` that has reset the field can only hand its socket over. -/
theorem connectStep_of_reset {j : ℕ} {t : ConnectThread} {a : ConnectAct} {own : Bool}
    (hpc : t.pc = .reset own) (hstep : connectStep s j t a = some s') : ∃ e, a = .connected e := by
  rcases connectStep_cases hstep with ⟨_, _, hpc', _⟩ | ⟨_, hpc', _⟩ | ⟨_, hpc', _⟩ |
    ⟨_, _, _, hpc', _⟩ | ⟨_, _, hpc', _⟩ | ⟨_, hpc', _⟩ | ⟨e, _, _, rfl, _⟩
  · rw [hpc] at hpc'; cases hpc'
  · rw [hpc] at hpc'; cases hpc'
  · rw [hpc] at hpc'; cases hpc'
  · rw [hpc] at hpc'; cases hpc'
  · rw [hpc] at hpc'; cases hpc'
  · rw [hpc] at hpc'; cases hpc'
  · exact ⟨e, rfl⟩

/-- A calm step of anybody but the client leaves a stopped service stopped. -/
theorem Stopped.step (h : Stopped s) (hs : Placed s) {a : Action} (hcalm : Calm s a)
    (ha : ¬ a.Starts) (hstep : Bluetooth.step s a = some s') : Stopped s' := by
  have hkeep : Superseded s a → Stopped s' := by
    intro hsup
    have hf := ((noEffect_iff_idle hs hsup hstep).2 (hcalm.idle hsup)).fields
    exact ⟨hf.1.trans h.1, hf.2.trans h.2, hf.3.trans h.3, hf.4.trans h.4⟩
  cases a with
  | start e => exact absurd trivial ha
  | connect e => exact absurd trivial ha
  | stop e =>
    cases hstep
    rw [h.stop e]
    exact ⟨rfl, h.mAcceptThread, h.mConnectThread, h.mConnectedThread⟩
  | write =>
    cases hstep
    exact h
  | initMainUi =>
    cases hstep
    exact ⟨h.1, h.2, h.3, h.4⟩
  | acceptThread i a => exact hkeep (by simp [Superseded, h.mAcceptThread])
  | connectThread j a =>
    by_cases hown : ∃ t : ConnectThread, s.connects[j]? = some t ∧ t.pc = .reset true
    · -- such a thread can only hand its socket over, and it does not
      obtain ⟨t, ht, hpc⟩ := hown
      obtain ⟨u, hu, hst⟩ := Option.bind_eq_some_iff.1 hstep
      rw [ht] at hu
      cases hu
      obtain ⟨e, rfl⟩ := connectStep_of_reset hpc hst
      exact absurd ⟨t, ht, hpc⟩ (hcalm.noHandOver h.mState)
    · refine hkeep ⟨by simp [h.mConnectThread], fun t ht hpc => hown ⟨t, ht, hpc⟩⟩
  | connectedThread i a => exact hkeep (by simp [Superseded, h.mConnectedThread])

/-- A `ConnectThread` that hands its socket over to a stopped service makes it connected. -/
theorem Stopped.handsOver (h : Stopped s) {a : Action} (ha : HandsOver s a)
    (hstep : Bluetooth.step s a = some s') : s'.mState = .stateConnected := by
  cases a with
  | connectThread j a =>
    obtain ⟨t, -, hst⟩ := Option.bind_eq_some_iff.1 hstep
    rcases connectStep_cases hst with ⟨_, rfl, _⟩ | ⟨rfl, _⟩ | ⟨rfl, _⟩ | ⟨_, _, rfl, _⟩ |
      ⟨_, rfl, _⟩ | ⟨rfl, _⟩ | ⟨e, k, own, rfl, _, _, rfl⟩
    · exact ha.elim
    · exact ha.elim
    · exact ha.elim
    · exact ha.elim
    · exact ha.elim
    · exact ha.elim
    · have hr : Stopped { s with passed := k :: s.passed } := ⟨h.1, h.2, h.3, h.4⟩
      obtain ⟨h1, h2, h3⟩ := hr.cancel e
      have h0 : recordPassed k s = .ok { s with passed := k :: s.passed } := rfl
      have h4 : ∃ t, startConnectedThread e k { s with passed := k :: s.passed } = .ok t := ⟨_, rfl⟩
      obtain ⟨u, h4⟩ := h4
      rw [connected, seq_ok h0, seq_ok h1, seq_ok h2, seq_ok h3, seq_ok h4]
      rfl
  | start e => exact ha.elim
  | connect e => exact ha.elim
  | stop e => exact ha.elim
  | write => exact ha.elim
  | initMainUi => exact ha.elim
  | acceptThread i a => exact ha.elim
  | connectedThread i a => exact ha.elim

end Stop

/-! ### A reader that was let go of -/

/-- The `ConnectedThread` at `i` exists and is not the current one. -/
structure Gone (i : ℕ) (s : Service) : Prop where
  lt : i < s.connecteds.length
  mConnectedThread : s.mConnectedThread ≠ some i

section Gone

variable {s t s' : Service} {i : ℕ}

theorem KeepsConnected.gone (h : KeepsConnected s t) (hs : Gone i s) : Gone i t := by
  refine ⟨by rw [h.connecteds]; exact hs.lt, ?_⟩
  rcases h.mConnectedThread with h' | h'
  · rw [h']
    exact hs.mConnectedThread
  · rw [h']
    simp

/-- The thread that `connected()` stores is a new one. -/
theorem HandedOver.gone {k : ℕ} (h : HandedOver k s t) (hs : Gone i s) : Gone i t := by
  have hlt := hs.lt
  obtain ⟨b, hd⟩ := h.connecteds
  refine ⟨by rw [hd, List.length_append]; omega, ?_⟩
  rw [h.mConnectedThread]
  intro hi
  cases hi
  exact Nat.lt_irrefl _ hlt

/-- What an action does to the service does not bring the thread back. -/
theorem Effect.gone {a : Action} {u : Service} (hu : Effect s a u) (hs : Gone i s) : Gone i u := by
  cases hu with
  | nothing => exact hs
  | view => exact ⟨hs.lt, hs.mConnectedThread⟩
  | accept => exact ⟨hs.lt, hs.mConnectedThread⟩
  | listen => exact ⟨hs.lt, hs.mConnectedThread⟩
  | reset => exact ⟨hs.lt, hs.mConnectedThread⟩
  | close e k => exact ⟨hs.lt, hs.mConnectedThread⟩
  | start e => exact ((start_spec e s).mono (fun _ h => h.gone hs) fun _ h => h.gone hs).final
  | connect e => exact ((connect_spec e s).mono (fun _ h => h.gone hs) fun _ h => h.gone hs).final
  | connected e k =>
    exact ((connected_spec e k s).mono (fun _ h => h.gone hs) fun _ h => h.gone hs).final
  | stop e => exact ((stop_spec e s).mono (fun _ h => h.gone hs) fun _ h => h.gone hs).final

theorem step_gone (hs : Gone i s) {a : Action} (hstep : step s a = some s') : Gone i s' := by
  obtain ⟨u, hu, hmoved⟩ := step_effect hstep
  have hgone := hu.gone hs
  refine ⟨?_, ?_⟩
  · rw [hmoved.connecteds]
    exact hgone.lt
  · rw [hmoved.fields.mConnectedThread]
    exact hgone.mConnectedThread

theorem connect_clears (e : Env) (s : Service) :
    Ends (fun t => t.mConnectedThread = none) (fun _ => True) (connect e s) := by
  refine Triple.seq (P := fun _ => True) (Q := fun _ => True) ?_
    (Triple.seq (Q := fun t => t.mConnectedThread = none) ?_
      (Triple.seq (Q := fun t => t.mConnectedThread = none) (Triple.pure fun t ht => ht)
        (triple_setState fun t ht => ht))) s trivial
  · intro t _
    exact ((cancels_connecting t e) t (.refl t)).mono (fun _ _ => trivial) fun _ _ => trivial
  · exact triple_cancelField (fun t _ hd => hd) (fun _ _ _ _ _ => trivial) fun _ _ _ _ _ _ => rfl

/-- Once `connect(device)` has returned, the reader of the old connection is gone. -/
theorem connect_gone {e : Env} (hs : Placed s) (hi : s.mConnectedThread = some i)
    (hc : connect e s = .ok t) : Gone i t := by
  have hclear := connect_clears e s
  have hspec := connect_spec e s
  rw [hc] at hclear hspec
  have hkeep : Connects e s t := hspec
  refine ⟨?_, ?_⟩
  · rw [hkeep.connecteds]
    exact hs.connectedLt i hi
  · have hnone : t.mConnectedThread = none := hclear
    rw [hnone]
    simp

end Gone

/-! ### Whole runs -/

section Runs

variable {s s' : Service}

/-- A method that sets another state, or else leaves it alone, does not set `STATE_NONE`. -/
theorem state_of_ends {state : State} (hne : state ≠ .stateNone) {r : Except Service Service}
    (h : Ends (fun t => t.mState = state) (fun t => t.mState = s.mState) r)
    (hnone : (final r).mState = .stateNone) : s.mState = .stateNone := by
  cases r with
  | ok t => exact absurd (h.symm.trans hnone) hne
  | error t => exact h.symm.trans hnone

/-- Only a `stop()` that returns sets `STATE_NONE`. -/
theorem step_leaves {a : Action} (hstep : step s a = some s') (h : s'.mState = .stateNone)
    (ha : ∀ e t, a = .stop e → stop e s ≠ .ok t) : s.mState = .stateNone := by
  obtain ⟨u, hu, hmoved⟩ := step_effect hstep
  have hnone : u.mState = .stateNone := hmoved.fields.mState.symm.trans h
  cases hu with
  | nothing => exact hnone
  | view => exact hnone
  | accept => exact hnone
  | listen => cases hnone
  | reset => exact hnone
  | close e k => exact hnone
  | start e =>
    exact state_of_ends (by simp)
      ((start_spec e s).mono (fun _ h => h.mState) fun _ h => h.mState) hnone
  | connect e =>
    exact state_of_ends (by simp)
      ((connect_spec e s).mono (fun _ h => h.mState) fun _ h => h.mState) hnone
  | connected e k =>
    exact state_of_ends (by simp)
      ((connected_spec e k s).mono (fun _ h => h.mState) fun _ h => h.mState) hnone
  | stop e =>
    have hspec := stop_spec e s
    cases hm : stop e s with
    | ok t => exact absurd hm (ha e t rfl)
    | error t =>
      rw [hm] at hspec hnone
      exact hspec.mState.symm.trans hnone

/-- No worker has ever been created. -/
structure Untouched (s : Service) : Prop extends Stopped s where
  accepts : s.accepts = []
  connects : s.connects = []
  connecteds : s.connecteds = []

/-- Without workers only `write` and the new view are left, next to the calls of the client. -/
theorem Untouched.step (h : Untouched s) {a : Action} (ha : ¬ a.Starts)
    (hret : ∀ e t, a = .stop e → stop e s ≠ .ok t) (hstep : Bluetooth.step s a = some s') :
    Untouched s' := by
  cases a with
  | start e => exact absurd trivial ha
  | connect e => exact absurd trivial ha
  | stop e => exact absurd (h.toStopped.stop e) (hret e _ rfl)
  | write =>
    cases hstep
    exact h
  | initMainUi =>
    cases hstep
    exact ⟨⟨h.1.1, h.1.2, h.1.3, h.1.4⟩, h.accepts, h.connects, h.connecteds⟩
  | acceptThread i a => simp [Bluetooth.step, h.accepts] at hstep
  | connectThread j a => simp [Bluetooth.step, h.connects] at hstep
  | connectedThread i a => simp [Bluetooth.step, h.connecteds] at hstep

/-- The run `as` ends in `s`, `stop()` has returned in it, and the client has not called `start()`
or `connect()` since. -/
def SinceStop (as : List Action) (s : Service) : Prop :=
  ∃ pre e mid s₀ t, as = pre ++ .stop e :: mid ∧ runService pre = some s₀ ∧ stop e s₀ = .ok t ∧
    (∀ a ∈ mid, ¬ a.Starts) ∧ run step t mid = some s

theorem SinceStop.concat {as : List Action} {a : Action} (h : SinceStop as s) (ha : ¬ a.Starts)
    (hstep : step s a = some s') : SinceStop (as ++ [a]) s' := by
  obtain ⟨pre, e, mid, s₀, t, rfl, hpre, ht, hmid, hrun⟩ := h
  refine ⟨pre, e, mid ++ [a], s₀, t, by simp, hpre, ht, ?_, ?_⟩
  · intro b hb
    rcases List.mem_append.1 hb with hb | hb
    · exact hmid b hb
    · rw [List.mem_singleton.1 hb]
      exact ha
  · rw [run_append_some hrun, run_singleton]
    exact hstep

theorem Undisturbed.of_append {as bs : List Action} (h : Undisturbed (as ++ bs)) :
    Undisturbed as := by
  refine ⟨?_, ?_, ?_⟩
  · rintro pre a post s s' rfl
    exact h.superseded pre a (post ++ bs) s s' (by simp)
  · rintro pre e mid post s t u rfl
    exact h.stopped pre e mid (post ++ bs) s t u (by simp)
  · rintro pre e mid i a post s t u u' rfl
    exact h.connecting pre e mid i a (post ++ bs) s t u u' (by simp)

theorem Undisturbed.stopped_since {as : List Action} (h : Undisturbed as) (hs : SinceStop as s) :
    Stopped s := by
  obtain ⟨pre, e, mid, s₀, t, rfl, hpre, ht, hmid, hrun⟩ := hs
  exact h.stopped pre e mid [] s₀ t s (by simp) hpre ht hmid hrun

/-- In an undisturbed run, `STATE_NONE` is the initial state or what `stop()` has left. -/
theorem Undisturbed.history {as : List Action} (h : Undisturbed as) (hs : runService as = some s)
    (hnone : s.mState = .stateNone) : Untouched s ∨ SinceStop as s := by
  induction as using List.reverseRecOn generalizing s with
  | nil =>
    cases hs
    exact Or.inl ⟨⟨rfl, rfl, rfl, rfl⟩, rfl, rfl, rfl⟩
  | append_singleton as a ih =>
    obtain ⟨s₀, hs₀, hstep⟩ := run_concat_some hs
    have hold : s₀.mState = .stateNone → Untouched s₀ ∨ SinceStop as s₀ := ih h.of_append hs₀
    have hquiet : s₀.mState = .stateNone → Stopped s₀ := by
      intro h₀
      rcases hold h₀ with hu | hu
      · exact hu.toStopped
      · exact h.of_append.stopped_since hu
    by_cases hstart : a.Starts
    · have h₀ := step_leaves hstep hnone (by rintro e t rfl; exact hstart.elim)
      exact absurd hnone ((hquiet h₀).starts hstart hstep)
    · by_cases hstop : ∃ e t, a = .stop e ∧ stop e s₀ = .ok t
      · obtain ⟨e, t, rfl, ht⟩ := hstop
        simp only [step, ht, final_ok, Option.some.injEq] at hstep
        exact Or.inr ⟨as, e, [], s₀, t, rfl, hs₀, ht, by simp, by rw [run_nil, hstep]⟩
      · -- the step has not set the state, which was `STATE_NONE` before it
        have hret : ∀ e t, a = .stop e → stop e s₀ ≠ .ok t := fun e t ha ht => hstop ⟨e, t, ha, ht⟩
        rcases hold (step_leaves hstep hnone hret) with hu | hu
        · exact Or.inl (hu.step hstart hret hstep)
        · exact Or.inr (hu.concat hstart hstep)

/-- A calm run keeps a stopped service stopped. -/
theorem run_stopped {t u : Service} {mid : List Action} (ht : Stopped t) (hp : Placed t)
    (hcalm : Along step Calm t mid) (hmid : ∀ a ∈ mid, ¬ a.Starts) (hu : run step t mid = some u) :
    Stopped u := by
  induction mid generalizing t with
  | nil =>
    cases hu
    exact ht
  | cons a mid ih =>
    rw [run_cons] at hu
    obtain ⟨t', ht', hu⟩ := Option.bind_eq_some_iff.1 hu
    exact ih (ht.step hp hcalm.1 (hmid a (by simp)) ht') (step_placed hp ht') (hcalm.2 t' ht')
      (fun b hb => hmid b (by simp [hb])) hu

theorem Undisturbed.calm {as : List Action} (h : Undisturbed as) {pre post : List Action}
    {a : Action} (has : as = pre ++ a :: post) (hs : runService pre = some s)
    (hstep : step s a = some s') : Calm s a := by
  refine ⟨?_, ?_⟩
  · intro hsup
    exact (noEffect_iff_idle (runService_placed hs) hsup hstep).1
      (h.superseded pre a post s s' has hs hstep hsup)
  · intro hnone hover
    have hpa : Undisturbed (pre ++ [a]) := by
      have hall : Undisturbed ((pre ++ [a]) ++ post) := by simpa [has] using h
      exact hall.of_append
    have hnot : ¬ a.Starts := by
      cases a with
      | start e => exact hover.elim
      | connect e => exact hover.elim
      | _ => exact id
    rcases hpa.of_append.history hs hnone with hu | hu
    · cases a with
      | connectThread j a => simp [step, hu.connects] at hstep
      | _ => exact hover.elim
    · -- the service is stopped before and after the step
      have hbefore := hpa.of_append.stopped_since hu
      have hafter := hpa.stopped_since (hu.concat hnot hstep)
      have hconn := hbefore.handsOver hover hstep
      rw [hafter.mState] at hconn
      cases hconn

/-- **A run is undisturbed by superseded workers exactly when all its steps are calm.** -/
theorem undisturbed_iff (as : List Action) (s : Service) (hs : runService as = some s) :
    Undisturbed as ↔ Along step Calm .new as := by
  constructor
  · intro h
    refine along_iff.2 ?_
    rintro pre a post t has ht
    -- the step is defined, because the run is
    have hdef : ∃ t', step t a = some t' := by
      rw [runService, has, run_append_some ht, run_cons] at hs
      obtain ⟨t', ht', -⟩ := Option.bind_eq_some_iff.1 hs
      exact ⟨t', ht'⟩
    obtain ⟨t', ht'⟩ := hdef
    exact h.calm has ht ht'
  · intro h
    have hsup : ∀ pre a post s s', as = pre ++ a :: post → runService pre = some s →
        step s a = some s' → Superseded s a → NoEffect s s' := by
      rintro pre a post s s' rfl hs hstep hsup
      have hcalm : Calm s a := h.at_step hs
      exact (noEffect_iff_idle (runService_placed hs) hsup hstep).2 (hcalm.idle hsup)
    refine ⟨hsup, ?_, ?_⟩
    · rintro pre e mid post s t u rfl hs ht hmid hu
      have hstop := stop_stopped e s
      rw [ht] at hstop
      have hstep : step s (.stop e) = some t := by simp only [step, ht, final_ok]
      have hafter : Along step Calm t (mid ++ post) := (h.append_right hs).2 t hstep
      exact run_stopped hstop (step_placed (runService_placed hs) hstep) hafter.append_left hmid hu
    · rintro pre e mid i a post s t u u' has hs - hi hc hu hstep
      have hgone : Gone i t := connect_gone (runService_placed hs) hi hc
      have hgone : Gone i u :=
        run_invariant (Gone i) hgone (fun _ _ _ hg hst => step_gone hg hst) hu
      have hpre : runService (pre ++ .connect e :: mid) = some u := by
        rw [runService, run_append_some hs, run_cons]
        simp only [step, hc, final_ok, Option.bind_some]
        exact hu
      exact (hsup (pre ++ .connect e :: mid) (.connectedThread i a) post u u' (by simp [has]) hpre
        hstep hgone.mConnectedThread).fields

end Runs

/-- The `AcceptThread` that `stop()` cancels dies, and nobody notices. -/
theorem undisturbed_iff_accept :
    Undisturbed [.start .good, .acceptThread 0 .loopTest, .stop .good,
      .acceptThread 0 .acceptThrows] := by
  refine (undisturbed_iff [.start .good, .acceptThread 0 .loopTest, .stop .good,
    .acceptThread 0 .acceptThrows] _ rfl).2 ?_
  exact Along.cons ⟨fun h => h.elim, fun _ h => h⟩ rfl (Along.cons ⟨fun _ => trivial, fun _ h => h⟩ rfl
    (Along.cons ⟨fun h => h.elim, fun _ h => h⟩ rfl
      (Along.cons ⟨fun _ => trivial, fun _ h => h⟩ rfl trivial)))

/-- The service after a connection has been made and `stop()` has returned, with a view. -/
def stoppedService : Service where
  mState := .stateNone
  mAcceptThread := none
  mConnectThread := none
  mConnectedThread := none
  accepts := []
  connects := [⟨some 0, .ended⟩]
  connecteds := [⟨0, true, .reading⟩]
  sockets := 1
  closedSockets := [0]
  serverSockets := 0
  closedServerSockets := []
  mOpenCvCameraView := true
  passed := [0]

/-- The service that `stop()` has stopped listens again as soon as the cancelled reader has
noticed. -/
theorem stop_disturbed :
    ¬ Undisturbed [.initMainUi, .connect .good, .connectThread 0 .connectReturns,
      .connectThread 0 .reset, .connectThread 0 (.connected .good), .stop .good,
      .connectedThread 0 .readThrows, .connectedThread 0 .connectionLost,
      .connectedThread 0 (.restart .good)] := by
  intro h
  have hstop : stop .good { stoppedService with
      mState := .stateConnected, mConnectedThread := some 0, closedSockets := [] } =
      .ok stoppedService := rfl
  have hu := h.stopped [.initMainUi, .connect .good, .connectThread 0 .connectReturns,
      .connectThread 0 .reset, .connectThread 0 (.connected .good)] .good
    [.connectedThread 0 .readThrows, .connectedThread 0 .connectionLost,
      .connectedThread 0 (.restart .good)] [] _ _ _ rfl rfl hstop (by simp [Action.Starts]) rfl
  cases hu.mState

end Controller.Bluetooth
