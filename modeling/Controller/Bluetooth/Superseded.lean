import Controller.Bluetooth.Throws

/-!
# Workers that the service has let go of

Cancelling a worker closes its socket, and that wakes the worker up in its error path, which calls
`setState(STATE_LISTEN)` and `start()` on the service.  So a worker that is no longer stored in its
field (`Superseded`) still acts.  Its step has no effect on the current workers (`NoEffect`) exactly
when the service is in a state in which what the step does makes no difference (`Idle`):
`noEffect_iff_idle`.
-/

namespace Controller.Bluetooth

open Abort PartialRun

/-- The worker that takes the step is no longer in its field, and has not left it by itself. -/
def Superseded (s : Service) : Action → Prop
  | .acceptThread i _ => s.mAcceptThread ≠ some i
  | .connectThread j _ => s.mConnectThread ≠ some j ∧
      ∀ t : ConnectThread, s.connects[j]? = some t → t.pc ≠ .reset true
  | .connectedThread i _ => s.mConnectedThread ≠ some i
  | _ => False

/-- The step leaves the state and the fields unchanged and closes no socket of a current worker. -/
structure NoEffect (s s' : Service) : Prop where
  fields : SameFields s s'
  sockets : ∀ k, CurrentSocket s k → k ∉ s.closedSockets → k ∉ s'.closedSockets
  serverSockets : ∀ i k, s.mAcceptThread = some i → s.serverSocketOf i = some k →
    k ∉ s.closedServerSockets → k ∉ s'.closedServerSockets

/-! ### When a step makes no difference -/

/-- `start()` makes no difference: it throws before it has changed anything, or everything is already
as it leaves it. -/
def StartIdle (s : Service) : Prop :=
  NullConnectSocket s ∨ (s.mConnectThread = none ∧ NullView s) ∨
    (s.mConnectThread = none ∧ s.mConnectedThread = none ∧ s.mAcceptThread ≠ none ∧
      s.mState = .stateListen)

/-- `connected()` makes no difference: it throws before it has changed anything. -/
def ConnectedIdle (s : Service) : Prop :=
  NullConnectSocket s ∨ (s.mConnectThread = none ∧ NullView s) ∨
    (s.mConnectThread = none ∧ s.mConnectedThread = none ∧ NullServerSocket s)

/-- The step of a worker makes no difference in the state `s`. -/
def Idle (s : Service) : Action → Prop
  | .acceptThread _ (.block _) =>
    s.mState = .stateNone ∨ s.mState = .stateConnected ∨ ConnectedIdle s
  | .connectThread _ .connectionFailed => s.mState = .stateListen
  | .connectThread _ (.restart _) => StartIdle s
  | .connectThread _ .reset => s.mConnectThread = none
  | .connectThread _ (.connected _) => ConnectedIdle s
  | .connectedThread _ .connectionLost => s.mState = .stateListen
  | .connectedThread _ (.restart _) => StartIdle s
  | _ => True

section Evaluation

variable {s : Service} {e : Env}

theorem cancelField_none {field : Service → Option ℕ} {socketOf : Service → ℕ → Option ℕ}
    {close : Service → ℕ → Service} (h : field s = none) :
    cancelField field socketOf close s = .ok s := by
  simp only [cancelField, h]

theorem cancelField_null {field : Service → Option ℕ} {socketOf : Service → ℕ → Option ℕ}
    {close : Service → ℕ → Service} {i : ℕ} (h : field s = some i) (hk : socketOf s i = none) :
    cancelField field socketOf close s = .error s := by
  simp only [cancelField, h, hk]

theorem cancelConnectedThread_nullView (h : NullView s) :
    cancelConnectedThread e s = .error s := by
  obtain ⟨i, hi⟩ := Option.ne_none_iff_exists'.1 h.1
  exact cancelField_null hi (if_neg (by simp [h.2]))

theorem start_idle (h : StartIdle s) : final (start e s) = s := by
  rcases h with ⟨j, hj, hk⟩ | ⟨hj, hview⟩ | ⟨hj, hd, ha, hstate⟩
  · have h1 : cancelConnectThread e s = .error s := cancelField_null hj hk
    rw [start, seq_error h1, final_error]
  · have h1 : cancelConnectThread e s = .ok s := cancelField_none hj
    rw [start, seq_ok h1, seq_error (cancelConnectedThread_nullView hview), final_error]
  · obtain ⟨i, hi⟩ := Option.ne_none_iff_exists'.1 ha
    have h1 : cancelConnectThread e s = .ok s := cancelField_none hj
    have h2 : cancelConnectedThread e s = .ok s := cancelField_none hd
    have h3 : startAcceptThread e s = .ok s := by simp only [startAcceptThread, hi]
    rw [start, seq_ok h1, seq_ok h2, seq_ok h3, setState, final_ok, ← hstate]

theorem connected_idle (h : ConnectedIdle s) (k : ℕ) :
    connected e k s = .error { s with passed := k :: s.passed } := by
  have h0 : recordPassed k s = .ok { s with passed := k :: s.passed } := rfl
  rw [connected, seq_ok h0]
  rcases h with ⟨j, hj, hk⟩ | ⟨hj, hview⟩ | ⟨hj, hd, i, hi, hk⟩
  · have h1 : cancelConnectThread e { s with passed := k :: s.passed } = .error _ :=
      cancelField_null hj hk
    rw [seq_error h1]
  · have h1 : cancelConnectThread e { s with passed := k :: s.passed } = .ok _ :=
      cancelField_none hj
    have h2 : cancelConnectedThread e { s with passed := k :: s.passed } = .error _ :=
      cancelConnectedThread_nullView hview
    rw [seq_ok h1, seq_error h2]
  · have h1 : cancelConnectThread e { s with passed := k :: s.passed } = .ok _ :=
      cancelField_none hj
    have h2 : cancelConnectedThread e { s with passed := k :: s.passed } = .ok _ :=
      cancelField_none hd
    have h3 : cancelAcceptThread e { s with passed := k :: s.passed } = .error _ :=
      cancelField_null hi hk
    rw [seq_ok h1, seq_ok h2, seq_error h3]

theorem AcceptStarted.ne_none {t : Service} (h : AcceptStarted e s t) : t.mAcceptThread ≠ none := by
  cases h with
  | kept i hi hfield haccepts hsockets => rw [hfield]; simp
  | created pc hnone hpc hended hfield haccepts hsockets => rw [hfield]; simp

theorem startIdle_of_same (hs : Placed s) (h : SameFields s (final (start e s))) : StartIdle s := by
  have hends := start_ends hs e
  have hspec := start_spec e s
  cases hm : start e s with
  | ok t =>
    rw [hm] at hends hspec h
    have hstarted : Started e s t := hspec
    exact Or.inr (Or.inr ⟨h.mConnectThread.symm.trans hends.1,
      h.mConnectedThread.symm.trans hends.2.1,
      fun ha => hstarted.accept.ne_none (h.mAcceptThread.trans ha),
      h.mState.symm.trans hstarted.mState⟩)
  | error t =>
    rw [hm] at hends h
    rcases hends with hnull | ⟨hc, hview⟩
    · exact Or.inl hnull
    · exact Or.inr (Or.inl ⟨h.mConnectThread.symm.trans hc, hview⟩)

theorem connectedIdle_of_same (hs : Placed s) {k : ℕ}
    (h : SameFields s (final (connected e k s))) : ConnectedIdle s := by
  have hok := connected_spec e k s
  have herr := connected_ends hs e k
  cases hm : connected e k s with
  | ok t =>
    rw [hm] at hok h
    have hnew : t.mConnectedThread = some s.connecteds.length := hok.mConnectedThread
    have hlt := hs.connectedLt _ (h.mConnectedThread.symm.trans hnew)
    exact absurd hlt (Nat.lt_irrefl _)
  | error t =>
    rw [hm] at herr h
    rcases herr with hnull | ⟨hc, hview⟩ | ⟨hc, hd, hacc⟩
    · exact Or.inl hnull
    · exact Or.inr (Or.inl ⟨h.mConnectThread.symm.trans hc, hview⟩)
    · exact Or.inr (Or.inr ⟨h.mConnectThread.symm.trans hc, h.mConnectedThread.symm.trans hd, hacc⟩)

end Evaluation

/-! ### One step -/

section Step

variable {s s' : Service}

theorem SameFields.refl (s : Service) : SameFields s s := ⟨rfl, rfl, rfl, rfl⟩

/-- A step that closes nothing has no effect when the fields stay. -/
theorem noEffect_of_closed (h : SameFields s s') (hk : s'.closedSockets = s.closedSockets)
    (hs : s'.closedServerSockets = s.closedServerSockets) : NoEffect s s' :=
  ⟨h, fun _ _ hk' => by rw [hk]; exact hk', fun _ _ _ _ hk' => by rw [hs]; exact hk'⟩

/-- Closing a socket that no current worker holds has no effect. -/
theorem noEffect_closeSocket {e : Env} {k : ℕ} (h : SameFields s s') (hk : ¬ CurrentSocket s k)
    (hc : s'.closedSockets = (s.closeSocket e k).closedSockets)
    (hs : s'.closedServerSockets = s.closedServerSockets) : NoEffect s s' := by
  refine ⟨h, fun l hl hlo => ?_, fun _ _ _ _ hk' => by rw [hs]; exact hk'⟩
  rw [hc, Service.closeSocket]
  simp only
  split_ifs
  · refine fun hmem => (List.mem_cons.1 hmem).elim (fun hlk => ?_) hlo
    rw [hlk] at hl
    exact hk hl
  · exact hlo

/-- Only the state, the fields and the closed sockets matter. -/
theorem noEffect_congr {t : Service} (h : SameFields t s') (hk : s'.closedSockets = t.closedSockets)
    (hs : s'.closedServerSockets = t.closedServerSockets) : NoEffect s s' ↔ NoEffect s t := by
  constructor
  · intro hne
    refine ⟨?_, by rw [← hk]; exact hne.sockets, by rw [← hs]; exact hne.serverSockets⟩
    exact ⟨h.mState.symm.trans hne.fields.mState,
      h.mAcceptThread.symm.trans hne.fields.mAcceptThread,
      h.mConnectThread.symm.trans hne.fields.mConnectThread,
      h.mConnectedThread.symm.trans hne.fields.mConnectedThread⟩
  · intro hne
    refine ⟨?_, by rw [hk]; exact hne.sockets, by rw [hs]; exact hne.serverSockets⟩
    exact ⟨h.mState.trans hne.fields.mState, h.mAcceptThread.trans hne.fields.mAcceptThread,
      h.mConnectThread.trans hne.fields.mConnectThread,
      h.mConnectedThread.trans hne.fields.mConnectedThread⟩

theorem noEffect_setHandled (t : Service) (i k : ℕ) (pc : AcceptPc) :
    NoEffect s (t.setHandled i k pc) ↔ NoEffect s t :=
  noEffect_congr ⟨rfl, rfl, rfl, rfl⟩ rfl rfl

theorem noEffect_setConnect (t : Service) (j : ℕ) (pc : ConnectPc) :
    NoEffect s (t.setConnect j pc) ↔ NoEffect s t :=
  noEffect_congr ⟨rfl, rfl, rfl, rfl⟩ rfl rfl

theorem noEffect_setConnected (t : Service) (i : ℕ) (pc : ConnectedPc) :
    NoEffect s (t.setConnected i pc) ↔ NoEffect s t :=
  noEffect_congr ⟨rfl, rfl, rfl, rfl⟩ rfl rfl

theorem noEffect_listen_iff :
    NoEffect s { s with mState := .stateListen } ↔ s.mState = .stateListen := by
  constructor
  · intro h
    exact h.fields.mState.symm
  · intro h
    exact noEffect_of_closed ⟨h.symm, rfl, rfl, rfl⟩ rfl rfl

theorem noEffect_start_iff (hs : Placed s) (e : Env) :
    NoEffect s (final (start e s)) ↔ StartIdle s := by
  constructor
  · intro h
    exact startIdle_of_same hs h.fields
  · intro h
    rw [start_idle h]
    exact noEffect_of_closed ⟨rfl, rfl, rfl, rfl⟩ rfl rfl

theorem noEffect_connected_iff (hs : Placed s) (e : Env) (k : ℕ) :
    NoEffect s (final (connected e k s)) ↔ ConnectedIdle s := by
  constructor
  · intro h
    exact connectedIdle_of_same hs h.fields
  · intro h
    rw [connected_idle h, final_error]
    exact noEffect_of_closed ⟨rfl, rfl, rfl, rfl⟩ rfl rfl

theorem acceptStep_noEffect_iff (hs : Placed s) {i : ℕ} {t : AcceptThread} {a : AcceptAct}
    (ht : s.accepts[i]? = some t) (hstep : acceptStep s i t a = some s') :
    NoEffect s s' ↔ Idle s (.acceptThread i a) := by
  rcases acceptStep_cases hstep with ⟨rfl, -, rfl⟩ | ⟨rfl, -, rfl⟩ | ⟨rfl, -, rfl⟩ |
    ⟨e, k, rfl, hk, rfl⟩
  · exact iff_of_true (noEffect_of_closed ⟨rfl, rfl, rfl, rfl⟩ rfl rfl) trivial
  · exact iff_of_true (noEffect_of_closed ⟨rfl, rfl, rfl, rfl⟩ rfl rfl) trivial
  · exact iff_of_true (noEffect_of_closed ⟨rfl, rfl, rfl, rfl⟩ rfl rfl) trivial
  · rcases acceptBlock_cases e s i k with ⟨hstate, hc⟩ | ⟨hstate, h'⟩
    · -- the block calls `connected()`
      have hfin : NoEffect s (acceptBlock e s i k) ↔ NoEffect s (final (connected e k s)) := by
        rcases hc with ⟨u, hu, h'⟩ | ⟨u, hu, h'⟩ <;> rw [hu, h'] <;>
          exact noEffect_setHandled u i k _
      rw [hfin, noEffect_connected_iff hs]
      constructor
      · intro h
        exact Or.inr (Or.inr h)
      · rintro (h | h | h)
        · rw [h] at hstate
          rcases hstate with h | h <;> cases h
        · rw [h] at hstate
          rcases hstate with h | h <;> cases h
        · exact h
    · refine iff_of_true ?_ (hstate.imp_right Or.inl)
      rw [h']
      exact noEffect_closeSocket ⟨rfl, rfl, rfl, rfl⟩ (accepted_not_current hs ht hk) rfl rfl

theorem connectStep_noEffect_iff (hs : Placed s) {j : ℕ} {t : ConnectThread} {a : ConnectAct}
    (ht : s.connects[j]? = some t) (hj : s.mConnectThread ≠ some j)
    (hstep : connectStep s j t a = some s') : NoEffect s s' ↔ Idle s (.connectThread j a) := by
  rcases connectStep_cases hstep with ⟨k, rfl, hpc, -, rfl⟩ | ⟨rfl, hpc, rfl⟩ | ⟨rfl, hpc, rfl⟩ |
    ⟨e, k, rfl, hpc, hk, rfl⟩ | ⟨e, rfl, hpc, rfl⟩ | ⟨rfl, hpc, rfl⟩ | ⟨e, k, own, rfl, hpc, hk, rfl⟩
  · exact iff_of_true (noEffect_of_closed ⟨rfl, rfl, rfl, rfl⟩ rfl rfl) trivial
  · exact iff_of_true (noEffect_of_closed ⟨rfl, rfl, rfl, rfl⟩ rfl rfl) trivial
  · rw [noEffect_setConnect]
    exact noEffect_listen_iff
  · refine iff_of_true ?_ trivial
    exact noEffect_closeSocket ⟨rfl, rfl, rfl, rfl⟩
      (connect_not_current hs ht hk (by simp [hpc]) hj) rfl rfl
  · rw [noEffect_setConnect]
    exact noEffect_start_iff hs e
  · show NoEffect s _ ↔ s.mConnectThread = none
    constructor
    · intro h
      exact h.fields.mConnectThread.symm
    · intro h
      exact noEffect_of_closed ⟨rfl, rfl, h.symm, rfl⟩ rfl rfl
  · rw [noEffect_setConnect]
    exact noEffect_connected_iff hs e k

theorem connectedStep_noEffect_iff (hs : Placed s) {i : ℕ} {t : ConnectedThread}
    {a : ConnectedAct} (hstep : connectedStep s i t a = some s') :
    NoEffect s s' ↔ Idle s (.connectedThread i a) := by
  rcases connectedStep_cases hstep with ⟨rfl, rfl⟩ | ⟨rfl, hpc, rfl⟩ | ⟨rfl, hpc, rfl⟩ |
    ⟨e, rfl, hpc, rfl⟩
  · exact iff_of_true (noEffect_of_closed (.refl _) rfl rfl) trivial
  · exact iff_of_true (noEffect_of_closed ⟨rfl, rfl, rfl, rfl⟩ rfl rfl) trivial
  · rw [noEffect_setConnected]
    exact noEffect_listen_iff
  · rw [noEffect_setConnected]
    exact noEffect_start_iff hs e

/-- **A superseded worker has no effect exactly when its step makes no difference.** -/
theorem noEffect_iff_idle (hs : Placed s) {a : Action} (hsup : Superseded s a)
    (hstep : step s a = some s') : NoEffect s s' ↔ Idle s a := by
  cases a with
  | start e => exact hsup.elim
  | connect e => exact hsup.elim
  | stop e => exact hsup.elim
  | write => exact hsup.elim
  | initMainUi => exact hsup.elim
  | acceptThread i a =>
    obtain ⟨t, ht, hstep⟩ := Option.bind_eq_some_iff.1 hstep
    exact acceptStep_noEffect_iff hs ht hstep
  | connectThread j a =>
    obtain ⟨t, ht, hstep⟩ := Option.bind_eq_some_iff.1 hstep
    exact connectStep_noEffect_iff hs ht hsup.1 hstep
  | connectedThread i a =>
    obtain ⟨t, -, hstep⟩ := Option.bind_eq_some_iff.1 hstep
    exact connectedStep_noEffect_iff hs hstep

end Step

end Controller.Bluetooth
