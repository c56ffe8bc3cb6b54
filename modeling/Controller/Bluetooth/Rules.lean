import Controller.Bluetooth.Service

/-!
# Reasoning about the service

Rules for the statements of the `synchronized` methods, in the form of `Abort.Triple`, and the
inversion of a step of each kind of worker.  `step_effect` says what a step can do to the state and
the fields, whoever takes it.  All later invariants go through these.
-/

namespace Controller.Bluetooth

open Abort

/-! ### The statements of the methods -/

section Statements

variable {P Q E : Service → Prop} {e : Env}

/-- The rule for cancelling a thread: the field may be null, `cancel()` may throw, or the socket is
closed and the field set to null. -/
theorem triple_cancelField {field : Service → Option ℕ} {socketOf : Service → ℕ → Option ℕ}
    {close : Service → ℕ → Service} (hnone : ∀ s, P s → field s = none → Q s)
    (hnull : ∀ s i, P s → field s = some i → socketOf s i = none → E s)
    (hsome : ∀ s i k, P s → field s = some i → socketOf s i = some k → Q (close s k)) :
    Triple P (cancelField field socketOf close) Q E := by
  intro s hs
  unfold cancelField
  cases hi : field s with
  | none => exact hnone s hs hi
  | some i =>
    cases hk : socketOf s i with
    | none => simp only [hk]; exact hnull s i hs hi hk
    | some k => simp only [hk]; exact hsome s i k hs hi hk

theorem triple_setState {state : State} (h : ∀ s, P s → Q { s with mState := state }) :
    Triple P (setState state) Q E :=
  Triple.pure h

/-- The rule for the third statement of `start()`. -/
theorem triple_startAcceptThread (hsome : ∀ s i, P s → s.mAcceptThread = some i → Q s)
    (hnone : ∀ s pc, P s → s.mAcceptThread = none → (∀ k, pc ≠ .accepted k) →
      (pc = .ended ↔ e.early = true ∧ s.mState = .stateConnected) → Q { s with
        mAcceptThread := some s.accepts.length
        accepts := s.accepts ++ [⟨if e.listenOk then some s.serverSockets else none, pc, []⟩]
        serverSockets := if e.listenOk then s.serverSockets + 1 else s.serverSockets }) :
    Triple P (startAcceptThread e) Q E := by
  intro s hs
  unfold startAcceptThread
  cases hi : s.mAcceptThread with
  | some i => exact hsome s i hs hi
  | none =>
    refine hnone s _ hs hi ?_ ?_
    · intro k
      split_ifs <;> simp
    · split_ifs <;> simp_all

end Statements

/-! ### Sockets of threads -/

section Sockets

variable {s : Service} {i j k : ℕ} {e : Env}

theorem getElem?_concat {α : Type} (xs : List α) (x : α) (i : ℕ) :
    (xs ++ [x])[i]? = if i = xs.length then some x else xs[i]? := by
  split_ifs with h
  · rw [h, List.getElem?_concat_length]
  · rcases Nat.lt_or_gt_of_ne h with h | h
    · exact List.getElem?_append_left h
    · rw [List.getElem?_eq_none (by simp; omega), List.getElem?_eq_none (by omega)]

@[simp] theorem serverSocketOf_setAccept {pc : AcceptPc} (i' : ℕ) :
    (s.setAccept i pc).serverSocketOf i' = s.serverSocketOf i' := by
  simp only [Service.serverSocketOf, Service.setAccept, List.getElem?_modify]
  cases s.accepts[i']? with
  | none => rfl
  | some t => by_cases h : i = i' <;> simp [h]

@[simp] theorem serverSocketOf_setHandled {pc : AcceptPc} (i' : ℕ) :
    (s.setHandled i k pc).serverSocketOf i' = s.serverSocketOf i' := by
  simp only [Service.serverSocketOf, Service.setHandled, List.getElem?_modify]
  cases s.accepts[i']? with
  | none => rfl
  | some t => by_cases h : i = i' <;> simp [h]

@[simp] theorem connectSocketOf_setConnect {pc : ConnectPc} (j' : ℕ) :
    (s.setConnect j pc).connectSocketOf j' = s.connectSocketOf j' := by
  simp only [Service.connectSocketOf, Service.setConnect, List.getElem?_modify]
  cases s.connects[j']? with
  | none => rfl
  | some t => by_cases h : j = j' <;> simp [h]

@[simp] theorem connectedSocketOf_setConnected {pc : ConnectedPc} (i' : ℕ) :
    (s.setConnected i pc).connectedSocketOf i' = s.connectedSocketOf i' := by
  simp only [Service.connectedSocketOf, Service.setConnected, List.getElem?_modify]
  cases s.connecteds[i']? with
  | none => rfl
  | some t => by_cases h : i = i' <;> simp [h]

end Sockets

/-! ### The workers -/

section Workers

variable {s s' : Service} {i j : ℕ}

theorem acceptStep_cases {t : AcceptThread} {a : AcceptAct} (h : acceptStep s i t a = some s') :
    (a = .loopTest ∧ t.pc = .loopTest ∧
      s' = s.setAccept i (if s.mState = .stateConnected then .ended else .accepting)) ∨
    (a = .acceptReturns ∧ t.pc = .accepting ∧
      s' = { s with sockets := s.sockets + 1 }.setAccept i (.accepted s.sockets)) ∨
    (a = .acceptThrows ∧ t.pc = .accepting ∧ s' = s.setAccept i .ended) ∨
    ∃ e k, a = .block e ∧ t.pc = .accepted k ∧ s' = acceptBlock e s i k := by
  cases a with
  | loopTest =>
    obtain ⟨hpc, h⟩ := Option.ite_none_right_eq_some.1 h
    exact Or.inl ⟨rfl, hpc, (Option.some.inj h).symm⟩
  | acceptReturns =>
    simp only [acceptStep] at h
    split at h
    · next k hpc hk =>
      obtain ⟨-, h⟩ := Option.ite_none_left_eq_some.1 h
      exact Or.inr (Or.inl ⟨rfl, hpc, (Option.some.inj h).symm⟩)
    · cases h
  | acceptThrows =>
    obtain ⟨hpc, h⟩ := Option.ite_none_right_eq_some.1 h
    exact Or.inr (Or.inr (Or.inl ⟨rfl, hpc, (Option.some.inj h).symm⟩))
  | block e =>
    simp only [acceptStep] at h
    split at h
    · next k hpc => exact Or.inr (Or.inr (Or.inr ⟨e, k, rfl, hpc, (Option.some.inj h).symm⟩))
    · cases h

/-- The block of an `AcceptThread` hands the socket over, or closes it. -/
theorem acceptBlock_cases (e : Env) (s : Service) (i k : ℕ) :
    ((s.mState = .stateListen ∨ s.mState = .stateConnecting) ∧
      ((∃ t, connected e k s = .ok t ∧ acceptBlock e s i k = t.setHandled i k .loopTest) ∨
        ∃ t, connected e k s = .error t ∧ acceptBlock e s i k = t.setHandled i k .ended)) ∨
    ((s.mState = .stateNone ∨ s.mState = .stateConnected) ∧
      acceptBlock e s i k = (s.closeSocket e k).setHandled i k .loopTest) := by
  unfold acceptBlock
  cases hs : s.mState with
  | stateNone => exact Or.inr ⟨Or.inl rfl, rfl⟩
  | stateConnected => exact Or.inr ⟨Or.inr rfl, rfl⟩
  | stateListen =>
    refine Or.inl ⟨Or.inl rfl, ?_⟩
    cases hc : connected e k s with
    | ok t => exact Or.inl ⟨t, rfl, rfl⟩
    | error t => exact Or.inr ⟨t, rfl, rfl⟩
  | stateConnecting =>
    refine Or.inl ⟨Or.inr rfl, ?_⟩
    cases hc : connected e k s with
    | ok t => exact Or.inl ⟨t, rfl, rfl⟩
    | error t => exact Or.inr ⟨t, rfl, rfl⟩

theorem connectStep_cases {t : ConnectThread} {a : ConnectAct}
    (h : connectStep s j t a = some s') :
    (∃ k, a = .connectReturns ∧ t.pc = .connecting ∧ t.mmSocket = some k ∧
      s' = s.setConnect j .succeeded) ∨
    (a = .connectThrows ∧ t.pc = .connecting ∧
      s' = s.setConnect j (if t.mmSocket = none then .ended else .failed)) ∨
    (a = .connectionFailed ∧ t.pc = .failed ∧
      s' = { s with mState := .stateListen }.setConnect j
        (if s.mOpenCvCameraView then .failedSet else .ended)) ∨
    (∃ e k, a = .closeSocket e ∧ t.pc = .failedSet ∧ t.mmSocket = some k ∧
      s' = (s.closeSocket e k).setConnect j .failedClosed) ∨
    (∃ e, a = .restart e ∧ t.pc = .failedClosed ∧ s' = (final (start e s)).setConnect j .ended) ∨
    (a = .reset ∧ t.pc = .succeeded ∧ s' = { s with mConnectThread := none }.setConnect j
      (.reset (decide (s.mConnectThread = some j)))) ∨
    ∃ e k own, a = .connected e ∧ t.pc = .reset own ∧ t.mmSocket = some k ∧
      s' = (final (connected e k s)).setConnect j .ended := by
  cases a with
  | connectReturns =>
    simp only [connectStep] at h
    split at h
    · next k hpc hk =>
      obtain ⟨-, h⟩ := Option.ite_none_left_eq_some.1 h
      exact Or.inl ⟨k, rfl, hpc, hk, (Option.some.inj h).symm⟩
    · cases h
  | connectThrows =>
    obtain ⟨hpc, h⟩ := Option.ite_none_right_eq_some.1 h
    exact Or.inr (Or.inl ⟨rfl, hpc, (Option.some.inj h).symm⟩)
  | connectionFailed =>
    obtain ⟨hpc, h⟩ := Option.ite_none_right_eq_some.1 h
    exact Or.inr (Or.inr (Or.inl ⟨rfl, hpc, (Option.some.inj h).symm⟩))
  | closeSocket e =>
    simp only [connectStep] at h
    split at h
    · next k hpc hk =>
      exact Or.inr (Or.inr (Or.inr (Or.inl ⟨e, k, rfl, hpc, hk, (Option.some.inj h).symm⟩)))
    · cases h
  | restart e =>
    obtain ⟨hpc, h⟩ := Option.ite_none_right_eq_some.1 h
    exact Or.inr (Or.inr (Or.inr (Or.inr (Or.inl ⟨e, rfl, hpc, (Option.some.inj h).symm⟩))))
  | reset =>
    obtain ⟨hpc, h⟩ := Option.ite_none_right_eq_some.1 h
    exact Or.inr (Or.inr (Or.inr (Or.inr (Or.inr (Or.inl ⟨rfl, hpc, (Option.some.inj h).symm⟩)))))
  | connected e =>
    simp only [connectStep] at h
    split at h
    · next own k hpc hk =>
      exact Or.inr (Or.inr (Or.inr (Or.inr (Or.inr (Or.inr
        ⟨e, k, own, rfl, hpc, hk, (Option.some.inj h).symm⟩)))))
    · cases h

theorem connectedStep_cases {t : ConnectedThread} {a : ConnectedAct}
    (h : connectedStep s i t a = some s') :
    (a = .readReturns ∧ s' = s) ∨
    (a = .readThrows ∧ t.pc = .reading ∧
      s' = s.setConnected i (if t.streams ∧ s.mOpenCvCameraView then .failed else .ended)) ∨
    (a = .connectionLost ∧ t.pc = .failed ∧
      s' = { s with mState := .stateListen }.setConnected i
        (if s.mOpenCvCameraView then .lostSet else .ended)) ∨
    ∃ e, a = .restart e ∧ t.pc = .lostSet ∧ s' = (final (start e s)).setConnected i .ended := by
  cases a with
  | readReturns =>
    obtain ⟨hpc, h⟩ := Option.ite_none_right_eq_some.1 h
    exact Or.inl ⟨rfl, (Option.some.inj h).symm⟩
  | readThrows =>
    obtain ⟨hpc, h⟩ := Option.ite_none_right_eq_some.1 h
    exact Or.inr (Or.inl ⟨rfl, hpc, (Option.some.inj h).symm⟩)
  | connectionLost =>
    obtain ⟨hpc, h⟩ := Option.ite_none_right_eq_some.1 h
    exact Or.inr (Or.inr (Or.inl ⟨rfl, hpc, (Option.some.inj h).symm⟩))
  | restart e =>
    obtain ⟨hpc, h⟩ := Option.ite_none_right_eq_some.1 h
    exact Or.inr (Or.inr (Or.inr ⟨e, rfl, hpc, (Option.some.inj h).symm⟩))

end Workers

/-! ### All steps -/

/-- The state and the fields are as before. -/
structure SameFields (s s' : Service) : Prop where
  mState : s'.mState = s.mState
  mAcceptThread : s'.mAcceptThread = s.mAcceptThread
  mConnectThread : s'.mConnectThread = s.mConnectThread
  mConnectedThread : s'.mConnectedThread = s.mConnectedThread

/-- What the action does to the service, apart from moving its worker on. -/
inductive Effect (s : Service) : Action → Service → Prop
  | nothing {a : Action} : Effect s a s
  | view {a : Action} : Effect s a { s with mOpenCvCameraView := true }
  | accept {a : Action} : Effect s a { s with sockets := s.sockets + 1 }
  | listen {a : Action} : Effect s a { s with mState := .stateListen }
  | reset {a : Action} : Effect s a { s with mConnectThread := none }
  | close {a : Action} (e : Env) (k : ℕ) : Effect s a (s.closeSocket e k)
  | start {a : Action} (e : Env) : Effect s a (final (start e s))
  | connect {a : Action} (e : Env) : Effect s a (final (connect e s))
  | connected {a : Action} (e : Env) (k : ℕ) : Effect s a (final (connected e k s))
  | stop (e : Env) : Effect s (.stop e) (final (stop e s))

/-- The service `s'` is `u` with some worker moved on. -/
structure Moved (u s' : Service) : Prop where
  fields : SameFields u s'
  connecteds : s'.connecteds.length = u.connecteds.length
  serverSocketOf : ∀ i, s'.serverSocketOf i = u.serverSocketOf i
  serverSockets : s'.serverSockets = u.serverSockets
  closedServerSockets : s'.closedServerSockets = u.closedServerSockets

section Effects

variable {s s' u : Service} {a : Action}

theorem moved_refl (s : Service) : Moved s s :=
  ⟨⟨rfl, rfl, rfl, rfl⟩, rfl, fun _ => rfl, rfl, rfl⟩

theorem moved_setAccept (s : Service) (i : ℕ) (pc : AcceptPc) : Moved s (s.setAccept i pc) :=
  ⟨⟨rfl, rfl, rfl, rfl⟩, rfl, serverSocketOf_setAccept, rfl, rfl⟩

theorem moved_setHandled (s : Service) (i k : ℕ) (pc : AcceptPc) : Moved s (s.setHandled i k pc) :=
  ⟨⟨rfl, rfl, rfl, rfl⟩, rfl, serverSocketOf_setHandled, rfl, rfl⟩

theorem moved_setConnect (s : Service) (j : ℕ) (pc : ConnectPc) : Moved s (s.setConnect j pc) :=
  ⟨⟨rfl, rfl, rfl, rfl⟩, rfl, fun _ => rfl, rfl, rfl⟩

theorem moved_setConnected (s : Service) (i : ℕ) (pc : ConnectedPc) :
    Moved s (s.setConnected i pc) :=
  ⟨⟨rfl, rfl, rfl, rfl⟩, by simp [Service.setConnected], fun _ => rfl, rfl, rfl⟩

/-- **What a step can do**, as far as the state and the fields are concerned. -/
theorem step_effect (h : step s a = some s') : ∃ u, Effect s a u ∧ Moved u s' := by
  cases a with
  | start e =>
    cases h
    exact ⟨_, .start e, moved_refl _⟩
  | connect e =>
    cases h
    exact ⟨_, .connect e, moved_refl _⟩
  | stop e =>
    cases h
    exact ⟨_, .stop e, moved_refl _⟩
  | write =>
    cases h
    exact ⟨_, .nothing, moved_refl _⟩
  | initMainUi =>
    cases h
    exact ⟨_, .view, moved_refl _⟩
  | acceptThread i a =>
    obtain ⟨t, -, h⟩ := Option.bind_eq_some_iff.1 h
    rcases acceptStep_cases h with ⟨-, -, rfl⟩ | ⟨-, -, rfl⟩ | ⟨-, -, rfl⟩ | ⟨e, k, -, -, rfl⟩
    · exact ⟨_, .nothing, moved_setAccept _ i _⟩
    · exact ⟨_, .accept, moved_setAccept _ i _⟩
    · exact ⟨_, .nothing, moved_setAccept _ i _⟩
    · have hfinal : Effect s (.acceptThread i a) (final (connected e k s)) := .connected e k
      rcases acceptBlock_cases e s i k with ⟨-, ⟨t, ht, h'⟩ | ⟨t, ht, h'⟩⟩ | ⟨-, h'⟩
      · rw [ht] at hfinal
        rw [h']
        exact ⟨t, hfinal, moved_setHandled _ i k _⟩
      · rw [ht] at hfinal
        rw [h']
        exact ⟨t, hfinal, moved_setHandled _ i k _⟩
      · rw [h']
        exact ⟨_, .close e k, moved_setHandled _ i k _⟩
  | connectThread j a =>
    obtain ⟨t, -, h⟩ := Option.bind_eq_some_iff.1 h
    rcases connectStep_cases h with ⟨_, -, -, -, rfl⟩ | ⟨-, -, rfl⟩ | ⟨-, -, rfl⟩ |
      ⟨e, k, -, -, -, rfl⟩ | ⟨e, -, -, rfl⟩ | ⟨-, -, rfl⟩ | ⟨e, k, _, -, -, -, rfl⟩
    · exact ⟨_, .nothing, moved_setConnect _ j _⟩
    · exact ⟨_, .nothing, moved_setConnect _ j _⟩
    · exact ⟨_, .listen, moved_setConnect _ j _⟩
    · exact ⟨_, .close e k, moved_setConnect _ j _⟩
    · exact ⟨_, .start e, moved_setConnect _ j _⟩
    · exact ⟨_, .reset, moved_setConnect _ j _⟩
    · exact ⟨_, .connected e k, moved_setConnect _ j _⟩
  | connectedThread i a =>
    obtain ⟨t, -, h⟩ := Option.bind_eq_some_iff.1 h
    rcases connectedStep_cases h with ⟨-, rfl⟩ | ⟨-, -, rfl⟩ | ⟨-, -, rfl⟩ | ⟨e, -, -, rfl⟩
    · exact ⟨_, .nothing, moved_refl _⟩
    · exact ⟨_, .nothing, moved_setConnected _ i _⟩
    · exact ⟨_, .listen, moved_setConnected _ i _⟩
    · exact ⟨_, .start e, moved_setConnected _ i _⟩

end Effects

end Controller.Bluetooth
