import Controller.Bluetooth.Rules

/-!
# A connected service has a connection

`Backed`: in `STATE_CONNECTED` there is a `ConnectedThread` and neither of the other two.  It is
an invariant of all runs, also of those in which a `cancel()` throws, on a socket that could not be
created or on a null view, and makes a method stop halfway.  So `write` finds a thread to write to.
-/

namespace Controller.Bluetooth

open Abort PartialRun

/-- `STATE_CONNECTED` is backed by a connection, and nothing else is going on. -/
def Backed (s : Service) : Prop :=
  s.mState = .stateConnected →
    s.mConnectedThread ≠ none ∧ s.mConnectThread = none ∧ s.mAcceptThread = none

theorem backed_of_ne {s : Service} (h : s.mState ≠ .stateConnected) : Backed s :=
  fun h' => absurd h' h

/-- Only the state and the three fields matter. -/
theorem Backed.congr {s t : Service} (h : Backed s) (hst : SameFields s t) : Backed t := by
  intro ht
  rw [hst.mAcceptThread, hst.mConnectThread, hst.mConnectedThread]
  exact h (hst.mState.symm.trans ht)

/-! ### The methods -/

/-- After the first statement of `start()`, `connected()` and `stop()`. -/
theorem backed_cancelConnectThread (e : Env) :
    Triple Backed (cancelConnectThread e) (fun s => Backed s ∧ s.mConnectThread = none) Backed := by
  refine triple_cancelField (fun s hs hj => ⟨hs, hj⟩) (fun s j hs _ _ => hs) ?_
  intro s j k hs hj _
  refine ⟨backed_of_ne fun hc => ?_, rfl⟩
  have := (hs hc).2.1
  rw [hj] at this
  cases this

/-- After the second statement: the state may now claim a connection that is gone, but then there
still is no `AcceptThread`. -/
theorem backed_cancelConnectedThread (e : Env) :
    Triple (fun s => Backed s ∧ s.mConnectThread = none) (cancelConnectedThread e)
      (fun s => s.mConnectThread = none ∧ (s.mState = .stateConnected → s.mAcceptThread = none))
      Backed := by
  refine triple_cancelField ?_ (fun s i hs _ _ => hs.1) ?_
  · intro s hs _
    exact ⟨hs.2, fun hc => (hs.1 hc).2.2⟩
  · intro s i k hs _ _
    exact ⟨hs.2, fun hc => (hs.1 hc).2.2⟩

/-- After the third statement of `connected()` and `stop()`. -/
theorem backed_cancelAcceptThread (e : Env) :
    Triple (fun s => s.mConnectThread = none ∧ (s.mState = .stateConnected → s.mAcceptThread = none))
      (cancelAcceptThread e) (fun s => s.mConnectThread = none ∧ s.mAcceptThread = none)
      Backed := by
  refine triple_cancelField (fun s hs hi => ⟨hs.1, hi⟩) ?_ (fun s i k hs _ _ => ⟨hs.1, rfl⟩)
  intro s i hs hi _
  refine backed_of_ne fun hc => ?_
  have := hs.2 hc
  rw [hi] at this
  cases this

theorem start_backed (e : Env) : Triple Backed (start e) Backed Backed := by
  refine (backed_cancelConnectThread e).seq ((backed_cancelConnectedThread e).seq
    (Triple.seq (Q := fun _ => True) ?_ (triple_setState fun s _ => backed_of_ne (by simp))))
  exact triple_startAcceptThread (fun _ _ _ _ => trivial) fun _ _ _ _ _ _ => trivial

theorem connect_backed (e : Env) : Triple Backed (connect e) Backed Backed := by
  refine Triple.seq (Q := Backed) ?_ (Triple.seq (Q := fun _ => True) ?_
    (Triple.seq (Q := fun _ => True) (Triple.pure fun _ _ => trivial)
      (triple_setState fun s _ => backed_of_ne (by simp))))
  · intro s hs
    unfold cancelConnecting
    split_ifs
    · exact (backed_cancelConnectThread e s hs).mono (fun _ h => h.1) fun _ h => h
    · exact hs
  · exact triple_cancelField (fun _ _ _ => trivial) (fun _ _ hs _ _ => hs) fun _ _ _ _ _ _ => trivial

theorem connected_backed (e : Env) (socket : ℕ) :
    Triple Backed (connected e socket) Backed Backed := by
  refine Triple.seq (Q := Backed) (Triple.pure fun s hs => hs.congr ⟨rfl, rfl, rfl, rfl⟩)
    ((backed_cancelConnectThread e).seq ((backed_cancelConnectedThread e).seq
      ((backed_cancelAcceptThread e).seq (Triple.seq
        (Q := fun s => s.mConnectedThread ≠ none ∧ s.mConnectThread = none ∧ s.mAcceptThread = none)
        (Triple.pure fun s hs => ⟨by simp, hs.1, hs.2⟩) (triple_setState fun s hs _ => hs)))))

theorem stop_backed (e : Env) : Triple Backed (stop e) Backed Backed :=
  (backed_cancelConnectThread e).seq ((backed_cancelConnectedThread e).seq
    ((backed_cancelAcceptThread e).seq (triple_setState fun s _ => backed_of_ne (by simp))))

/-! ### The steps -/

variable {s s' : Service}

/-- What an action does to the service keeps it backed. -/
theorem Effect.backed {a : Action} {u : Service} (hu : Effect s a u) (h : Backed s) : Backed u := by
  cases hu with
  | nothing => exact h
  | view => exact h.congr ⟨rfl, rfl, rfl, rfl⟩
  | accept => exact h.congr ⟨rfl, rfl, rfl, rfl⟩
  | listen => exact backed_of_ne (by simp)
  | reset => exact fun hc => ⟨(h hc).1, rfl, (h hc).2.2⟩
  | close e k => exact h.congr ⟨rfl, rfl, rfl, rfl⟩
  | start e => exact (start_backed e).final h
  | connect e => exact (connect_backed e).final h
  | connected e k => exact (connected_backed e k).final h
  | stop e => exact (stop_backed e).final h

theorem step_backed (h : Backed s) {a : Action} (hstep : step s a = some s') : Backed s' := by
  obtain ⟨u, hu, hmoved⟩ := step_effect hstep
  exact (hu.backed h).congr hmoved.fields

theorem runService_backed {as : List Action} (hs : runService as = some s) : Backed s :=
  run_invariant Backed (backed_of_ne (by simp [Service.new])) (fun _ _ _ h hstep => step_backed h hstep)
    hs

/-- **Connected means connected.**  After every run, whatever the system answered, the state
`STATE_CONNECTED` comes with a `ConnectedThread` and without the other two threads, and `write`
does not meet a null pointer. -/
theorem connected_backed_run (as : List Action) (s : Service) (hs : runService as = some s) :
    (s.mState = .stateConnected →
      s.mConnectedThread ≠ none ∧ s.mConnectThread = none ∧ s.mAcceptThread = none) ∧
    s.write ≠ .nullPointer := by
  have h := runService_backed hs
  refine ⟨h, ?_⟩
  unfold Service.write
  split_ifs with hstate
  · simp
  · cases hd : s.mConnectedThread with
    | none => exact absurd hd (h (not_not.1 hstate)).1
    | some r => simp

/-- A call of `connect` for which no socket can be created. -/
def Env.noSocket : Env := { Env.good with createOk := false }

/-- A device connects to us while `connect` has left a thread without socket: `connected()` stops
at its first statement. -/
theorem connected_backed_run_abort :
    ∃ s, runService [.start .good, .acceptThread 0 .loopTest, .acceptThread 0 .acceptReturns,
        .connect .noSocket, .acceptThread 0 (.block .good)] = some s ∧
      s.mState = .stateConnecting ∧ s.write ≠ .nullPointer := by
  refine ⟨_, rfl, rfl, (connected_backed_run [.start .good, .acceptThread 0 .loopTest,
    .acceptThread 0 .acceptReturns, .connect .noSocket, .acceptThread 0 (.block .good)] _ rfl).2⟩

end Controller.Bluetooth
