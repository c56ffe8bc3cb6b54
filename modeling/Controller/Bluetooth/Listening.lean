import Controller.Bluetooth.Throws

/-!
# Does `STATE_LISTEN` mean listening?

`ListenMeansListening`: in `STATE_LISTEN`, unless some worker is about to call `start()`
(`InWindow`), the current `AcceptThread` has an open server socket and has not left its loop.

The loop of an `AcceptThread` ends on its own when `accept()` throws, and `start()` replaces only a
null field, so the dead thread stays where it is (`listen_deaf`).  It also ends when it is created
in `STATE_CONNECTED` and tests the state before `start()` has set it, or when the `connected()` it
calls throws, and it never listens when the server socket could not be created.  And a worker can
die between `setState(STATE_LISTEN)` and the `start()` that should follow, or in that `start()`: the
report to a null view throws.

`listen_iff`: `STATE_LISTEN` means listening throughout a run, and every `start()` in it that returns
leaves a thread that listens, exactly when none of its steps is of this kind (`Dependable`).
-/

namespace Controller.Bluetooth

open Abort PartialRun

/-- A worker is between `setState(STATE_LISTEN)` and the `start()` that follows. -/
def InWindow (s : Service) : Prop :=
  (∃ (j : ℕ) (t : ConnectThread), s.connects[j]? = some t ∧
    (t.pc = .failedSet ∨ t.pc = .failedClosed)) ∨
  ∃ (i : ℕ) (t : ConnectedThread), s.connecteds[i]? = some t ∧ t.pc = .lostSet

/-- The `AcceptThread` at position `i` has an open server socket and is in its loop. -/
def Listens (s : Service) (i : ℕ) : Prop :=
  ∃ t k, s.accepts[i]? = some t ∧ t.mmServerSocket = some k ∧ k ∉ s.closedServerSockets ∧
    t.pc ≠ .ended

/-- The current `AcceptThread` listens. -/
def HasListener (s : Service) : Prop := ∃ i, s.mAcceptThread = some i ∧ Listens s i

/-- `STATE_LISTEN` means listening. -/
def ListenMeansListening (s : Service) : Prop :=
  s.mState = .stateListen → ¬ InWindow s → HasListener s

/-- The `start()` that the action calls. -/
def Action.startCall : Action → Option Env
  | .start e => some e
  | .connectThread _ (.restart e) => some e
  | .connectedThread _ (.restart e) => some e
  | _ => none

/-- What one would like of a run. -/
structure ListensThroughout (as : List Action) : Prop where
  listen : ∀ pre post s, as = pre ++ post → runService pre = some s → ListenMeansListening s
  start : ∀ pre a post s e t, as = pre ++ a :: post → runService pre = some s →
    a.startCall = some e → start e s = .ok t → HasListener t

/-! ### The steps that keep the service listening -/

/-- The current `AcceptThread` listens, or a worker is about to call `start()`. -/
def Covered (s : Service) : Prop := InWindow s ∨ HasListener s

/-- A `start()` that finds an `AcceptThread` finds one that listens; one that creates an
`AcceptThread` gets a server socket for it, and the thread does not see `STATE_CONNECTED`. -/
structure StartDependable (s : Service) (e : Env) : Prop where
  kept : ∀ i, s.mAcceptThread = some i → Listens s i
  created : s.mAcceptThread = none →
    e.listenOk = true ∧ ¬ (e.early = true ∧ s.mState = .stateConnected)

/-- A worker calls `start()`, after which the service is as in `gone` if it throws.  If it does,
the service does not rely on it. -/
structure RestartDependable (s gone : Service) (e : Env) : Prop where
  returns : ¬ CancelThrows s → StartDependable s e
  throws : CancelThrows s → s.mState = .stateListen → Covered gone

/-- The steps that keep the service listening. -/
def Dependable (s : Service) : Action → Prop
  | .start e => ¬ CancelThrows s → StartDependable s e
  -- the current thread leaves its loop only when nobody relies on it
  | .acceptThread i .acceptThrows =>
    s.mAcceptThread = some i → s.mState = .stateListen → InWindow s
  | .acceptThread i (.block _) =>
    s.mAcceptThread = some i → s.mState = .stateListen → CancelThrows s → InWindow s
  -- a worker that dies of a null view is not needed
  | .connectThread _ .connectionFailed => s.mOpenCvCameraView = true ∨ Covered s
  | .connectedThread _ .connectionLost => s.mOpenCvCameraView = true ∨ Covered s
  | .connectThread j (.restart e) => RestartDependable s (s.setConnect j .ended) e
  | .connectedThread i (.restart e) => RestartDependable s (s.setConnected i .ended) e
  | _ => True

section Covered

variable {s t : Service} {i j : ℕ}

theorem listenMeansListening_iff :
    ListenMeansListening s ↔ (s.mState = .stateListen → Covered s) := by
  unfold ListenMeansListening Covered
  constructor
  · intro h hl
    by_cases hw : InWindow s
    · exact Or.inl hw
    · exact Or.inr (h hl hw)
  · intro h hl hw
    exact (h hl).resolve_left hw

theorem listening_of_ne (h : s.mState ≠ .stateListen) : ListenMeansListening s :=
  fun hl => absurd hl h

theorem listens_congr (ha : t.accepts = s.accepts)
    (hc : t.closedServerSockets = s.closedServerSockets) (i : ℕ) : Listens t i ↔ Listens s i := by
  unfold Listens
  rw [ha, hc]

/-- All of this looks at these parts of the service only. -/
theorem KeepsAccept.listening_iff (h : KeepsAccept s t) :
    ListenMeansListening t ↔ ListenMeansListening s := by
  unfold ListenMeansListening InWindow HasListener
  simp only [h.mState, h.connects, h.connecteds, h.mAcceptThread,
    listens_congr h.accepts h.closedServerSockets]

theorem KeepsAccept.setConnect (h : KeepsAccept s t) (j : ℕ) (pc : ConnectPc) :
    KeepsAccept (s.setConnect j pc) (t.setConnect j pc) := by
  refine ⟨⟨⟨h.connecteds, h.mConnectedThread⟩, ⟨?_, h.mConnectThread⟩, h.mState, h.accepts,
    h.sockets⟩, h.mAcceptThread, h.serverSockets, h.closedServerSockets, h.mOpenCvCameraView⟩
  simp only [Service.setConnect, h.connects]

theorem KeepsAccept.setConnected (h : KeepsAccept s t) (i : ℕ) (pc : ConnectedPc) :
    KeepsAccept (s.setConnected i pc) (t.setConnected i pc) := by
  refine ⟨⟨⟨?_, h.mConnectedThread⟩, ⟨h.connects, h.mConnectThread⟩, h.mState, h.accepts,
    h.sockets⟩, h.mAcceptThread, h.serverSockets, h.closedServerSockets, h.mOpenCvCameraView⟩
  simp only [Service.setConnected, h.connecteds]

theorem KeepsAccept.setHandled (h : KeepsAccept s t) (i k : ℕ) (pc : AcceptPc) :
    KeepsAccept (s.setHandled i k pc) (t.setHandled i k pc) := by
  refine ⟨⟨⟨h.connecteds, h.mConnectedThread⟩, ⟨h.connects, h.mConnectThread⟩, h.mState, ?_,
    h.sockets⟩, h.mAcceptThread, h.serverSockets, h.closedServerSockets, h.mOpenCvCameraView⟩
  simp only [Service.setHandled, h.accepts]

/-! ### Workers that move -/

/-- A `ConnectThread` that is outside the window before and after. -/
theorem inWindow_setConnect_iff {u : ConnectThread} (hu : s.connects[j]? = some u)
    (hold : u.pc ≠ .failedSet ∧ u.pc ≠ .failedClosed) {pc : ConnectPc}
    (hnew : pc ≠ .failedSet ∧ pc ≠ .failedClosed) : InWindow (s.setConnect j pc) ↔ InWindow s := by
  refine or_congr_left ⟨?_, ?_⟩
  · rintro ⟨j', v, hv, hw⟩
    simp only [Service.setConnect, List.getElem?_modify] at hv
    obtain ⟨w, hw', rfl⟩ := Option.map_eq_some_iff.1 hv
    by_cases hj : j = j'
    · rw [if_pos hj] at hw
      exact absurd hw (not_or.2 hnew)
    · rw [if_neg hj] at hw
      exact ⟨j', w, hw', hw⟩
  · rintro ⟨j', v, hv, hw⟩
    have hj : j ≠ j' := by
      rintro rfl
      rw [hu] at hv
      cases hv
      exact not_or.2 hold hw
    exact ⟨j', v, by simp [Service.setConnect, hj, hv], hw⟩

theorem inWindow_setConnect {u : ConnectThread} (hu : s.connects[j]? = some u) {pc : ConnectPc}
    (hnew : pc = .failedSet ∨ pc = .failedClosed) : InWindow (s.setConnect j pc) :=
  Or.inl ⟨j, { u with pc := pc }, by simp [Service.setConnect, hu], hnew⟩

/-- A `ConnectedThread` that is outside the window before and after. -/
theorem inWindow_setConnected_iff {u : ConnectedThread} (hu : s.connecteds[i]? = some u)
    (hold : u.pc ≠ .lostSet) {pc : ConnectedPc} (hnew : pc ≠ .lostSet) :
    InWindow (s.setConnected i pc) ↔ InWindow s := by
  refine or_congr_right ⟨?_, ?_⟩
  · rintro ⟨i', v, hv, hw⟩
    simp only [Service.setConnected, List.getElem?_modify] at hv
    obtain ⟨w, hw', rfl⟩ := Option.map_eq_some_iff.1 hv
    by_cases hi : i = i'
    · rw [if_pos hi] at hw
      exact absurd hw hnew
    · rw [if_neg hi] at hw
      exact ⟨i', w, hw', hw⟩
  · rintro ⟨i', v, hv, hw⟩
    have hi : i ≠ i' := by
      rintro rfl
      rw [hu] at hv
      cases hv
      exact hold hw
    exact ⟨i', v, by simp [Service.setConnected, hi, hv], hw⟩

theorem inWindow_setConnected {u : ConnectedThread} (hu : s.connecteds[i]? = some u) :
    InWindow (s.setConnected i .lostSet) :=
  Or.inr ⟨i, { u with pc := .lostSet }, by simp [Service.setConnected, hu], rfl⟩

theorem listening_setConnect_iff {u : ConnectThread} (hu : s.connects[j]? = some u)
    (hold : u.pc ≠ .failedSet ∧ u.pc ≠ .failedClosed) {pc : ConnectPc}
    (hnew : pc ≠ .failedSet ∧ pc ≠ .failedClosed) :
    ListenMeansListening (s.setConnect j pc) ↔ ListenMeansListening s := by
  show (_ → ¬ InWindow (s.setConnect j pc) → _) ↔ _
  rw [inWindow_setConnect_iff hu hold hnew]
  exact Iff.rfl

theorem listening_setConnected_iff {u : ConnectedThread} (hu : s.connecteds[i]? = some u)
    (hold : u.pc ≠ .lostSet) {pc : ConnectedPc} (hnew : pc ≠ .lostSet) :
    ListenMeansListening (s.setConnected i pc) ↔ ListenMeansListening s := by
  show (_ → ¬ InWindow (s.setConnected i pc) → _) ↔ _
  rw [inWindow_setConnected_iff hu hold hnew]
  exact Iff.rfl

/-- Whatever an `AcceptThread` other than the current one does, and whatever the current one does
without leaving its loop. -/
theorem HasListener.move (h : HasListener s) {f : AcceptThread → AcceptThread}
    (hsocket : ∀ u, (f u).mmServerSocket = u.mmServerSocket)
    (hpc : s.mAcceptThread = some i → ∀ u, (f u).pc ≠ .ended) :
    HasListener { s with accepts := s.accepts.modify i f } := by
  obtain ⟨i', hi', u, k, hu, hk, hopen, hloop⟩ := h
  refine ⟨i', hi', ?_⟩
  by_cases hi : i = i'
  · subst hi
    exact ⟨f u, k, by simp [hu], (hsocket u).trans hk, hopen, hpc hi' u⟩
  · exact ⟨u, k, by simp [hi, hu], hk, hopen, hloop⟩

theorem not_hasListener_ended {f : AcceptThread → AcceptThread} (hi : s.mAcceptThread = some i)
    (hf : ∀ u, (f u).pc = .ended) : ¬ HasListener { s with accepts := s.accepts.modify i f } := by
  rintro ⟨i', hi', u, k, hu, -, -, hloop⟩
  obtain rfl : i = i' := Option.some.inj (hi.symm.trans hi')
  simp only [List.getElem?_modify, if_true] at hu
  obtain ⟨v, -, rfl⟩ := Option.map_eq_some_iff.1 hu
  exact hloop (hf v)

end Covered

/-! ### Server sockets -/

/-- No server socket is held or closed before it is created. -/
structure Numbered (s : Service) : Prop where
  serverLt : ∀ i k, s.serverSocketOf i = some k → k < s.serverSockets
  closedLt : ∀ k ∈ s.closedServerSockets, k < s.serverSockets

section Numbered

variable {s t s' : Service} {e : Env}

theorem Numbered.congr (h : Numbered s) (hsocket : ∀ i, t.serverSocketOf i = s.serverSocketOf i)
    (hcount : t.serverSockets = s.serverSockets)
    (hclosed : t.closedServerSockets = s.closedServerSockets) : Numbered t := by
  refine ⟨fun i k hk => ?_, fun k hk => ?_⟩
  · rw [hcount]
    exact h.serverLt i k ((hsocket i).symm.trans hk)
  · rw [hcount]
    exact h.closedLt k (hclosed ▸ hk)

theorem numbered_cancelConnectThread (e : Env) :
    Triple Numbered (cancelConnectThread e) Numbered Numbered :=
  triple_cancelField (fun _ hs _ => hs) (fun _ _ hs _ _ => hs)
    fun _ _ _ hs _ _ => hs.congr (fun _ => rfl) rfl rfl

theorem numbered_cancelConnectedThread (e : Env) :
    Triple Numbered (cancelConnectedThread e) Numbered Numbered :=
  triple_cancelField (fun _ hs _ => hs) (fun _ _ hs _ _ => hs)
    fun _ _ _ hs _ _ => hs.congr (fun _ => rfl) rfl rfl

theorem numbered_cancelAcceptThread (e : Env) :
    Triple Numbered (cancelAcceptThread e) Numbered Numbered := by
  refine triple_cancelField (fun _ hs _ => hs) (fun _ _ hs _ _ => hs) ?_
  intro s i k hs _ hk
  refine ⟨hs.serverLt, fun l hl => ?_⟩
  have hl' : l = k ∨ l ∈ s.closedServerSockets := by
    simp only [Service.closeServerSocket] at hl
    split_ifs at hl
    · exact List.mem_cons.1 hl
    · exact Or.inr hl
  rcases hl' with rfl | hl'
  · exact hs.serverLt i l hk
  · exact hs.closedLt l hl'

theorem numbered_startAcceptThread (e : Env) :
    Triple Numbered (startAcceptThread e) Numbered Numbered := by
  refine triple_startAcceptThread (fun _ _ hs _ => hs) ?_
  intro s pc hs _ _ _
  have hle : s.serverSockets ≤ if e.listenOk then s.serverSockets + 1 else s.serverSockets := by
    split_ifs <;> omega
  refine ⟨fun i k hk => ?_, fun k hk => lt_of_lt_of_le (hs.closedLt k hk) hle⟩
  by_cases hi : i = s.accepts.length
  · simp only [Service.serverSocketOf, getElem?_concat, if_pos hi, Option.bind_some] at hk
    obtain ⟨hok, hk⟩ := Option.ite_none_right_eq_some.1 hk
    cases hk
    simp only [hok, if_true]
    omega
  · simp only [Service.serverSocketOf, getElem?_concat, if_neg hi] at hk
    exact lt_of_lt_of_le (hs.serverLt i k hk) hle

theorem start_numbered (e : Env) : Triple Numbered (start e) Numbered Numbered :=
  (numbered_cancelConnectThread e).seq ((numbered_cancelConnectedThread e).seq
    ((numbered_startAcceptThread e).seq
      (triple_setState fun _ hs => hs.congr (fun _ => rfl) rfl rfl)))

theorem connect_numbered (e : Env) : Triple Numbered (connect e) Numbered Numbered := by
  refine Triple.seq (Q := Numbered) ?_ ((numbered_cancelConnectedThread e).seq
    (Triple.seq (Q := Numbered) (Triple.pure fun _ hs => hs.congr (fun _ => rfl) rfl rfl)
      (triple_setState fun _ hs => hs.congr (fun _ => rfl) rfl rfl)))
  intro s hs
  unfold cancelConnecting
  split_ifs
  · exact numbered_cancelConnectThread e s hs
  · exact hs

theorem connected_numbered (e : Env) (k : ℕ) :
    Triple Numbered (connected e k) Numbered Numbered :=
  Triple.seq (Q := Numbered) (Triple.pure fun _ hs => hs.congr (fun _ => rfl) rfl rfl)
    ((numbered_cancelConnectThread e).seq ((numbered_cancelConnectedThread e).seq
      ((numbered_cancelAcceptThread e).seq (Triple.seq (Q := Numbered)
        (Triple.pure fun _ hs => hs.congr (fun _ => rfl) rfl rfl)
        (triple_setState fun _ hs => hs.congr (fun _ => rfl) rfl rfl)))))

theorem stop_numbered (e : Env) : Triple Numbered (stop e) Numbered Numbered :=
  (numbered_cancelConnectThread e).seq ((numbered_cancelConnectedThread e).seq
    ((numbered_cancelAcceptThread e).seq
      (triple_setState fun _ hs => hs.congr (fun _ => rfl) rfl rfl)))

theorem Effect.numbered {a : Action} {u : Service} (hu : Effect s a u) (h : Numbered s) :
    Numbered u := by
  cases hu with
  | nothing => exact h
  | view => exact h.congr (fun _ => rfl) rfl rfl
  | accept => exact h.congr (fun _ => rfl) rfl rfl
  | listen => exact h.congr (fun _ => rfl) rfl rfl
  | reset => exact h.congr (fun _ => rfl) rfl rfl
  | close e k => exact h.congr (fun _ => rfl) rfl rfl
  | start e => exact (start_numbered e).final h
  | connect e => exact (connect_numbered e).final h
  | connected e k => exact (connected_numbered e k).final h
  | stop e => exact (stop_numbered e).final h

theorem runService_numbered {as : List Action} (hs : runService as = some s) : Numbered s := by
  refine run_invariant Numbered ⟨?_, ?_⟩ (fun s a s' h hstep => ?_) hs
  · simp [Service.new, Service.serverSocketOf]
  · simp [Service.new]
  · obtain ⟨u, hu, hmoved⟩ := step_effect hstep
    exact (hu.numbered h).congr hmoved.serverSocketOf hmoved.serverSockets hmoved.closedServerSockets

/-- A `start()` that returns leaves a thread that listens exactly when it was dependable. -/
theorem Started.hasListener_iff (h : Started e s t) (hs : Numbered s) :
    HasListener t ↔ StartDependable s e := by
  cases h.accept with
  | kept i hi hfield haccepts hsockets =>
    have hlistens := listens_congr haccepts h.closedServerSockets i
    constructor
    · rintro ⟨i', hi', hl⟩
      rw [hfield] at hi'
      cases hi'
      refine ⟨fun i' hi' => ?_, fun hnone => ?_⟩
      · rw [hi] at hi'
        cases hi'
        exact hlistens.1 hl
      · rw [hi] at hnone
        cases hnone
    · intro hdep
      exact ⟨i, hfield, hlistens.2 (hdep.kept i hi)⟩
  | created pc hnone hpc hended hfield haccepts hsockets =>
    have hfresh : s.serverSockets ∉ s.closedServerSockets :=
      fun hmem => Nat.lt_irrefl _ (hs.closedLt _ hmem)
    constructor
    · rintro ⟨i, hi, u, k, hu, hk, -, hloop⟩
      rw [hfield] at hi
      cases hi
      rw [haccepts, List.getElem?_concat_length] at hu
      cases hu
      refine ⟨fun i hi => ?_, fun _ => ⟨(Option.ite_none_right_eq_some.1 hk).1, ?_⟩⟩
      · rw [hnone] at hi
        cases hi
      · exact fun hearly => hloop (hended.2 hearly)
    · intro hdep
      obtain ⟨hlisten, hearly⟩ := hdep.created hnone
      refine ⟨_, hfield, ⟨some s.serverSockets, pc, []⟩, s.serverSockets, ?_, rfl, ?_, ?_⟩
      · rw [haccepts, List.getElem?_concat_length, if_pos hlisten]
      · rw [h.closedServerSockets]
        exact hfresh
      · exact fun hend => hearly (hended.1 hend)

end Numbered

/-! ### One step -/

/-- Every `start()` that the action calls and that returns leaves a thread that listens. -/
def StartsListening (s : Service) (a : Action) : Prop :=
  ∀ e t, a.startCall = some e → start e s = .ok t → HasListener t

section Step

variable {s s' : Service} {e : Env} {i j : ℕ}

theorem startsListening_of_none {a : Action} (h : a.startCall = none) : StartsListening s a := by
  intro e t he
  rw [h] at he
  cases he

/-- The calls of `start()` in an action. -/
theorem startsListening_iff {a : Action} (hp : Placed s) (hn : Numbered s)
    (ha : a.startCall = some e) :
    StartsListening s a ↔ (¬ CancelThrows s → StartDependable s e) := by
  constructor
  · intro h hc
    obtain ⟨t, ht, hstarted⟩ := start_returns (e := e) hp hc
    exact (hstarted.hasListener_iff hn).1 (h e t ha ht)
  · intro h e' t he' ht
    rw [ha] at he'
    cases he'
    have hends := start_ends hp e
    have hspec := start_spec e s
    rw [ht] at hends hspec
    have hstarted : Started e s t := hspec
    exact (hstarted.hasListener_iff hn).2 (h hends.2.2)

/-- A call that throws, or sets another state, keeps what holds. -/
theorem listening_of_ends {Q : Service → Prop} {r : Except Service Service}
    (hr : Ends Q (KeepsAccept s) r) (hQ : ∀ t, Q t → t.mState ≠ .stateListen)
    (h : ListenMeansListening s) : ListenMeansListening (final r) := by
  cases r with
  | ok t => exact listening_of_ne (hQ t hr)
  | error t =>
    have hkeep : KeepsAccept s t := hr
    exact hkeep.listening_iff.2 h

theorem start_step_iff (hp : Placed s) (hn : Numbered s) (h : ListenMeansListening s) :
    (ListenMeansListening (final (start e s)) ∧ StartsListening s (.start e)) ↔
      Dependable s (.start e) := by
  rw [startsListening_iff (a := .start e) hp hn rfl]
  refine and_iff_right_of_imp fun hdep => ?_
  by_cases hc : CancelThrows s
  · obtain ⟨t, ht, hkeep⟩ := start_throws (e := e) hp hc
    rw [ht]
    exact hkeep.listening_iff.2 h
  · obtain ⟨t, ht, hstarted⟩ := start_returns (e := e) hp hc
    rw [ht]
    exact fun _ _ => (hstarted.hasListener_iff hn).2 (hdep hc)

/-- A worker at the end of the window calls `start()`. -/
theorem restart_iff {a : Action} (hp : Placed s) (hn : Numbered s) (ha : a.startCall = some e)
    (move : Service → Service) (hkeep : ∀ t, KeepsAccept s t → KeepsAccept (move s) (move t))
    (hstate : (move s).mState = s.mState)
    (hlistener : ∀ t, HasListener t → HasListener (move t)) :
    (ListenMeansListening (move (final (start e s))) ∧ StartsListening s a) ↔
      RestartDependable s (move s) e := by
  rw [startsListening_iff hp hn ha]
  by_cases hc : CancelThrows s
  · obtain ⟨t, ht, hk⟩ := start_throws (e := e) hp hc
    rw [ht, final_error, (hkeep t hk).listening_iff, listenMeansListening_iff, hstate]
    constructor
    · rintro ⟨hl, hret⟩
      exact ⟨hret, fun _ => hl⟩
    · intro hdep
      exact ⟨hdep.throws hc, hdep.returns⟩
  · obtain ⟨t, ht, hstarted⟩ := start_returns (e := e) hp hc
    rw [ht, final_ok]
    constructor
    · rintro ⟨-, hret⟩
      exact ⟨hret, fun hc' => absurd hc' hc⟩
    · intro hdep
      exact ⟨fun _ _ => hlistener t ((hstarted.hasListener_iff hn).2 (hdep.returns hc)),
        hdep.returns⟩

theorem acceptThrows_iff (h : ListenMeansListening s) :
    ListenMeansListening (s.setAccept i .ended) ↔ Dependable s (.acceptThread i .acceptThrows) := by
  constructor
  · intro h' hi hl
    by_contra hw
    exact not_hasListener_ended (f := fun u => { u with pc := .ended }) hi (fun _ => rfl) (h' hl hw)
  · intro hdep hl hw
    refine (h hl hw).move (fun _ => rfl) fun hi => ?_
    exact absurd (hdep hi hl) hw

theorem block_iff (hp : Placed s) (h : ListenMeansListening s) (k : ℕ) :
    ListenMeansListening (acceptBlock e s i k) ↔ Dependable s (.acceptThread i (.block e)) := by
  by_cases hl : s.mState = .stateListen
  · -- the block calls `connected()`
    have hspec := connected_spec e k s
    have hends := connected_ends hp e k
    rcases acceptBlock_cases e s i k with ⟨-, ⟨t, ht, h'⟩ | ⟨t, ht, h'⟩⟩ | ⟨hstate, -⟩
    · rw [ht] at hspec hends
      have hover : HandedOver k s t := hspec
      refine iff_of_true ?_ fun _ _ hc => absurd hc hends
      rw [h']
      exact listening_of_ne fun hl' => by cases hover.mState.symm.trans hl'
    · rw [ht] at hspec hends
      have hkeep : KeepsAccept s t := hspec
      rw [h', (hkeep.setHandled i k .ended).listening_iff]
      constructor
      · intro hafter hi _ _
        by_contra hw
        exact not_hasListener_ended (f := fun u => { u with pc := .ended, handled := k :: u.handled })
          hi (fun _ => rfl) (hafter hl hw)
      · intro hdep _ hw
        have hthrows : NullServerSocket s ∨ CancelThrows s := by
          rcases hends with hn | ⟨-, hv⟩ | ⟨-, -, hn⟩
          · exact Or.inr (Or.inl hn)
          · exact Or.inr (Or.inr hv)
          · exact Or.inl hn
        refine (h hl hw).move (fun _ => rfl) fun hi => ?_
        -- the current thread listens, so it is not its server socket that is null
        rcases hthrows with ⟨i', hi', hnull⟩ | hc
        · obtain ⟨i'', hi'', u, l, hu, hlk, -⟩ := h hl hw
          obtain rfl : i' = i'' := Option.some.inj (hi'.symm.trans hi'')
          simp [Service.serverSocketOf, hu, hlk] at hnull
        · exact absurd (hdep hi hl hc) hw
    · rw [hl] at hstate
      rcases hstate with h' | h' <;> cases h'
  · refine iff_of_true (listening_of_ne fun hl' => ?_) fun _ hl' => absurd hl' hl
    rcases acceptBlock_cases e s i k with ⟨-, ⟨t, ht, h'⟩ | ⟨t, ht, h'⟩⟩ | ⟨-, h'⟩
    · have hspec := connected_spec e k s
      rw [ht] at hspec
      have hover : HandedOver k s t := hspec
      rw [h'] at hl'
      cases hover.mState.symm.trans hl'
    · have hspec := connected_spec e k s
      rw [ht] at hspec
      have hkeep : KeepsAccept s t := hspec
      rw [h'] at hl'
      exact hl (hkeep.mState.symm.trans hl')
    · rw [h'] at hl'
      exact hl hl'

theorem acceptStep_listens_iff (hp : Placed s) (h : ListenMeansListening s) {t : AcceptThread}
    {a : AcceptAct} (hstep : acceptStep s i t a = some s') :
    ListenMeansListening s' ↔ Dependable s (.acceptThread i a) := by
  rcases acceptStep_cases hstep with ⟨rfl, -, rfl⟩ | ⟨rfl, -, rfl⟩ | ⟨rfl, -, rfl⟩ |
    ⟨e, k, rfl, -, rfl⟩
  · refine iff_of_true (fun hl hw => (h hl hw).move (fun _ => rfl) fun _ _ => ?_) trivial
    have hl : s.mState = .stateListen := hl
    simp [hl]
  · exact iff_of_true (fun hl hw => (h hl hw).move (fun _ => rfl) fun _ _ => by simp) trivial
  · exact acceptThrows_iff h
  · exact block_iff hp h k

/-- A worker sets `STATE_LISTEN` and dies of a null view, or enters the window. -/
theorem report_iff (hl : s'.mState = .stateListen)
    (hview : s.mOpenCvCameraView = true → InWindow s')
    (hnull : s.mOpenCvCameraView = false → (Covered s' ↔ Covered s)) :
    ListenMeansListening s' ↔ s.mOpenCvCameraView = true ∨ Covered s := by
  rw [listenMeansListening_iff, imp_iff_right hl]
  cases hv : s.mOpenCvCameraView with
  | true => exact iff_of_true (Or.inl (hview hv)) (Or.inl rfl)
  | false => simpa using hnull hv

theorem connectStep_listens_iff (hp : Placed s) (hn : Numbered s) (h : ListenMeansListening s)
    {t : ConnectThread} {a : ConnectAct} (ht : s.connects[j]? = some t)
    (hstep : connectStep s j t a = some s') :
    (ListenMeansListening s' ∧ StartsListening s (.connectThread j a)) ↔
      Dependable s (.connectThread j a) := by
  rcases connectStep_cases hstep with ⟨k, rfl, hpc, -, rfl⟩ | ⟨rfl, hpc, rfl⟩ | ⟨rfl, hpc, rfl⟩ |
    ⟨e, k, rfl, hpc, -, rfl⟩ | ⟨e, rfl, hpc, rfl⟩ | ⟨rfl, hpc, rfl⟩ | ⟨e, k, own, rfl, hpc, -, rfl⟩
  · refine iff_of_true ⟨?_, startsListening_of_none rfl⟩ trivial
    exact (listening_setConnect_iff ht (by simp [hpc]) (by simp)).2 h
  · refine iff_of_true ⟨?_, startsListening_of_none rfl⟩ trivial
    refine (listening_setConnect_iff ht (by simp [hpc]) ?_).2 h
    split_ifs <;> simp
  · rw [and_iff_left (startsListening_of_none rfl)]
    refine report_iff rfl (fun hv => ?_) fun hv => ?_
    · rw [if_pos hv]
      exact inWindow_setConnect (s := { s with mState := .stateListen }) ht (Or.inl rfl)
    · rw [if_neg (by simp [hv])]
      exact or_congr_left (inWindow_setConnect_iff (s := { s with mState := .stateListen }) ht
        (by simp [hpc]) (by simp))
  · refine iff_of_true ⟨fun _ hw => absurd ?_ hw, startsListening_of_none rfl⟩ trivial
    exact inWindow_setConnect (s := s.closeSocket e k) ht (Or.inr rfl)
  · exact restart_iff hp hn rfl (fun t => t.setConnect j .ended)
      (fun _ hkeep => hkeep.setConnect j .ended) rfl fun _ hl => hl
  · refine iff_of_true ⟨?_, startsListening_of_none rfl⟩ trivial
    exact (listening_setConnect_iff (s := { s with mConnectThread := none }) ht (by simp [hpc])
      (by simp)).2 h
  · refine iff_of_true ⟨?_, startsListening_of_none rfl⟩ trivial
    have hspec := connected_spec e k s
    cases hm : connected e k s with
    | ok u =>
      rw [hm] at hspec
      have hover : HandedOver k s u := hspec
      exact listening_of_ne fun hl => by cases hover.mState.symm.trans hl
    | error u =>
      rw [hm] at hspec
      have hkeep : KeepsAccept s u := hspec
      rw [final_error, (hkeep.setConnect j .ended).listening_iff]
      exact (listening_setConnect_iff ht (by simp [hpc]) (by simp)).2 h

theorem connectedStep_listens_iff (hp : Placed s) (hn : Numbered s) (h : ListenMeansListening s)
    {t : ConnectedThread} {a : ConnectedAct} (ht : s.connecteds[i]? = some t)
    (hstep : connectedStep s i t a = some s') :
    (ListenMeansListening s' ∧ StartsListening s (.connectedThread i a)) ↔
      Dependable s (.connectedThread i a) := by
  rcases connectedStep_cases hstep with ⟨rfl, rfl⟩ | ⟨rfl, hpc, rfl⟩ | ⟨rfl, hpc, rfl⟩ |
    ⟨e, rfl, hpc, rfl⟩
  · exact iff_of_true ⟨h, startsListening_of_none rfl⟩ trivial
  · refine iff_of_true ⟨?_, startsListening_of_none rfl⟩ trivial
    refine (listening_setConnected_iff ht (by simp [hpc]) ?_).2 h
    split_ifs <;> simp
  · rw [and_iff_left (startsListening_of_none rfl)]
    refine report_iff rfl (fun hv => ?_) fun hv => ?_
    · rw [if_pos hv]
      exact inWindow_setConnected (s := { s with mState := .stateListen }) ht
    · rw [if_neg (by simp [hv])]
      exact or_congr_left (inWindow_setConnected_iff (s := { s with mState := .stateListen }) ht
        (by simp [hpc]) (by simp))
  · exact restart_iff hp hn rfl (fun t => t.setConnected i .ended)
      (fun _ hkeep => hkeep.setConnected i .ended) rfl fun _ hl => hl

/-- **A step keeps the service listening exactly when it is dependable.** -/
theorem step_listens_iff (hp : Placed s) (hn : Numbered s) (h : ListenMeansListening s)
    {a : Action} (hstep : step s a = some s') :
    (ListenMeansListening s' ∧ StartsListening s a) ↔ Dependable s a := by
  cases a with
  | start e =>
    cases hstep
    exact start_step_iff hp hn h
  | connect e =>
    cases hstep
    refine iff_of_true ⟨?_, startsListening_of_none rfl⟩ trivial
    exact listening_of_ends (connect_spec e s) (fun t ht => by rw [ht.mState]; simp) h
  | stop e =>
    cases hstep
    refine iff_of_true ⟨?_, startsListening_of_none rfl⟩ trivial
    exact listening_of_ends (stop_spec e s) (fun t ht => by rw [ht.mState]; simp) h
  | write =>
    cases hstep
    exact iff_of_true ⟨h, startsListening_of_none rfl⟩ trivial
  | initMainUi =>
    cases hstep
    exact iff_of_true ⟨h, startsListening_of_none rfl⟩ trivial
  | acceptThread i a =>
    obtain ⟨t, -, hstep⟩ := Option.bind_eq_some_iff.1 hstep
    rw [and_iff_left (startsListening_of_none rfl)]
    exact acceptStep_listens_iff hp h hstep
  | connectThread j a =>
    obtain ⟨t, ht, hstep⟩ := Option.bind_eq_some_iff.1 hstep
    exact connectStep_listens_iff hp hn h ht hstep
  | connectedThread i a =>
    obtain ⟨t, ht, hstep⟩ := Option.bind_eq_some_iff.1 hstep
    exact connectedStep_listens_iff hp hn h ht hstep

end Step

/-! ### Runs -/

theorem runService_listening {as : List Action} (ha : Along step Dependable .new as) {s : Service}
    (hs : runService as = some s) : ListenMeansListening s := by
  refine run_induction (fun _ s => ListenMeansListening s) ?_ ?_ ha hs
  · exact listening_of_ne (by simp [Service.new])
  · intro as s a s' hs h hdep hstep
    exact ((step_listens_iff (runService_placed hs) (runService_numbered hs) h hstep).2 hdep).1

/-- **`STATE_LISTEN` means listening**, and every `start()` that returns leaves a thread that
listens, throughout a run, if and only if all its steps are dependable. -/
theorem listen_iff (as : List Action) (s : Service) (hs : runService as = some s) :
    ListensThroughout as ↔ Along step Dependable .new as := by
  -- every step of the run is defined, because the run is
  have hdef : ∀ pre a post t, as = pre ++ a :: post → runService pre = some t →
      ∃ t', step t a = some t' ∧ runService (pre ++ [a]) = some t' := by
    intro pre a post t has ht
    rw [runService, has, run_append_some ht, run_cons] at hs
    obtain ⟨t', ht', -⟩ := Option.bind_eq_some_iff.1 hs
    refine ⟨t', ht', ?_⟩
    rw [runService, run_append_some ht, run_singleton]
    exact ht'
  constructor
  · intro h
    refine along_iff.2 fun pre a post t has ht => ?_
    obtain ⟨t', hstep, ht'⟩ := hdef pre a post t has ht
    refine (step_listens_iff (runService_placed ht) (runService_numbered ht)
      (h.listen pre (a :: post) t has ht) hstep).1 ⟨?_, ?_⟩
    · exact h.listen (pre ++ [a]) post t' (by simp [has]) ht'
    · exact fun e u he hu => h.start pre a post t e u has ht he hu
  · intro h
    refine ⟨?_, ?_⟩
    · rintro pre post t rfl ht
      exact runService_listening h.append_left ht
    · intro pre a post t e u has ht he hu
      obtain ⟨t', hstep, -⟩ := hdef pre a post t has ht
      rw [has] at h
      exact ((step_listens_iff (runService_placed ht) (runService_numbered ht)
        (runService_listening h.append_left ht) hstep).2 (h.at_step ht)).2 e u he hu

/-- A connection is lost, its reader calls `start()`, and the service listens again. -/
theorem listen_iff_again :
    ListensThroughout [.initMainUi, .start .good, .acceptThread 0 .loopTest,
      .acceptThread 0 .acceptReturns, .acceptThread 0 (.block .good), .connectedThread 0 .readThrows,
      .connectedThread 0 .connectionLost, .connectedThread 0 (.restart .good)] := by
  refine (listen_iff [.initMainUi, .start .good, .acceptThread 0 .loopTest,
    .acceptThread 0 .acceptReturns, .acceptThread 0 (.block .good), .connectedThread 0 .readThrows,
    .connectedThread 0 .connectionLost, .connectedThread 0 (.restart .good)] _ rfl).2 ?_
  have hgood : ∀ s : Service, s.mAcceptThread = none → StartDependable s .good := by
    intro s hnone
    refine ⟨fun i hi => ?_, fun _ => ⟨rfl, fun h => nomatch h.1⟩⟩
    rw [hnone] at hi
    cases hi
  refine Along.cons trivial rfl (Along.cons (fun _ => hgood _ rfl) rfl (Along.cons trivial rfl
    (Along.cons trivial rfl (Along.cons ?_ rfl (Along.cons trivial rfl (Along.cons (Or.inl rfl) rfl
      (Along.cons ⟨fun _ => hgood _ rfl, ?_⟩ rfl trivial)))))))
  · rintro - - (⟨j, hj, -⟩ | ⟨hd, -⟩)
    · cases hj
    · exact absurd rfl hd
  · rintro (⟨j, hj, -⟩ | ⟨-, hview⟩)
    · cases hj
    · cases hview

/-- The service after `accept()` has thrown: `STATE_LISTEN`, with a dead `AcceptThread`. -/
def deafService : Service where
  mState := .stateListen
  mAcceptThread := some 0
  mConnectThread := none
  mConnectedThread := none
  accepts := [⟨some 0, .ended, []⟩]
  connects := []
  connecteds := []
  sockets := 0
  closedSockets := []
  serverSockets := 1
  closedServerSockets := []
  mOpenCvCameraView := true
  passed := []

/-- The service after a connection has failed while there is no view: `STATE_LISTEN`, and no
`AcceptThread`. -/
def unreportedService : Service :=
  { deafService with
    mAcceptThread := none
    mConnectThread := some 0
    accepts := []
    connects := [⟨some 0, .ended⟩]
    sockets := 1
    serverSockets := 0
    mOpenCvCameraView := false }

/-- `accept()` throws, and calling `start()` again does not help.  And without a view, a connection
that fails leaves the state, but no `start()`. -/
theorem listen_deaf :
    (runService [.initMainUi, .start .good, .acceptThread 0 .loopTest,
      .acceptThread 0 .acceptThrows, .start .good] = some deafService ∧
      ¬ ListenMeansListening deafService) ∧
    runService [.connect .good, .connectThread 0 .connectThrows,
      .connectThread 0 .connectionFailed] = some unreportedService ∧
      ¬ ListenMeansListening unreportedService := by
  refine ⟨⟨by decide, fun h => ?_⟩, by decide, fun h => ?_⟩
  · obtain ⟨i, hi, t, k, ht, -, -, hend⟩ := h rfl (by simp [InWindow, deafService])
    cases hi
    cases ht
    exact hend rfl
  · have hwindow : ¬ InWindow unreportedService := by
      simp [InWindow, unreportedService, deafService, List.getElem?_singleton]
    obtain ⟨i, hi, -⟩ := h rfl hwindow
    cases hi

end Controller.Bluetooth
