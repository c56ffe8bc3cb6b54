import Controller.Bluetooth.Throws

/-!
# Does every open socket have one owner?

In runs in which sockets are created and closed successfully (`Action.Sound`) one would like, at
every moment (`SingleOwner`):

* a socket that was passed to `connected` is closed or belongs to the current `ConnectedThread`;
* a socket that an `AcceptThread` accepted has been passed to `connected` or closed once its block
  has run;
* a server socket is closed or belongs to the current `AcceptThread`.

`ConnectedThread.cancel()` reports to the view before it closes its socket.  While there is no view,
a `connected()` that finds a `ConnectedThread` throws there, and the socket it was given stays open
without an owner (`sockets_leak`).  `sockets_owned_iff`: the property holds throughout a run exactly
when no open socket is passed to `connected()` in this situation (`SafelyPassed`).

The invariant `Owned new` allows one exception, the socket `new` that `connected` is just about to
give to its `ConnectedThread`.
-/

namespace Controller.Bluetooth

open Abort PartialRun

/-- Sockets are created and closed successfully. -/
structure Env.Sound (e : Env) : Prop where
  listenOk : e.listenOk = true
  createOk : e.createOk = true
  closeOk : ∀ k, e.closeOk k = true
  closeServerOk : ∀ k, e.closeServerOk k = true

/-- What the system answers during an action. -/
def Action.env : Action → Option Env
  | .start e => some e
  | .connect e => some e
  | .stop e => some e
  | .acceptThread _ (.block e) => some e
  | .connectThread _ (.closeSocket e) => some e
  | .connectThread _ (.restart e) => some e
  | .connectThread _ (.connected e) => some e
  | .connectedThread _ (.restart e) => some e
  | _ => none

/-- An action during which sockets are created and closed successfully. -/
def Action.Sound (a : Action) : Prop := ∀ e, a.env = some e → e.Sound

/-- Every open socket has one owner, so of either kind at most one is open. -/
structure SingleOwner (s : Service) : Prop where
  passed : ∀ k ∈ s.passed, k ∈ s.closedSockets ∨
    ∃ i, s.mConnectedThread = some i ∧ s.connectedSocketOf i = some k
  handled : ∀ t ∈ s.accepts, ∀ k ∈ t.handled, k ∈ s.passed ∨ k ∈ s.closedSockets
  server : ∀ i k, s.serverSocketOf i = some k →
    k ∈ s.closedServerSockets ∨ s.mAcceptThread = some i
  oneConnection : ∀ k ∈ s.passed, ∀ l ∈ s.passed, k ∉ s.closedSockets → l ∉ s.closedSockets → k = l
  oneListener : ∀ i i' k l, s.serverSocketOf i = some k → s.serverSocketOf i' = some l →
    k ∉ s.closedServerSockets → l ∉ s.closedServerSockets → k = l

/-- The action passes the socket `k` to `connected()`. -/
def Passes (s : Service) (k : ℕ) : Action → Prop
  | .acceptThread i (.block _) => (s.mState = .stateListen ∨ s.mState = .stateConnecting) ∧
      ∃ t : AcceptThread, s.accepts[i]? = some t ∧ t.pc = .accepted k
  | .connectThread j (.connected _) => ∃ (t : ConnectThread) (own : Bool),
      s.connects[j]? = some t ∧ t.pc = .reset own ∧ t.mmSocket = some k
  | _ => False

/-- While there is a `ConnectedThread` and no view, only a closed socket is passed to
`connected()`. -/
def SafelyPassed (s : Service) (a : Action) : Prop :=
  ∀ k, Passes s k a → NullView s → k ∈ s.closedSockets

/-! ### The invariant -/

/-- Every socket is closed or owned, but for the socket `new`. -/
structure Owned (new : Option ℕ) (s : Service) : Prop where
  passed : ∀ k ∈ s.passed, new = some k ∨ k ∈ s.closedSockets ∨
    ∃ i, s.mConnectedThread = some i ∧ s.connectedSocketOf i = some k
  handled : ∀ (i : ℕ) (t : AcceptThread), s.accepts[i]? = some t →
    ∀ k ∈ t.handled, k ∈ s.passed ∨ k ∈ s.closedSockets
  server : ∀ i k, s.serverSocketOf i = some k →
    k ∈ s.closedServerSockets ∨ s.mAcceptThread = some i
  acceptSocket : ∀ i, s.mAcceptThread = some i → s.serverSocketOf i ≠ none
  connectSocket : ∀ j, s.mConnectThread = some j → s.connectSocketOf j ≠ none
  connectedSocket : ∀ i, s.mConnectedThread = some i → s.connectedSocketOf i ≠ none
  newPassed : ∀ k, new = some k → k ∈ s.passed

section Statements

variable {new : Option ℕ} {s : Service} {e : Env}

theorem closeSocket_closed (he : e.Sound) (k : ℕ) :
    (s.closeSocket e k).closedSockets = k :: s.closedSockets := by
  simp [Service.closeSocket, he.closeOk k]

theorem closeServerSocket_closed (he : e.Sound) (k : ℕ) :
    (s.closeServerSocket e k).closedServerSockets = k :: s.closedServerSockets := by
  simp [Service.closeServerSocket, he.closeServerOk k]

/-- Closing a socket takes nothing away. -/
theorem Owned.closeSocket (h : Owned new s) (he : e.Sound) (k : ℕ) :
    Owned new (s.closeSocket e k) := by
  refine ⟨fun l hl => ?_, fun i t ht l hl => ?_, h.server, h.acceptSocket, h.connectSocket,
    h.connectedSocket, h.newPassed⟩
  · rw [closeSocket_closed he]
    rcases h.passed l hl with h | h | h
    · exact Or.inl h
    · exact Or.inr (Or.inl (List.mem_cons_of_mem k h))
    · exact Or.inr (Or.inr h)
  · rw [closeSocket_closed he]
    exact (h.handled i t ht l hl).imp_right (List.mem_cons_of_mem k)

theorem Owned.setState (h : Owned new s) (state : State) : Owned new { s with mState := state } :=
  ⟨h.passed, h.handled, h.server, h.acceptSocket, h.connectSocket, h.connectedSocket, h.newPassed⟩

theorem Owned.resetConnect (h : Owned new s) : Owned new { s with mConnectThread := none } :=
  ⟨h.passed, h.handled, h.server, h.acceptSocket, fun _ hj => (nomatch hj), h.connectedSocket,
    h.newPassed⟩

theorem owned_cancelConnectThread (he : e.Sound) :
    Triple (Owned new) (cancelConnectThread e) (Owned new) (fun _ => False) := by
  refine triple_cancelField (fun s hs _ => hs) (fun s j hs hj hk => hs.connectSocket j hj hk) ?_
  intro s j k hs _ _
  exact (hs.closeSocket he k).resetConnect

/-- A socket that is closed needs no exception. -/
theorem Owned.of_closed {k : ℕ} (h : Owned (some k) s) (hk : k ∈ s.closedSockets) :
    Owned none s := by
  refine ⟨fun l hl => ?_, h.handled, h.server, h.acceptSocket, h.connectSocket, h.connectedSocket,
    fun _ hn => (nomatch hn)⟩
  rcases h.passed l hl with hnew | h
  · cases hnew
    exact Or.inr (Or.inl hk)
  · exact Or.inr h

/-- The current `ConnectedThread` has a socket, so only the report to the view can throw. -/
theorem Owned.nullView {i : ℕ} (h : Owned new s) (hi : s.mConnectedThread = some i)
    (hk : s.cancelledSocketOf i = none) : NullView s := by
  refine ⟨by rw [hi]; simp, ?_⟩
  by_contra hview
  rw [Service.cancelledSocketOf, if_pos (by simpa using hview)] at hk
  exact h.connectedSocket i hi hk

/-- The socket of the `ConnectedThread` is closed before the field is cleared. -/
theorem Owned.cancelConnected {i k : ℕ} (h : Owned new s) (he : e.Sound)
    (hi : s.mConnectedThread = some i) (hk : s.cancelledSocketOf i = some k) :
    Owned new { s.closeSocket e k with mConnectedThread := none } := by
  have hk : s.connectedSocketOf i = some k := (Option.ite_none_right_eq_some.1 hk).2
  have h' := h.closeSocket he k
  refine ⟨fun l hl => ?_, h'.handled, h'.server, h'.acceptSocket, h'.connectSocket,
    fun _ hi => (nomatch hi), h'.newPassed⟩
  rcases h.passed l hl with h | h | ⟨i', hi', hl'⟩
  · exact Or.inl h
  · refine Or.inr (Or.inl ?_)
    rw [closeSocket_closed he]
    exact List.mem_cons_of_mem k h
  · -- it is the socket that has just been closed
    rw [hi] at hi'
    cases hi'
    rw [hk] at hl'
    cases hl'
    refine Or.inr (Or.inl ?_)
    rw [closeSocket_closed he]
    exact List.mem_cons_self

theorem owned_cancelConnectedThread (he : e.Sound) :
    Triple (Owned new) (cancelConnectedThread e)
      (fun s => Owned new s ∧ s.mConnectedThread = none) (Owned new) :=
  triple_cancelField (fun _ hs hi => ⟨hs, hi⟩) (fun _ _ hs _ _ => hs)
    fun _ _ _ hs hi hk => ⟨hs.cancelConnected he hi hk, rfl⟩

theorem owned_cancelAcceptThread (he : e.Sound) :
    Triple (fun s => Owned new s ∧ s.mConnectedThread = none) (cancelAcceptThread e)
      (fun s => Owned new s ∧ s.mConnectedThread = none) (fun _ => False) := by
  refine triple_cancelField (fun s hs _ => hs) (fun s i hs hi hk => hs.1.acceptSocket i hi hk) ?_
  rintro s i k ⟨hs, hd⟩ hi hk
  refine ⟨⟨hs.passed, hs.handled, fun i' l hl => Or.inl ?_, fun _ hi => (nomatch hi),
    hs.connectSocket, hs.connectedSocket, hs.newPassed⟩, hd⟩
  rw [closeServerSocket_closed he]
  rcases hs.server i' l hl with h | h
  · exact List.mem_cons_of_mem k h
  · rw [hi] at h
    cases h
    have e : some k = some l := hk.symm.trans hl
    cases e
    exact List.mem_cons_self

theorem owned_startAcceptThread (he : e.Sound) :
    Triple (fun s => Owned new s ∧ s.mConnectedThread = none) (startAcceptThread e) (Owned new)
      (fun _ => False) := by
  refine triple_startAcceptThread (fun s _ hs _ => hs.1) ?_
  rintro s pc ⟨hs, -⟩ ha - -
  refine ⟨hs.passed, fun i t ht l hl => ?_, fun i k hk => ?_, fun i hi => ?_, hs.connectSocket,
    hs.connectedSocket, hs.newPassed⟩
  · by_cases hi : i = s.accepts.length
    · rw [getElem?_concat, if_pos hi] at ht
      cases ht
      cases hl
    · rw [getElem?_concat, if_neg hi] at ht
      exact hs.handled i t ht l hl
  · by_cases hi : i = s.accepts.length
    · exact Or.inr (by rw [hi])
    · rw [Service.serverSocketOf, getElem?_concat, if_neg hi] at hk
      refine (hs.server i k hk).imp_right fun h => ?_
      rw [ha] at h
      cases h
  · cases hi
    simp [Service.serverSocketOf, he.listenOk]

theorem Owned.startConnectThread (h : Owned new s) (he : e.Sound) :
    Owned new { s with
      mConnectThread := some s.connects.length
      connects := s.connects ++ [⟨if e.createOk then some s.sockets else none, .connecting⟩]
      sockets := if e.createOk then s.sockets + 1 else s.sockets } := by
  refine ⟨h.passed, h.handled, h.server, h.acceptSocket, fun j hj => ?_, h.connectedSocket,
    h.newPassed⟩
  cases hj
  simp [Service.connectSocketOf, he.createOk]

/-- The new socket gets its owner. -/
theorem Owned.startConnectedThread {k : ℕ} (h : Owned (some k) s) (hd : s.mConnectedThread = none) :
    Owned none { s with
      mConnectedThread := some s.connecteds.length
      connecteds := s.connecteds ++ [⟨k, e.streamsOk, .reading⟩] } := by
  refine ⟨fun l hl => ?_, h.handled, h.server, h.acceptSocket, h.connectSocket, fun i hi => ?_,
    fun _ hk => (nomatch hk)⟩
  · rcases h.passed l hl with h | h | ⟨i, hi, -⟩
    · cases h
      exact Or.inr (Or.inr ⟨_, rfl, by simp [Service.connectedSocketOf]⟩)
    · exact Or.inr (Or.inl h)
    · rw [hd] at hi
      cases hi
  · cases hi
    simp [Service.connectedSocketOf]

end Statements

/-! ### The methods -/

section Methods

variable {e : Env}

theorem start_owned (he : e.Sound) : Triple (Owned none) (start e) (Owned none) (Owned none) :=
  ((owned_cancelConnectThread he).weaken fun _ h => h.elim).seq
    ((owned_cancelConnectedThread he).seq
      (((owned_startAcceptThread he).weaken fun _ h => h.elim).seq
        (triple_setState fun _ hs => hs.setState _)))

theorem connect_owned (he : e.Sound) :
    Triple (Owned none) (connect e) (Owned none) (Owned none) := by
  refine Triple.seq (Q := Owned none) ?_ ((owned_cancelConnectedThread he).seq
    (Triple.seq (Q := Owned none) (Triple.pure fun s hs => hs.1.startConnectThread he)
      (triple_setState fun _ hs => hs.setState _)))
  intro s hs
  unfold cancelConnecting
  split_ifs
  · exact (owned_cancelConnectThread he).weaken (fun _ h => h.elim) s hs
  · exact hs

theorem stop_owned (he : e.Sound) : Triple (Owned none) (stop e) (Owned none) (Owned none) :=
  ((owned_cancelConnectThread he).weaken fun _ h => h.elim).seq
    ((owned_cancelConnectedThread he).seq
      (((owned_cancelAcceptThread he).weaken fun _ h => h.elim).seq
        (triple_setState fun _ hs => hs.1.setState _)))

theorem owned_recordPassed (k : ℕ) :
    Triple (Owned none) (recordPassed k) (Owned (some k)) (fun _ => False) := by
  refine Triple.pure fun s hs => ?_
  refine ⟨fun l hl => ?_, fun i t ht l hl => ?_, hs.server, hs.acceptSocket, hs.connectSocket,
    hs.connectedSocket, fun l hl => ?_⟩
  · rcases List.mem_cons.1 hl with rfl | hl
    · exact Or.inl rfl
    · exact Or.inr ((hs.passed l hl).resolve_left (by simp))
  · exact (hs.handled i t ht l hl).imp_left (List.mem_cons_of_mem k)
  · cases hl
    exact List.mem_cons_self

/-- Passing the socket `k` to `connected()` is safe. -/
def SafeSocket (k : ℕ) (s : Service) : Prop := NullView s → k ∈ s.closedSockets

theorem safe_cancelConnectThread (he : e.Sound) (k : ℕ) :
    Triple (fun s => Owned (some k) s ∧ SafeSocket k s) (cancelConnectThread e)
      (fun s => Owned (some k) s ∧ SafeSocket k s) (fun _ => False) := by
  refine triple_cancelField (fun s hs _ => hs) (fun s j hs hj hk => hs.1.connectSocket j hj hk) ?_
  intro s j l hs _ _
  refine ⟨(hs.1.closeSocket he l).resetConnect, fun hview => ?_⟩
  show k ∈ (s.closeSocket e l).closedSockets
  rw [closeSocket_closed he]
  exact List.mem_cons_of_mem l (hs.2 hview)

theorem safe_cancelConnectedThread (he : e.Sound) (k : ℕ) :
    Triple (fun s => Owned (some k) s ∧ SafeSocket k s) (cancelConnectedThread e)
      (fun s => Owned (some k) s ∧ s.mConnectedThread = none)
      (fun s => Owned none s ∧ k ∈ s.passed) := by
  refine triple_cancelField (fun _ hs hi => ⟨hs.1, hi⟩) ?_
    fun _ _ _ hs hi hk => ⟨hs.1.cancelConnected he hi hk, rfl⟩
  -- it throws for want of a view, and then the socket is closed
  intro s i hs hi hk
  exact ⟨hs.1.of_closed (hs.2 (hs.1.nullView hi hk)), hs.1.newPassed k rfl⟩

theorem connected_owned (he : e.Sound) (k : ℕ) :
    Triple (fun s => Owned none s ∧ SafeSocket k s) (connected e k)
      (fun s => Owned none s ∧ k ∈ s.passed) (fun s => Owned none s ∧ k ∈ s.passed) := by
  refine Triple.seq (Q := fun s => Owned (some k) s ∧ SafeSocket k s) ?_
    (((safe_cancelConnectThread he k).weaken fun _ h => h.elim).seq
      ((safe_cancelConnectedThread he k).seq
        (((owned_cancelAcceptThread he).weaken fun _ h => h.elim).seq
          (Triple.seq (Q := fun s => Owned none s ∧ k ∈ s.passed)
            (Triple.pure fun _ hs => ⟨hs.1.startConnectedThread hs.2, hs.1.newPassed k rfl⟩)
            (triple_setState fun _ hs => ⟨hs.1.setState _, hs.2⟩)))))
  intro s hs
  exact ⟨owned_recordPassed k s hs.1, hs.2⟩

end Methods

/-! ### The steps -/

section Steps

variable {s s' : Service} {i j : ℕ}

theorem Owned.setAccept (h : Owned none s) (pc : AcceptPc) : Owned none (s.setAccept i pc) := by
  refine ⟨h.passed, fun i' t ht l hl => ?_, fun i' k hk => ?_, fun i' hi' => ?_, h.connectSocket,
    h.connectedSocket, h.newPassed⟩
  · obtain ⟨u, hu, rfl⟩ : ∃ u, s.accepts[i']? = some u ∧
        t = if i = i' then { u with pc := pc } else u := by
      simp only [Service.setAccept, List.getElem?_modify] at ht
      obtain ⟨u, hu, rfl⟩ := Option.map_eq_some_iff.1 ht
      exact ⟨u, hu, rfl⟩
    refine h.handled i' u hu l ?_
    split_ifs at hl <;> exact hl
  · rw [serverSocketOf_setAccept] at hk
    exact h.server i' k hk
  · rw [serverSocketOf_setAccept]
    exact h.acceptSocket i' hi'

/-- A block that has run has settled its socket. -/
theorem Owned.setHandled (h : Owned none s) (pc : AcceptPc) {k : ℕ}
    (hk : k ∈ s.passed ∨ k ∈ s.closedSockets) : Owned none (s.setHandled i k pc) := by
  refine ⟨h.passed, fun i' t ht l hl => ?_, fun i' k hk => ?_, fun i' hi' => ?_, h.connectSocket,
    h.connectedSocket, h.newPassed⟩
  · obtain ⟨u, hu, rfl⟩ : ∃ u, s.accepts[i']? = some u ∧
        t = if i = i' then { u with pc := pc, handled := k :: u.handled } else u := by
      simp only [Service.setHandled, List.getElem?_modify] at ht
      obtain ⟨u, hu, rfl⟩ := Option.map_eq_some_iff.1 ht
      exact ⟨u, hu, rfl⟩
    split_ifs at hl
    · rcases List.mem_cons.1 hl with rfl | hl
      · exact hk
      · exact h.handled i' u hu l hl
    · exact h.handled i' u hu l hl
  · rw [serverSocketOf_setHandled] at hk
    exact h.server i' k hk
  · rw [serverSocketOf_setHandled]
    exact h.acceptSocket i' hi'

theorem Owned.setConnect (h : Owned none s) (pc : ConnectPc) : Owned none (s.setConnect j pc) := by
  refine ⟨h.passed, h.handled, h.server, h.acceptSocket, fun j' hj' => ?_, h.connectedSocket,
    h.newPassed⟩
  rw [connectSocketOf_setConnect]
  exact h.connectSocket j' hj'

theorem Owned.setConnected (h : Owned none s) (pc : ConnectedPc) :
    Owned none (s.setConnected i pc) := by
  refine ⟨fun k hk => ?_, h.handled, h.server, h.acceptSocket, h.connectSocket, fun i' hi' => ?_,
    h.newPassed⟩
  · refine (h.passed k hk).imp_right (Or.imp_right ?_)
    rintro ⟨i', hi', hk'⟩
    exact ⟨i', hi', by rw [connectedSocketOf_setConnected]; exact hk'⟩
  · rw [connectedSocketOf_setConnected]
    exact h.connectedSocket i' hi'

theorem acceptBlock_owned (h : Owned none s) {e : Env} (he : e.Sound) {i k : ℕ}
    (hk : s.mState = .stateListen ∨ s.mState = .stateConnecting → SafeSocket k s) :
    Owned none (acceptBlock e s i k) := by
  rcases acceptBlock_cases e s i k with ⟨hstate, hc⟩ | ⟨-, h'⟩
  · have hown := connected_owned he k s ⟨h, hk hstate⟩
    rcases hc with ⟨t, ht, h'⟩ | ⟨t, ht, h'⟩
    · rw [ht] at hown
      rw [h']
      exact Owned.setHandled (s := t) hown.1 _ (Or.inl hown.2)
    · rw [ht] at hown
      rw [h']
      exact Owned.setHandled (s := t) hown.1 _ (Or.inl hown.2)
  · rw [h']
    refine (h.closeSocket he k).setHandled _ (Or.inr ?_)
    rw [closeSocket_closed he]
    exact List.mem_cons_self

theorem step_owned (h : Owned none s) {a : Action} (ha : a.Sound) (hsafe : SafelyPassed s a)
    (hstep : step s a = some s') : Owned none s' := by
  cases a with
  | start e =>
    cases hstep
    exact (start_owned (ha e rfl)).final h
  | connect e =>
    cases hstep
    exact (connect_owned (ha e rfl)).final h
  | stop e =>
    cases hstep
    exact (stop_owned (ha e rfl)).final h
  | write =>
    cases hstep
    exact h
  | initMainUi =>
    cases hstep
    exact ⟨h.passed, h.handled, h.server, h.acceptSocket, h.connectSocket, h.connectedSocket,
      h.newPassed⟩
  | acceptThread i a =>
    obtain ⟨t, ht, hstep⟩ := Option.bind_eq_some_iff.1 hstep
    rcases acceptStep_cases hstep with ⟨-, -, rfl⟩ | ⟨-, -, rfl⟩ | ⟨-, -, rfl⟩ |
      ⟨e, k, rfl, hk, rfl⟩
    · exact h.setAccept _
    · have h' : Owned none { s with sockets := s.sockets + 1 } :=
        ⟨h.passed, h.handled, h.server, h.acceptSocket, h.connectSocket, h.connectedSocket,
          h.newPassed⟩
      exact h'.setAccept _
    · exact h.setAccept _
    · exact acceptBlock_owned h (ha e rfl) fun hstate => hsafe k ⟨hstate, t, ht, hk⟩
  | connectThread j a =>
    obtain ⟨t, ht, hstep⟩ := Option.bind_eq_some_iff.1 hstep
    rcases connectStep_cases hstep with ⟨k, -, -, -, rfl⟩ | ⟨-, -, rfl⟩ | ⟨-, -, rfl⟩ |
      ⟨e, k, rfl, -, -, rfl⟩ | ⟨e, rfl, -, rfl⟩ | ⟨-, -, rfl⟩ | ⟨e, k, own, rfl, hpc, hk, rfl⟩
    · exact h.setConnect _
    · exact h.setConnect _
    · exact (h.setState _).setConnect _
    · exact (h.closeSocket (ha e rfl) k).setConnect _
    · exact ((start_owned (ha e rfl)).final h).setConnect _
    · exact h.resetConnect.setConnect _
    · have hown := (connected_owned (ha e rfl) k).final ⟨h, hsafe k ⟨t, own, ht, hpc, hk⟩⟩
      exact hown.1.setConnect _
  | connectedThread i a =>
    obtain ⟨t, -, hstep⟩ := Option.bind_eq_some_iff.1 hstep
    rcases connectedStep_cases hstep with ⟨-, rfl⟩ | ⟨-, -, rfl⟩ | ⟨-, -, rfl⟩ | ⟨e, rfl, -, rfl⟩
    · exact h
    · exact h.setConnected _
    · exact (h.setState _).setConnected _
    · exact ((start_owned (ha e rfl)).final h).setConnected _

end Steps

/-! ### The leak -/

section Leak

variable {s s' : Service} {a : Action} {k : ℕ}

/-- A socket that is passed to `connected()` is not yet that of a current thread. -/
theorem passes_not_current (hs : Placed s) (hk : Passes s k a) : ¬ CurrentSocket s k := by
  unfold Passes at hk
  split at hk
  · obtain ⟨-, t, ht, hk⟩ := hk
    exact accepted_not_current hs ht hk
  · obtain ⟨t, own, ht, hpc, hk⟩ := hk
    exact connect_not_current hs ht hk (by simp [hpc]) (hs.resetLeft _ t own ht hpc)
  · exact hk.elim

/-- What a `connected(k)` that throws for want of a view leaves behind: the old connection, and `k`
neither closed nor owned. -/
structure Leaks (s : Service) (k : ℕ) (t : Service) : Prop where
  passed : k ∈ t.passed
  mConnectedThread : t.mConnectedThread = s.mConnectedThread
  connecteds : t.connecteds = s.connecteds
  closed : ∀ l ∈ t.closedSockets, l ∈ s.closedSockets ∨ CurrentSocket s l
  view : t.mOpenCvCameraView = false

theorem connected_leaks (hview : NullView s) (e : Env) (k : ℕ) :
    ∃ t, connected e k s = .error t ∧ Leaks s k t := by
  refine Triple.throws (P := (· = s)) (Triple.seq (Q := (· = { s with passed := k :: s.passed }))
    (Triple.pure (by rintro t rfl; rfl)) (Triple.seq (Q := Leaks s k) ?_
      (Triple.seq (Q := fun _ => False) ?_ fun _ h => h.elim))) rfl
  · have hsame : Leaks s k { s with passed := k :: s.passed } :=
      ⟨List.mem_cons_self, rfl, rfl, fun l hl => Or.inl hl, hview.2⟩
    refine triple_cancelField ?_ ?_ ?_
    · rintro t rfl _
      exact hsame
    · rintro t j rfl _ _
      exact hsame
    · rintro t j l rfl hj hl
      refine ⟨List.mem_cons_self, rfl, rfl, fun l' hl' => ?_, hview.2⟩
      simp only [Service.closeSocket] at hl'
      split_ifs at hl'
      · rcases List.mem_cons.1 hl' with rfl | hl'
        · exact Or.inr (Or.inl ⟨j, hj, hl⟩)
        · exact Or.inl hl'
      · exact Or.inl hl'
  · refine triple_cancelField ?_ (fun t _ ht _ _ => ht) ?_
    · intro t ht hi
      exact hview.1 (ht.mConnectedThread.symm.trans hi)
    · intro t i l ht _ hl
      rw [Service.cancelledSocketOf, if_neg (by simp [ht.view])] at hl
      cases hl

/-- The socket that leaks has no owner. -/
theorem Leaks.not_singleOwner {t : Service} (h : Leaks s k t) (hk : ¬ CurrentSocket s k)
    (hopen : k ∉ s.closedSockets) (hpassed : s'.passed = t.passed)
    (hclosed : s'.closedSockets = t.closedSockets)
    (hfield : s'.mConnectedThread = t.mConnectedThread)
    (hthreads : s'.connecteds = t.connecteds) : ¬ SingleOwner s' := by
  intro howner
  rcases howner.passed k (by rw [hpassed]; exact h.passed) with hc | ⟨i, hi, hki⟩
  · rw [hclosed] at hc
    exact (h.closed k hc).elim hopen hk
  · refine hk (Or.inr ⟨i, ?_, ?_⟩)
    · rw [← h.mConnectedThread, ← hfield]
      exact hi
    · rw [Service.connectedSocketOf, hthreads, h.connecteds] at hki
      exact hki

theorem step_leaks (hs : Placed s) (hk : Passes s k a) (hview : NullView s)
    (hopen : k ∉ s.closedSockets) (hstep : step s a = some s') : ¬ SingleOwner s' := by
  have hcur := passes_not_current hs hk
  unfold Passes at hk
  split at hk
  · next i e =>
    obtain ⟨hstate, t, ht, hpc⟩ := hk
    obtain ⟨u, hu, hleaks⟩ := connected_leaks hview e k
    have hblock : step s (.acceptThread i (.block e)) = some (acceptBlock e s i k) := by
      simp only [step, ht, Option.bind_some, acceptStep, hpc]
    obtain rfl : acceptBlock e s i k = s' := Option.some.inj (hblock.symm.trans hstep)
    rcases acceptBlock_cases e s i k with ⟨-, ⟨v, hv, h'⟩ | ⟨v, hv, h'⟩⟩ | ⟨hstate', -⟩
    · rw [hu] at hv
      cases hv
    · rw [hu] at hv
      cases hv
      rw [h']
      exact hleaks.not_singleOwner hcur hopen rfl rfl rfl rfl
    · rcases hstate with h | h <;> rw [h] at hstate' <;> rcases hstate' with h' | h' <;> cases h'
  · next j e =>
    obtain ⟨t, own, ht, hpc, hk⟩ := hk
    obtain ⟨u, hu, hleaks⟩ := connected_leaks hview e k
    have hcall : step s (.connectThread j (.connected e)) = some (u.setConnect j .ended) := by
      simp only [step, ht, Option.bind_some, connectStep, hpc, hk, hu, final_error]
    obtain rfl : u.setConnect j .ended = s' := Option.some.inj (hcall.symm.trans hstep)
    exact hleaks.not_singleOwner hcur hopen rfl rfl rfl rfl
  · exact hk.elim

end Leak

/-! ### Runs -/

theorem owned_new : Owned none Service.new where
  passed := by simp [Service.new]
  handled := by simp [Service.new]
  server := by simp [Service.new, Service.serverSocketOf]
  acceptSocket := by simp [Service.new]
  connectSocket := by simp [Service.new]
  connectedSocket := by simp [Service.new]
  newPassed := by simp

theorem Owned.singleOwner {s : Service} (h : Owned none s) : SingleOwner s := by
  have hpassed : ∀ k ∈ s.passed, k ∈ s.closedSockets ∨
      ∃ i, s.mConnectedThread = some i ∧ s.connectedSocketOf i = some k :=
    fun k hk => (h.passed k hk).resolve_left (by simp)
  refine ⟨hpassed, ?_, h.server, ?_, ?_⟩
  · intro t ht k hk
    obtain ⟨i, hi⟩ := List.mem_iff_getElem?.1 ht
    exact h.handled i t hi k hk
  · intro k hk l hl hko hlo
    obtain ⟨i, hi, hki⟩ := (hpassed k hk).resolve_left hko
    obtain ⟨i', hi', hli⟩ := (hpassed l hl).resolve_left hlo
    rw [hi] at hi'
    cases hi'
    rw [hki] at hli
    exact Option.some.inj hli
  · intro i i' k l hk hl hko hlo
    have hi := (h.server i k hk).resolve_left hko
    have hi' := (h.server i' l hl).resolve_left hlo
    rw [hi] at hi'
    cases hi'
    rw [hk] at hl
    exact Option.some.inj hl

theorem runService_owned {as : List Action} (ha : ∀ a ∈ as, a.Sound)
    (hsafe : Along step SafelyPassed .new as) {s : Service} (hs : runService as = some s) :
    Owned none s :=
  run_induction (fun _ s => Owned none s) owned_new
    (fun _ _ _ _ _ h hstep => step_owned h hstep.1 hstep.2)
    ((along_of_forall (C := fun _ a => a.Sound) fun _ => ha).and hsafe) hs

/-- **Single ownership of sockets.**  In a run in which sockets are created and closed successfully,
every open socket has one owner at every moment, if and only if no open socket is passed to
`connected()` while there is a `ConnectedThread` and no view. -/
theorem sockets_owned_iff (as : List Action) (ha : ∀ a ∈ as, a.Sound) (s : Service)
    (hs : runService as = some s) :
    (∀ pre post t, as = pre ++ post → runService pre = some t → SingleOwner t) ↔
      Along step SafelyPassed .new as := by
  constructor
  · intro h
    refine along_iff.2 fun pre a post t has ht k hk hview => ?_
    by_contra hopen
    -- the run goes on with the step, which leaks the socket
    obtain ⟨t', ht'⟩ : ∃ t', step t a = some t' := by
      rw [runService, has, run_append_some ht, run_cons] at hs
      obtain ⟨t', ht', -⟩ := Option.bind_eq_some_iff.1 hs
      exact ⟨t', ht'⟩
    have hnext : runService (pre ++ [a]) = some t' := by
      rw [runService, run_append_some ht, run_singleton]
      exact ht'
    exact step_leaks (runService_placed ht) hk hview hopen ht'
      (h (pre ++ [a]) post t' (by simp [has]) hnext)
  · rintro h pre post t rfl ht
    exact (runService_owned (fun a h => ha a (by simp [h])) h.append_left ht).singleOwner

theorem good_sound : Env.good.Sound := ⟨rfl, rfl, fun _ => rfl, fun _ => rfl⟩

/-- An incoming connection is accepted while an outgoing one succeeds, and both are handed over. -/
def raceRun : List Action :=
  [.start .good, .acceptThread 0 .loopTest, .acceptThread 0 .acceptReturns, .connect .good,
    .connectThread 0 .connectReturns, .connectThread 0 .reset, .acceptThread 0 (.block .good),
    .connectThread 0 (.connected .good)]

theorem raceRun_sound : ∀ a ∈ raceRun, a.Sound := by
  simp [raceRun, Action.Sound, Action.env, good_sound]

theorem safelyPassed_of_view {s : Service} (h : s.mOpenCvCameraView = true) (a : Action) :
    SafelyPassed s a := by
  rintro k - ⟨-, hview⟩
  rw [h] at hview
  cases hview

/-- With a view, the connection that is handed over last survives. -/
theorem sockets_owned_iff_race :
    ∃ s, runService (.initMainUi :: raceRun) = some s ∧ s.passed = [1, 0] ∧ s.closedSockets = [0] ∧
      s.mConnectedThread = some 1 ∧ SingleOwner s := by
  have hsound : ∀ a ∈ Action.initMainUi :: raceRun, a.Sound := by
    intro a ha
    rcases List.mem_cons.1 ha with rfl | ha
    · exact fun e he => nomatch he
    · exact raceRun_sound a ha
  refine ⟨_, rfl, rfl, rfl, rfl, (sockets_owned_iff (.initMainUi :: raceRun) hsound _ rfl).2 ?_
    (.initMainUi :: raceRun) [] _ (by simp) rfl⟩
  refine Along.cons (fun _ h => h.elim) rfl ?_
  exact Along.cons (safelyPassed_of_view rfl _) rfl (Along.cons (safelyPassed_of_view rfl _) rfl
    (Along.cons (safelyPassed_of_view rfl _) rfl (Along.cons (safelyPassed_of_view rfl _) rfl
      (Along.cons (safelyPassed_of_view rfl _) rfl (Along.cons (safelyPassed_of_view rfl _) rfl
        (Along.cons (safelyPassed_of_view rfl _) rfl
          (Along.cons (safelyPassed_of_view rfl _) rfl trivial)))))))

/-- Without a view, both sockets are open and the second one is nobody's. -/
theorem sockets_leak :
    (∀ a ∈ raceRun, a.Sound) ∧ ∃ s, runService raceRun = some s ∧ s.passed = [1, 0] ∧
      s.closedSockets = [] ∧ s.mConnectedThread = some 0 ∧ s.connectedSocketOf 0 = some 0 ∧
      ¬ SingleOwner s := by
  refine ⟨raceRun_sound, _, rfl, rfl, rfl, rfl, rfl, fun h => ?_⟩
  have hone : (1 : ℕ) = 0 := h.oneConnection 1 (by decide) 0 (by decide) (by decide) (by decide)
  cases hone

end Controller.Bluetooth
