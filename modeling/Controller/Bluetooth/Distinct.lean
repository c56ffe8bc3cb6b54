import Controller.Bluetooth.Rules

/-!
# What the methods do to the threads, and whose socket is whose

`start_spec`, `connect_spec`, `connected_spec` and `stop_spec` say what a method can do to the
state, the fields and the lists of threads, when it returns and when it throws.

`Distinct`: every socket is held at one place.  A socket that an `AcceptThread` has just accepted
is in no other thread, two `ConnectThread`s do not share a socket, and a `ConnectThread` whose
socket has gone to a `ConnectedThread` has ended.  `Placed` adds where the fields can point to.
-/

namespace Controller.Bluetooth

open Abort PartialRun

/-! ### The methods -/

/-- No `ConnectedThread` is created on the way from `s` to `t`, and at most the field is cleared. -/
structure KeepsConnected (s t : Service) : Prop where
  connecteds : t.connecteds = s.connecteds
  mConnectedThread : t.mConnectedThread = s.mConnectedThread ∨ t.mConnectedThread = none

/-- No `ConnectThread` is created or moved, and at most the field is cleared. -/
structure KeepsConnect (s t : Service) : Prop where
  connects : t.connects = s.connects
  mConnectThread : t.mConnectThread = s.mConnectThread ∨ t.mConnectThread = none

/-- What cancelling threads, on the way from `s` to `t`, leaves alone. -/
structure Cancels (s t : Service) : Prop extends KeepsConnected s t, KeepsConnect s t where
  mState : t.mState = s.mState
  accepts : t.accepts = s.accepts
  sockets : t.sockets = s.sockets

/-- What cancelling a `ConnectThread` and a `ConnectedThread` leaves alone; a method that throws has
come no further. -/
structure KeepsAccept (s t : Service) : Prop extends Cancels s t where
  mAcceptThread : t.mAcceptThread = s.mAcceptThread
  serverSockets : t.serverSockets = s.serverSockets
  closedServerSockets : t.closedServerSockets = s.closedServerSockets
  mOpenCvCameraView : t.mOpenCvCameraView = s.mOpenCvCameraView

section Methods

variable {s t : Service} {e : Env}

theorem KeepsAccept.refl (s : Service) : KeepsAccept s s :=
  ⟨⟨⟨rfl, Or.inl rfl⟩, ⟨rfl, Or.inl rfl⟩, rfl, rfl, rfl⟩, rfl, rfl, rfl, rfl⟩

theorem cancels_connectThread (s : Service) (e : Env) :
    Triple (KeepsAccept s) (cancelConnectThread e) (KeepsAccept s) (KeepsAccept s) := by
  refine triple_cancelField (fun t ht _ => ht) (fun t j ht _ _ => ht) ?_
  intro t j k ht _ _
  exact ⟨⟨⟨ht.connecteds, ht.mConnectedThread⟩, ⟨ht.connects, Or.inr rfl⟩, ht.mState, ht.accepts,
    ht.sockets⟩, ht.mAcceptThread, ht.serverSockets, ht.closedServerSockets, ht.mOpenCvCameraView⟩

theorem cancels_connectedThread (s : Service) (e : Env) :
    Triple (KeepsAccept s) (cancelConnectedThread e) (KeepsAccept s) (KeepsAccept s) := by
  refine triple_cancelField (fun t ht _ => ht) (fun t i ht _ _ => ht) ?_
  intro t i k ht _ _
  exact ⟨⟨⟨ht.connecteds, Or.inr rfl⟩, ⟨ht.connects, ht.mConnectThread⟩, ht.mState, ht.accepts,
    ht.sockets⟩, ht.mAcceptThread, ht.serverSockets, ht.closedServerSockets, ht.mOpenCvCameraView⟩

theorem cancels_acceptThread (s : Service) (e : Env) :
    Triple (KeepsAccept s) (cancelAcceptThread e) (Cancels s) (KeepsAccept s) := by
  refine triple_cancelField (fun t ht _ => ht.toCancels) (fun t i ht _ _ => ht) ?_
  intro t i k ht _ _
  exact ⟨⟨ht.connecteds, ht.mConnectedThread⟩, ⟨ht.connects, ht.mConnectThread⟩, ht.mState,
    ht.accepts, ht.sockets⟩

theorem cancels_connecting (s : Service) (e : Env) :
    Triple (KeepsAccept s) (cancelConnecting e) (KeepsAccept s) (KeepsAccept s) := by
  intro t ht
  unfold cancelConnecting
  split_ifs
  · exact cancels_connectThread s e t ht
  · exact ht

/-- What the third statement of `start()` does about the `AcceptThread`. -/
inductive AcceptStarted (e : Env) (s t : Service) : Prop
  | kept (i : ℕ) (hi : s.mAcceptThread = some i) (hfield : t.mAcceptThread = some i)
      (haccepts : t.accepts = s.accepts) (hsockets : t.serverSockets = s.serverSockets)
  | created (pc : AcceptPc) (hnone : s.mAcceptThread = none) (hpc : ∀ k, pc ≠ .accepted k)
      (hended : pc = .ended ↔ e.early = true ∧ s.mState = .stateConnected)
      (hfield : t.mAcceptThread = some s.accepts.length)
      (haccepts : t.accepts =
        s.accepts ++ [⟨if e.listenOk then some s.serverSockets else none, pc, []⟩])
      (hsockets : t.serverSockets = if e.listenOk then s.serverSockets + 1 else s.serverSockets)

/-- What `start()` has done when it returns. -/
structure Started (e : Env) (s t : Service) : Prop extends KeepsConnected s t, KeepsConnect s t where
  mState : t.mState = .stateListen
  accept : AcceptStarted e s t
  sockets : t.sockets = s.sockets
  closedServerSockets : t.closedServerSockets = s.closedServerSockets

theorem start_spec (e : Env) (s : Service) : Ends (Started e s) (KeepsAccept s) (start e s) := by
  refine Triple.seq (cancels_connectThread s e) (Triple.seq (cancels_connectedThread s e)
    (Triple.seq (Q := fun t => Started e s { t with mState := .stateListen }) ?_
      (triple_setState fun t ht => ht))) s (KeepsAccept.refl s)
  refine triple_startAcceptThread ?_ ?_
  · intro t i ht hi
    exact ⟨⟨ht.connecteds, ht.mConnectedThread⟩, ⟨ht.connects, ht.mConnectThread⟩, rfl,
      .kept i (ht.mAcceptThread.symm.trans hi) hi ht.accepts ht.serverSockets, ht.sockets,
      ht.closedServerSockets⟩
  · intro t pc ht hnone hpc hended
    refine ⟨⟨ht.connecteds, ht.mConnectedThread⟩, ⟨ht.connects, ht.mConnectThread⟩, rfl, ?_,
      ht.sockets, ht.closedServerSockets⟩
    rw [ht.mState] at hended
    refine .created pc (ht.mAcceptThread.symm.trans hnone) hpc hended ?_ ?_ ?_
    · rw [← ht.accepts]
    · rw [← ht.accepts, ← ht.serverSockets]
    · rw [← ht.serverSockets]

/-- What `connect(device)` has done when it returns. -/
structure Connects (e : Env) (s t : Service) : Prop extends KeepsConnected s t where
  mState : t.mState = .stateConnecting
  accepts : t.accepts = s.accepts
  connects : t.connects = s.connects ++ [⟨if e.createOk then some s.sockets else none, .connecting⟩]
  sockets : t.sockets = if e.createOk then s.sockets + 1 else s.sockets
  mConnectThread : t.mConnectThread = some s.connects.length

theorem connect_spec (e : Env) (s : Service) :
    Ends (Connects e s) (KeepsAccept s) (connect e s) := by
  refine Triple.seq (cancels_connecting s e) (Triple.seq (cancels_connectedThread s e)
    (Triple.seq (Q := fun t => Connects e s { t with mState := .stateConnecting })
      (Triple.pure fun t ht => ?_) (triple_setState fun t ht => ht))) s (KeepsAccept.refl s)
  refine ⟨⟨ht.connecteds, ht.mConnectedThread⟩, rfl, ht.accepts, ?_, ?_, ?_⟩
  · rw [← ht.connects, ← ht.sockets]
  · rw [← ht.sockets]
  · rw [← ht.connects]

/-- What `connected(socket, device)` has done when it returns. -/
structure HandedOver (socket : ℕ) (s t : Service) : Prop extends KeepsConnect s t where
  mState : t.mState = .stateConnected
  accepts : t.accepts = s.accepts
  connecteds : ∃ streams, t.connecteds = s.connecteds ++ [⟨socket, streams, .reading⟩]
  sockets : t.sockets = s.sockets
  mConnectedThread : t.mConnectedThread = some s.connecteds.length

theorem connected_spec (e : Env) (socket : ℕ) (s : Service) :
    Ends (HandedOver socket s) (KeepsAccept s) (connected e socket s) := by
  refine Triple.seq (Q := KeepsAccept s) (Triple.pure fun t ht => ?_)
    (Triple.seq (cancels_connectThread s e) (Triple.seq (cancels_connectedThread s e)
      (Triple.seq (cancels_acceptThread s e)
        (Triple.seq (Q := fun t => HandedOver socket s { t with mState := .stateConnected })
          (Triple.pure fun t ht => ?_) (triple_setState fun t ht => ht))))) s (KeepsAccept.refl s)
  · exact ⟨⟨⟨ht.connecteds, ht.mConnectedThread⟩, ⟨ht.connects, ht.mConnectThread⟩, ht.mState,
      ht.accepts, ht.sockets⟩, ht.mAcceptThread, ht.serverSockets, ht.closedServerSockets,
      ht.mOpenCvCameraView⟩
  · refine ⟨⟨ht.connects, ht.mConnectThread⟩, rfl, ht.accepts, ⟨e.streamsOk, ?_⟩, ht.sockets, ?_⟩
    · rw [← ht.connecteds]
    · rw [← ht.connecteds]

/-- What `stop()` has done when it returns. -/
structure StoppedFrom (s t : Service) : Prop extends KeepsConnected s t, KeepsConnect s t where
  mState : t.mState = .stateNone
  accepts : t.accepts = s.accepts
  sockets : t.sockets = s.sockets

theorem stop_spec (e : Env) (s : Service) : Ends (StoppedFrom s) (KeepsAccept s) (stop e s) := by
  refine Triple.seq (cancels_connectThread s e) (Triple.seq (cancels_connectedThread s e)
    (Triple.seq (cancels_acceptThread s e) (triple_setState fun t ht => ?_))) s (KeepsAccept.refl s)
  exact ⟨⟨ht.connecteds, ht.mConnectedThread⟩, ⟨ht.connects, ht.mConnectThread⟩, rfl, ht.accepts,
    ht.sockets⟩

end Methods

/-! ### Whose socket -/

/-- Every socket is held at one place; `n` sockets have been created. -/
structure Distinct (accepts : List AcceptThread) (connects : List ConnectThread)
    (connecteds : List ConnectedThread) (n : ℕ) : Prop where
  acceptedLt : ∀ (i : ℕ) (t : AcceptThread) (k : ℕ), accepts[i]? = some t → t.pc = .accepted k →
    k < n
  connectLt : ∀ (j : ℕ) (t : ConnectThread) (k : ℕ), connects[j]? = some t →
    t.mmSocket = some k → k < n
  connectedLt : ∀ (i : ℕ) (t : ConnectedThread), connecteds[i]? = some t → t.mmSocket < n
  accepted_inj : ∀ (i i' : ℕ) (t t' : AcceptThread) (k : ℕ), accepts[i]? = some t →
    accepts[i']? = some t' → t.pc = .accepted k → t'.pc = .accepted k → i = i'
  connect_inj : ∀ (j j' : ℕ) (t t' : ConnectThread) (k : ℕ), connects[j]? = some t →
    connects[j']? = some t' → t.mmSocket = some k → t'.mmSocket = some k → j = j'
  accepted_connect : ∀ (i j : ℕ) (t : AcceptThread) (u : ConnectThread) (k : ℕ),
    accepts[i]? = some t → connects[j]? = some u → t.pc = .accepted k → u.mmSocket ≠ some k
  accepted_connected : ∀ (i i' : ℕ) (t : AcceptThread) (u : ConnectedThread) (k : ℕ),
    accepts[i]? = some t → connecteds[i']? = some u → t.pc = .accepted k → u.mmSocket ≠ k
  connect_connected : ∀ (j i : ℕ) (t : ConnectThread) (u : ConnectedThread),
    connects[j]? = some t → connecteds[i]? = some u → t.mmSocket = some u.mmSocket → t.pc = .ended

section Distinct

variable {accepts : List AcceptThread} {connects : List ConnectThread}
  {connecteds : List ConnectedThread} {n : ℕ}

/-- If whatever holds a socket has held it before, every socket is still at one place. -/
theorem Distinct.mono (h : Distinct accepts connects connecteds n)
    {accepts' : List AcceptThread} {connects' : List ConnectThread}
    {connecteds' : List ConnectedThread}
    (ha : ∀ (i : ℕ) (t : AcceptThread) (k : ℕ), accepts'[i]? = some t → t.pc = .accepted k →
      ∃ u : AcceptThread, accepts[i]? = some u ∧ u.pc = .accepted k)
    (hc : ∀ (j : ℕ) (t : ConnectThread) (k : ℕ), connects'[j]? = some t → t.mmSocket = some k →
      ∃ u : ConnectThread, connects[j]? = some u ∧ u.mmSocket = some k ∧
        (u.pc = .ended → t.pc = .ended))
    (hd : ∀ (i : ℕ) (t : ConnectedThread), connecteds'[i]? = some t →
      ∃ u : ConnectedThread, connecteds[i]? = some u ∧ u.mmSocket = t.mmSocket) :
    Distinct accepts' connects' connecteds' n where
  acceptedLt i t k ht hk := by
    obtain ⟨u, hu, hk'⟩ := ha i t k ht hk
    exact h.acceptedLt i u k hu hk'
  connectLt j t k ht hk := by
    obtain ⟨u, hu, hk', -⟩ := hc j t k ht hk
    exact h.connectLt j u k hu hk'
  connectedLt i t ht := by
    obtain ⟨u, hu, hk⟩ := hd i t ht
    exact hk ▸ h.connectedLt i u hu
  accepted_inj i i' t t' k ht ht' hk hk' := by
    obtain ⟨u, hu, hku⟩ := ha i t k ht hk
    obtain ⟨u', hu', hku'⟩ := ha i' t' k ht' hk'
    exact h.accepted_inj i i' u u' k hu hu' hku hku'
  connect_inj j j' t t' k ht ht' hk hk' := by
    obtain ⟨u, hu, hku, -⟩ := hc j t k ht hk
    obtain ⟨u', hu', hku', -⟩ := hc j' t' k ht' hk'
    exact h.connect_inj j j' u u' k hu hu' hku hku'
  accepted_connect i j t t' k ht ht' hk hk' := by
    obtain ⟨u, hu, hku⟩ := ha i t k ht hk
    obtain ⟨u', hu', hku', -⟩ := hc j t' k ht' hk'
    exact h.accepted_connect i j u u' k hu hu' hku hku'
  accepted_connected i i' t t' k ht ht' hk hk' := by
    obtain ⟨u, hu, hku⟩ := ha i t k ht hk
    obtain ⟨u', hu', hku'⟩ := hd i' t' ht'
    exact h.accepted_connected i i' u u' k hu hu' hku (hku'.trans hk')
  connect_connected j i t t' ht ht' hk := by
    obtain ⟨u, hu, hku, hended⟩ := hc j t _ ht hk
    obtain ⟨u', hu', hku'⟩ := hd i t' ht'
    exact hended (h.connect_connected j i u u' hu hu' (hku' ▸ hku))

theorem Distinct.newAccept (h : Distinct accepts connects connecteds n) {u : AcceptThread}
    (hu : ∀ k, u.pc ≠ .accepted k) : Distinct (accepts ++ [u]) connects connecteds n := by
  refine h.mono (fun i t k ht hk => ?_) (fun j t k ht hk => ⟨t, ht, hk, id⟩)
    fun i t ht => ⟨t, ht, rfl⟩
  rw [getElem?_concat] at ht
  split_ifs at ht with hi
  · cases ht
    exact absurd hk (hu k)
  · exact ⟨t, ht, hk⟩

theorem Distinct.moveAccept (h : Distinct accepts connects connecteds n) (i : ℕ)
    {f : AcceptThread → AcceptThread} (hf : ∀ t k, (f t).pc ≠ .accepted k) :
    Distinct (accepts.modify i f) connects connecteds n := by
  refine h.mono (fun i' t k ht hk => ?_) (fun j t k ht hk => ⟨t, ht, hk, id⟩)
    fun i t ht => ⟨t, ht, rfl⟩
  rw [List.getElem?_modify] at ht
  obtain ⟨u, hu, rfl⟩ := Option.map_eq_some_iff.1 ht
  by_cases hi : i = i'
  · rw [if_pos hi] at hk
    exact absurd hk (hf u k)
  · rw [if_neg hi] at hk
    exact ⟨u, hu, hk⟩

theorem Distinct.acceptReturns (h : Distinct accepts connects connecteds n) (i : ℕ) :
    Distinct (accepts.modify i fun t => { t with pc := .accepted n }) connects connecteds
      (n + 1) := by
  -- an accepted socket is the new one, which no other thread can hold, or an old one
  have hcases : ∀ (i' : ℕ) (t : AcceptThread) (k : ℕ),
      (accepts.modify i fun t => { t with pc := .accepted n })[i']? = some t →
      t.pc = .accepted k → i' = i ∧ k = n ∨
        ∃ u : AcceptThread, accepts[i']? = some u ∧ u.pc = .accepted k := by
    intro i' t k ht hk
    rw [List.getElem?_modify] at ht
    obtain ⟨u, hu, rfl⟩ := Option.map_eq_some_iff.1 ht
    by_cases hi : i = i'
    · rw [if_pos hi] at hk
      exact Or.inl ⟨hi.symm, (AcceptPc.accepted.inj hk).symm⟩
    · rw [if_neg hi] at hk
      exact Or.inr ⟨u, hu, hk⟩
  constructor
  case acceptedLt =>
    intro i' t k ht hk
    rcases hcases i' t k ht hk with ⟨-, rfl⟩ | ⟨u, hu, hk'⟩
    · exact Nat.lt_succ_self k
    · exact Nat.lt_succ_of_lt (h.acceptedLt i' u k hu hk')
  case connectLt => exact fun j t k ht hk => Nat.lt_succ_of_lt (h.connectLt j t k ht hk)
  case connectedLt => exact fun i' t ht => Nat.lt_succ_of_lt (h.connectedLt i' t ht)
  case accepted_inj =>
    intro i₁ i₂ t₁ t₂ k ht₁ ht₂ hk₁ hk₂
    rcases hcases i₁ t₁ k ht₁ hk₁ with ⟨rfl, rfl⟩ | ⟨u₁, hu₁, hk₁'⟩
    · rcases hcases i₂ t₂ _ ht₂ hk₂ with ⟨h₂, -⟩ | ⟨u₂, hu₂, hk₂'⟩
      · exact h₂.symm
      · exact absurd (h.acceptedLt i₂ u₂ _ hu₂ hk₂') (lt_irrefl _)
    · rcases hcases i₂ t₂ k ht₂ hk₂ with ⟨-, rfl⟩ | ⟨u₂, hu₂, hk₂'⟩
      · exact absurd (h.acceptedLt i₁ u₁ _ hu₁ hk₁') (lt_irrefl _)
      · exact h.accepted_inj i₁ i₂ u₁ u₂ k hu₁ hu₂ hk₁' hk₂'
  case connect_inj => exact h.connect_inj
  case accepted_connect =>
    intro i' j t t' k ht ht' hk hk'
    rcases hcases i' t k ht hk with ⟨-, rfl⟩ | ⟨u, hu, hku⟩
    · exact lt_irrefl _ (h.connectLt j t' k ht' hk')
    · exact h.accepted_connect i' j u t' k hu ht' hku hk'
  case accepted_connected =>
    intro i' i'' t t' k ht ht' hk hk'
    rcases hcases i' t k ht hk with ⟨-, rfl⟩ | ⟨u, hu, hku⟩
    · exact lt_irrefl _ (hk' ▸ h.connectedLt i'' t' ht')
    · exact h.accepted_connected i' i'' u t' k hu ht' hku hk'
  case connect_connected => exact h.connect_connected

/-- A new `ConnectThread` with a socket that no other thread can hold. -/
theorem Distinct.newConnectSocket (h : Distinct accepts connects connecteds n) (pc : ConnectPc) :
    Distinct accepts (connects ++ [⟨some n, pc⟩]) connecteds (n + 1) := by
  have hcases : ∀ (j : ℕ) (t : ConnectThread) (k : ℕ),
      (connects ++ [⟨some n, pc⟩])[j]? = some t → t.mmSocket = some k →
      j = connects.length ∧ k = n ∨ connects[j]? = some t := by
    intro j t k ht hk
    rw [getElem?_concat] at ht
    split_ifs at ht with hj
    · cases ht
      exact Or.inl ⟨hj, (Option.some.inj hk).symm⟩
    · exact Or.inr ht
  constructor
  case acceptedLt => exact fun i t k ht hk => Nat.lt_succ_of_lt (h.acceptedLt i t k ht hk)
  case connectLt =>
    intro j t k ht hk
    rcases hcases j t k ht hk with ⟨-, rfl⟩ | ht'
    · exact Nat.lt_succ_self k
    · exact Nat.lt_succ_of_lt (h.connectLt j t k ht' hk)
  case connectedLt => exact fun i t ht => Nat.lt_succ_of_lt (h.connectedLt i t ht)
  case accepted_inj => exact h.accepted_inj
  case connect_inj =>
    intro j₁ j₂ t₁ t₂ k ht₁ ht₂ hk₁ hk₂
    rcases hcases j₁ t₁ k ht₁ hk₁ with ⟨rfl, rfl⟩ | ht₁'
    · rcases hcases j₂ t₂ _ ht₂ hk₂ with ⟨h₂, -⟩ | ht₂'
      · exact h₂.symm
      · exact absurd (h.connectLt j₂ t₂ _ ht₂' hk₂) (lt_irrefl _)
    · rcases hcases j₂ t₂ k ht₂ hk₂ with ⟨-, rfl⟩ | ht₂'
      · exact absurd (h.connectLt j₁ t₁ _ ht₁' hk₁) (lt_irrefl _)
      · exact h.connect_inj j₁ j₂ t₁ t₂ k ht₁' ht₂' hk₁ hk₂
  case accepted_connect =>
    intro i j t t' k ht ht' hk hk'
    rcases hcases j t' k ht' hk' with ⟨-, rfl⟩ | ht''
    · exact lt_irrefl _ (h.acceptedLt i t k ht hk)
    · exact h.accepted_connect i j t t' k ht ht'' hk hk'
  case accepted_connected => exact h.accepted_connected
  case connect_connected =>
    intro j i t t' ht ht' hk
    rcases hcases j t _ ht hk with ⟨-, hn⟩ | ht''
    · exact absurd (hn ▸ h.connectedLt i t' ht') (lt_irrefl _)
    · exact h.connect_connected j i t t' ht'' ht' hk

theorem Distinct.newConnect (h : Distinct accepts connects connecteds n) (b : Bool) :
    Distinct accepts (connects ++ [⟨if b then some n else none, .connecting⟩]) connecteds
      (if b then n + 1 else n) := by
  cases b with
  | true => exact h.newConnectSocket .connecting
  | false =>
    refine h.mono (fun i t k ht hk => ⟨t, ht, hk⟩) (fun j t k ht hk => ?_)
      fun i t ht => ⟨t, ht, rfl⟩
    rw [getElem?_concat] at ht
    by_cases hj : j = connects.length
    · rw [if_pos hj] at ht
      cases ht
      cases hk
    · rw [if_neg hj] at ht
      exact ⟨t, ht, hk, id⟩

/-- A `ConnectThread` that has ended does not go on. -/
theorem Distinct.setConnectPc (h : Distinct accepts connects connecteds n) {j : ℕ} {pc : ConnectPc}
    (hpc : ∀ t : ConnectThread, connects[j]? = some t → t.pc = .ended → pc = .ended) :
    Distinct accepts (connects.modify j fun t => { t with pc := pc }) connecteds n := by
  refine h.mono (fun i t k ht hk => ⟨t, ht, hk⟩) (fun j' t k ht hk => ?_)
    fun i t ht => ⟨t, ht, rfl⟩
  rw [List.getElem?_modify] at ht
  obtain ⟨u, hu, rfl⟩ := Option.map_eq_some_iff.1 ht
  by_cases hj : j = j'
  · subst hj
    rw [if_pos rfl] at hk ⊢
    exact ⟨u, hu, hk, hpc u hu⟩
  · rw [if_neg hj] at hk ⊢
    exact ⟨u, hu, hk, id⟩

theorem Distinct.moveConnect (h : Distinct accepts connects connecteds n) {j : ℕ}
    {t : ConnectThread} (ht : connects[j]? = some t) (hpc : t.pc ≠ .ended) (pc : ConnectPc) :
    Distinct accepts (connects.modify j fun t => { t with pc := pc }) connecteds n := by
  refine h.setConnectPc fun u hu hended => ?_
  obtain rfl : t = u := Option.some.inj (ht.symm.trans hu)
  exact absurd hended hpc

theorem Distinct.moveConnected (h : Distinct accepts connects connecteds n) (i : ℕ)
    (pc : ConnectedPc) :
    Distinct accepts connects (connecteds.modify i fun t => { t with pc := pc }) n := by
  refine h.mono (fun i t k ht hk => ⟨t, ht, hk⟩) (fun j t k ht hk => ⟨t, ht, hk, id⟩)
    fun i' t ht => ?_
  rw [List.getElem?_modify] at ht
  obtain ⟨u, hu, rfl⟩ := Option.map_eq_some_iff.1 ht
  refine ⟨u, hu, ?_⟩
  by_cases hi : i = i'
  · rw [if_pos hi]
  · rw [if_neg hi]

/-- A socket that no thread waits to hand over goes to a new `ConnectedThread`. -/
theorem Distinct.newConnected (h : Distinct accepts connects connecteds n) {u : ConnectedThread}
    (hlt : u.mmSocket < n)
    (ha : ∀ (i : ℕ) (t : AcceptThread), accepts[i]? = some t → t.pc ≠ .accepted u.mmSocket)
    (hc : ∀ (j : ℕ) (t : ConnectThread), connects[j]? = some t → t.mmSocket = some u.mmSocket →
      t.pc = .ended) : Distinct accepts connects (connecteds ++ [u]) n where
  acceptedLt := h.acceptedLt
  connectLt := h.connectLt
  connectedLt i t ht := by
    rw [getElem?_concat] at ht
    split_ifs at ht with hi
    · cases ht
      exact hlt
    · exact h.connectedLt i t ht
  accepted_inj := h.accepted_inj
  connect_inj := h.connect_inj
  accepted_connect := h.accepted_connect
  accepted_connected i i' t t' k ht ht' hk hk' := by
    rw [getElem?_concat] at ht'
    split_ifs at ht' with hi
    · cases ht'
      exact ha i t ht (hk' ▸ hk)
    · exact h.accepted_connected i i' t t' k ht ht' hk hk'
  connect_connected j i t t' ht ht' hk := by
    rw [getElem?_concat] at ht'
    split_ifs at ht' with hi
    · cases ht'
      exact hc j t ht hk
    · exact h.connect_connected j i t t' ht ht' hk

/-- An accepted socket goes to a new `ConnectedThread`. -/
theorem Distinct.handOverAccepted (h : Distinct accepts connects connecteds n) {i k : ℕ}
    {t : AcceptThread} (ht : accepts[i]? = some t) (hk : t.pc = .accepted k)
    {f : AcceptThread → AcceptThread} (hf : ∀ t k, (f t).pc ≠ .accepted k) {u : ConnectedThread}
    (hu : u.mmSocket = k) : Distinct (accepts.modify i f) connects (connecteds ++ [u]) n := by
  subst hu
  refine (h.moveAccept i hf).newConnected (h.acceptedLt i t _ ht hk) (fun i' t' ht' hk' => ?_)
    fun j t' ht' hk' => absurd hk' (h.accepted_connect i j t t' _ ht ht' hk)
  rw [List.getElem?_modify] at ht'
  obtain ⟨u', hu', rfl⟩ := Option.map_eq_some_iff.1 ht'
  by_cases hi : i = i'
  · rw [if_pos hi] at hk'
    exact hf u' _ hk'
  · rw [if_neg hi] at hk'
    exact hi (h.accepted_inj i i' t u' _ ht hu' hk hk')

/-- The socket of a `ConnectThread` goes to a new `ConnectedThread`, and the thread ends. -/
theorem Distinct.handOverConnect (h : Distinct accepts connects connecteds n) {j k : ℕ}
    {t : ConnectThread} (ht : connects[j]? = some t) (hk : t.mmSocket = some k)
    {u : ConnectedThread} (hu : u.mmSocket = k) :
    Distinct accepts (connects.modify j fun t => { t with pc := .ended }) (connecteds ++ [u]) n := by
  subst hu
  have hended : Distinct accepts (connects.modify j fun t => { t with pc := .ended }) connecteds n :=
    h.setConnectPc fun _ _ _ => rfl
  refine hended.newConnected (h.connectLt j t _ ht hk)
    (fun i t' ht' hk' => h.accepted_connect i j t' t _ ht' ht hk' hk) fun j' t' ht' hk' => ?_
  rw [List.getElem?_modify] at ht'
  obtain ⟨u', hu', rfl⟩ := Option.map_eq_some_iff.1 ht'
  by_cases hj : j = j'
  · rw [if_pos hj]
  · rw [if_neg hj] at hk'
    exact absurd (h.connect_inj j j' t u' _ ht hu' hk hk') hj

end Distinct

/-- No `ConnectThread` that has reset `mConnectThread` is in that field. -/
def ResetLeft (connects : List ConnectThread) (mConnectThread : Option ℕ) : Prop :=
  ∀ (j : ℕ) (t : ConnectThread) (own : Bool), connects[j]? = some t → t.pc = .reset own →
    mConnectThread ≠ some j

/-- The sockets of the service are at one place each, `mConnectedThread` is one of the threads, and
`mConnectThread` is not one that has reset the field. -/
structure Placed (s : Service) : Prop where
  distinct : Distinct s.accepts s.connects s.connecteds s.sockets
  connectedLt : ∀ i, s.mConnectedThread = some i → i < s.connecteds.length
  resetLeft : ResetLeft s.connects s.mConnectThread

section Placed

variable {s t s' : Service} {e : Env}

theorem resetLeft_none (connects : List ConnectThread) : ResetLeft connects none := by
  intro j t own _ _
  simp

/-- Moving a `ConnectThread` on, unless it is to `reset`. -/
theorem ResetLeft.move {connects : List ConnectThread} {field : Option ℕ}
    (h : ResetLeft connects field) (j : ℕ) {pc : ConnectPc} (hpc : ∀ own, pc ≠ .reset own) :
    ResetLeft (connects.modify j fun t => { t with pc := pc }) field := by
  intro j' t own ht hown
  rw [List.getElem?_modify] at ht
  obtain ⟨u, hu, rfl⟩ := Option.map_eq_some_iff.1 ht
  by_cases hj : j = j'
  · rw [if_pos hj] at hown
    exact absurd hown (hpc own)
  · rw [if_neg hj] at hown
    exact h j' u own hu hown

/-- A new `ConnectThread` has not come to `reset`. -/
theorem resetLeft_new (connects : List ConnectThread) (socket : Option ℕ) :
    ResetLeft (connects ++ [⟨socket, .connecting⟩]) (some connects.length) := by
  intro j t own ht hown hj
  obtain rfl : connects.length = j := Option.some.inj hj
  rw [List.getElem?_concat_length] at ht
  cases ht
  cases hown

theorem KeepsConnected.connectedLt (h : KeepsConnected s t) (hs : Placed s) :
    ∀ i, t.mConnectedThread = some i → i < t.connecteds.length := by
  intro i hi
  rw [h.connecteds]
  rcases h.mConnectedThread with h' | h'
  · exact hs.connectedLt i (h'.symm.trans hi)
  · rw [h'] at hi
    cases hi

theorem KeepsConnect.resetLeft (h : KeepsConnect s t) (hs : Placed s) :
    ResetLeft t.connects t.mConnectThread := by
  rw [h.connects]
  rcases h.mConnectThread with h' | h'
  · rw [h']
    exact hs.resetLeft
  · rw [h']
    exact resetLeft_none _

theorem Cancels.placed (h : Cancels s t) (hs : Placed s) : Placed t := by
  refine ⟨?_, h.connectedLt hs, h.resetLeft hs⟩
  rw [h.accepts, h.connects, h.connecteds, h.sockets]
  exact hs.distinct

theorem Started.placed (h : Started e s t) (hs : Placed s) : Placed t := by
  refine ⟨?_, h.connectedLt hs, h.resetLeft hs⟩
  rw [h.connects, h.connecteds, h.sockets]
  cases h.accept with
  | kept i hi hfield haccepts hsockets =>
    rw [haccepts]
    exact hs.distinct
  | created pc hnone hpc hended hfield haccepts hsockets =>
    rw [haccepts]
    exact hs.distinct.newAccept hpc

theorem Connects.placed (h : Connects e s t) (hs : Placed s) : Placed t := by
  refine ⟨?_, h.connectedLt hs, ?_⟩
  · rw [h.accepts, h.connects, h.connecteds, h.sockets]
    exact hs.distinct.newConnect e.createOk
  · rw [h.connects, h.mConnectThread]
    exact resetLeft_new _ _

theorem StoppedFrom.placed (h : StoppedFrom s t) (hs : Placed s) : Placed t := by
  refine ⟨?_, h.connectedLt hs, h.resetLeft hs⟩
  rw [h.accepts, h.connects, h.connecteds, h.sockets]
  exact hs.distinct

theorem start_placed (hs : Placed s) : Placed (final (start e s)) :=
  ((start_spec e s).mono (fun _ h => h.placed hs) fun _ h => h.placed hs).final

/-- The field points to a thread, also after one more was created. -/
theorem HandedOver.connectedLt {k : ℕ} (h : HandedOver k s t) :
    ∀ i, t.mConnectedThread = some i → i < t.connecteds.length := by
  intro i hi
  obtain ⟨b, hd⟩ := h.connecteds
  rw [h.mConnectedThread] at hi
  cases hi
  rw [hd]
  simp

theorem acceptBlock_placed (hs : Placed s) {i k : ℕ} {t : AcceptThread}
    (ht : s.accepts[i]? = some t) (hk : t.pc = .accepted k) : Placed (acceptBlock e s i k) := by
  have hspec := connected_spec e k s
  rcases acceptBlock_cases e s i k with ⟨-, ⟨u, hu, h'⟩ | ⟨u, hu, h'⟩⟩ | ⟨-, h'⟩
  · rw [hu] at hspec
    rw [h']
    have ho : HandedOver k s u := hspec
    refine ⟨?_, ho.connectedLt, ho.resetLeft hs⟩
    obtain ⟨b, hd⟩ := ho.connecteds
    simp only [Service.setHandled]
    rw [ho.accepts, ho.connects, ho.sockets, hd]
    exact hs.distinct.handOverAccepted ht hk (by simp) rfl
  · rw [hu] at hspec
    rw [h']
    have hkeep : KeepsAccept s u := hspec
    have hp : Placed u := hkeep.placed hs
    exact ⟨hp.distinct.moveAccept i (by simp), hp.connectedLt, hp.resetLeft⟩
  · rw [h']
    exact ⟨hs.distinct.moveAccept i (by simp), hs.connectedLt, hs.resetLeft⟩

theorem Placed.setConnect (hs : Placed s) {j : ℕ} {t : ConnectThread}
    (ht : s.connects[j]? = some t) (hpc : t.pc ≠ .ended) {pc : ConnectPc}
    (hnew : ∀ own, pc ≠ .reset own) : Placed (s.setConnect j pc) :=
  ⟨hs.distinct.moveConnect ht hpc pc, hs.connectedLt, hs.resetLeft.move j hnew⟩

theorem Placed.setConnected (hs : Placed s) (i : ℕ) (pc : ConnectedPc) :
    Placed (s.setConnected i pc) := by
  refine ⟨hs.distinct.moveConnected i pc, fun i' hi' => ?_, hs.resetLeft⟩
  simp only [Service.setConnected, List.length_modify]
  exact hs.connectedLt i' hi'

theorem connects_start (e : Env) (s : Service) : (final (start e s)).connects = s.connects :=
  ((start_spec e s).mono (fun _ h => h.connects) fun _ h => h.connects).final

theorem connectStep_placed (hs : Placed s) {j : ℕ} {t : ConnectThread} {a : ConnectAct}
    (ht : s.connects[j]? = some t) (hstep : connectStep s j t a = some s') : Placed s' := by
  rcases connectStep_cases hstep with ⟨k, -, hpc, -, rfl⟩ | ⟨-, hpc, rfl⟩ | ⟨-, hpc, rfl⟩ |
    ⟨e, k, -, hpc, -, rfl⟩ | ⟨e, -, hpc, rfl⟩ | ⟨-, hpc, rfl⟩ | ⟨e, k, own, -, hpc, hk, rfl⟩
  · exact hs.setConnect ht (by simp [hpc]) (by simp)
  · exact hs.setConnect ht (by simp [hpc]) (by intro own; split_ifs <;> simp)
  · have hs' : Placed { s with mState := .stateListen } := ⟨hs.distinct, hs.connectedLt, hs.resetLeft⟩
    exact hs'.setConnect ht (by simp [hpc]) (by intro own; split_ifs <;> simp)
  · have hs' : Placed (s.closeSocket e k) := ⟨hs.distinct, hs.connectedLt, hs.resetLeft⟩
    exact hs'.setConnect ht (by simp [hpc]) (by simp)
  · refine (start_placed hs).setConnect (t := t) ?_ (by simp [hpc]) (by simp)
    rw [connects_start]
    exact ht
  · exact ⟨hs.distinct.moveConnect ht (by simp [hpc]) _, hs.connectedLt, resetLeft_none _⟩
  · have hspec := connected_spec e k s
    cases hc : connected e k s with
    | ok u =>
      rw [hc] at hspec
      have ho : HandedOver k s u := hspec
      refine ⟨?_, ho.connectedLt, (ho.resetLeft hs).move j (by simp)⟩
      obtain ⟨b, hd⟩ := ho.connecteds
      simp only [Service.setConnect, final_ok]
      rw [ho.accepts, ho.connects, ho.sockets, hd]
      exact hs.distinct.handOverConnect ht hk rfl
    | error u =>
      rw [hc] at hspec
      have hcan : KeepsAccept s u := hspec
      refine (hcan.placed hs).setConnect (t := t) ?_ (by simp [hpc]) (by simp)
      rw [hcan.connects]
      exact ht

theorem step_placed (hs : Placed s) {a : Action} (hstep : step s a = some s') : Placed s' := by
  cases a with
  | start e =>
    cases hstep
    exact start_placed hs
  | connect e =>
    cases hstep
    exact ((connect_spec e s).mono (fun _ h => h.placed hs) fun _ h => h.placed hs).final
  | stop e =>
    cases hstep
    exact ((stop_spec e s).mono (fun _ h => h.placed hs) fun _ h => h.placed hs).final
  | write =>
    cases hstep
    exact hs
  | initMainUi =>
    cases hstep
    exact ⟨hs.distinct, hs.connectedLt, hs.resetLeft⟩
  | acceptThread i a =>
    obtain ⟨t, ht, hstep⟩ := Option.bind_eq_some_iff.1 hstep
    rcases acceptStep_cases hstep with ⟨-, -, rfl⟩ | ⟨-, -, rfl⟩ | ⟨-, -, rfl⟩ | ⟨e, k, -, hk, rfl⟩
    · refine ⟨hs.distinct.moveAccept i ?_, hs.connectedLt, hs.resetLeft⟩
      intro t k
      split_ifs <;> simp
    · exact ⟨hs.distinct.acceptReturns i, hs.connectedLt, hs.resetLeft⟩
    · exact ⟨hs.distinct.moveAccept i (by simp), hs.connectedLt, hs.resetLeft⟩
    · exact acceptBlock_placed hs ht hk
  | connectThread j a =>
    obtain ⟨t, ht, hstep⟩ := Option.bind_eq_some_iff.1 hstep
    exact connectStep_placed hs ht hstep
  | connectedThread i a =>
    obtain ⟨t, -, hstep⟩ := Option.bind_eq_some_iff.1 hstep
    rcases connectedStep_cases hstep with ⟨-, rfl⟩ | ⟨-, -, rfl⟩ | ⟨-, -, rfl⟩ | ⟨e, -, -, rfl⟩
    · exact hs
    · exact hs.setConnected i _
    · have hs' : Placed { s with mState := .stateListen } :=
        ⟨hs.distinct, hs.connectedLt, hs.resetLeft⟩
      exact hs'.setConnected i _
    · exact (start_placed hs).setConnected i _

theorem runService_placed {as : List Action} (hs : runService as = some s) : Placed s := by
  refine run_invariant Placed ⟨?_, ?_, resetLeft_none _⟩ (fun _ _ _ h hstep => step_placed h hstep) hs
  · constructor <;> simp [Service.new]
  · simp [Service.new]

end Placed

/-! ### The sockets of the current threads -/

/-- A socket of a current `ConnectThread` or `ConnectedThread`. -/
def CurrentSocket (s : Service) (k : ℕ) : Prop :=
  (∃ j, s.mConnectThread = some j ∧ s.connectSocketOf j = some k) ∨
    ∃ i, s.mConnectedThread = some i ∧ s.connectedSocketOf i = some k

section Current

variable {s : Service}

theorem connectSocketOf_eq_some {j k : ℕ} (h : s.connectSocketOf j = some k) :
    ∃ t : ConnectThread, s.connects[j]? = some t ∧ t.mmSocket = some k :=
  Option.bind_eq_some_iff.1 h

theorem connectedSocketOf_eq_some {i k : ℕ} (h : s.connectedSocketOf i = some k) :
    ∃ t : ConnectedThread, s.connecteds[i]? = some t ∧ t.mmSocket = k :=
  Option.map_eq_some_iff.1 h

/-- A socket that was only accepted is nobody's. -/
theorem accepted_not_current (hs : Placed s) {i k : ℕ} {t : AcceptThread}
    (ht : s.accepts[i]? = some t) (hk : t.pc = .accepted k) : ¬ CurrentSocket s k := by
  rintro (⟨j, -, hj⟩ | ⟨i', -, hi'⟩)
  · obtain ⟨u, hu, huk⟩ := connectSocketOf_eq_some hj
    exact hs.distinct.accepted_connect i j t u k ht hu hk huk
  · obtain ⟨u, hu, huk⟩ := connectedSocketOf_eq_some hi'
    exact hs.distinct.accepted_connected i i' t u k ht hu hk huk

/-- Nor is the socket of a superseded `ConnectThread` that is still at work. -/
theorem connect_not_current (hs : Placed s) {j k : ℕ} {t : ConnectThread}
    (ht : s.connects[j]? = some t) (hk : t.mmSocket = some k) (hpc : t.pc ≠ .ended)
    (hj : s.mConnectThread ≠ some j) : ¬ CurrentSocket s k := by
  rintro (⟨j', hj', hk'⟩ | ⟨i, -, hi⟩)
  · obtain ⟨u, hu, huk⟩ := connectSocketOf_eq_some hk'
    have := hs.distinct.connect_inj j j' t u k ht hu hk huk
    exact hj (this ▸ hj')
  · obtain ⟨u, hu, rfl⟩ := connectedSocketOf_eq_some hi
    exact hpc (hs.distinct.connect_connected j i t u ht hu hk)

end Current

end Controller.Bluetooth
