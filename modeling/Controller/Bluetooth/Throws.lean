import Controller.Bluetooth.Distinct

/-!
# Where the methods throw

`start()`, `connected()` and `stop()` begin by cancelling the current `ConnectThread` and the
current `ConnectedThread`.  The first `cancel()` throws when the thread has no socket
(`NullConnectSocket`), the second while the activity has no view (`NullView`).  `connected()` and
`stop()` go on with the `AcceptThread`, whose `cancel()` throws when it has no server socket
(`NullServerSocket`).  Nothing else throws.
-/

namespace Controller.Bluetooth

open Abort

/-- The current `ConnectThread` has no socket. -/
def NullConnectSocket (s : Service) : Prop :=
  ∃ j, s.mConnectThread = some j ∧ s.connectSocketOf j = none

/-- There is a current `ConnectedThread`, and no view for it to report to. -/
def NullView (s : Service) : Prop := s.mConnectedThread ≠ none ∧ s.mOpenCvCameraView = false

/-- The current `AcceptThread` has no server socket. -/
def NullServerSocket (s : Service) : Prop :=
  ∃ i, s.mAcceptThread = some i ∧ s.serverSocketOf i = none

/-- Cancelling the current connections throws. -/
def CancelThrows (s : Service) : Prop := NullConnectSocket s ∨ NullView s

/-- Nothing that the methods look at has changed. -/
structure Same (s t : Service) : Prop extends KeepsAccept s t where
  sameConnect : t.mConnectThread = s.mConnectThread
  sameConnected : t.mConnectedThread = s.mConnectedThread

/-- The `ConnectThread` has been cancelled. -/
structure ConnectCancelled (s t : Service) : Prop extends KeepsAccept s t where
  cleared : t.mConnectThread = none
  sameConnected : t.mConnectedThread = s.mConnectedThread
  socket : ¬ NullConnectSocket s

/-- Both connections have been cancelled. -/
structure BothCancelled (s t : Service) : Prop extends KeepsAccept s t where
  clearedConnect : t.mConnectThread = none
  clearedConnected : t.mConnectedThread = none
  returns : ¬ CancelThrows s

section Statements

variable {s t : Service} {e : Env} {i : ℕ}

theorem Same.refl (s : Service) : Same s s := ⟨.refl s, rfl, rfl⟩

theorem KeepsAccept.connectSocketOf (h : KeepsAccept s t) (j : ℕ) :
    t.connectSocketOf j = s.connectSocketOf j := by
  rw [Service.connectSocketOf, h.connects, Service.connectSocketOf]

theorem KeepsAccept.serverSocketOf (h : KeepsAccept s t) (i : ℕ) :
    t.serverSocketOf i = s.serverSocketOf i := by
  rw [Service.serverSocketOf, h.accepts, Service.serverSocketOf]

/-- The field points to a thread, which has a socket, so only the view can be missing. -/
theorem cancelledSocketOf_eq_none_iff (hs : Placed s) (hi : s.mConnectedThread = some i) :
    s.cancelledSocketOf i = none ↔ s.mOpenCvCameraView = false := by
  have hlt := hs.connectedLt i hi
  unfold Service.cancelledSocketOf
  split_ifs with hview
  · simp [Service.connectedSocketOf, List.getElem?_eq_getElem hlt, hview]
  · simpa using hview

theorem throws_cancelConnectThread (s : Service) (e : Env) :
    Triple (Same s) (cancelConnectThread e) (ConnectCancelled s) (fun _ => NullConnectSocket s) := by
  refine triple_cancelField ?_ ?_ ?_
  · intro t ht hj
    refine ⟨ht.toKeepsAccept, hj, ht.sameConnected, ?_⟩
    rintro ⟨j, hj', -⟩
    rw [← ht.sameConnect, hj] at hj'
    cases hj'
  · intro t j ht hj hk
    exact ⟨j, ht.sameConnect.symm.trans hj, (ht.connectSocketOf j).symm.trans hk⟩
  · intro t j k ht hj hk
    refine ⟨⟨⟨⟨ht.connecteds, ht.mConnectedThread⟩, ⟨ht.connects, Or.inr rfl⟩, ht.mState,
      ht.accepts, ht.sockets⟩, ht.mAcceptThread, ht.serverSockets, ht.closedServerSockets,
      ht.mOpenCvCameraView⟩, rfl, ht.sameConnected, ?_⟩
    rintro ⟨j', hj', hk'⟩
    obtain rfl : j = j' := Option.some.inj (hj.symm.trans (ht.sameConnect.trans hj'))
    rw [← ht.connectSocketOf, hk] at hk'
    cases hk'

theorem throws_cancelConnectedThread (hs : Placed s) (e : Env) :
    Triple (ConnectCancelled s) (cancelConnectedThread e) (BothCancelled s)
      (fun t => t.mConnectThread = none ∧ NullView s) := by
  refine triple_cancelField ?_ ?_ ?_
  · intro t ht hi
    refine ⟨ht.toKeepsAccept, ht.cleared, hi, ?_⟩
    rintro (h | ⟨h, -⟩)
    · exact ht.socket h
    · exact h (ht.sameConnected.symm.trans hi)
  · intro t i ht hi hk
    have hview := (cancelledSocketOf_eq_none_iff (ht.placed hs) hi).1 hk
    refine ⟨ht.cleared, ?_, ht.mOpenCvCameraView.symm.trans hview⟩
    rw [← ht.sameConnected, hi]
    simp
  · intro t i k ht hi hk
    refine ⟨⟨⟨⟨ht.connecteds, Or.inr rfl⟩, ⟨ht.connects, ht.mConnectThread⟩, ht.mState,
      ht.accepts, ht.sockets⟩, ht.mAcceptThread, ht.serverSockets, ht.closedServerSockets,
      ht.mOpenCvCameraView⟩, ht.cleared, rfl, ?_⟩
    rintro (h | ⟨-, hview⟩)
    · exact ht.socket h
    · rw [← ht.mOpenCvCameraView] at hview
      rw [(cancelledSocketOf_eq_none_iff (ht.placed hs) hi).2 hview] at hk
      cases hk

end Statements

/-! ### The methods -/

section Methods

variable {s : Service} {e : Env}

/-- Where `start()` gets to. -/
theorem start_ends (hs : Placed s) (e : Env) :
    Ends (fun t => t.mConnectThread = none ∧ t.mConnectedThread = none ∧ ¬ CancelThrows s)
      (fun t => NullConnectSocket s ∨ (t.mConnectThread = none ∧ NullView s)) (start e s) := by
  refine Triple.seq ((throws_cancelConnectThread s e).weaken fun _ h => Or.inl h)
    (Triple.seq ((throws_cancelConnectedThread hs e).weaken fun _ h => Or.inr h) (Triple.seq
      (Q := fun t => t.mConnectThread = none ∧ t.mConnectedThread = none ∧ ¬ CancelThrows s) ?_
      (triple_setState fun t ht => ht))) s (Same.refl s)
  exact triple_startAcceptThread
    (fun t _ ht _ => ⟨ht.clearedConnect, ht.clearedConnected, ht.returns⟩)
    fun t _ ht _ _ _ => ⟨ht.clearedConnect, ht.clearedConnected, ht.returns⟩

/-- Where `connected()` gets to. -/
theorem connected_ends (hs : Placed s) (e : Env) (k : ℕ) :
    Ends (fun _ => ¬ CancelThrows s)
      (fun t => NullConnectSocket s ∨ (t.mConnectThread = none ∧ NullView s) ∨
        (t.mConnectThread = none ∧ t.mConnectedThread = none ∧ NullServerSocket s))
      (connected e k s) := by
  refine Triple.seq (Q := Same s) (Triple.pure ?_)
    (Triple.seq ((throws_cancelConnectThread s e).weaken fun _ h => Or.inl h)
      (Triple.seq ((throws_cancelConnectedThread hs e).weaken fun _ h => Or.inr (Or.inl h))
        (Triple.seq (Q := fun _ => ¬ CancelThrows s) ?_ (Triple.seq (Q := fun _ => ¬ CancelThrows s)
          (Triple.pure fun _ ht => ht) (triple_setState fun _ ht => ht))))) s (Same.refl s)
  · rintro t ⟨ht, hj, hi⟩
    exact ⟨⟨⟨⟨ht.connecteds, ht.mConnectedThread⟩, ⟨ht.connects, ht.mConnectThread⟩, ht.mState,
      ht.accepts, ht.sockets⟩, ht.mAcceptThread, ht.serverSockets, ht.closedServerSockets,
      ht.mOpenCvCameraView⟩, hj, hi⟩
  · refine triple_cancelField (fun _ ht _ => ht.returns) ?_ fun _ _ _ ht _ _ => ht.returns
    intro t i ht hi hk
    exact Or.inr (Or.inr ⟨ht.clearedConnect, ht.clearedConnected, i,
      ht.mAcceptThread.symm.trans hi, (ht.serverSocketOf i).symm.trans hk⟩)

theorem start_throws (hs : Placed s) (h : CancelThrows s) :
    ∃ t, start e s = .error t ∧ KeepsAccept s t := by
  have hends := start_ends hs e
  have hspec := start_spec e s
  cases hm : start e s with
  | ok t =>
    rw [hm] at hends
    exact absurd h hends.2.2
  | error t =>
    rw [hm] at hspec
    exact ⟨t, rfl, hspec⟩

theorem start_returns (hs : Placed s) (h : ¬ CancelThrows s) :
    ∃ t, start e s = .ok t ∧ Started e s t := by
  have hends := start_ends hs e
  have hspec := start_spec e s
  cases hm : start e s with
  | ok t =>
    rw [hm] at hspec
    exact ⟨t, rfl, hspec⟩
  | error t =>
    rw [hm] at hends
    exact absurd (Or.imp_right And.right hends) h

end Methods

end Controller.Bluetooth
