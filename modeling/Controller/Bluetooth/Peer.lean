import Controller.Bluetooth.Distinct
import Controller.Bluetooth.Reader

/-!
# What a peer can do with its messages

The loop of `ConnectedThread.run` catches `IOException` only.  A message with fifteen fields of
which one of the first three numbers is none makes `Float.parseFloat` throw, nobody catches that,
and the reader ends while the service still says `STATE_CONNECTED`.  It also ends so when `read`
throws while the activity has no view, because the `catch` block reports to the view before it calls
`connectionLost()`.

This file puts `Service` and the body of the loop together: a read of a `ConnectedThread` now
delivers a chunk into the buffer of that thread (`receive`).  `step_reader` says what any step does
to any reader.  `peer_iff`: in a run, every delivered chunk updates all of the fields or none and
the loop goes on, readers end only through the `IOException` branch, and no connected service has
a reader that has ended, if and only if every step is `Harmless`.
-/

namespace Controller.Bluetooth

open Abort PartialRun

/-! ### The readers of the service -/

/-- What an action does to the `ConnectedThread` at `i`; `view` says whether there is a view. -/
inductive ReaderStep (view : Bool) (a : Action) (i : ℕ) :
    Option ConnectedThread → Option ConnectedThread → Prop
  | absent : ReaderStep view a i none none
  | created (socket : ℕ) (streams : Bool) :
      ReaderStep view a i none (some ⟨socket, streams, .reading⟩)
  | same (t : ConnectedThread) : ReaderStep view a i (some t) (some t)
  | readThrows (t : ConnectedThread) (ha : a = .connectedThread i .readThrows)
      (hpc : t.pc = .reading) : ReaderStep view a i (some t)
        (some { t with pc := if t.streams ∧ view then .failed else .ended })
  | connectionLost (t : ConnectedThread) (ha : a = .connectedThread i .connectionLost)
      (hpc : t.pc = .failed) : ReaderStep view a i (some t)
        (some { t with pc := if view then .lostSet else .ended })
  | restart (t : ConnectedThread) (e : Env) (ha : a = .connectedThread i (.restart e))
      (hpc : t.pc = .lostSet) : ReaderStep view a i (some t) (some { t with pc := .ended })

section Readers

variable {s s' t : Service} {view : Bool} {a : Action} {i : ℕ}

theorem ReaderStep.refl (a : Action) (i : ℕ) (o : Option ConnectedThread) :
    ReaderStep view a i o o := by
  cases o with
  | none => exact .absent
  | some t => exact .same t

theorem KeepsConnected.readerStep (h : KeepsConnected s t) (a : Action) (i : ℕ) :
    ReaderStep view a i s.connecteds[i]? t.connecteds[i]? := by
  rw [h.connecteds]
  exact .refl a i _

theorem HandedOver.readerStep {k : ℕ} (h : HandedOver k s t) (a : Action) (i : ℕ) :
    ReaderStep view a i s.connecteds[i]? t.connecteds[i]? := by
  obtain ⟨streams, hd⟩ := h.connecteds
  rw [hd, getElem?_concat]
  split_ifs with hi
  · rw [hi, List.getElem?_eq_none le_rfl]
    exact .created k streams
  · exact .refl a i _

/-- The methods create readers, and leave those that exist alone. -/
theorem Effect.readerStep {b : Action} {u : Service} (hu : Effect s b u) (a : Action) (i : ℕ) :
    ReaderStep view a i s.connecteds[i]? u.connecteds[i]? := by
  cases hu with
  | nothing => exact .refl a i _
  | view => exact .refl a i _
  | accept => exact .refl a i _
  | listen => exact .refl a i _
  | reset => exact .refl a i _
  | close e k => exact .refl a i _
  | start e =>
    exact ((start_spec e s).mono (fun _ h => h.readerStep a i) fun _ h => h.readerStep a i).final
  | connect e =>
    exact ((connect_spec e s).mono (fun _ h => h.readerStep a i) fun _ h => h.readerStep a i).final
  | connected e k =>
    exact ((connected_spec e k s).mono (fun _ h => h.readerStep a i)
      fun _ h => h.readerStep a i).final
  | stop e =>
    exact ((stop_spec e s).mono (fun _ h => h.readerStep a i) fun _ h => h.readerStep a i).final

theorem connecteds_start (e : Env) (s : Service) :
    (final (start e s)).connecteds = s.connecteds :=
  ((start_spec e s).mono (fun _ h => h.connecteds) fun _ h => h.connecteds).final

theorem acceptBlock_readerStep (e : Env) (s : Service) (j k : ℕ) (a : Action) (i : ℕ) :
    ReaderStep view a i s.connecteds[i]? (acceptBlock e s j k).connecteds[i]? := by
  have hspec := connected_spec e k s
  rcases acceptBlock_cases e s j k with ⟨-, ⟨u, hu, h'⟩ | ⟨u, hu, h'⟩⟩ | ⟨-, h'⟩
  · rw [hu] at hspec
    rw [h']
    exact HandedOver.readerStep hspec a i
  · rw [hu] at hspec
    rw [h']
    have hkeep : KeepsAccept s u := hspec
    exact hkeep.readerStep a i
  · rw [h']
    exact .refl a i _

/-- Moving the reader at `j` on leaves the others alone. -/
theorem setConnected_readerStep {j : ℕ} {u : ConnectedThread} {pc : ConnectedPc}
    (hu : s.connecteds[j]? = some u)
    (hmove : ReaderStep view a j (some u) (some { u with pc := pc })) (i : ℕ) :
    ReaderStep view a i s.connecteds[i]? (s.setConnected j pc).connecteds[i]? := by
  simp only [Service.setConnected, List.getElem?_modify]
  by_cases h : j = i
  · subst h
    simp only [hu, if_true]
    exact hmove
  · simp only [h, if_false]
    cases s.connecteds[i]? with
    | none => exact .absent
    | some t => exact .same t

/-- **What a step does to a reader.** -/
theorem step_reader (h : step s a = some s') (i : ℕ) :
    ReaderStep s.mOpenCvCameraView a i s.connecteds[i]? s'.connecteds[i]? := by
  cases a with
  | start e => cases h; exact (Effect.start (a := .start e) e).readerStep _ i
  | connect e => cases h; exact (Effect.connect (a := .connect e) e).readerStep _ i
  | stop e => cases h; exact (Effect.stop e).readerStep _ i
  | write => cases h; exact .refl _ i _
  | initMainUi => cases h; exact .refl _ i _
  | acceptThread j b =>
    obtain ⟨t, -, h⟩ := Option.bind_eq_some_iff.1 h
    rcases acceptStep_cases h with ⟨-, -, rfl⟩ | ⟨-, -, rfl⟩ | ⟨-, -, rfl⟩ | ⟨e, k, -, -, rfl⟩
    · exact .refl _ i _
    · exact .refl _ i _
    · exact .refl _ i _
    · exact acceptBlock_readerStep e s j k _ i
  | connectThread j b =>
    obtain ⟨t, -, h⟩ := Option.bind_eq_some_iff.1 h
    rcases connectStep_cases h with ⟨_, -, -, -, rfl⟩ | ⟨-, -, rfl⟩ | ⟨-, -, rfl⟩ |
      ⟨e, k, -, -, -, rfl⟩ | ⟨e, -, -, rfl⟩ | ⟨-, -, rfl⟩ | ⟨e, k, _, -, -, -, rfl⟩
    · exact .refl _ i _
    · exact .refl _ i _
    · exact .refl _ i _
    · exact .refl _ i _
    · exact (Effect.start (a := .connectThread j b) e).readerStep _ i
    · exact .refl _ i _
    · exact (Effect.connected (a := .connectThread j b) e k).readerStep _ i
  | connectedThread j b =>
    obtain ⟨t, ht, h⟩ := Option.bind_eq_some_iff.1 h
    rcases connectedStep_cases h with ⟨-, rfl⟩ | ⟨rfl, hpc, rfl⟩ | ⟨rfl, hpc, rfl⟩ |
      ⟨e, rfl, hpc, rfl⟩
    · exact .refl _ i _
    · exact setConnected_readerStep ht (.readThrows t rfl hpc) i
    · exact setConnected_readerStep (s := { s with mState := .stateListen }) ht
        (.connectionLost t rfl hpc) i
    · have ht' : (final (start e s)).connecteds[j]? = some t := by
        rw [connecteds_start]
        exact ht
      have hstep : ReaderStep s.mOpenCvCameraView _ i _ _ :=
        setConnected_readerStep ht' (.restart t e rfl hpc) i
      rw [connecteds_start] at hstep
      exact hstep

end Readers

/-! ### Service and loop together -/

/-- The service, the buffer of each `ConnectedThread`, and the fields the messages work on. -/
structure PeerState (K : Type) where
  service : Service
  buffers : ℕ → Buffer
  gyro : GyroFields K

/-- A new service in a new process. -/
def PeerState.new (K : Type) [Field K] : PeerState K := ⟨.new, fun _ => .new, .initial K⟩

/-- A step of the service other than a read that returns, or a chunk read by the reader at `i`. -/
inductive PeerAction
  | service (a : Action)
  | receive (i : ℕ) (r : Reading)

variable {K : Type} [Field K]

/-- What the loop of the reader at `i` works on. -/
def PeerState.reader (s : PeerState K) (i : ℕ) : Reader K := ⟨s.buffers i, s.gyro⟩

/-- One round of the loop of the reader at `i`.  An exception that is not caught ends it. -/
def PeerState.receive (java : Java K) (s : PeerState K) (i : ℕ) (r : Reading) : PeerState K :=
  match loopBody java r (s.reader i) with
  | .ok l => ⟨s.service, Function.update s.buffers i l.buffer, l.gyro⟩
  | .error l => ⟨s.service.setConnected i .ended, Function.update s.buffers i l.buffer, l.gyro⟩

/-- One step.  A read that returns is always one that delivers something. -/
def peerStep (java : Java K) (s : PeerState K) : PeerAction → Option (PeerState K)
  | .service (.connectedThread _ .readReturns) => none
  | .service a => (step s.service a).map fun t => { s with service := t }
  | .receive i r =>
    (step s.service (.connectedThread i .readReturns)).map fun t =>
      { s with service := t }.receive java i r

/-- The state after the actions `as`. -/
def runPeer (java : Java K) (as : List PeerAction) : Option (PeerState K) :=
  run (peerStep java) (.new K) as

/-- The string that the reader at `i` makes of a chunk. -/
def PeerState.message (s : PeerState K) (i : ℕ) (r : Reading) : List Char :=
  (s.reader i).strYes r.chunk

/-! ### What one would like -/

/-- The round changed all of the fields or none, and the reader is back at `read`. -/
structure AllOrNothing (java : Java K) (i : ℕ) (r : Reading) (s s' : PeerState K) : Prop where
  goesOn : ∃ t, s'.service.connecteds[i]? = some t ∧ t.pc = .reading
  whole : s'.gyro = s.gyro ∨
    ∃ rvec, java.rvec (s.message i r) = some rvec ∧ s'.gyro = s.gyro.turn java rvec

/-- A reader that was reading still is, or its `read` has thrown an `IOException`. -/
def EndsByIoException (a : PeerAction) (s s' : PeerState K) : Prop :=
  ∀ i t, s.service.connecteds[i]? = some t → t.streams = true → t.pc = .reading →
    ∃ t', s'.service.connecteds[i]? = some t' ∧
      (t'.pc = .reading ∨ a = .service (.connectedThread i .readThrows) ∧ t'.pc = .failed)

/-- A connected service has a reader that has not ended, if that reader has its streams. -/
def ReaderAlive (s : Service) : Prop :=
  s.mState = .stateConnected → ∀ i t, s.mConnectedThread = some i → s.connecteds[i]? = some t →
    t.streams = true → t.pc = .reading ∨ t.pc = .failed

/-- Nothing a peer sends in the run does any harm. -/
structure PeerHarmless (java : Java K) (as : List PeerAction) : Prop where
  rounds : ∀ pre i r post s s', as = pre ++ .receive i r :: post → runPeer java pre = some s →
    peerStep java s (.receive i r) = some s' → AllOrNothing java i r s s'
  ends : ∀ pre a post s s', as = pre ++ a :: post → runPeer java pre = some s →
    peerStep java s a = some s' → EndsByIoException a s s'
  alive : ∀ pre post s, as = pre ++ post → runPeer java pre = some s → ReaderAlive s.service

/-- When `read` throws in a reader that has its streams, there is a view to report it to. -/
def LossReported (s : Service) : Action → Prop
  | .connectedThread i .readThrows => ∀ t : ConnectedThread, s.connecteds[i]? = some t →
      t.streams = true → t.pc = .reading → s.mOpenCvCameraView = true
  | _ => True

/-- A delivered message that has fifteen fields has numbers in the first three places, and the view
exists if an object was detected; a `read` that throws finds a view as well. -/
def Harmless (java : Java K) (s : PeerState K) : PeerAction → Prop
  | .service a => LossReported s.service a
  | .receive i r => step s.service (.connectedThread i .readReturns) ≠ none →
      Accepted (s.message i r) →
        java.rvec (s.message i r) ≠ none ∧ (r.bDetectObj = 1 → r.gLView = true)

/-! ### One round -/

section Round

variable {java : Java K} {s s' : PeerState K} {i : ℕ} {r : Reading} {a : PeerAction}

/-- A round whose message is harmless returns, with all of the fields updated or none. -/
theorem loopBody_harmless {l : Reader K} (h : Accepted (l.strYes r.chunk) →
      java.rvec (l.strYes r.chunk) ≠ none ∧ (r.bDetectObj = 1 → r.gLView = true)) :
    ∃ l', loopBody java r l = .ok l' ∧ (l'.gyro = l.gyro ∨
      ∃ rvec, java.rvec (l.strYes r.chunk) = some rvec ∧ l'.gyro = l.gyro.turn java rvec) := by
  unfold loopBody fromControllerRvec
  by_cases hacc : Accepted (l.strYes r.chunk)
  · obtain ⟨hrvec, hview⟩ := h hacc
    obtain ⟨rvec, hr⟩ := Option.ne_none_iff_exists'.1 hrvec
    have hno : ¬ (r.bDetectObj = 1 ∧ r.gLView = false) := by
      rintro ⟨hd, hv⟩
      rw [hview hd] at hv
      cases hv
    rw [if_pos hacc, hr]
    simp only [if_neg hno]
    exact ⟨_, rfl, Or.inr ⟨rvec, rfl, rfl⟩⟩
  · rw [if_neg hacc]
    exact ⟨_, rfl, Or.inl rfl⟩

/-- A round whose message is not throws. -/
theorem loopBody_harmful {l : Reader K} (hacc : Accepted (l.strYes r.chunk))
    (h : ¬ (java.rvec (l.strYes r.chunk) ≠ none ∧ (r.bDetectObj = 1 → r.gLView = true))) :
    ∃ l', loopBody java r l = .error l' := by
  unfold loopBody fromControllerRvec
  rw [if_pos hacc]
  cases hr : java.rvec (l.strYes r.chunk) with
  | none => exact ⟨_, rfl⟩
  | some rvec =>
    have hyes : r.bDetectObj = 1 ∧ r.gLView = false := by
      rw [hr] at h
      simpa using h
    simp only [if_pos hyes]
    exact ⟨_, rfl⟩

/-- A read returns only to a reader that is reading, and by itself changes nothing. -/
theorem step_readReturns {t u : Service} (h : step t (.connectedThread i .readReturns) = some u) :
    u = t ∧ ∃ v, t.connecteds[i]? = some v ∧ v.pc = .reading := by
  obtain ⟨v, hv, h⟩ := Option.bind_eq_some_iff.1 h
  obtain ⟨hpc, h⟩ := Option.ite_none_right_eq_some.1 h
  exact ⟨(Option.some.inj h).symm, v, hv, hpc.1⟩

theorem receive_inv (h : peerStep java s (.receive i r) = some s') :
    step s.service (.connectedThread i .readReturns) ≠ none ∧ s' = s.receive java i r ∧
      ∃ v, s.service.connecteds[i]? = some v ∧ v.pc = .reading := by
  obtain ⟨t, ht, rfl⟩ := Option.map_eq_some_iff.1 h
  obtain ⟨rfl, hv⟩ := step_readReturns ht
  exact ⟨by rw [ht]; simp, rfl, hv⟩

theorem peerStep_receive {t : Service} (h : step s.service (.connectedThread i .readReturns) = some t) :
    peerStep java s (.receive i r) = some (s.receive java i r) := by
  obtain ⟨rfl, -⟩ := step_readReturns h
  show Option.map _ (step s.service (.connectedThread i .readReturns)) = _
  rw [h]
  rfl

theorem receive_ok {l : Reader K} (h : loopBody java r (s.reader i) = .ok l) :
    s.receive java i r = ⟨s.service, Function.update s.buffers i l.buffer, l.gyro⟩ := by
  unfold PeerState.receive
  rw [h]

theorem receive_error {l : Reader K} (h : loopBody java r (s.reader i) = .error l) :
    s.receive java i r =
      ⟨s.service.setConnected i .ended, Function.update s.buffers i l.buffer, l.gyro⟩ := by
  unfold PeerState.receive
  rw [h]

/-- A message that is accepted and has no numbers ends the reader. -/
theorem receive_ends {t : Service} (h : step s.service (.connectedThread i .readReturns) = some t)
    {str : List Char} (hacc : Accepted str) (hrvec : java.rvec str = none)
    (hstr : Utf8.decode ((s.buffers i).read r.chunk).1 = str) :
    ∃ l : Reader K, peerStep java s (.receive i r) = some
      ⟨s.service.setConnected i .ended, Function.update s.buffers i l.buffer, l.gyro⟩ := by
  subst hstr
  obtain ⟨l, hl⟩ : ∃ l, loopBody java r (s.reader i) = .error l :=
    loopBody_harmful hacc fun h => h.1 hrvec
  exact ⟨l, by rw [peerStep_receive h, receive_error hl]⟩

/-- After a harmless round the service is as it was. -/
theorem receive_harmless (hh : Harmless java s (.receive i r))
    (h : peerStep java s (.receive i r) = some s') :
    s'.service = s.service ∧ AllOrNothing java i r s s' := by
  obtain ⟨hd, rfl, v, hv, hpc⟩ := receive_inv h
  obtain ⟨l', hl', hwhole⟩ := loopBody_harmless (l := s.reader i) (hh hd)
  rw [receive_ok hl']
  exact ⟨rfl, ⟨v, hv, hpc⟩, hwhole⟩

/-- A round that leaves the reader reading had a harmless message. -/
theorem harmless_of_goesOn (h : peerStep java s (.receive i r) = some s')
    (hgo : ∃ t, s'.service.connecteds[i]? = some t ∧ t.pc = .reading) :
    Harmless java s (.receive i r) := by
  intro _ hacc
  by_contra hbad
  obtain ⟨-, rfl, v, hv, hpc⟩ := receive_inv h
  obtain ⟨l', hl'⟩ := loopBody_harmful hacc hbad
  obtain ⟨t, ht, htpc⟩ := hgo
  rw [receive_error hl'] at ht
  simp only [Service.setConnected, List.getElem?_modify, hv, if_true] at ht
  cases ht
  cases htpc

theorem service_inv {b : Action} (h : peerStep java s (.service b) = some s') :
    step s.service b = some s'.service ∧ s'.gyro = s.gyro := by
  unfold peerStep at h
  split at h
  · cases h
  · next heq =>
    cases heq
    obtain ⟨t, ht, rfl⟩ := Option.map_eq_some_iff.1 h
    exact ⟨ht, rfl⟩
  · next heq => cases heq

end Round

/-! ### All steps -/

section Steps

variable {s s' u : Service} {a : Action} {i : ℕ}

theorem KeepsConnected.current (h : KeepsConnected s u) (hm : u.mState = s.mState)
    (hc : u.mState = .stateConnected) (hi : u.mConnectedThread = some i) :
    s.mState = .stateConnected ∧ s.mConnectedThread = some i := by
  refine ⟨hm.symm.trans hc, ?_⟩
  rcases h.mConnectedThread with h' | h'
  · exact h'.symm.trans hi
  · rw [h'] at hi
    cases hi

/-- The reader of a connected service was its reader before the step, or is new. -/
def WasCurrent (s : Service) (i : ℕ) (u : Service) : Prop :=
  u.mState = .stateConnected → u.mConnectedThread = some i →
    (s.mState = .stateConnected ∧ s.mConnectedThread = some i) ∨ s.connecteds[i]? = none

theorem wasCurrent_of_ne (h : u.mState ≠ .stateConnected) : WasCurrent s i u :=
  fun hc => absurd hc h

theorem Cancels.wasCurrent (h : Cancels s u) : WasCurrent s i u :=
  fun hc hi => Or.inl (h.current h.mState hc hi)

theorem HandedOver.wasCurrent {k : ℕ} (h : HandedOver k s u) : WasCurrent s i u := by
  intro _ hi
  rw [h.mConnectedThread] at hi
  cases hi
  exact Or.inr (List.getElem?_eq_none le_rfl)

theorem Effect.wasCurrent (hu : Effect s a u) : WasCurrent s i u := by
  cases hu with
  | nothing => exact fun hc hi => Or.inl ⟨hc, hi⟩
  | view => exact fun hc hi => Or.inl ⟨hc, hi⟩
  | accept => exact fun hc hi => Or.inl ⟨hc, hi⟩
  | listen => exact wasCurrent_of_ne (by simp)
  | reset => exact fun hc hi => Or.inl ⟨hc, hi⟩
  | close e k => exact fun hc hi => Or.inl ⟨hc, hi⟩
  | start e =>
    exact ((start_spec e s).mono (fun _ h => wasCurrent_of_ne (by rw [h.mState]; simp))
      fun _ h => h.wasCurrent).final
  | connect e =>
    exact ((connect_spec e s).mono (fun _ h => wasCurrent_of_ne (by rw [h.mState]; simp))
      fun _ h => h.wasCurrent).final
  | connected e k =>
    exact ((connected_spec e k s).mono (fun _ h => h.wasCurrent) fun _ h => h.wasCurrent).final
  | stop e =>
    exact ((stop_spec e s).mono (fun _ h => wasCurrent_of_ne (by rw [h.mState]; simp))
      fun _ h => h.wasCurrent).final

theorem step_connectionLost (h : step s (.connectedThread i .connectionLost) = some s') :
    s'.mState = .stateListen := by
  obtain ⟨t, -, h⟩ := Option.bind_eq_some_iff.1 h
  obtain ⟨-, h⟩ := Option.ite_none_right_eq_some.1 h
  cases h
  rfl

theorem step_readThrows {t : ConnectedThread} (ht : s.connecteds[i]? = some t)
    (hpc : t.pc = .reading) : step s (.connectedThread i .readThrows) =
      some (s.setConnected i (if t.streams ∧ s.mOpenCvCameraView then .failed else .ended)) := by
  simp only [step, ht, Option.bind_some, connectedStep, hpc, if_true]

/-- Steps of the service do not leave a connection without its reader. -/
theorem step_alive (h : ReaderAlive s) (ha : LossReported s a) (hstep : step s a = some s') :
    ReaderAlive s' := by
  intro hc i t' hi ht' hstr
  obtain ⟨u, hu, hmoved⟩ := step_effect hstep
  have hcur : (s.mState = .stateConnected ∧ s.mConnectedThread = some i) ∨
      s.connecteds[i]? = none :=
    hu.wasCurrent (hmoved.fields.mState.symm.trans hc)
      (hmoved.fields.mConnectedThread.symm.trans hi)
  have hr := step_reader hstep i
  rw [ht'] at hr
  generalize hold : s.connecteds[i]? = old at hr hcur
  cases hr with
  | created k b => exact Or.inl rfl
  | same t =>
    rcases hcur with ⟨hc', hi'⟩ | hnone
    · exact h hc' i _ hi' hold hstr
    · cases hnone
  | readThrows t ha' hpc =>
    subst ha'
    have hs : t.streams = true := hstr
    have hview : s.mOpenCvCameraView = true := ha t hold hs hpc
    simp [hs, hview]
  | connectionLost t ha hpc =>
    subst ha
    rw [step_connectionLost hstep] at hc
    cases hc
  | restart t e ha hpc =>
    -- the reader that restarts the service is not that of a connected one
    rcases hcur with ⟨hc', hi'⟩ | hnone
    · rcases h hc' i t hi' hold hstr with h' | h' <;> rw [hpc] at h' <;> cases h'
    · cases hnone

/-- A reader with its streams leaves `reading` only by a `read` that throws, and goes on to
`connectionLost()` if there is a view. -/
theorem step_ends (hstep : step s a = some s') {t : ConnectedThread}
    (ht : s.connecteds[i]? = some t) (hstr : t.streams = true) (hpc : t.pc = .reading) :
    ∃ t', s'.connecteds[i]? = some t' ∧ (t'.pc = .reading ∨ a = .connectedThread i .readThrows ∧
      t'.pc = if s.mOpenCvCameraView then .failed else .ended) := by
  have hr := step_reader hstep i
  rw [ht] at hr
  generalize hnew : s'.connecteds[i]? = new at hr
  cases hr with
  | same => exact ⟨t, rfl, Or.inl hpc⟩
  | readThrows _ ha _ => exact ⟨_, rfl, Or.inr ⟨ha, by simp [hstr]⟩⟩
  | connectionLost _ _ hpc' => rw [hpc] at hpc'; cases hpc'
  | restart _ _ _ hpc' => rw [hpc] at hpc'; cases hpc'

end Steps

/-! ### Runs -/

section Runs

variable {java : Java K} {s s' : PeerState K} {a : PeerAction}

theorem peerStep_alive (h : ReaderAlive s.service) (hh : Harmless java s a)
    (hstep : peerStep java s a = some s') : ReaderAlive s'.service := by
  cases a with
  | service b => exact step_alive h hh (service_inv hstep).1
  | receive i r =>
    rw [(receive_harmless hh hstep).1]
    exact h

theorem peerStep_ends (hh : Harmless java s a) (hstep : peerStep java s a = some s') :
    EndsByIoException a s s' := by
  intro i t ht hstr hpc
  cases a with
  | service b =>
    obtain ⟨t', ht', h | ⟨rfl, h⟩⟩ := step_ends (service_inv hstep).1 ht hstr hpc
    · exact ⟨t', ht', Or.inl h⟩
    · have hview : s.service.mOpenCvCameraView = true := hh t ht hstr hpc
      rw [hview, if_pos rfl] at h
      exact ⟨t', ht', Or.inr ⟨rfl, h⟩⟩
  | receive j r =>
    rw [(receive_harmless hh hstep).1]
    exact ⟨t, ht, Or.inl hpc⟩

/-- If a `read` that throws takes the reader to `connectionLost()`, there is a view. -/
theorem lossReported_of_ends {b : Action}
    (h : ∀ s', peerStep java s (.service b) = some s' → EndsByIoException (.service b) s s') :
    LossReported s.service b := by
  unfold LossReported
  split
  · next i =>
    intro t ht hstr hpc
    obtain ⟨t', ht', hend⟩ := h _ (Option.map_eq_some_iff.2 ⟨_, step_readThrows ht hpc, rfl⟩)
      i t ht hstr hpc
    by_contra hview
    simp only [Service.setConnected, List.getElem?_modify, ht, if_true] at ht'
    cases ht'
    simp [hview] at hend
  · trivial

/-- **Messages of a peer.**  In a run, every delivered chunk is applied whole or not at all and the
loop goes on, readers end only through an `IOException`, and a connected service keeps its reader,
if and only if every delivered message is harmless and every `read` that throws finds a view. -/
theorem peer_iff (java : Java K) (as : List PeerAction) :
    PeerHarmless java as ↔ Along (peerStep java) (Harmless java) (.new K) as := by
  constructor
  · intro h
    refine along_iff.2 fun pre a post s has hs => ?_
    cases a with
    | service b =>
      exact lossReported_of_ends fun s' hs' => h.ends pre (.service b) post s s' has hs hs'
    | receive i r =>
      intro hd
      -- the round is taken, so the reader is reading after it
      obtain ⟨t, ht⟩ := Option.ne_none_iff_exists'.1 hd
      have hstep : peerStep java s (.receive i r) = some (s.receive java i r) := peerStep_receive ht
      exact harmless_of_goesOn hstep (h.rounds pre i r post s _ has hs hstep).goesOn hd
  · intro h
    refine ⟨?_, ?_, ?_⟩
    · rintro pre i r post s s' rfl hs hstep
      exact (receive_harmless (h.at_step hs) hstep).2
    · rintro pre a post s s' rfl hs hstep
      exact peerStep_ends (h.at_step hs) hstep
    · rintro pre post s rfl hs
      refine run_induction (fun _ s => ReaderAlive s.service) ?_ ?_ h.append_left hs
      · intro hc
        cases hc
      · intro _ s a s' _ halive hh hstep
        exact peerStep_alive halive hh hstep

end Runs

/-! ### A message that ends the reader -/

/-- A device connects, once the activity has its view. -/
def connection : List PeerAction :=
  [.service .initMainUi, .service (.start .good), .service (.acceptThread 0 .loopTest),
    .service (.acceptThread 0 .acceptReturns), .service (.acceptThread 0 (.block .good))]

/-- Fifteen fields, none of them a number. -/
def noNumbers : Reading :=
  ⟨⟨(asciiBytes ", ").intercalate (List.replicate 15 (asciiBytes "x")), by decide, by decide⟩, 0, true⟩

theorem noNumbers_message :
    Accepted (Utf8.decode (Buffer.new.read noNumbers.chunk).1) ∧
      decimals (Utf8.decode (Buffer.new.read noNumbers.chunk).1) = [none, none, none] := by
  decide +kernel

theorem rvec_of_decimals {str : List Char} {y z : Option ℚ} (cos sin : ℚ → ℚ)
    (h : decimals str = [none, y, z]) : Java.rvec ⟨decimal, cos, sin⟩ str = none := by
  have hx : Java.number ⟨decimal, cos, sin⟩ str 1 = none := (List.cons.inj h).1
  unfold Java.rvec
  rw [hx]
  rfl

theorem connection_run (java : Java K) : ∃ t, runPeer java connection =
    some ⟨t, fun _ => .new, .initial K⟩ ∧ t.mState = .stateConnected ∧
      t.mConnectedThread = some 0 ∧ t.connecteds = [⟨0, true, .reading⟩] ∧ t.closedSockets = [] :=
  ⟨_, rfl, rfl, rfl, rfl, rfl⟩

/-- The message ends the reader, and the service still says `STATE_CONNECTED`. -/
theorem peer_ends_reader :
    noNumbers.chunk.bytes.length = 43 ∧ ∀ cos sin : ℚ → ℚ,
      (∃ s, runPeer ⟨decimal, cos, sin⟩ (connection ++ [.receive 0 noNumbers]) = some s ∧
        s.service.mState = .stateConnected ∧ s.service.mConnectedThread = some 0 ∧
        s.service.connecteds = [⟨0, true, .ended⟩]) ∧
      ¬ PeerHarmless ⟨decimal, cos, sin⟩ (connection ++ [.receive 0 noNumbers]) := by
  refine ⟨by decide, fun cos sin => ?_⟩
  let java : Java ℚ := ⟨decimal, cos, sin⟩
  obtain ⟨hacc, hnum⟩ := noNumbers_message
  obtain ⟨t, hrun, hstate, hfield, hthreads, hopen⟩ := connection_run java
  have hrvec : java.rvec (Utf8.decode (Buffer.new.read noNumbers.chunk).1) = none :=
    rvec_of_decimals cos sin hnum
  have hreads : step t (.connectedThread 0 .readReturns) = some t := by
    simp [step, connectedStep, hthreads, hopen]
  obtain ⟨l, hstep⟩ := receive_ends (s := ⟨t, fun _ => .new, .initial ℚ⟩) hreads hacc hrvec rfl
  have hrun' : runPeer java (connection ++ [.receive 0 noNumbers]) = _ :=
    (run_append_some hrun).trans (run_singleton.trans hstep)
  have hended : (t.setConnected 0 .ended).connecteds = [⟨0, true, .ended⟩] := by
    simp [Service.setConnected, hthreads]
  refine ⟨⟨_, hrun', hstate, hfield, hended⟩, fun h => ?_⟩
  have halive := h.alive _ [] _ (by simp) hrun' hstate 0 ⟨0, true, .ended⟩ hfield
    (by rw [hended]; rfl) rfl
  rcases halive with h | h <;> cases h

end Controller.Bluetooth
