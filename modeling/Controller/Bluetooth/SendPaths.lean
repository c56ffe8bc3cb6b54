import Controller.Bluetooth.Connected
import Controller.Bluetooth.Distinct
import Controller.Lib.JavaString

/-!
# The two ways to send

`write` looks at `mState` under the lock before it hands its bytes to `mConnectedThread`;
`SetSensorDataToBT` calls `mConnectedThread.write` whatever the state is.

`sends_like_write_iff`: in a reachable state, `SetSensorDataToBT` does what `write` does, and what
`write` is for, if and only if in `STATE_CONNECTED` the current thread has its streams, and in the
other states there is a current thread, with streams, that refuses the bytes.
`send_without_connection` has the two kinds of states in which it does not: there is no thread, or
the thread has lost its connection and `start()` has not yet taken it away.

An `IOException` of the stream is caught, so refused bytes are dropped.
-/

namespace Controller.Bluetooth

open JavaString

/-- What becomes of bytes that are sent. -/
inductive SendResult
  | delivered (thread : ℕ) (bytes : List UInt8)
  | dropped
  | nullPointer
  deriving DecidableEq

/-- The stream of the thread takes bytes: its socket is open and the system, which answers `outOk`
for each socket, does not fail. -/
def Service.Takes (outOk : ℕ → Bool) (s : Service) (t : ConnectedThread) : Prop :=
  t.mmSocket ∉ s.closedSockets ∧ outOk t.mmSocket = true

instance (outOk : ℕ → Bool) (s : Service) (t : ConnectedThread) : Decidable (s.Takes outOk t) :=
  inferInstanceAs (Decidable (_ ∧ _))

/-- `r.write(buffer)` on a `ConnectedThread` that may be null; `mmOutStream` is null when the
streams could not be had. -/
def Service.threadWrite (outOk : ℕ → Bool) (s : Service) (r : Option ℕ) (buffer : List UInt8) :
    SendResult :=
  match r with
  | none => .nullPointer
  | some i =>
    match s.connecteds[i]? with
    | none => .nullPointer
    | some t =>
      if t.streams then if s.Takes outOk t then .delivered i buffer else .dropped
      else .nullPointer

/-- `write(out)`, to its end. -/
def Service.writeBytes (outOk : ℕ → Bool) (s : Service) (out : List UInt8) : SendResult :=
  match s.write with
  | .notConnected => .dropped
  | .written r => s.threadWrite outOk (some r) out
  | .nullPointer => .nullPointer

/-- `SetSensorDataToBT(str)`. -/
def Service.setSensorDataToBT (outOk : ℕ → Bool) (s : Service) (str : JavaString) : SendResult :=
  s.threadWrite outOk s.mConnectedThread (getBytes str)

/-- `SetSensorDataToBT` is as good as `write`: it has the same effect, which is to deliver the bytes
to the current connection in `STATE_CONNECTED`, if its stream takes them, and to drop them
otherwise. -/
structure SendsLikeWrite (outOk : ℕ → Bool) (s : Service) (str : JavaString) : Prop where
  same : s.setSensorDataToBT outOk str = s.writeBytes outOk (getBytes str)
  connected : s.mState = .stateConnected → ∃ i t, s.mConnectedThread = some i ∧
    s.connecteds[i]? = some t ∧ s.setSensorDataToBT outOk str =
      if s.Takes outOk t then .delivered i (getBytes str) else .dropped
  otherwise : s.mState ≠ .stateConnected → s.setSensorDataToBT outOk str = .dropped

/-- In `STATE_CONNECTED` the current thread has its streams; otherwise there is a current thread,
with its streams, and it refuses the bytes. -/
structure Service.SafeToSend (outOk : ℕ → Bool) (s : Service) : Prop where
  connected : s.mState = .stateConnected → ∀ i t, s.mConnectedThread = some i →
    s.connecteds[i]? = some t → t.streams = true
  otherwise : s.mState ≠ .stateConnected → ∃ i t, s.mConnectedThread = some i ∧
    s.connecteds[i]? = some t ∧ t.streams = true ∧ ¬ s.Takes outOk t

section Paths

variable {outOk : ℕ → Bool} {s : Service} {i : ℕ} {t : ConnectedThread}

theorem threadWrite_of_streams (ht : s.connecteds[i]? = some t) (hstreams : t.streams = true)
    (bytes : List UInt8) : s.threadWrite outOk (some i) bytes =
      if s.Takes outOk t then .delivered i bytes else .dropped := by
  simp only [Service.threadWrite, ht, hstreams, if_true]

theorem threadWrite_of_no_streams (ht : s.connecteds[i]? = some t) (hstreams : t.streams ≠ true)
    (bytes : List UInt8) : s.threadWrite outOk (some i) bytes = .nullPointer := by
  simp only [Service.threadWrite, ht, if_neg hstreams]

theorem writeBytes_of_ne (hstate : s.mState ≠ .stateConnected) (bytes : List UInt8) :
    s.writeBytes outOk bytes = .dropped := by
  have hwrite : s.write = .notConnected := if_pos hstate
  rw [Service.writeBytes, hwrite]

theorem writeBytes_of_connected (hstate : s.mState = .stateConnected)
    (hi : s.mConnectedThread = some i) (bytes : List UInt8) :
    s.writeBytes outOk bytes = s.threadWrite outOk (some i) bytes := by
  have hwrite : s.write = .written i := by
    rw [Service.write, if_neg (not_not.2 hstate), hi]
  rw [Service.writeBytes, hwrite]

theorem setSensorDataToBT_of_streams (hi : s.mConnectedThread = some i)
    (ht : s.connecteds[i]? = some t) (hstreams : t.streams = true) (str : JavaString) :
    s.setSensorDataToBT outOk str =
      if s.Takes outOk t then .delivered i (getBytes str) else .dropped := by
  rw [Service.setSensorDataToBT, hi, threadWrite_of_streams ht hstreams]

/-- `SetSensorDataToBT` meets a null pointer unless there is a current thread with its streams. -/
theorem streams_of_ne_nullPointer {str : JavaString}
    (h : s.setSensorDataToBT outOk str ≠ .nullPointer) :
    ∃ i t, s.mConnectedThread = some i ∧ s.connecteds[i]? = some t ∧ t.streams = true := by
  unfold Service.setSensorDataToBT at h
  cases hi : s.mConnectedThread with
  | none => rw [hi] at h; exact absurd rfl h
  | some i =>
    rw [hi] at h
    cases ht : s.connecteds[i]? with
    | none => simp [Service.threadWrite, ht] at h
    | some t =>
      refine ⟨i, t, rfl, ht, ?_⟩
      by_contra hstreams
      exact h (threadWrite_of_no_streams ht hstreams _)

end Paths

/-! ### Reachable states -/

section Reachable

variable {as : List Action} {outOk : ℕ → Bool} {s : Service}

/-- In `STATE_CONNECTED` there is a current thread. -/
theorem exists_current (hs : runService as = some s) (hstate : s.mState = .stateConnected) :
    ∃ i t, s.mConnectedThread = some i ∧ s.connecteds[i]? = some t := by
  obtain ⟨i, hi⟩ := Option.ne_none_iff_exists'.1 (runService_backed hs hstate).1
  have hlt := (runService_placed hs).connectedLt i hi
  exact ⟨i, s.connecteds.get ⟨i, hlt⟩, hi, List.getElem?_eq_getElem hlt⟩

theorem sendsLikeWrite_of_safe (hs : runService as = some s) (h : s.SafeToSend outOk)
    (str : JavaString) : SendsLikeWrite outOk s str := by
  by_cases hstate : s.mState = .stateConnected
  · obtain ⟨i, t, hi, ht⟩ := exists_current hs hstate
    have hstreams := h.connected hstate i t hi ht
    refine ⟨?_, fun _ => ⟨i, t, hi, ht, setSensorDataToBT_of_streams hi ht hstreams str⟩,
      fun hne => absurd hstate hne⟩
    rw [Service.setSensorDataToBT, writeBytes_of_connected hstate hi, hi]
  · obtain ⟨i, t, hi, ht, hstreams, hrefuses⟩ := h.otherwise hstate
    have hdrop : s.setSensorDataToBT outOk str = .dropped := by
      rw [setSensorDataToBT_of_streams hi ht hstreams, if_neg hrefuses]
    exact ⟨by rw [hdrop, writeBytes_of_ne hstate], fun h => absurd h hstate, fun _ => hdrop⟩

theorem safe_of_sendsLikeWrite {str : JavaString} (h : SendsLikeWrite outOk s str) :
    s.SafeToSend outOk where
  connected := by
    intro hstate i t hi ht
    obtain ⟨i', t', hi', ht', hset⟩ := h.connected hstate
    have hne : s.setSensorDataToBT outOk str ≠ .nullPointer := by
      rw [hset]
      split_ifs <;> simp
    obtain ⟨i'', t'', hi'', ht'', hstreams⟩ := streams_of_ne_nullPointer hne
    rw [hi] at hi''
    cases hi''
    rw [ht] at ht''
    cases ht''
    exact hstreams
  otherwise := by
    intro hstate
    have hdrop := h.otherwise hstate
    obtain ⟨i, t, hi, ht, hstreams⟩ := streams_of_ne_nullPointer (by rw [hdrop]; simp)
    refine ⟨i, t, hi, ht, hstreams, fun htakes => ?_⟩
    rw [setSensorDataToBT_of_streams hi ht hstreams, if_pos htakes] at hdrop
    cases hdrop

/-- **The two send paths.**  In every reachable state, `SetSensorDataToBT(str)` has the effect of
`write(str.getBytes())`, delivering in `STATE_CONNECTED` and dropping otherwise, if and only if the
state is safe to send in. -/
theorem sends_like_write_iff (as : List Action) (s : Service) (hs : runService as = some s)
    (outOk : ℕ → Bool) (str : JavaString) :
    SendsLikeWrite outOk s str ↔ s.SafeToSend outOk :=
  ⟨safe_of_sendsLikeWrite, fun h => sendsLikeWrite_of_safe hs h str⟩

end Reachable

/-- A connection is made, once the activity has its view. -/
def connectRun : List Action :=
  [.initMainUi, .connect .good, .connectThread 0 .connectReturns, .connectThread 0 .reset,
    .connectThread 0 (.connected .good)]

theorem sends_like_write_iff_connected : ∃ s, runService connectRun = some s ∧
    SendsLikeWrite (fun _ => true) s (ofAscii "1") ∧
    s.setSensorDataToBT (fun _ => true) (ofAscii "1") = .delivered 0 [0x31] := by
  refine ⟨_, rfl, (sends_like_write_iff connectRun _ rfl _ _).2 ⟨?_, fun h => absurd rfl h⟩, by decide⟩
  rintro - i t ⟨⟩ ⟨⟩
  rfl

/-- A new service has no thread to send to: `write` drops the bytes, `SetSensorDataToBT` throws.
While a reader that has lost its connection is in `connectionLost()`, `write` drops the bytes and
`SetSensorDataToBT` still sends them. -/
theorem send_without_connection :
    (∃ s, runService [] = some s ∧
      s.writeBytes (fun _ => true) (getBytes (ofAscii "1")) = .dropped ∧
      s.setSensorDataToBT (fun _ => true) (ofAscii "1") = .nullPointer) ∧
    ∃ s, runService (connectRun ++
        [.connectedThread 0 .readThrows, .connectedThread 0 .connectionLost]) = some s ∧
      s.mState = .stateListen ∧
      s.writeBytes (fun _ => true) (getBytes (ofAscii "1")) = .dropped ∧
      s.setSensorDataToBT (fun _ => true) (ofAscii "1") = .delivered 0 [0x31] :=
  ⟨⟨_, rfl, rfl, rfl⟩, _, rfl, rfl, rfl, by decide⟩

end Controller.Bluetooth
