import Controller.Lib.Abort
import Controller.Lib.PartialRun

/-!
# `BluetoothService.java`

The service is one object with a lock, `mState` and three fields for its worker threads.  Every
`AcceptThread`, `ConnectThread` and `ConnectedThread` ever created stays in the list of its kind,
also after the service has let go of it, with the place in `run()` it has reached (`pc`).  A
field of the service is a position in that list.

The four `synchronized` methods `start`, `connect`, `connected` and `stop` follow the source
statement by statement (`>=>`).  A `cancel()` on a thread whose socket is null throws, and the
method stops there (`Abort`).  What the operating system answers during a step is its `Env`.

The service reports to the static `MainActivity.mOpenCvCameraView`, which is null until
`init_main_ui()` has made the view.  On a null view `setBTStatus` throws: in
`ConnectedThread.cancel()` before the socket is closed, in `connectionFailed()` and
`connectionLost()` after the state is set, and in the `catch` block of the reader before
`connectionLost()` is called.  The last three end the thread, since nobody catches it.

A step of the system (`step`) is a client call or one atomic step of one worker, as the lock and
the blocking calls cut its `run()` into pieces.  `accept()`, `connect()` and `read()` may throw at
any time, and do not return normally on a closed socket.

Left out: devices (only passed on), discovery, log messages, the text that `setBTStatus` keeps, and
what is done with the bytes that are read.  `passed` and `handled` record history and are never
read.
-/

namespace Controller.Bluetooth

open Abort

/-- `mState`. -/
inductive State
  | stateNone
  | stateListen
  | stateConnecting
  | stateConnected
  deriving DecidableEq, Repr

/-- How far `AcceptThread.run` has come. -/
inductive AcceptPc
  | loopTest
  | accepting
  | accepted (socket : ℕ)
  | ended
  deriving DecidableEq, Repr

/-- How far `ConnectThread.run` has come; `reset own` records whether the thread found itself in
`mConnectThread` when it set that field to null. -/
inductive ConnectPc
  | connecting
  | failed
  | failedSet
  | failedClosed
  | succeeded
  | reset (own : Bool)
  | ended
  deriving DecidableEq, Repr

/-- How far `ConnectedThread.run` has come. -/
inductive ConnectedPc
  | reading
  | failed
  | lostSet
  | ended
  deriving DecidableEq, Repr

/-- `AcceptThread`, with the accepted sockets whose `synchronized` block has run. -/
structure AcceptThread where
  mmServerSocket : Option ℕ
  pc : AcceptPc
  handled : List ℕ
  deriving DecidableEq, Repr

/-- `ConnectThread`. -/
structure ConnectThread where
  mmSocket : Option ℕ
  pc : ConnectPc
  deriving DecidableEq, Repr

/-- `ConnectedThread`; `streams` says whether `getInputStream` and `getOutputStream` returned. -/
structure ConnectedThread where
  mmSocket : ℕ
  streams : Bool
  pc : ConnectedPc
  deriving DecidableEq, Repr

/-- The service with all its threads.  Sockets and server sockets are numbered in the order in
which they are created: `sockets` and `serverSockets` count them, the lists name the closed ones.
`mOpenCvCameraView` says whether the view of the activity is there. -/
structure Service where
  mState : State
  mAcceptThread : Option ℕ
  mConnectThread : Option ℕ
  mConnectedThread : Option ℕ
  accepts : List AcceptThread
  connects : List ConnectThread
  connecteds : List ConnectedThread
  sockets : ℕ
  closedSockets : List ℕ
  serverSockets : ℕ
  closedServerSockets : List ℕ
  mOpenCvCameraView : Bool
  passed : List ℕ
  deriving DecidableEq, Repr

/-- `new BluetoothService(..)`, before the activity has a view. -/
def Service.new : Service :=
  ⟨.stateNone, none, none, none, [], [], [], 0, [], 0, [], false, []⟩

/-- What the system answers during one step: whether the sockets and streams it asks for are
created and whether `close()` succeeds; `early` when a new `AcceptThread` runs its first loop test
before the `start()` that created it gets to `setState`. -/
structure Env where
  listenOk : Bool
  createOk : Bool
  streamsOk : Bool
  closeOk : ℕ → Bool
  closeServerOk : ℕ → Bool
  early : Bool

/-- Everything the system is asked for succeeds. -/
def Env.good : Env := ⟨true, true, true, fun _ => true, fun _ => true, false⟩

/-! ### Sockets and threads -/

/-- `close()` on a socket; a failure is caught and logged. -/
def Service.closeSocket (e : Env) (s : Service) (k : ℕ) : Service :=
  { s with closedSockets := if e.closeOk k then k :: s.closedSockets else s.closedSockets }

/-- `close()` on a server socket. -/
def Service.closeServerSocket (e : Env) (s : Service) (k : ℕ) : Service :=
  { s with closedServerSockets :=
      if e.closeServerOk k then k :: s.closedServerSockets else s.closedServerSockets }

/-- The `mmServerSocket` of an `AcceptThread`. -/
def Service.serverSocketOf (s : Service) (i : ℕ) : Option ℕ := s.accepts[i]?.bind (·.mmServerSocket)

/-- The `mmSocket` of a `ConnectThread`. -/
def Service.connectSocketOf (s : Service) (j : ℕ) : Option ℕ := s.connects[j]?.bind (·.mmSocket)

/-- The `mmSocket` of a `ConnectedThread`. -/
def Service.connectedSocketOf (s : Service) (i : ℕ) : Option ℕ := s.connecteds[i]?.map (·.mmSocket)

/-- The socket that `cancel()` of a `ConnectedThread` closes; on a null view it throws before. -/
def Service.cancelledSocketOf (s : Service) (i : ℕ) : Option ℕ :=
  if s.mOpenCvCameraView then s.connectedSocketOf i else none

/-- `setState`. -/
def setState (state : State) : Prog Service := fun s => .ok { s with mState := state }

/-- `if (field != null) {field.cancel(); field = null;}`, where `cancel()` closes the socket that
`socketOf` gives and throws when there is none. -/
def cancelField (field : Service → Option ℕ) (socketOf : Service → ℕ → Option ℕ)
    (close : Service → ℕ → Service) : Prog Service := fun s =>
  match field s with
  | none => .ok s
  | some i =>
    match socketOf s i with
    | none => .error s
    | some k => .ok (close s k)

/-- `if (mConnectThread != null) {mConnectThread.cancel(); mConnectThread = null;}` -/
def cancelConnectThread (e : Env) : Prog Service :=
  cancelField Service.mConnectThread Service.connectSocketOf fun s k =>
    { s.closeSocket e k with mConnectThread := none }

/-- `if (mConnectedThread != null) {mConnectedThread.cancel(); mConnectedThread = null;}` -/
def cancelConnectedThread (e : Env) : Prog Service :=
  cancelField Service.mConnectedThread Service.cancelledSocketOf fun s k =>
    { s.closeSocket e k with mConnectedThread := none }

/-- `if (mAcceptThread != null) {mAcceptThread.cancel(); mAcceptThread = null;}` -/
def cancelAcceptThread (e : Env) : Prog Service :=
  cancelField Service.mAcceptThread Service.serverSocketOf fun s k =>
    { s.closeServerSocket e k with mAcceptThread := none }

/-- `if (mAcceptThread == null) {mAcceptThread = new AcceptThread(); mAcceptThread.start();}` -/
def startAcceptThread (e : Env) : Prog Service := fun s =>
  match s.mAcceptThread with
  | some _ => .ok s
  | none =>
    let pc : AcceptPc :=
      if e.early then if s.mState = .stateConnected then .ended else .accepting else .loopTest
    .ok { s with
      mAcceptThread := some s.accepts.length
      accepts := s.accepts ++ [⟨if e.listenOk then some s.serverSockets else none, pc, []⟩]
      serverSockets := if e.listenOk then s.serverSockets + 1 else s.serverSockets }

/-- `mConnectThread = new ConnectThread(device); mConnectThread.start();` -/
def startConnectThread (e : Env) : Prog Service := fun s =>
  .ok { s with
    mConnectThread := some s.connects.length
    connects := s.connects ++ [⟨if e.createOk then some s.sockets else none, .connecting⟩]
    sockets := if e.createOk then s.sockets + 1 else s.sockets }

/-- `mConnectedThread = new ConnectedThread(socket); mConnectedThread.start();` -/
def startConnectedThread (e : Env) (socket : ℕ) : Prog Service := fun s =>
  .ok { s with
    mConnectedThread := some s.connecteds.length
    connecteds := s.connecteds ++ [⟨socket, e.streamsOk, .reading⟩] }

/-! ### The methods -/

/-- `start()`. -/
def start (e : Env) : Prog Service :=
  cancelConnectThread e >=> cancelConnectedThread e >=> startAcceptThread e >=>
    setState .stateListen

/-- The first statement of `connect(device)`. -/
def cancelConnecting (e : Env) : Prog Service := fun s =>
  if s.mState = .stateConnecting then cancelConnectThread e s else .ok s

/-- `connect(device)`. -/
def connect (e : Env) : Prog Service :=
  cancelConnecting e >=> cancelConnectedThread e >=> startConnectThread e >=>
    setState .stateConnecting

/-- The socket `socket` has been passed to `connected`. -/
def recordPassed (socket : ℕ) : Prog Service := fun s => .ok { s with passed := socket :: s.passed }

/-- `connected(socket, device)`. -/
def connected (e : Env) (socket : ℕ) : Prog Service :=
  recordPassed socket >=> cancelConnectThread e >=> cancelConnectedThread e >=>
    cancelAcceptThread e >=> startConnectedThread e socket >=> setState .stateConnected

/-- `stop()`. -/
def stop (e : Env) : Prog Service :=
  cancelConnectThread e >=> cancelConnectedThread e >=> cancelAcceptThread e >=>
    setState .stateNone

/-- What a call of `write(out)` comes to. -/
inductive WriteResult
  | notConnected
  | written (thread : ℕ)
  | nullPointer
  deriving DecidableEq

/-- `write(out)`: the thread is read under the lock and used after it. -/
def Service.write (s : Service) : WriteResult :=
  if s.mState ≠ .stateConnected then .notConnected
  else match s.mConnectedThread with
    | some r => .written r
    | none => .nullPointer

/-! ### The workers -/

/-- Move an `AcceptThread` on. -/
def Service.setAccept (s : Service) (i : ℕ) (pc : AcceptPc) : Service :=
  { s with accepts := s.accepts.modify i fun t => { t with pc := pc } }

/-- Move an `AcceptThread` on after its block for `socket`. -/
def Service.setHandled (s : Service) (i socket : ℕ) (pc : AcceptPc) : Service :=
  { s with accepts := s.accepts.modify i fun t => { t with pc := pc, handled := socket :: t.handled } }

/-- Move a `ConnectThread` on. -/
def Service.setConnect (s : Service) (j : ℕ) (pc : ConnectPc) : Service :=
  { s with connects := s.connects.modify j fun t => { t with pc := pc } }

/-- Move a `ConnectedThread` on. -/
def Service.setConnected (s : Service) (i : ℕ) (pc : ConnectedPc) : Service :=
  { s with connecteds := s.connecteds.modify i fun t => { t with pc := pc } }

/-- The atomic steps of `AcceptThread.run`. -/
inductive AcceptAct
  | loopTest
  | acceptReturns
  | acceptThrows
  | block (e : Env)

/-- The atomic steps of `ConnectThread.run`. -/
inductive ConnectAct
  | connectReturns
  | connectThrows
  | connectionFailed
  | closeSocket (e : Env)
  | restart (e : Env)
  | reset
  | connected (e : Env)

/-- The atomic steps of `ConnectedThread.run`. -/
inductive ConnectedAct
  | readReturns
  | readThrows
  | connectionLost
  | restart (e : Env)

/-- The `synchronized` block of `AcceptThread.run`. -/
def acceptBlock (e : Env) (s : Service) (i socket : ℕ) : Service :=
  match s.mState with
  | .stateListen | .stateConnecting =>
    match connected e socket s with
    | .ok s' => s'.setHandled i socket .loopTest
    | .error s' => s'.setHandled i socket .ended
  | .stateNone | .stateConnected => (s.closeSocket e socket).setHandled i socket .loopTest

/-- A step of the `AcceptThread` `t` at position `i`. -/
def acceptStep (s : Service) (i : ℕ) (t : AcceptThread) : AcceptAct → Option Service
  | .loopTest =>
    if t.pc = .loopTest then
      some (s.setAccept i (if s.mState = .stateConnected then .ended else .accepting))
    else none
  | .acceptReturns =>
    -- a null or closed server socket accepts nothing
    match t.pc, t.mmServerSocket with
    | .accepting, some k =>
      if k ∈ s.closedServerSockets then none
      else some ({ s with sockets := s.sockets + 1 }.setAccept i (.accepted s.sockets))
    | _, _ => none
  | .acceptThrows => if t.pc = .accepting then some (s.setAccept i .ended) else none
  | .block e =>
    match t.pc with
    | .accepted socket => some (acceptBlock e s i socket)
    | _ => none

/-- A step of the `ConnectThread` `t` at position `j`. -/
def connectStep (s : Service) (j : ℕ) (t : ConnectThread) : ConnectAct → Option Service
  | .connectReturns =>
    match t.pc, t.mmSocket with
    | .connecting, some k =>
      if k ∈ s.closedSockets then none else some (s.setConnect j .succeeded)
    | _, _ => none
  | .connectThrows =>
    -- on a null socket this is a null pointer, which `run` does not catch
    if t.pc = .connecting then
      some (s.setConnect j (if t.mmSocket = none then .ended else .failed))
    else none
  | .connectionFailed =>
    if t.pc = .failed then
      some ({ s with mState := .stateListen }.setConnect j
        (if s.mOpenCvCameraView then .failedSet else .ended))
    else none
  | .closeSocket e =>
    match t.pc, t.mmSocket with
    | .failedSet, some k => some ((s.closeSocket e k).setConnect j .failedClosed)
    | _, _ => none
  | .restart e =>
    if t.pc = .failedClosed then some ((final (start e s)).setConnect j .ended) else none
  | .reset =>
    if t.pc = .succeeded then
      some ({ s with mConnectThread := none }.setConnect j
        (.reset (decide (s.mConnectThread = some j))))
    else none
  | .connected e =>
    match t.pc, t.mmSocket with
    | .reset _, some k => some ((final (connected e k s)).setConnect j .ended)
    | _, _ => none

/-- A step of the `ConnectedThread` `t` at position `i`. -/
def connectedStep (s : Service) (i : ℕ) (t : ConnectedThread) : ConnectedAct → Option Service
  | .readReturns =>
    if t.pc = .reading ∧ t.streams ∧ t.mmSocket ∉ s.closedSockets then some s else none
  | .readThrows =>
    -- without streams this is a null pointer, and so is the report on a null view
    if t.pc = .reading then
      some (s.setConnected i (if t.streams ∧ s.mOpenCvCameraView then .failed else .ended))
    else none
  | .connectionLost =>
    if t.pc = .failed then
      some ({ s with mState := .stateListen }.setConnected i
        (if s.mOpenCvCameraView then .lostSet else .ended))
    else none
  | .restart e =>
    if t.pc = .lostSet then some ((final (start e s)).setConnected i .ended) else none

/-! ### The system -/

/-- A client call, a step of one worker, or `init_main_ui()` of the activity, which makes the view. -/
inductive Action
  | start (e : Env)
  | connect (e : Env)
  | stop (e : Env)
  | write
  | initMainUi
  | acceptThread (i : ℕ) (a : AcceptAct)
  | connectThread (j : ℕ) (a : ConnectAct)
  | connectedThread (i : ℕ) (a : ConnectedAct)

/-- One step of the system. -/
def step (s : Service) : Action → Option Service
  | .start e => some (final (start e s))
  | .connect e => some (final (connect e s))
  | .stop e => some (final (stop e s))
  | .write => some s
  | .initMainUi => some { s with mOpenCvCameraView := true }
  | .acceptThread i a => s.accepts[i]?.bind fun t => acceptStep s i t a
  | .connectThread j a => s.connects[j]?.bind fun t => connectStep s j t a
  | .connectedThread i a => s.connecteds[i]?.bind fun t => connectedStep s i t a

/-- The service after the actions `as`. -/
def runService (as : List Action) : Option Service := PartialRun.run step .new as

end Controller.Bluetooth
