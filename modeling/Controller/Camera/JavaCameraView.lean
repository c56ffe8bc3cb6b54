import Controller.Lib.Numerals
import Controller.Lib.PartialRun

/-!
# `CameraBridgeViewBase.java` and `JavaCameraView.java`

The view that owns the camera.  `enableView`, `disableView`, `setCameraPermissionGranted` and the
surface callbacks set a flag and call `checkCurrentState`, which connects or disconnects the camera
when the flags ask for another state than `mState`.  While it is connected, `onPreviewFrame` writes
each picture into one of two `Mat`s and the `CameraWorker` thread hands the other one to
`onCameraFrame`.

All of these calls, and the preview callbacks (which come on the thread that opened the camera),
run on the main thread, so `mSyncObject` is never contended; the worker runs beside them and shares
the monitor of the view with `onPreviewFrame` and `disconnectCamera`.  `pc` is how far the main
thread is in `checkCurrentState`, `todo` the flags still to be set by the call it is in.  The
blocks under the monitor are one step each, everything else is cut at the accesses to shared
fields; `wait()` may also return spuriously.  A null dereference has no step.

`callbacks` records the calls of the listener and is never read.  Left out: drawing, the
`FpsMeter`, the alert when the camera is missing, and interrupts of the main thread (nobody sends
one).
-/

namespace Controller.Camera

open PartialRun

/-- `mState`. -/
inductive ViewState
  | stopped
  | started
  deriving DecidableEq, Repr

/-- A `Mat` of the frame chain: without elements, with nothing written to it, or with a picture. -/
inductive YuvMat (F : Type)
  | empty
  | blank
  | image (f : F)
  deriving DecidableEq, Repr

/-- How far a `CameraWorker` is in `run`. -/
inductive Worker
  | entering
  | waiting
  | left (hasFrame : Bool)
  | checking
  | picking
  | delivering (i : Fin 2)
  | testing
  | finished
  deriving DecidableEq, Repr

/-- How far the main thread is in `checkCurrentState`. -/
inductive Pc
  | idle
  | stopping
  | notifying
  | joining
  | releasing
  | enteringStopped
  | connecting
  | enteringStarted
  deriving DecidableEq, Repr

/-- A flag that a call sets before `checkCurrentState`. -/
inductive Change
  | surfaceExist (b : Bool)
  | enabled (b : Bool)
  | cameraPermissionGranted
  deriving DecidableEq, Repr

/-- A call of the listener. -/
inductive Callback (F : Type)
  | onCameraViewStarted (width height : ℕ)
  | onCameraFrame (m : YuvMat F)
  | onCameraViewStopped
  deriving DecidableEq, Repr

/-- What `initializeCamera` meets: no camera, an error on the way (with the chain allocated or
not), or a camera with frames of the given size. -/
inductive Opening
  | unavailable
  | failed (allocated : Option (ℕ × ℕ))
  | opened (width height : ℕ)
  deriving DecidableEq, Repr

/-- The calls that come from outside. -/
inductive Call
  | surfaceChanged
  | surfaceDestroyed
  | setCameraPermissionGranted
  | enableView
  | disableView
  deriving DecidableEq, Repr

/-- The fields of the view, the worker and the place of the main thread. -/
structure View (F : Type) where
  mState : ViewState
  mSurfaceExist : Bool
  mEnabled : Bool
  mCameraPermissionGranted : Bool
  visible : Bool
  mFrameWidth : ℕ
  mFrameHeight : ℕ
  mCamera : Bool
  preview : Bool
  mFrameChain : Option (Fin 2 → YuvMat F)
  mChainIdx : Fin 2
  mCameraFrameReady : Bool
  mStopThread : Bool
  mThread : Option Worker
  pc : Pc
  todo : List Change
  callbacks : List (Callback F)

/-- One step of some thread. -/
inductive Event (F : Type)
  | call (c : Call)
  | main
  | initializeCamera (o : Opening)
  | onPreviewFrame (f : F)
  | worker
  | wakeup
  deriving DecidableEq, Repr

variable {F : Type}

/-- `Mat.put(0, 0, frame)`; a `Mat` without elements stays as it is. -/
def YuvMat.put : YuvMat F → F → YuvMat F
  | .empty, _ => .empty
  | _, f => .image f

/-- `new Mat(height + height / 2, width, CV_8UC1)`. -/
def YuvMat.new (width height : ℕ) : YuvMat F :=
  if height + height / 2 = 0 ∨ width = 0 then .empty else .blank

namespace View

/-- A new `JavaCameraView`. -/
def init (F : Type) (visible : Bool) : View F where
  mState := .stopped
  mSurfaceExist := false
  mEnabled := false
  mCameraPermissionGranted := false
  visible := visible
  mFrameWidth := 0
  mFrameHeight := 0
  mCamera := false
  preview := false
  mFrameChain := none
  mChainIdx := 0
  mCameraFrameReady := false
  mStopThread := false
  mThread := none
  pc := .idle
  todo := []
  callbacks := []

/-- The flags a call sets, each followed by `checkCurrentState`. -/
def changes (s : View F) : Call → List Change
  | .surfaceChanged =>
    if s.mSurfaceExist then [.surfaceExist false, .surfaceExist true] else [.surfaceExist true]
  | .surfaceDestroyed => [.surfaceExist false]
  | .setCameraPermissionGranted => [.cameraPermissionGranted]
  | .enableView => [.enabled true]
  | .disableView => [.enabled false]

/-- Set a flag. -/
def set (s : View F) : Change → View F
  | .surfaceExist b => { s with mSurfaceExist := b }
  | .enabled b => { s with mEnabled := b }
  | .cameraPermissionGranted => { s with mCameraPermissionGranted := true }

/-- The state the flags ask for. -/
def targetState (s : View F) : ViewState :=
  if s.mEnabled && s.mCameraPermissionGranted && s.mSurfaceExist && s.visible then .started
  else .stopped

/-- `checkCurrentState`, up to the first statement that another thread could notice. -/
def checkCurrentState (s : View F) : View F :=
  if s.targetState = s.mState then s
  else
    match s.mState with
    | .started => { s with pc := .stopping }
    | .stopped => { s with mState := .started, pc := .connecting }

/-- `notify()` on the view. -/
def notify (s : View F) : View F :=
  if s.mThread = some .waiting then { s with mThread := some .entering } else s

/-- `releaseCamera`, and the end of `disconnectCamera`. -/
def releaseCamera (s : View F) : View F :=
  { s with
    mCamera := false
    preview := false
    mFrameChain := s.mFrameChain.map fun _ _ => .empty
    mCameraFrameReady := false }

/-- The next step of the main thread in `checkCurrentState`, or the next flag of its call. -/
def mainStep (s : View F) : Option (View F) :=
  match s.pc with
  | .idle =>
    match s.todo with
    | [] => none
    | c :: cs => some ({ s with todo := cs }.set c).checkCurrentState
  | .stopping => some { s with mStopThread := true, pc := .notifying }
  | .notifying => some { s.notify with pc := .joining }
  | .joining =>
    match s.mThread with
    | none | some .finished => some { s with mThread := none, pc := .releasing }
    | _ => none
  | .releasing => some { s.releaseCamera with mState := .stopped, pc := .enteringStopped }
  | .enteringStopped =>
    some { s with pc := .idle, callbacks := s.callbacks ++ [.onCameraViewStopped] }
  | .connecting => none
  | .enteringStarted =>
    some { s with
      pc := .idle
      callbacks := s.callbacks ++ [.onCameraViewStarted s.mFrameWidth s.mFrameHeight] }

/-- The part of `initializeCamera` that sets up the frame chain. -/
def allocate (s : View F) (width height : ℕ) : View F :=
  { s with
    mFrameWidth := width
    mFrameHeight := height
    mFrameChain := some fun _ => .new width height }

/-- `connectCamera`: on success the preview runs and a new worker starts. -/
def connectCamera (s : View F) : Opening → View F
  | .unavailable => { s with mCamera := false, pc := .enteringStarted }
  | .failed none => { s with mCamera := true, pc := .enteringStarted }
  | .failed (some (w, h)) => { s.allocate w h with mCamera := true, pc := .enteringStarted }
  | .opened w h =>
    { s.allocate w h with
      mCamera := true
      preview := true
      mCameraFrameReady := false
      mStopThread := false
      mThread := some .entering
      pc := .enteringStarted }

/-- `onPreviewFrame`. -/
def onPreviewFrame (s : View F) (f : F) : Option (View F) :=
  s.mFrameChain.map fun chain =>
    notify { s with
      mFrameChain := some (Function.update chain s.mChainIdx ((chain s.mChainIdx).put f))
      mCameraFrameReady := true }

/-- The next step of `CameraWorker.run`. -/
def workerStep (s : View F) : Option (View F) :=
  match s.mThread with
  | none | some .waiting | some .finished => none
  | some .entering =>
    if s.mCameraFrameReady then
      some { s with
        mChainIdx := 1 - s.mChainIdx, mCameraFrameReady := false, mThread := some (.left true) }
    else if s.mStopThread then some { s with mThread := some (.left false) }
    else some { s with mThread := some .waiting }
  | some (.left hasFrame) =>
    some { s with
      mThread := some (if !s.mStopThread && hasFrame then .checking else .testing) }
  | some .checking =>
    s.mFrameChain.map fun chain =>
      { s with mThread := some (match chain (1 - s.mChainIdx) with
        | .empty => .testing
        | _ => .picking) }
  | some .picking => some { s with mThread := some (.delivering (1 - s.mChainIdx)) }
  | some (.delivering i) =>
    s.mFrameChain.map fun chain =>
      { s with
        mThread := some .testing
        callbacks := s.callbacks ++ [.onCameraFrame (chain i)] }
  | some .testing =>
    some { s with mThread := some (if s.mStopThread then .finished else .entering) }

/-- The state after one step. -/
def step (s : View F) : Event F → Option (View F)
  | .call c => if s.pc = .idle ∧ s.todo = [] then some { s with todo := s.changes c } else none
  | .main => s.mainStep
  | .initializeCamera o => if s.pc = .connecting then some (s.connectCamera o) else none
  | .onPreviewFrame f =>
    if s.pc = .idle ∧ s.todo = [] ∧ s.preview then s.onPreviewFrame f else none
  | .worker => s.workerStep
  | .wakeup => if s.mThread = some .waiting then some { s with mThread := some .entering } else none

end View

/-- The view after the steps `es`. -/
def runView (visible : Bool) (es : List (Event F)) : Option (View F) :=
  run View.step (View.init F visible) es

/-- The pictures received in a run. -/
def previews (es : List (Event F)) : List F :=
  es.filterMap fun
    | .onPreviewFrame f => some f
    | _ => none

end Controller.Camera
