import Controller.Camera.JavaCameraView

/-!
# What the listener is called with

The interface promises that frames come between `onCameraViewStarted` and `onCameraViewStopped`
only.  `callbacks_protocol`: in every run, under every interleaving of calls, preview frames and
the worker, the calls of the listener follow that protocol.  `idle_state`: between two calls the
view is started exactly when it is enabled, permitted, visible and has a surface, and only then
does it have the camera or a worker.

The invariant `MainOk` says, for each place of the main thread, what it may count on; `ThreadOk`
says the same of the worker.
-/

namespace Controller.Camera

open PartialRun

variable {F : Type} {s s' : View F} {l : ViewState}

/-- The sequence of callbacks follows the protocol and leaves the listener in the given state. -/
inductive Protocol : List (Callback F) → ViewState → Prop
  | nil : Protocol [] .stopped
  | started {cs : List (Callback F)} {w h : ℕ} :
      Protocol cs .stopped → Protocol (cs ++ [.onCameraViewStarted w h]) .started
  | frame {cs : List (Callback F)} {f : F} :
      Protocol cs .started → Protocol (cs ++ [.onCameraFrame (.image f)]) .started
  | stopped {cs : List (Callback F)} :
      Protocol cs .started → Protocol (cs ++ [.onCameraViewStopped]) .stopped

/-- The worker has taken a frame and has not finished with it. -/
def Worker.Holds : Worker → Prop
  | .left hasFrame => hasFrame = true
  | .checking | .picking | .delivering _ => True
  | _ => False

/-! ### The invariant -/

/-- The camera is released and there is no worker. -/
structure View.Off (s : View F) : Prop where
  mThread : s.mThread = none
  mCamera : s.mCamera = false
  preview : s.preview = false
  ready : s.mCameraFrameReady = false

/-- `connectCamera` has been called and the camera is not released yet. -/
structure View.Running (s : View F) : Prop where
  thread_iff : s.mThread = none ↔ s.preview = false
  quiet : s.preview = false → s.mCameraFrameReady = false
  camera : s.preview = true → s.mCamera = true

/-- The worker is to go on. -/
structure View.Live (s : View F) : Prop extends s.Running where
  goes_on : s.preview = true → s.mStopThread = false
  not_finished : s.mThread ≠ some .finished

/-- What holds at each place of the main thread, the listener being in the state `l`. -/
def View.MainOk (s : View F) (l : ViewState) : Prop :=
  match s.pc with
  | .idle => s.targetState = s.mState ∧ l = s.mState ∧ (s.mState = .stopped → s.Off) ∧
      (s.mState = .started → s.Live)
  | .stopping => s.targetState = .stopped ∧ s.mState = .started ∧ l = .started ∧ s.Live
  | .notifying => s.targetState = .stopped ∧ s.mState = .started ∧ l = .started ∧ s.Running ∧
      s.mStopThread = true
  | .joining => s.targetState = .stopped ∧ s.mState = .started ∧ l = .started ∧ s.Running ∧
      s.mStopThread = true ∧ s.mThread ≠ some .waiting
  | .releasing => s.targetState = .stopped ∧ s.mState = .started ∧ l = .started ∧
      s.mThread = none
  | .enteringStopped => s.targetState = .stopped ∧ s.mState = .stopped ∧ l = .started ∧ s.Off
  | .connecting => s.targetState = .started ∧ s.mState = .started ∧ l = .stopped ∧ s.Off
  | .enteringStarted => s.targetState = .started ∧ s.mState = .started ∧ l = .stopped ∧ s.Live ∧
      s.mCameraFrameReady = false ∧ ∀ w, s.mThread = some w → ¬ w.Holds

/-- What the worker may count on: there is a chain, the frame it has taken has been written, and it
does not wait while there is something to do. -/
structure View.ThreadOk (s : View F) : Prop where
  chain : s.preview = true ∨ s.mThread ≠ none → s.mFrameChain ≠ none
  ready : ∀ c, s.mFrameChain = some c → s.mCameraFrameReady = true → c s.mChainIdx ≠ .blank
  held : ∀ c w, s.mFrameChain = some c → s.mThread = some w → w.Holds →
    c (1 - s.mChainIdx) ≠ .blank
  picking : ∀ c, s.mFrameChain = some c → s.mThread = some .picking →
    c (1 - s.mChainIdx) ≠ .empty
  delivering : ∀ c i, s.mFrameChain = some c → s.mThread = some (.delivering i) →
    i = 1 - s.mChainIdx ∧ c i ≠ .empty
  awake : s.mThread = some .waiting → s.mCameraFrameReady = false
  empty_handed : s.mThread = some (.left false) → s.mStopThread = true

/-! ### The worker -/

/-- What a step of the worker leaves alone. -/
structure View.SameBut (s s' : View F) : Prop where
  pc : s'.pc = s.pc
  mState : s'.mState = s.mState
  targetState : s'.targetState = s.targetState
  mCamera : s'.mCamera = s.mCamera
  preview : s'.preview = s.preview
  mStopThread : s'.mStopThread = s.mStopThread
  mFrameChain : s'.mFrameChain = s.mFrameChain
  todo : s'.todo = s.todo
  ready : s'.mCameraFrameReady = true → s.mCameraFrameReady = true
  thread : s.mThread ≠ none
  thread' : s'.mThread ≠ none

/-- The steps of a `CameraWorker`. -/
theorem workerStep_cases (h : s.workerStep = some s') :
    (s.mThread = some .entering ∧ s.mCameraFrameReady = true ∧
      s' = { s with
        mChainIdx := 1 - s.mChainIdx, mCameraFrameReady := false, mThread := some (.left true) }) ∨
    (s.mThread = some .entering ∧ s.mCameraFrameReady = false ∧ s.mStopThread = true ∧
      s' = { s with mThread := some (.left false) }) ∨
    (s.mThread = some .entering ∧ s.mCameraFrameReady = false ∧ s.mStopThread = false ∧
      s' = { s with mThread := some .waiting }) ∨
    (s.mThread = some (.left true) ∧ s.mStopThread = false ∧
      s' = { s with mThread := some .checking }) ∨
    (∃ b, s.mThread = some (.left b) ∧ (s.mStopThread = true ∨ b = false) ∧
      s' = { s with mThread := some .testing }) ∨
    (∃ c, s.mThread = some .checking ∧ s.mFrameChain = some c ∧
      ((c (1 - s.mChainIdx) = .empty ∧ s' = { s with mThread := some .testing }) ∨
        (c (1 - s.mChainIdx) ≠ .empty ∧ s' = { s with mThread := some .picking }))) ∨
    (s.mThread = some .picking ∧
      s' = { s with mThread := some (.delivering (1 - s.mChainIdx)) }) ∨
    (∃ c i, s.mThread = some (.delivering i) ∧ s.mFrameChain = some c ∧
      s' = { s with
        mThread := some .testing, callbacks := s.callbacks ++ [.onCameraFrame (c i)] }) ∨
    (s.mThread = some .testing ∧ s.mStopThread = true ∧
      s' = { s with mThread := some .finished }) ∨
    (s.mThread = some .testing ∧ s.mStopThread = false ∧
      s' = { s with mThread := some .entering }) := by
  unfold View.workerStep at h
  split at h
  · cases h
  · cases h
  · cases h
  · rename_i ht
    split_ifs at h with hr hs
    · cases h; exact .inl ⟨ht, hr, rfl⟩
    · cases h; exact .inr (.inl ⟨ht, by simpa using hr, hs, rfl⟩)
    · cases h; exact .inr (.inr (.inl ⟨ht, by simpa using hr, by simpa using hs, rfl⟩))
  · rename_i b ht
    cases h
    cases hs : s.mStopThread <;> cases b
    · exact .inr (.inr (.inr (.inr (.inl ⟨_, ht, .inr rfl, by simp⟩))))
    · exact .inr (.inr (.inr (.inl ⟨ht, rfl, by simp⟩)))
    · exact .inr (.inr (.inr (.inr (.inl ⟨_, ht, .inl rfl, by simp⟩))))
    · exact .inr (.inr (.inr (.inr (.inl ⟨_, ht, .inl rfl, by simp⟩))))
  · rename_i ht
    obtain ⟨c, hc, rfl⟩ := Option.map_eq_some_iff.1 h
    refine .inr (.inr (.inr (.inr (.inr (.inl ⟨c, ht, hc, ?_⟩)))))
    cases he : c (1 - s.mChainIdx) <;> simp
  · rename_i ht
    cases h
    exact .inr (.inr (.inr (.inr (.inr (.inr (.inl ⟨ht, rfl⟩))))))
  · rename_i i ht
    obtain ⟨c, hc, rfl⟩ := Option.map_eq_some_iff.1 h
    exact .inr (.inr (.inr (.inr (.inr (.inr (.inr (.inl ⟨c, i, ht, hc, rfl⟩)))))))
  · rename_i ht
    cases h
    refine .inr (.inr (.inr (.inr (.inr (.inr (.inr (.inr ?_)))))))
    cases hs : s.mStopThread
    · exact .inr ⟨ht, rfl, by simp⟩
    · exact .inl ⟨ht, rfl, by simp⟩

theorem workerStep_sameBut (h : s.workerStep = some s') : s.SameBut s' := by
  rcases workerStep_cases h with ⟨ht, hr, rfl⟩ | ⟨ht, hr, -, rfl⟩ | ⟨ht, hr, -, rfl⟩ |
    ⟨ht, -, rfl⟩ | ⟨b, ht, -, rfl⟩ | ⟨c, ht, hc, ⟨-, rfl⟩ | ⟨-, rfl⟩⟩ | ⟨ht, rfl⟩ |
    ⟨c, i, ht, hc, rfl⟩ | ⟨ht, -, rfl⟩ | ⟨ht, -, rfl⟩
  all_goals
    exact ⟨rfl, rfl, rfl, rfl, rfl, rfl, rfl, rfl, by simp [*], by simp [ht], by simp⟩

theorem one_sub_one_sub (i : Fin 2) : 1 - (1 - i) = i := by
  omega

/-- A step of the worker keeps what the worker counts on. -/
theorem ThreadOk_workerStep (hi : s.ThreadOk) (h : s.workerStep = some s') : s'.ThreadOk := by
  have hs := workerStep_sameBut h
  have hchain : s'.preview = true ∨ s'.mThread ≠ none → s'.mFrameChain ≠ none := by
    intro _
    rw [hs.mFrameChain]
    exact hi.chain (.inr hs.thread)
  rcases workerStep_cases h with ⟨ht, hr, rfl⟩ | ⟨ht, hr, hstop, rfl⟩ | ⟨ht, hr, -, rfl⟩ |
    ⟨ht, -, rfl⟩ | ⟨b, ht, -, rfl⟩ | ⟨c, ht, hc, ⟨he, rfl⟩ | ⟨he, rfl⟩⟩ | ⟨ht, rfl⟩ |
    ⟨c, i, ht, hc, rfl⟩ | ⟨ht, -, rfl⟩ | ⟨ht, -, rfl⟩
  · -- the swap: what was to be taken is now held
    refine ⟨hchain, by simp, ?_, by simp, by simp, by simp, by simp⟩
    intro c w hc _ _
    rw [one_sub_one_sub]
    exact hi.ready c hc hr
  · exact ⟨hchain, hi.ready, by simp [Worker.Holds], by simp, by simp, by simp, fun _ => hstop⟩
  · exact ⟨hchain, hi.ready, by simp [Worker.Holds], by simp, by simp, fun _ => hr, by simp⟩
  · refine ⟨hchain, hi.ready, fun c w hc _ _ => ?_, by simp, by simp, by simp, by simp⟩
    exact hi.held c _ hc ht rfl
  · exact ⟨hchain, hi.ready, by simp [Worker.Holds], by simp, by simp, by simp, by simp⟩
  · exact ⟨hchain, hi.ready, by simp [Worker.Holds], by simp, by simp, by simp, by simp⟩
  · refine ⟨hchain, hi.ready, fun c' w hc' _ _ => hi.held c' _ hc' ht trivial, ?_, by simp, by simp,
      by simp⟩
    intro c' hc' _
    rw [show c' = c from Option.some.inj (hc'.symm.trans hc)]
    exact he
  · refine ⟨hchain, hi.ready, fun c w hc _ _ => hi.held c _ hc ht trivial, by simp, ?_, by simp,
      by simp⟩
    intro c i hc hi'
    cases hi'
    exact ⟨rfl, hi.picking c hc ht⟩
  · exact ⟨hchain, hi.ready, by simp [Worker.Holds], by simp, by simp, by simp, by simp⟩
  · exact ⟨hchain, hi.ready, by simp [Worker.Holds], by simp, by simp, by simp, by simp⟩
  · exact ⟨hchain, hi.ready, by simp [Worker.Holds], by simp, by simp, by simp, by simp⟩

theorem Running_sameBut (hs : s.SameBut s') (hr : s.Running) : s'.Running := by
  have hp : s.preview = true := by
    by_contra hp
    exact hs.thread (hr.thread_iff.2 (by simpa using hp))
  refine ⟨⟨fun h => absurd h hs.thread', fun h => ?_⟩, fun h => ?_, fun _ => ?_⟩
  · rw [hs.preview, hp] at h; cases h
  · rw [hs.preview, hp] at h; cases h
  · rw [hs.mCamera]; exact hr.camera hp

/-- The worker stops only when it is told to, and only then does it stop waiting for frames. -/
theorem workerStep_stop (h : s.workerStep = some s') :
    (s'.mThread = some .finished → s.mStopThread = true) ∧
      (s'.mThread = some .waiting → s.mStopThread = false) := by
  rcases workerStep_cases h with ⟨ht, hr, rfl⟩ | ⟨ht, hr, hstop, rfl⟩ | ⟨ht, hr, hstop, rfl⟩ |
    ⟨ht, -, rfl⟩ | ⟨b, ht, -, rfl⟩ | ⟨c, ht, hc, ⟨he, rfl⟩ | ⟨he, rfl⟩⟩ | ⟨ht, rfl⟩ |
    ⟨c, i, ht, hc, rfl⟩ | ⟨ht, hstop, rfl⟩ | ⟨ht, hstop, rfl⟩
  all_goals simp [*]

theorem Live_sameBut (hs : s.SameBut s') (hl : s.Live)
    (hf : s'.mThread = some .finished → s.mStopThread = true) : s'.Live := by
  refine ⟨Running_sameBut hs hl.toRunning, fun hp => ?_, fun h => ?_⟩
  · rw [hs.mStopThread]; exact hl.goes_on (by rw [← hs.preview]; exact hp)
  · have hp : s.preview = true := by
      by_contra hp
      exact hs.thread (hl.thread_iff.2 (by simpa using hp))
    have := hf h
    rw [hl.goes_on hp] at this
    cases this

/-- Without a frame to take, a worker with empty hands keeps them empty. -/
theorem workerStep_holds (h : s.workerStep = some s') (hr : s.mCameraFrameReady = false)
    (hh : ∀ w, s.mThread = some w → ¬ w.Holds) : ∀ w, s'.mThread = some w → ¬ w.Holds := by
  rcases workerStep_cases h with ⟨ht, hr', rfl⟩ | ⟨ht, -, hstop, rfl⟩ | ⟨ht, -, hstop, rfl⟩ |
    ⟨ht, -, rfl⟩ | ⟨b, ht, -, rfl⟩ | ⟨c, ht, hc, ⟨he, rfl⟩ | ⟨he, rfl⟩⟩ | ⟨ht, rfl⟩ |
    ⟨c, i, ht, hc, rfl⟩ | ⟨ht, hstop, rfl⟩ | ⟨ht, hstop, rfl⟩
  · rw [hr] at hr'; cases hr'
  · simp [Worker.Holds]
  · simp [Worker.Holds]
  · exact absurd rfl (hh _ ht)
  · simp [Worker.Holds]
  · exact absurd trivial (hh _ ht)
  · exact absurd trivial (hh _ ht)
  · exact absurd trivial (hh _ ht)
  · exact absurd trivial (hh _ ht)
  · simp [Worker.Holds]
  · simp [Worker.Holds]

/-- What the main thread counts on holds as long as the worker stops, waits and takes a frame only
when it may. -/
theorem MainOk_sameBut (hm : s.MainOk l) (hs : s.SameBut s')
    (hf : s'.mThread = some .finished → s.mStopThread = true)
    (hw : s'.mThread = some .waiting → s.mStopThread = false)
    (hh : s.mCameraFrameReady = false → (∀ w, s.mThread = some w → ¬ w.Holds) →
      ∀ w, s'.mThread = some w → ¬ w.Holds) : s'.MainOk l := by
  unfold View.MainOk at hm ⊢
  rw [hs.pc, hs.targetState, hs.mState, hs.mStopThread]
  cases hpc : s.pc with
  | idle =>
    simp only [hpc] at hm ⊢
    refine ⟨hm.1, hm.2.1, fun h0 => ?_, fun h1 => Live_sameBut hs (hm.2.2.2 h1) hf⟩
    exact absurd (hm.2.2.1 h0).mThread hs.thread
  | stopping =>
    simp only [hpc] at hm ⊢
    exact ⟨hm.1, hm.2.1, hm.2.2.1, Live_sameBut hs hm.2.2.2 hf⟩
  | notifying =>
    simp only [hpc] at hm ⊢
    exact ⟨hm.1, hm.2.1, hm.2.2.1, Running_sameBut hs hm.2.2.2.1, hm.2.2.2.2⟩
  | joining =>
    simp only [hpc] at hm ⊢
    obtain ⟨h1, h2, h3, h4, h5, -⟩ := hm
    refine ⟨h1, h2, h3, Running_sameBut hs h4, h5, fun h => ?_⟩
    have := hw h
    rw [h5] at this
    cases this
  | releasing =>
    simp only [hpc] at hm
    exact absurd hm.2.2.2 hs.thread
  | enteringStopped =>
    simp only [hpc] at hm
    exact absurd hm.2.2.2.mThread hs.thread
  | connecting =>
    simp only [hpc] at hm
    exact absurd hm.2.2.2.mThread hs.thread
  | enteringStarted =>
    simp only [hpc] at hm ⊢
    obtain ⟨h1, h2, h3, h4, h5, h6⟩ := hm
    refine ⟨h1, h2, h3, Live_sameBut hs h4 hf, ?_, hh h5 h6⟩
    by_contra hr
    have := hs.ready (by simpa using hr)
    rw [h5] at this
    cases this

/-- A step of the worker keeps what the main thread counts on. -/
theorem MainOk_workerStep (hm : s.MainOk l) (h : s.workerStep = some s') : s'.MainOk l :=
  MainOk_sameBut hm (workerStep_sameBut h) (workerStep_stop h).1 (workerStep_stop h).2
    (workerStep_holds h)

/-- A worker that holds a frame has a listener that has been started. -/
theorem listener_started (hm : s.MainOk l) {w : Worker} (ht : s.mThread = some w)
    (hw : w.Holds) : l = .started := by
  have hn : s.mThread ≠ none := by rw [ht]; simp
  unfold View.MainOk at hm
  cases hpc : s.pc with
  | idle =>
    simp only [hpc] at hm
    cases hst : s.mState with
    | stopped => exact absurd (hm.2.2.1 hst).mThread hn
    | started => rw [hm.2.1, hst]
  | releasing => simp only [hpc] at hm; exact hm.2.2.1
  | enteringStopped => simp only [hpc] at hm; exact hm.2.2.1
  | connecting => simp only [hpc] at hm; exact absurd hm.2.2.2.mThread hn
  | enteringStarted => simp only [hpc] at hm; exact absurd hw (hm.2.2.2.2.2 w ht)
  | _ => simp only [hpc] at hm; exact hm.2.2.1

theorem protocol_workerStep (hi : s.ThreadOk) (hm : s.MainOk l) (hp : Protocol s.callbacks l)
    (h : s.workerStep = some s') : Protocol s'.callbacks l := by
  rcases workerStep_cases h with ⟨ht, hr', rfl⟩ | ⟨ht, -, hstop, rfl⟩ | ⟨ht, -, hstop, rfl⟩ |
    ⟨ht, -, rfl⟩ | ⟨b, ht, -, rfl⟩ | ⟨c, ht, hc, ⟨he, rfl⟩ | ⟨he, rfl⟩⟩ | ⟨ht, rfl⟩ |
    ⟨c, i, ht, hc, rfl⟩ | ⟨ht, hstop, rfl⟩ | ⟨ht, hstop, rfl⟩
  case inr.inr.inr.inr.inr.inr.inr.inl =>
    obtain ⟨rfl, he⟩ := hi.delivering c i hc ht
    have hb := hi.held c _ hc ht trivial
    have hl := listener_started hm ht trivial
    subst hl
    cases hci : c (1 - s.mChainIdx) with
    | empty => exact absurd hci he
    | blank => exact absurd hci hb
    | image f => exact hp.frame
  all_goals exact hp

/-! ### The main thread -/

/-- The camera, the chain and the worker are the same. -/
structure View.SameCamera (s s' : View F) : Prop where
  mThread : s'.mThread = s.mThread
  mCamera : s'.mCamera = s.mCamera
  preview : s'.preview = s.preview
  mFrameChain : s'.mFrameChain = s.mFrameChain
  mChainIdx : s'.mChainIdx = s.mChainIdx
  ready : s'.mCameraFrameReady = s.mCameraFrameReady
  mStopThread : s'.mStopThread = s.mStopThread

theorem Off_of_same (hc : s.SameCamera s') (h : s.Off) : s'.Off := by
  refine ⟨?_, ?_, ?_, ?_⟩
  · rw [hc.mThread]; exact h.mThread
  · rw [hc.mCamera]; exact h.mCamera
  · rw [hc.preview]; exact h.preview
  · rw [hc.ready]; exact h.ready

theorem Running_of_same (hc : s.SameCamera s') (h : s.Running) : s'.Running := by
  refine ⟨?_, ?_, ?_⟩
  · rw [hc.mThread, hc.preview]; exact h.thread_iff
  · rw [hc.ready, hc.preview]; exact h.quiet
  · rw [hc.mCamera, hc.preview]; exact h.camera

theorem Live_of_same (hc : s.SameCamera s') (h : s.Live) : s'.Live := by
  refine ⟨Running_of_same hc h.toRunning, ?_, ?_⟩
  · rw [hc.preview, hc.mStopThread]; exact h.goes_on
  · rw [hc.mThread]; exact h.not_finished

theorem ThreadOk_of_same (hc : s.SameCamera s') (h : s.ThreadOk) : s'.ThreadOk := by
  refine ⟨?_, ?_, ?_, ?_, ?_, ?_, ?_⟩
  · rw [hc.preview, hc.mThread, hc.mFrameChain]; exact h.chain
  · rw [hc.ready, hc.mFrameChain, hc.mChainIdx]; exact h.ready
  · rw [hc.mFrameChain, hc.mThread, hc.mChainIdx]; exact h.held
  · rw [hc.mFrameChain, hc.mThread, hc.mChainIdx]; exact h.picking
  · rw [hc.mFrameChain, hc.mThread, hc.mChainIdx]; exact h.delivering
  · rw [hc.mThread, hc.ready]; exact h.awake
  · rw [hc.mThread, hc.mStopThread]; exact h.empty_handed

theorem set_sameCamera (s : View F) (c : Change) : s.SameCamera (s.set c) := by
  cases c <;> exact ⟨rfl, rfl, rfl, rfl, rfl, rfl, rfl⟩

@[simp] theorem set_pc (s : View F) (c : Change) : (s.set c).pc = s.pc := by
  cases c <;> rfl

@[simp] theorem set_mState (s : View F) (c : Change) : (s.set c).mState = s.mState := by
  cases c <;> rfl

@[simp] theorem set_callbacks (s : View F) (c : Change) :
    (s.set c).callbacks = s.callbacks := by
  cases c <;> rfl

/-- All three parts, the listener being in the state `l`. -/
structure View.Inv (s : View F) (l : ViewState) : Prop where
  main : s.MainOk l
  thread : s.ThreadOk
  protocol : Protocol s.callbacks l

/-- What `checkCurrentState` does. -/
theorem checkCurrentState_cases (s : View F) :
    (s.targetState = s.mState ∧ s.checkCurrentState = s) ∨
    (s.targetState = .stopped ∧ s.mState = .started ∧
      s.checkCurrentState = { s with pc := .stopping }) ∨
    (s.targetState = .started ∧ s.mState = .stopped ∧
      s.checkCurrentState = { s with mState := .started, pc := .connecting }) := by
  unfold View.checkCurrentState
  split_ifs with h
  · exact .inl ⟨h, rfl⟩
  · split
    · rename_i hst
      refine .inr (.inl ⟨?_, hst, rfl⟩)
      cases htar : s.targetState with
      | stopped => rfl
      | started => exact absurd (htar.trans hst.symm) h
    · rename_i hst
      refine .inr (.inr ⟨?_, hst, rfl⟩)
      cases htar : s.targetState with
      | started => rfl
      | stopped => exact absurd (htar.trans hst.symm) h

/-- `checkCurrentState` finds the view as it was before its flags changed. -/
theorem Inv_checkCurrentState (ht : s.ThreadOk) (hp : Protocol s.callbacks l)
    (hpc : s.pc = .idle) (hl : l = s.mState) (hoff : s.mState = .stopped → s.Off)
    (hlive : s.mState = .started → s.Live) : s.checkCurrentState.Inv l := by
  rcases checkCurrentState_cases s with ⟨htar, h⟩ | ⟨htar, hst, h⟩ | ⟨htar, hst, h⟩
  · rw [h]
    refine ⟨?_, ht, hp⟩
    unfold View.MainOk
    rw [hpc]
    exact ⟨htar, hl, hoff, hlive⟩
  · rw [h]
    have hc : s.SameCamera { s with pc := .stopping } := ⟨rfl, rfl, rfl, rfl, rfl, rfl, rfl⟩
    exact ⟨⟨htar, hst, hl.trans hst, Live_of_same hc (hlive hst)⟩, ThreadOk_of_same hc ht, hp⟩
  · rw [h]
    have hc : s.SameCamera { s with mState := .started, pc := .connecting } :=
      ⟨rfl, rfl, rfl, rfl, rfl, rfl, rfl⟩
    exact ⟨⟨htar, rfl, hl.trans hst, Off_of_same hc (hoff hst)⟩, ThreadOk_of_same hc ht, hp⟩

theorem notify_thread (s : View F) :
    s.notify.mThread ≠ some .waiting ∧ (s.notify.mThread = none ↔ s.mThread = none) := by
  unfold View.notify
  split_ifs with h
  · simp [h]
  · exact ⟨h, Iff.rfl⟩

/-- `notify` wakes the worker and does nothing else. -/
theorem notify_cases (s : View F) :
    s.notify = s ∨ (s.mThread = some .waiting ∧ s.notify = { s with mThread := some .entering }) := by
  unfold View.notify
  split_ifs with h
  · exact .inr ⟨h, rfl⟩
  · exact .inl rfl

/-- A worker that is woken stands before the monitor with empty hands. -/
theorem ThreadOk_wake (ht : s.ThreadOk) (hw : s.mThread = some .waiting) :
    View.ThreadOk { s with mThread := some .entering } := by
  refine ⟨fun _ => ht.chain (.inr (by simp [hw])), ht.ready, ?_, ?_, ?_, ?_, ?_⟩ <;>
    simp [Worker.Holds]

theorem ThreadOk_notify (ht : s.ThreadOk) : s.notify.ThreadOk := by
  rcases notify_cases s with h | ⟨hw, h⟩
  · rw [h]; exact ht
  · rw [h]; exact ThreadOk_wake ht hw

/-- The steps of the main thread inside a call. -/
theorem mainStep_cases (h : s.mainStep = some s') :
    (∃ c cs, s.pc = .idle ∧ s.todo = c :: cs ∧
      s' = ({ s with todo := cs }.set c).checkCurrentState) ∨
    (s.pc = .stopping ∧ s' = { s with mStopThread := true, pc := .notifying }) ∨
    (s.pc = .notifying ∧ s' = { s.notify with pc := .joining }) ∨
    (s.pc = .joining ∧ (s.mThread = none ∨ s.mThread = some .finished) ∧
      s' = { s with mThread := none, pc := .releasing }) ∨
    (s.pc = .releasing ∧
      s' = { s.releaseCamera with mState := .stopped, pc := .enteringStopped }) ∨
    (s.pc = .enteringStopped ∧
      s' = { s with pc := .idle, callbacks := s.callbacks ++ [.onCameraViewStopped] }) ∨
    (s.pc = .enteringStarted ∧ s' = { s with
      pc := .idle
      callbacks := s.callbacks ++ [.onCameraViewStarted s.mFrameWidth s.mFrameHeight] }) := by
  unfold View.mainStep at h
  split at h
  · rename_i hpc
    split at h
    · cases h
    · rename_i c cs hcs
      exact .inl ⟨c, cs, hpc, hcs, (Option.some.inj h).symm⟩
  · rename_i hpc
    exact .inr (.inl ⟨hpc, (Option.some.inj h).symm⟩)
  · rename_i hpc
    exact .inr (.inr (.inl ⟨hpc, (Option.some.inj h).symm⟩))
  · rename_i hpc
    split at h
    · rename_i ht
      exact .inr (.inr (.inr (.inl ⟨hpc, .inl ht, (Option.some.inj h).symm⟩)))
    · rename_i ht
      exact .inr (.inr (.inr (.inl ⟨hpc, .inr ht, (Option.some.inj h).symm⟩)))
    · cases h
  · rename_i hpc
    exact .inr (.inr (.inr (.inr (.inl ⟨hpc, (Option.some.inj h).symm⟩))))
  · rename_i hpc
    exact .inr (.inr (.inr (.inr (.inr (.inl ⟨hpc, (Option.some.inj h).symm⟩)))))
  · cases h
  · rename_i hpc
    exact .inr (.inr (.inr (.inr (.inr (.inr ⟨hpc, (Option.some.inj h).symm⟩)))))

/-- What `notify` leaves alone. -/
theorem notify_flags (s : View F) : s.notify.targetState = s.targetState ∧
    s.notify.mState = s.mState ∧ s.notify.mStopThread = s.mStopThread ∧
    s.notify.callbacks = s.callbacks := by
  rcases notify_cases s with h | ⟨hw, h⟩ <;> rw [h] <;> exact ⟨rfl, rfl, rfl, rfl⟩

theorem Running_notify (hr : s.Running) : s.notify.Running := by
  rcases notify_cases s with h | ⟨hw, h⟩
  · rw [h]; exact hr
  · rw [h]
    refine ⟨⟨by simp, fun hp => ?_⟩, hr.quiet, hr.camera⟩
    have := hr.thread_iff.2 hp
    rw [hw] at this
    cases this

/-- A step of the main thread keeps the invariant. -/
theorem Inv_mainStep (hi : s.Inv l) (h : s.mainStep = some s') : ∃ l', s'.Inv l' := by
  obtain ⟨hm, ht, hp⟩ := hi
  unfold View.MainOk at hm
  rcases mainStep_cases h with ⟨c, cs, hpc, -, rfl⟩ | ⟨hpc, rfl⟩ | ⟨hpc, rfl⟩ | ⟨hpc, -, rfl⟩ |
    ⟨hpc, rfl⟩ | ⟨hpc, rfl⟩ | ⟨hpc, rfl⟩
  · simp only [hpc] at hm
    obtain ⟨htar, hl, hoff, hlive⟩ := hm
    have hc : s.SameCamera ({ s with todo := cs }.set c) := by
      obtain ⟨h1, h2, h3, h4, h5, h6, h7⟩ := set_sameCamera { s with todo := cs } c
      exact ⟨h1, h2, h3, h4, h5, h6, h7⟩
    refine ⟨l, Inv_checkCurrentState (ThreadOk_of_same hc ht) ?_ ?_ ?_ ?_ ?_⟩
    · rw [set_callbacks]; exact hp
    · rw [set_pc]; exact hpc
    · rw [set_mState]; exact hl
    · rw [set_mState]; exact fun h0 => Off_of_same hc (hoff h0)
    · rw [set_mState]; exact fun h1 => Live_of_same hc (hlive h1)
  · simp only [hpc] at hm
    obtain ⟨h1, h2, h3, h4⟩ := hm
    refine ⟨l, ⟨h1, h2, h3, ⟨h4.thread_iff, h4.quiet, h4.camera⟩, rfl⟩, ?_, hp⟩
    exact ⟨ht.chain, ht.ready, ht.held, ht.picking, ht.delivering, ht.awake, fun _ => rfl⟩
  · simp only [hpc] at hm
    obtain ⟨h1, h2, h3, h4, h5⟩ := hm
    have hc : s.notify.SameCamera { s.notify with pc := .joining } :=
      ⟨rfl, rfl, rfl, rfl, rfl, rfl, rfl⟩
    have hf := notify_flags s
    refine ⟨l, ⟨hf.1.trans h1, hf.2.1.trans h2, h3, Running_of_same hc (Running_notify h4),
      hf.2.2.1.trans h5, (notify_thread s).1⟩, ThreadOk_of_same hc (ThreadOk_notify ht), ?_⟩
    show Protocol s.notify.callbacks l
    rw [hf.2.2.2]
    exact hp
  · simp only [hpc] at hm
    obtain ⟨h1, h2, h3, h4, h5, h6⟩ := hm
    refine ⟨l, ⟨h1, h2, h3, rfl⟩, ⟨fun h => ht.chain ?_, ht.ready, ?_, ?_, ?_, ?_, ?_⟩, hp⟩
    · exact h.imp_right fun h => absurd rfl h
    all_goals simp
  · simp only [hpc] at hm
    obtain ⟨h1, h2, h3, h4⟩ := hm
    refine ⟨l, ⟨h1, rfl, h3, ⟨h4, rfl, rfl, rfl⟩⟩, ?_, hp⟩
    refine ⟨?_, ?_, ?_, ?_, ?_, ?_, ?_⟩ <;> simp [View.releaseCamera, h4]
  · simp only [hpc] at hm
    obtain ⟨h1, h2, h3, h4⟩ := hm
    subst h3
    have hc : s.SameCamera
        { s with pc := .idle, callbacks := s.callbacks ++ [.onCameraViewStopped] } :=
      ⟨rfl, rfl, rfl, rfl, rfl, rfl, rfl⟩
    refine ⟨.stopped, ⟨h1.trans h2.symm, h2.symm, fun _ => Off_of_same hc h4, fun h => ?_⟩,
      ThreadOk_of_same hc ht, hp.stopped⟩
    exact absurd (h.symm.trans h2) (by simp)
  · simp only [hpc] at hm
    obtain ⟨h1, h2, h3, h4, -⟩ := hm
    subst h3
    have hc : s.SameCamera { s with
        pc := .idle
        callbacks := s.callbacks ++ [.onCameraViewStarted s.mFrameWidth s.mFrameHeight] } :=
      ⟨rfl, rfl, rfl, rfl, rfl, rfl, rfl⟩
    refine ⟨.started, ⟨h1.trans h2.symm, h2.symm, fun h => ?_, fun _ => Live_of_same hc h4⟩,
      ThreadOk_of_same hc ht, hp.started⟩
    exact absurd (h.symm.trans h2) (by simp)

/-- `connectCamera` keeps the invariant, whatever the camera does. -/
theorem Inv_connectCamera (hi : s.Inv l) (hpc : s.pc = .connecting) (o : Opening) :
    (s.connectCamera o).Inv l := by
  obtain ⟨hm, ht, hp⟩ := hi
  unfold View.MainOk at hm
  simp only [hpc] at hm
  obtain ⟨h1, h2, h3, hoff⟩ := hm
  obtain ⟨hthread, hcam, hprev, hready⟩ := hoff
  cases o with
  | unavailable =>
    refine ⟨⟨h1, h2, h3, ⟨⟨?_, ?_, ?_⟩, ?_, ?_⟩, hready, ?_⟩, ?_, hp⟩
    case refine_7 => exact ⟨ht.chain, ht.ready, ht.held, ht.picking, ht.delivering, ht.awake,
      ht.empty_handed⟩
    all_goals simp [View.connectCamera, hthread, hprev, hready]
  | failed allocated =>
    cases allocated with
    | none =>
      refine ⟨⟨h1, h2, h3, ⟨⟨?_, ?_, ?_⟩, ?_, ?_⟩, hready, ?_⟩, ?_, hp⟩
      case refine_7 => exact ⟨ht.chain, ht.ready, ht.held, ht.picking, ht.delivering, ht.awake,
        ht.empty_handed⟩
      all_goals simp [View.connectCamera, hthread, hprev, hready]
    | some wh =>
      refine ⟨⟨h1, h2, h3, ⟨⟨?_, ?_, ?_⟩, ?_, ?_⟩, hready, ?_⟩, ⟨?_, ?_, ?_, ?_, ?_, ?_, ?_⟩, hp⟩
      all_goals simp [View.connectCamera, View.allocate, hthread, hprev, hready]
  | opened w h =>
    refine ⟨⟨h1, h2, h3, ⟨⟨?_, ?_, ?_⟩, ?_, ?_⟩, rfl, ?_⟩, ⟨?_, ?_, ?_, ?_, ?_, ?_, ?_⟩, hp⟩
    all_goals simp [View.connectCamera, View.allocate, Worker.Holds]

theorem update_put_ne_blank (c : Fin 2 → YuvMat F) (i : Fin 2) (f : F) :
    Function.update c i ((c i).put f) i ≠ .blank := by
  rw [Function.update_self]
  cases c i <;> simp [YuvMat.put]

theorem one_sub_ne (i : Fin 2) : 1 - i ≠ i := by
  omega

/-- `onPreviewFrame` before its `notify`. -/
def View.written (s : View F) (c : Fin 2 → YuvMat F) (f : F) : View F :=
  { s with
    mFrameChain := some (Function.update c s.mChainIdx ((c s.mChainIdx).put f))
    mCameraFrameReady := true }

theorem onPreviewFrame_eq {f : F} (h : s.onPreviewFrame f = some s') :
    ∃ c, s.mFrameChain = some c ∧ s' = (s.written c f).notify := by
  obtain ⟨c, hc, hs⟩ := Option.map_eq_some_iff.1 h
  exact ⟨c, hc, hs.symm⟩

/-- Only the `Mat` that nobody else uses is written. -/
theorem ThreadOk_onPreviewFrame {f : F} (ht : s.ThreadOk) (h : s.onPreviewFrame f = some s') :
    s'.ThreadOk := by
  obtain ⟨c, hc, rfl⟩ := onPreviewFrame_eq h
  have hother : ∀ c', (s.written c f).mFrameChain = some c' →
      c' (1 - s.mChainIdx) = c (1 - s.mChainIdx) := by
    rintro c' ⟨⟩
    exact Function.update_of_ne (one_sub_ne _) _ _
  have hready : ∀ c', (s.written c f).mFrameChain = some c' → c' s.mChainIdx ≠ .blank := by
    rintro c' ⟨⟩
    exact update_put_ne_blank _ _ _
  by_cases hw : s.mThread = some .waiting
  · have hn : (s.written c f).notify = { s.written c f with mThread := some .entering } :=
      if_pos hw
    rw [hn]
    refine ⟨fun _ => by simp [View.written], fun c' hc' _ => hready c' hc', ?_, ?_, ?_, ?_, ?_⟩ <;>
      simp [Worker.Holds]
  · have hn : (s.written c f).notify = s.written c f := if_neg hw
    rw [hn]
    refine ⟨fun _ => by simp [View.written], fun c' hc' _ => hready c' hc', ?_, ?_, ?_, ?_, ?_⟩
    · intro c' w hc' hw' hh
      exact (hother c' hc').trans_ne (ht.held c w hc hw' hh)
    · intro c' hc' hw'
      exact (hother c' hc').trans_ne (ht.picking c hc hw')
    · intro c' i hc' hw'
      obtain ⟨rfl, he⟩ := ht.delivering c i hc hw'
      exact ⟨rfl, (hother c' hc').trans_ne he⟩
    · exact fun h => absurd h hw
    · exact ht.empty_handed

theorem Live_onPreviewFrame {f : F} (hl : s.Live) (hprev : s.preview = true)
    (h : s.onPreviewFrame f = some s') : s'.Live := by
  obtain ⟨c, hc, rfl⟩ := onPreviewFrame_eq h
  have hn : s.mThread ≠ none := fun h0 => by
    rw [hl.thread_iff, hprev] at h0
    cases h0
  rcases notify_cases (s.written c f) with h | ⟨hw, h⟩ <;> rw [h]
  · refine ⟨⟨hl.thread_iff, fun h0 => ?_, hl.camera⟩, hl.goes_on, hl.not_finished⟩
    exact absurd (hprev.symm.trans h0) (by simp)
  · refine ⟨⟨⟨by simp, fun h0 => ?_⟩, fun h0 => ?_, hl.camera⟩, hl.goes_on, by simp⟩
    · exact absurd (hprev.symm.trans h0) (by simp)
    · exact absurd (hprev.symm.trans h0) (by simp)

/-- Every step keeps the invariant. -/
theorem Inv_step {e : Event F} (hi : s.Inv l) (h : s.step e = some s') : ∃ l', s'.Inv l' := by
  cases e with
  | call c =>
    obtain ⟨⟨hpc, -⟩, h⟩ := Option.ite_none_right_eq_some.1 h
    obtain ⟨hm, ht, hp⟩ := hi
    have hc : s.SameCamera s' := by cases h; exact ⟨rfl, rfl, rfl, rfl, rfl, rfl, rfl⟩
    have hpc' : s'.pc = s.pc ∧ s'.mState = s.mState ∧ s'.targetState = s.targetState ∧
        s'.callbacks = s.callbacks := by cases h; exact ⟨rfl, rfl, rfl, rfl⟩
    refine ⟨l, ?_, ThreadOk_of_same hc ht, hpc'.2.2.2 ▸ hp⟩
    unfold View.MainOk at hm ⊢
    rw [hpc'.1, hpc'.2.1, hpc'.2.2.1]
    simp only [hpc] at hm ⊢
    obtain ⟨h1, h2, h3, h4⟩ := hm
    exact ⟨h1, h2, fun h0 => Off_of_same hc (h3 h0), fun h0 => Live_of_same hc (h4 h0)⟩
  | main => exact Inv_mainStep hi h
  | initializeCamera o =>
    obtain ⟨hpc, h⟩ := Option.ite_none_right_eq_some.1 h
    cases h
    exact ⟨l, Inv_connectCamera hi hpc o⟩
  | onPreviewFrame f =>
    obtain ⟨⟨hpc, -, hprev⟩, h⟩ := Option.ite_none_right_eq_some.1 h
    obtain ⟨hm, ht, hp⟩ := hi
    have hpc' : s'.pc = s.pc ∧ s'.mState = s.mState ∧ s'.targetState = s.targetState ∧
        s'.callbacks = s.callbacks := by
      obtain ⟨c, hc, rfl⟩ := onPreviewFrame_eq h
      rcases notify_cases (s.written c f) with h | ⟨hw, h⟩ <;> rw [h] <;>
        exact ⟨rfl, rfl, rfl, rfl⟩
    refine ⟨l, ?_, ThreadOk_onPreviewFrame ht h, hpc'.2.2.2 ▸ hp⟩
    unfold View.MainOk at hm ⊢
    rw [hpc'.1, hpc'.2.1, hpc'.2.2.1]
    simp only [hpc] at hm ⊢
    obtain ⟨h1, h2, h3, h4⟩ := hm
    refine ⟨h1, h2, fun h0 => ?_, fun h0 => Live_onPreviewFrame (h4 h0) hprev h⟩
    have := (h3 h0).preview
    rw [hprev] at this
    cases this
  | worker =>
    exact ⟨l, MainOk_workerStep hi.main h, ThreadOk_workerStep hi.thread h,
      protocol_workerStep hi.thread hi.main hi.protocol h⟩
  | wakeup =>
    obtain ⟨hw, h⟩ := Option.ite_none_right_eq_some.1 h
    cases h
    refine ⟨l, MainOk_sameBut hi.main ?_ ?_ ?_ ?_, ThreadOk_wake hi.thread hw, hi.protocol⟩
    · exact ⟨rfl, rfl, rfl, rfl, rfl, rfl, rfl, rfl, id, by simp [hw], by simp⟩
    all_goals simp [Worker.Holds]

theorem Inv_init (visible : Bool) : (View.init F visible).Inv .stopped := by
  refine ⟨⟨?_, rfl, fun _ => ⟨rfl, rfl, rfl, rfl⟩, by simp [View.init]⟩, ?_, .nil⟩
  · simp [View.targetState, View.init]
  · refine ⟨?_, ?_, ?_, ?_, ?_, ?_, ?_⟩ <;> simp [View.init]

theorem reachable_inv {visible : Bool} {es : List (Event F)} (h : runView visible es = some s) :
    ∃ l, s.Inv l :=
  run_invariant (fun s : View F => ∃ l, s.Inv l) ⟨_, Inv_init visible⟩
    (fun _ _ _ ⟨_, hi⟩ hs => Inv_step hi hs) h

/-! ### The results -/

/-- In every run the listener sees sessions of the form started, frames, stopped, with a picture in
every frame; between calls the session is open exactly when the view is started. -/
theorem callbacks_protocol {visible : Bool} {es : List (Event F)}
    (h : runView visible es = some s) :
    ∃ l, Protocol s.callbacks l ∧ (s.pc = .idle → l = s.mState) := by
  obtain ⟨l, hm, -, hp⟩ := reachable_inv h
  refine ⟨l, hp, fun hpc => ?_⟩
  unfold View.MainOk at hm
  simp only [hpc] at hm
  exact hm.2.1

/-- A view is shown, delivers one frame and is disabled while the worker is at its loop test. -/
theorem callbacks_protocol_session : ∃ s, runView true
    [.call .setCameraPermissionGranted, .main, .call .enableView, .main, .call .surfaceChanged,
      .main, .initializeCamera (.opened 4 2), .main, .onPreviewFrame 7, .worker, .worker, .worker,
      .worker, .worker, .call .disableView, .main, .main, .main, .worker, .main, .main, .main] =
      some s ∧
    s.callbacks = [.onCameraViewStarted 4 2, .onCameraFrame (.image 7), .onCameraViewStopped] ∧
    ∃ l, Protocol s.callbacks l ∧ (s.pc = .idle → l = s.mState) := by
  obtain ⟨s, hs, hc⟩ := Option.map_eq_some_iff.1 (show (runView true
    [.call .setCameraPermissionGranted, .main, .call .enableView, .main, .call .surfaceChanged,
      .main, .initializeCamera (.opened 4 2), .main, .onPreviewFrame 7, .worker, .worker, .worker,
      .worker, .worker, .call .disableView, .main, .main, .main, .worker, .main, .main,
      .main]).map View.callbacks =
    some [.onCameraViewStarted 4 2, .onCameraFrame (.image 7), .onCameraViewStopped] by decide)
  exact ⟨s, hs, hc, callbacks_protocol hs⟩

/-- Between two calls the view is started exactly when its four flags say so; a stopped view has
neither camera nor worker, and a started one has a worker exactly when its camera shows a preview,
and the worker has not been told to stop. -/
theorem idle_state {visible : Bool} {es : List (Event F)} (h : runView visible es = some s)
    (hpc : s.pc = .idle) :
    (s.mState = .started ↔ s.mEnabled = true ∧ s.mCameraPermissionGranted = true ∧
      s.mSurfaceExist = true ∧ s.visible = true) ∧
    (s.mCamera = true ∨ s.mThread ≠ none → s.mState = .started) ∧
    (s.mThread ≠ none ↔ s.preview = true) ∧
    (s.mThread ≠ none → s.mCamera = true ∧ s.mStopThread = false) := by
  obtain ⟨l, hm, -, -⟩ := reachable_inv h
  unfold View.MainOk at hm
  simp only [hpc] at hm
  obtain ⟨htar, -, hoff, hlive⟩ := hm
  have hflags : s.mState = .started ↔ s.mEnabled = true ∧ s.mCameraPermissionGranted = true ∧
      s.mSurfaceExist = true ∧ s.visible = true := by
    rw [← htar]
    unfold View.targetState
    split_ifs with hf <;> simp_all
  refine ⟨hflags, ?_⟩
  cases hst : s.mState with
  | stopped =>
    obtain ⟨h1, h2, h3, -⟩ := hoff hst
    simp [h1, h2, h3]
  | started =>
    have hl := hlive hst
    have hiff : s.mThread ≠ none ↔ s.preview = true := by
      rw [Ne, hl.thread_iff]; simp
    exact ⟨fun _ => rfl, hiff, fun ht => ⟨hl.camera (hiff.1 ht), hl.goes_on (hiff.1 ht)⟩⟩

/-- The surface changes while the view is started: the camera is closed and opened again. -/
theorem idle_state_surfaceChanged : ∃ s, runView (F := ℕ) true
    [.call .setCameraPermissionGranted, .main, .call .enableView, .main, .call .surfaceChanged,
      .main, .initializeCamera (.opened 4 2), .main, .call .surfaceChanged, .main, .main, .main,
      .worker, .worker, .worker, .main, .main, .main, .main, .initializeCamera .unavailable, .main] =
      some s ∧ s.pc = .idle ∧
    (s.mState = .started ↔ s.mEnabled = true ∧ s.mCameraPermissionGranted = true ∧
      s.mSurfaceExist = true ∧ s.visible = true) ∧
    (s.mCamera = true ∨ s.mThread ≠ none → s.mState = .started) ∧
    (s.mThread ≠ none ↔ s.preview = true) ∧
    (s.mThread ≠ none → s.mCamera = true ∧ s.mStopThread = false) := by
  obtain ⟨s, hs, hpc⟩ := Option.map_eq_some_iff.1 (show (runView (F := ℕ) true
    [.call .setCameraPermissionGranted, .main, .call .enableView, .main, .call .surfaceChanged,
      .main, .initializeCamera (.opened 4 2), .main, .call .surfaceChanged, .main, .main, .main,
      .worker, .worker, .worker, .main, .main, .main, .main, .initializeCamera .unavailable,
      .main]).map View.pc = some .idle by decide)
  exact ⟨s, hs, hpc, idle_state hs hpc⟩

end Controller.Camera
