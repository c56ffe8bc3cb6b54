import Controller.Native.Reference

/-!
# Loading the network while frames arrive

A touch sets `mTouchStatus` to `0` and posts a message; the message starts a `FileCopyTask`; the
task maps the file and calls `tflite_load_model`, which replaces the global `model`, builds the
global `interpreter` from it and allocates its tensors.  Frames do not wait for any of this: from
the touch on, every frame with points calls `tflite_model`.

`inference_ready_iff`: in a run, the interpreter is ready at every call if and only if at every call
the last load step taken so far was an `AllocateTensors`, that is, some load has completed and none
is under way.  `inference_on_null` is the run in which the first frame comes before the first load.

The threads are the main thread (callbacks and messages), the executor of `AsyncTask`, which runs
one task at a time in the order of submission, and the camera thread, which reads `mTouchStatus`
before it enters `ConvertRGBtoGray`.  The view delivers touches to a `MainActivity` of its own, so
messages carry the number of the instance that handles them.  `cancel(true)` removes a task that
has not started; one that runs may still fail before the native call (`openFails`), but not in it.
A failed `TFLITE_MINIMAL_CHECK` ends the process, hence the run.
-/

namespace Controller

open PartialRun

variable {K : Type}

/-- Where the running task is in `tflite_load_model`. -/
inductive Loader
  | idle
  | opening
  | replaced
  | built
  deriving DecidableEq

/-- A `tflite::Interpreter`: the model it was built from, and whether its tensors are allocated. -/
structure Built where
  model : ℕ
  allocated : Bool
  deriving DecidableEq

/-- What touches, messages, tasks and frames share.  Tasks and models are numbered as they are
created; `views` counts the `MyGLSurfaceView`s, the last of which receives the touches. -/
structure LoadState (K : Type) where
  native : NativeState K
  mTouchStatus : ℤ
  initDone : Bool
  views : ℕ
  messages : List ℕ
  fileCopyTask : ℕ → Option ℕ
  tasks : ℕ
  pending : List ℕ
  loader : Loader
  models : ℕ
  model : Option ℕ
  interpreter : Option Built
  frame : Option (CameraFrame K)

/-- The process has started. -/
def LoadState.start (K : Type) [Field K] : LoadState K where
  native := .load K
  mTouchStatus := 1
  initDone := false
  views := 0
  messages := []
  fileCopyTask _ := none
  tasks := 0
  pending := []
  loader := .idle
  models := 0
  model := none
  interpreter := none
  frame := none

/-- One atomic step of some thread. -/
inductive LoadAction (K : Type)
  | initMainUi
  | onResume
  | setTouchEvent (event : ℤ)
  | handleMessage
  | startTask
  | openFails
  | replaceModel
  | buildInterpreter
  | allocateTensors
  | onCameraFrame (f : CameraFrame K)
  | convertRGBtoGray

namespace LoadState

/-- `setTouchEvent`. -/
def setTouchEvent (s : LoadState K) (event : ℤ) : LoadState K :=
  { s with
    mTouchStatus := event
    messages := if event = 0 then s.messages ++ [s.views] else s.messages }

/-- The branch `NATIVE_FILE` of `handleMessage`, for the instance `h`: the task it started before
is cancelled, a new one is submitted. -/
def nativeFile (s : LoadState K) (h : ℕ) : LoadState K :=
  if s.initDone then
    { s with
      fileCopyTask := Function.update s.fileCopyTask h (some s.tasks)
      tasks := s.tasks + 1
      pending := (match s.fileCopyTask h with
        | some t => s.pending.erase t
        | none => s.pending) ++ [s.tasks] }
  else s

/-- The state after one step. -/
def step [Field K] [LinearOrder K] (cv : OpenCv K) (s : LoadState K) : LoadAction K → Option (LoadState K)
  | .initMainUi => some { s with native := initMatrix s.native, views := s.views + 1 }
  | .onResume => some { s with initDone := true }
  | .setTouchEvent event => if 0 < s.views then some (s.setTouchEvent event) else none
  | .handleMessage =>
    match s.messages with
    | [] => none
    | h :: rest => some ({ s with messages := rest }.nativeFile h)
  | .startTask =>
    match s.loader, s.pending with
    | .idle, _ :: rest => some { s with pending := rest, loader := .opening }
    | _, _ => none
  | .openFails => if s.loader = .opening then some { s with loader := .idle } else none
  | .replaceModel =>
    if s.loader = .opening then
      some { s with model := some s.models, models := s.models + 1, loader := .replaced }
    else none
  | .buildInterpreter =>
    if s.loader = .replaced then
      some { s with interpreter := s.model.map fun m => ⟨m, false⟩, loader := .built }
    else none
  | .allocateTensors =>
    if s.loader = .built then
      some { s with
        interpreter := s.interpreter.map fun b => { b with allocated := true }, loader := .idle }
    else none
  | .onCameraFrame f =>
    if s.frame.isNone then some { s with frame := some { f with touchStatus := s.mTouchStatus } }
    else none
  | .convertRGBtoGray =>
    s.frame.bind fun f => (Controller.convertRGBtoGray cv s.native f).map fun r =>
      { s with native := r.1, frame := none }

/-- The interpreter can be invoked: it exists, belongs to the current model and has its tensors. -/
def Ready (s : LoadState K) : Prop := ∃ m, s.model = some m ∧ s.interpreter = some ⟨m, true⟩

/-- The step calls `tflite_model`. -/
def CallsTflite [Field K] [LinearOrder K] (cv : OpenCv K) (s : LoadState K) (a : LoadAction K) :
    Prop :=
  a = .convertRGBtoGray ∧ ∃ f r, s.frame = some f ∧
    Controller.convertRGBtoGray cv s.native f = some r ∧ r.2.inference = true

end LoadState

/-- The state after the steps `as` of a new process. -/
def runLoading [Field K] [LinearOrder K] (cv : OpenCv K) (as : List (LoadAction K)) :
    Option (LoadState K) :=
  run (LoadState.step cv) (LoadState.start K) as

/-! ### Load steps -/

/-- The three steps of `tflite_load_model`. -/
inductive LoadStep
  | replaceModel
  | buildInterpreter
  | allocateTensors
  deriving DecidableEq

/-- The load step that an action is. -/
def LoadAction.loadStep : LoadAction K → Option LoadStep
  | .replaceModel => some .replaceModel
  | .buildInterpreter => some .buildInterpreter
  | .allocateTensors => some .allocateTensors
  | _ => none

/-- The last load step in a list of actions. -/
def lastLoad (as : List (LoadAction K)) : Option LoadStep :=
  (as.filterMap LoadAction.loadStep).getLast?

theorem lastLoad_concat (as : List (LoadAction K)) (a : LoadAction K) :
    lastLoad (as ++ [a]) = a.loadStep.or (lastLoad as) := by
  unfold lastLoad
  rw [List.filterMap_append]
  cases h : a.loadStep <;> simp [h]

/-! ### The invariant -/

/-- The loader is not between replacing the model and allocating the tensors. -/
def Loader.Quiet (l : Loader) : Prop := l = .idle ∨ l = .opening

/-- What the last load step says about the two globals.  After `replaceModel` the interpreter, if
there is one, belongs to an earlier model. -/
def Tracks (s : LoadState K) : Option LoadStep → Prop
  | none => s.loader.Quiet ∧ s.interpreter = none
  | some .replaceModel => s.loader = .replaced ∧ ∃ m, s.model = some m ∧ m < s.models ∧
      ∀ b, s.interpreter = some b → b.model < m
  | some .buildInterpreter => s.loader = .built ∧ ∃ m, s.model = some m ∧ m < s.models ∧
      s.interpreter = some ⟨m, false⟩
  | some .allocateTensors => s.loader.Quiet ∧ ∃ m, s.model = some m ∧ m < s.models ∧
      s.interpreter = some ⟨m, true⟩

/-- The globals of the network are the same in both states. -/
structure SameNetwork (s s' : LoadState K) : Prop where
  models : s'.models = s.models
  model : s'.model = s.model
  interpreter : s'.interpreter = s.interpreter

section Steps

variable {cv : OpenCv K} {s s' : LoadState K} {a : LoadAction K}

theorem nativeFile_same (s : LoadState K) (h : ℕ) :
    SameNetwork s (s.nativeFile h) ∧ (s.nativeFile h).loader = s.loader := by
  unfold LoadState.nativeFile
  split_ifs <;> exact ⟨⟨rfl, rfl, rfl⟩, rfl⟩

theorem Loader.Quiet.of_step {l l' : Loader} (h : l.Quiet) (hs : l' = l ∨ l.Quiet ∧ l'.Quiet) :
    l'.Quiet := by
  rcases hs with rfl | ⟨-, h'⟩
  · exact h
  · exact h'

theorem Loader.eq_of_step {l l' : Loader} (h : ¬ l.Quiet) (hs : l' = l ∨ l.Quiet ∧ l'.Quiet) :
    l' = l :=
  hs.resolve_right fun hq => h hq.1

/-- A step that is no load step keeps what the last one established. -/
theorem Tracks.other {l : Option LoadStep} (ht : Tracks s l) (hn : SameNetwork s s')
    (hl : s'.loader = s.loader ∨ s.loader.Quiet ∧ s'.loader.Quiet) : Tracks s' l := by
  have hreplaced : ¬ Loader.replaced.Quiet := by simp [Loader.Quiet]
  have hbuilt : ¬ Loader.built.Quiet := by simp [Loader.Quiet]
  rcases l with _ | ⟨⟩ | ⟨⟩ | ⟨⟩
  · exact ⟨ht.1.of_step hl, hn.interpreter.trans ht.2⟩
  all_goals
    simp only [Tracks, hn.models, hn.model, hn.interpreter] at ht ⊢
  · exact ⟨(Loader.eq_of_step (ht.1 ▸ hreplaced) hl).trans ht.1, ht.2⟩
  · exact ⟨(Loader.eq_of_step (ht.1 ▸ hbuilt) hl).trans ht.1, ht.2⟩
  · exact ⟨ht.1.of_step hl, ht.2⟩

/-- Only after `AllocateTensors` is the interpreter ready. -/
theorem Tracks.ready_iff {l : Option LoadStep} (ht : Tracks s l) :
    s.Ready ↔ l = some .allocateTensors := by
  constructor
  · rintro ⟨m, hm, hi⟩
    rcases l with _ | ⟨⟩ | ⟨⟩ | ⟨⟩
    · have hnone : some _ = none := hi.symm.trans ht.2
      cases hnone
    · obtain ⟨-, m', hm', -, hlt⟩ := ht
      rw [hm] at hm'
      cases hm'
      exact absurd (hlt _ hi) (lt_irrefl _)
    · obtain ⟨-, m', -, -, hi'⟩ := ht
      rw [hi] at hi'
      cases hi'
    · rfl
  · rintro rfl
    obtain ⟨-, m, hm, -, hi⟩ := ht
    exact ⟨m, hm, hi⟩

variable [Field K] [LinearOrder K]

/-- All steps but the load steps leave the globals of the network alone, and the loader where it
is or outside `tflite_load_model`. -/
theorem step_other (ha : a.loadStep = none) (h : s.step cv a = some s') :
    SameNetwork s s' ∧ (s'.loader = s.loader ∨ s.loader.Quiet ∧ s'.loader.Quiet) := by
  cases a with
  | initMainUi | onResume => cases h; exact ⟨⟨rfl, rfl, rfl⟩, Or.inl rfl⟩
  | setTouchEvent event | onCameraFrame f =>
    simp only [LoadState.step] at h
    split_ifs at h
    cases h
    exact ⟨⟨rfl, rfl, rfl⟩, Or.inl rfl⟩
  | handleMessage =>
    simp only [LoadState.step] at h
    cases hm : s.messages with
    | nil => rw [hm] at h; cases h
    | cons i rest =>
      rw [hm] at h
      cases h
      obtain ⟨hsame, hloader⟩ := nativeFile_same { s with messages := rest } i
      exact ⟨⟨hsame.models, hsame.model, hsame.interpreter⟩, Or.inl hloader⟩
  | startTask =>
    simp only [LoadState.step] at h
    split at h
    · rename_i hl _
      cases h
      exact ⟨⟨rfl, rfl, rfl⟩, Or.inr ⟨Or.inl hl, Or.inr rfl⟩⟩
    · cases h
  | openFails =>
    simp only [LoadState.step] at h
    split_ifs at h with hl
    cases h
    exact ⟨⟨rfl, rfl, rfl⟩, Or.inr ⟨Or.inr hl, Or.inl rfl⟩⟩
  | replaceModel | buildInterpreter | allocateTensors => cases ha
  | convertRGBtoGray =>
    obtain ⟨f, -, h⟩ := Option.bind_eq_some_iff.1 h
    obtain ⟨r, -, rfl⟩ := Option.map_eq_some_iff.1 h
    exact ⟨⟨rfl, rfl, rfl⟩, Or.inl rfl⟩

theorem tracks_replaceModel {l : Option LoadStep} (ht : Tracks s l)
    (h : s.step cv .replaceModel = some s') : Tracks s' (some .replaceModel) := by
  simp only [LoadState.step] at h
  split_ifs at h with hl
  cases h
  refine ⟨rfl, s.models, rfl, Nat.lt_succ_self _, fun b hb => ?_⟩
  -- the interpreter belongs to a model that was replaced at or before this step
  rcases l with _ | ⟨⟩ | ⟨⟩ | ⟨⟩
  · have hnone : some b = none := hb.symm.trans ht.2
    cases hnone
  · exact absurd (hl.symm.trans ht.1) (by decide)
  · exact absurd (hl.symm.trans ht.1) (by decide)
  · obtain ⟨-, m, -, hlt, hi⟩ := ht
    have hb' : some b = some ⟨m, true⟩ := hb.symm.trans hi
    cases hb'
    exact hlt

theorem tracks_buildInterpreter {l : Option LoadStep} (ht : Tracks s l)
    (h : s.step cv .buildInterpreter = some s') : Tracks s' (some .buildInterpreter) := by
  simp only [LoadState.step] at h
  split_ifs at h with hl
  cases h
  rcases l with _ | ⟨⟩ | ⟨⟩ | ⟨⟩
  · exact absurd ht.1 (by rw [hl]; simp [Loader.Quiet])
  · obtain ⟨-, m, hm, hlt, -⟩ := ht
    exact ⟨rfl, m, hm, hlt, by simp [hm]⟩
  · exact absurd (hl.symm.trans ht.1) (by decide)
  · exact absurd ht.1 (by rw [hl]; simp [Loader.Quiet])

theorem tracks_allocateTensors {l : Option LoadStep} (ht : Tracks s l)
    (h : s.step cv .allocateTensors = some s') : Tracks s' (some .allocateTensors) := by
  simp only [LoadState.step] at h
  split_ifs at h with hl
  cases h
  rcases l with _ | ⟨⟩ | ⟨⟩ | ⟨⟩
  · exact absurd ht.1 (by rw [hl]; simp [Loader.Quiet])
  · exact absurd (hl.symm.trans ht.1) (by decide)
  · obtain ⟨-, m, hm, hlt, hi⟩ := ht
    exact ⟨Or.inl rfl, m, hm, hlt, by simp [hi]⟩
  · exact absurd ht.1 (by rw [hl]; simp [Loader.Quiet])

/-- One step. -/
theorem Tracks.step {l : Option LoadStep} (ht : Tracks s l) (h : s.step cv a = some s') :
    Tracks s' (a.loadStep.or l) := by
  cases ha : a.loadStep with
  | none =>
    obtain ⟨hn, hl⟩ := step_other ha h
    exact ht.other hn hl
  | some k =>
    cases a with
    | replaceModel => cases ha; exact tracks_replaceModel ht h
    | buildInterpreter => cases ha; exact tracks_buildInterpreter ht h
    | allocateTensors => cases ha; exact tracks_allocateTensors ht h
    | _ => cases ha

end Steps

/-! ### Runs -/

variable [Field K] [LinearOrder K]

theorem runLoading_tracks {cv : OpenCv K} {as : List (LoadAction K)} {s : LoadState K}
    (hs : runLoading cv as = some s) : Tracks s (lastLoad as) := by
  refine run_induction (C := fun _ _ => True) (fun as s => Tracks s (lastLoad as))
    ⟨Or.inl rfl, rfl⟩ ?_ (along_of_forall fun _ _ _ => trivial) hs
  intro as s a s' _ ht _ hstep
  show Tracks s' (lastLoad (as ++ [a]))
  rw [lastLoad_concat]
  exact ht.step hstep

/-- **Inference on a ready interpreter.**  In every interleaving, all calls of `tflite_model` find
the interpreter ready if and only if each of them comes when the last load step taken is an
`AllocateTensors`. -/
theorem inference_ready_iff (cv : OpenCv K) (as : List (LoadAction K)) :
    (∀ pre a post s, as = pre ++ a :: post → runLoading cv pre = some s → s.CallsTflite cv a →
      s.Ready) ↔
    (∀ pre a post s, as = pre ++ a :: post → runLoading cv pre = some s → s.CallsTflite cv a →
      lastLoad pre = some .allocateTensors) := by
  constructor
  · intro h pre a post s has hs hcall
    exact (runLoading_tracks hs).ready_iff.1 (h pre a post s has hs hcall)
  · intro h pre a post s has hs hcall
    exact (runLoading_tracks hs).ready_iff.2 (h pre a post s has hs hcall)

/-- A frame calls `tflite_model` when it has points and was begun with the screen touched. -/
theorem convertRGBtoGray_inference {cv : OpenCv K} {s s' : NativeState K} {f : CameraFrame K}
    {o : FrameOut K} (h : Controller.convertRGBtoGray cv s f = some (s', o)) :
    o.inference = true ↔ f.points ≠ [] ∧ f.touchStatus = 0 := by
  unfold Controller.convertRGBtoGray at h
  have hlen : (detectPoints (beginFrame s f).info f.contours).2.1.length ≠ 0 ↔ f.points ≠ [] :=
    List.length_eq_zero_iff.not
  by_cases hp : f.points = []
  · rw [if_neg (by rw [hlen]; exact not_not.2 hp)] at h
    obtain ⟨v, -, hv⟩ := Option.map_eq_some_iff.1 h
    cases hv
    simp [hp]
  · rw [if_pos (hlen.2 hp)] at h
    obtain ⟨ds, -, h⟩ := Option.bind_eq_some_iff.1 h
    obtain ⟨v, -, hv⟩ := Option.map_eq_some_iff.1 h
    cases hv
    show decide (f.touchStatus = 0) = true ↔ _
    simp [hp]

/-- The first touch: the frame calls `tflite_model` before the message has been handled. -/
def firstTouch : List (LoadAction ℚ) :=
  [.initMainUi, .onResume, .setTouchEvent 0, .onCameraFrame (sampleFrame 1 sampleSolve)]

theorem inference_on_null : ∃ s, runLoading sampleCv firstTouch = some s ∧
    s.CallsTflite sampleCv .convertRGBtoGray ∧ s.interpreter = none ∧ ¬ s.Ready := by
  refine ⟨_, rfl, ⟨rfl, sampleFrame 0 sampleSolve, ?_⟩, rfl, ?_⟩
  · have hr : Refines (initMatrix (NativeState.load ℚ)) ⟨[], .initial⟩ :=
      initMatrix_refines load_layout rfl rfl
    obtain ⟨o, ho, -⟩ := frame_refines sampleCv hr (sampleFrame 0 sampleSolve)
    refine ⟨_, rfl, ho, (convertRGBtoGray_inference ho).2 ⟨?_, rfl⟩⟩
    rw [sampleFrame_points]
    simp
  · rintro ⟨m, -, hi⟩
    cases hi

end Controller
