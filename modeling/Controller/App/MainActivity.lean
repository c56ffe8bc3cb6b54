import Controller.App.MyGLRenderer
import Controller.Native.Coherence
import Controller.Native.ReadOuts

/-!
# `MainActivity.java`: camera and renderer

The pose is kept three times: in `objLeft` on the native side, in the array `gRMat` that
`ConvertRGBtoGray` fills on every frame, and in the renderer, which `onCameraFrame` updates only
when the returned flag is `1`.  `renderer_agrees`: after every step of every run the renderer shows
the pose of `objLeft`, because a frame that returns `0` has not changed it, and once its surface has
been created it draws with that pose.

The steps are `init_main_ui`, `onCameraFrame` and the callbacks of the GL thread, each atomic.  Every
step is defined, but for an `onDrawFrame` before `onSurfaceCreated`, which meets null shapes.
-/

namespace Controller

open PartialRun

variable {K : Type} [Field K]

/-- The fields of `MainActivity` between camera and renderer, and the native library. -/
structure MainActivity (K : Type) where
  native : NativeState K
  gLView : Option (MyGLRenderer K)
  gRMat : Fin 32 → K
  nativeInfo : Fin 16 → K
  bDetectObj : ℤ

/-- The library is loaded, no activity has been shown. -/
def MainActivity.load (K : Type) [Field K] : MainActivity K :=
  ⟨.load K, none, 0, 0, 0⟩

/-- `SetFloatArrayRegion(array, 0, 16, values)`. -/
def setFloatArrayRegion (array : Fin 32 → K) (values : Fin 16 → K) : Fin 32 → K :=
  fun i => if h : i.val < 16 then values ⟨i, h⟩ else array i

/-- `init_main_ui`: a new view with its renderer, then `InitMatrix`. -/
def MainActivity.initMainUi (s : MainActivity K) : MainActivity K :=
  { s with gLView := some .new, native := initMatrix s.native }

/-- `onCameraFrame`. -/
def MainActivity.onCameraFrame [LinearOrder K] (cv : OpenCv K) (s : MainActivity K) (f : CameraFrame K) :
    Option (MainActivity K) := do
  let (native, out) ← convertRGBtoGray cv s.native f
  let info ← Controller.nativeInfo native
  let gRMat := setFloatArrayRegion s.gRMat out.rotation
  let s' := { s with native := native, gRMat := gRMat, nativeInfo := info, bDetectObj := out.ret }
  if s'.bDetectObj = 1 then
    let r ← s.gLView
    some { s' with gLView := some (r.setRMatCameraOne gRMat) }
  else some s'

/-- A callback of the renderer that always returns. -/
def MainActivity.withRenderer (s : MainActivity K) (g : MyGLRenderer K → MyGLRenderer K) :
    Option (MainActivity K) :=
  s.gLView.map fun r => { s with gLView := some (g r) }

/-- The steps of the activity and of the GL thread. -/
inductive UiStep (K : Type)
  | initMainUi
  | onCameraFrame (f : CameraFrame K)
  | onSurfaceCreated
  | onSurfaceChanged (width height : ℤ)
  | onDrawFrame

/-- One step. -/
def uiStep [LinearOrder K] (cv : OpenCv K) (gl : AndroidMatrix K) (s : MainActivity K) :
    UiStep K → Option (MainActivity K)
  | .initMainUi => some s.initMainUi
  | .onCameraFrame f => s.onCameraFrame cv f
  | .onSurfaceCreated => s.withRenderer .onSurfaceCreated
  | .onSurfaceChanged width height => s.withRenderer (·.onSurfaceChanged gl width height)
  | .onDrawFrame => do
    let r ← s.gLView
    let d ← r.onDrawFrame gl
    some { s with gLView := some d.1 }

/-- The state after the steps `es`, from the loading of the library. -/
def runUi [LinearOrder K] (cv : OpenCv K) (gl : AndroidMatrix K) (es : List (UiStep K)) :
    Option (MainActivity K) :=
  run (uiStep cv gl) (MainActivity.load K) es

/-- Whether the surface exists after one more step. -/
def surfaceStep (created : Bool) : UiStep K → Bool
  | .initMainUi => false
  | .onSurfaceCreated => true
  | _ => created

/-- Whether `onSurfaceCreated` has been called since the last `init_main_ui`. -/
def surfaceCreated (es : List (UiStep K)) : Bool := es.foldl surfaceStep false

/-! ### The three copies of the pose -/

/-- The rotation `R` is orthogonal. -/
def Orthogonal {n : Type} [Fintype n] [DecidableEq n] (R : Matrix n n K) : Prop :=
  R * R.transpose = 1

/-- The native library represents the session `a`, and the renderer shows its pose. -/
structure Shows (s : MainActivity K) (a : Session K) : Prop where
  native : Refines s.native a
  untouched : Untouched s.native
  renderer : ∃ r, s.gLView = some r ∧ r.gRotationMatrixL = modelMatrix a.pose.R a.pose.t
  rotation : Orthogonal a.pose.R

omit [Field K] in
theorem setRMatCameraOne_setFloatArrayRegion (r : MyGLRenderer K) (array : Fin 32 → K)
    (values : Fin 16 → K) :
    (r.setRMatCameraOne (setFloatArrayRegion array values)).gRotationMatrixL = values := by
  funext i
  simp [MyGLRenderer.setRMatCameraOne, setFloatArrayRegion]

section Steps

variable {cv : OpenCv K} {gl : AndroidMatrix K} {s s' : MainActivity K} {a : Session K}

theorem orthogonal_one : Orthogonal (1 : Mat33 K) := by
  simp [Orthogonal]

/-- A callback that does not touch the rotation keeps the agreement. -/
theorem Shows.of_renderer (h : Shows s a) {r r' : MyGLRenderer K} (hr : s.gLView = some r)
    (hrot : r'.gRotationMatrixL = r.gRotationMatrixL) : Shows { s with gLView := some r' } a := by
  obtain ⟨r₀, hr₀, hrmat⟩ := h.renderer
  rw [hr] at hr₀
  cases hr₀
  exact ⟨h.native, h.untouched, ⟨r', rfl, hrot.trans hrmat⟩, h.rotation⟩

theorem initMainUi_shows {ref : List (Point2f K)} (hl : Layout s.native)
    (hm : s.native.modelPoints = modelPointsOf ref)
    (ho : s.native.objectPoints = objectPointsOf ref) (hc : s.native.info.contours = 0)
    (hs : s.native.info.startTracking = 0) (hn : s.native.info.solutions = 0) :
    Shows s.initMainUi ⟨ref, .initial⟩ where
  native := initMatrix_refines hl hm ho
  untouched := initMatrix_untouched hl hc hs hn
  renderer := ⟨.new, rfl, MyGLRenderer.new_rotation⟩
  rotation := orthogonal_one

variable [LinearOrder K]

/-- A frame leaves an orthogonal rotation. -/
theorem frame_orthogonal (hRod : ∀ r, Orthogonal (cv.Rodrigues r)) (ha : Orthogonal a.pose.R)
    (f : CameraFrame K) : Orthogonal (a.frame cv f).pose.R := by
  by_cases hp : f.points = []
  · rw [Session.frame_nil hp]
    exact ha
  · simp only [Session.frame, if_neg hp]
    cases a.solution cv f with
    | some sol => exact hRod _
    | none => exact orthogonal_one

/-- `NativeInfo` finds its matrices after every frame. -/
theorem nativeInfo_afterFrame (cv : OpenCv K) (h : Refines s.native a) (hu : Untouched s.native)
    (f : CameraFrame K) : ∃ v, Controller.nativeInfo (afterFrame cv s.native f) = some v := by
  by_cases hp : f.points = []
  · have hR := beginFrame_R (s := s.native) (f := f)
    have ht := beginFrame_tvec (s := s.native) (f := f)
    have hrv : (beginFrame s.native f).mem.mats.read (beginFrame s.native f).info.rv = some 1 := hR
    have htv : (beginFrame s.native f).mem.vecs.read (beginFrame s.native f).info.tv = some 0 := ht
    rw [afterFrame, if_pos hp, Controller.nativeInfo, hrv, htv]
    exact ⟨_, rfl⟩
  · obtain ⟨R, -, hv, -⟩ := nativeInfo_frame cv h hu hp
    exact ⟨_, hv⟩

/-- **A camera frame is defined and keeps the agreement**: with the flag `1` the renderer gets the
new pose, with the flag `0` there is no new pose. -/
theorem onCameraFrame_shows (hRod : ∀ r, Orthogonal (cv.Rodrigues r)) (h : Shows s a)
    (f : CameraFrame K) : ∃ s', s.onCameraFrame cv f = some s' ∧ Shows s' (a.frame cv f) := by
  obtain ⟨o, ho, hret, hrot⟩ := frame_refines cv h.native f
  obtain ⟨v, hv⟩ := nativeInfo_afterFrame cv h.native h.untouched f
  obtain ⟨r, hr, hrmat⟩ := h.renderer
  have hnat := afterFrame_refines cv h.native f
  have hunt := afterFrame_untouched cv h.native h.untouched f
  have horth := frame_orthogonal hRod h.rotation f
  by_cases hp : f.points = []
  · have h0 : o.ret = 0 := by rw [hret, if_pos hp]
    have hdef : s.onCameraFrame cv f = some { s with
        native := afterFrame cv s.native f, gRMat := setFloatArrayRegion s.gRMat o.rotation
        nativeInfo := v, bDetectObj := 0 } := by
      simp [MainActivity.onCameraFrame, ho, hv, h0]
    refine ⟨_, hdef, hnat, hunt, ⟨r, hr, ?_⟩, horth⟩
    rw [hrmat, Session.frame_nil hp]
  · have h1 : o.ret = 1 := by rw [hret, if_neg hp]
    have hdef : s.onCameraFrame cv f = some { s with
        native := afterFrame cv s.native f, gRMat := setFloatArrayRegion s.gRMat o.rotation
        nativeInfo := v, bDetectObj := 1
        gLView := some (r.setRMatCameraOne (setFloatArrayRegion s.gRMat o.rotation)) } := by
      simp [MainActivity.onCameraFrame, ho, hv, h1, hr]
    refine ⟨_, hdef, hnat, hunt, ⟨_, rfl, ?_⟩, horth⟩
    rw [setRMatCameraOne_setFloatArrayRegion, hrot]

theorem uiStep_shows (hRod : ∀ r, Orthogonal (cv.Rodrigues r)) (h : Shows s a) {e : UiStep K}
    (hstep : uiStep cv gl s e = some s') : ∃ a', Shows s' a' := by
  obtain ⟨r, hr, -⟩ := id h.renderer
  cases e with
  | initMainUi =>
    cases hstep
    exact ⟨_, initMainUi_shows h.native.layout h.native.model h.native.object h.untouched.contours
      h.untouched.startTracking h.untouched.solutions⟩
  | onCameraFrame f =>
    obtain ⟨t, ht, hsh⟩ := onCameraFrame_shows hRod h f
    have e : some t = some s' := ht.symm.trans hstep
    cases e
    exact ⟨_, hsh⟩
  | onSurfaceCreated =>
    simp only [uiStep, MainActivity.withRenderer, hr, Option.map_some, Option.some.injEq] at hstep
    subst hstep
    exact ⟨a, h.of_renderer hr rfl⟩
  | onSurfaceChanged width height =>
    simp only [uiStep, MainActivity.withRenderer, hr, Option.map_some, Option.some.injEq] at hstep
    subst hstep
    exact ⟨a, h.of_renderer hr rfl⟩
  | onDrawFrame =>
    simp only [uiStep, hr, Option.bind_eq_bind, Option.bind_some, Option.bind_eq_some_iff,
      Option.some.injEq] at hstep
    obtain ⟨d, hd, rfl⟩ := hstep
    exact ⟨a, h.of_renderer hr (onDrawFrame_rotation hd)⟩

/-- Along every run that starts with `init_main_ui` the renderer shows the session. -/
theorem runUi_shows (hRod : ∀ r, Orthogonal (cv.Rodrigues r)) {es : List (UiStep K)}
    (hs : runUi cv gl (.initMainUi :: es) = some s) : ∃ a, Shows s a := by
  have h0 : ∃ a, Shows (MainActivity.load K).initMainUi a :=
    ⟨⟨[], .initial⟩, initMainUi_shows load_layout rfl rfl rfl rfl rfl⟩
  exact run_invariant (fun s => ∃ a, Shows s a) h0
    (fun _ _ _ ⟨_, h⟩ hstep => uiStep_shows hRod h hstep) hs

/-! ### The shapes -/

/-- A step creates the shapes with the surface, and a new renderer has none. -/
theorem uiStep_shapes {created : Bool} {e : UiStep K}
    (h : ∀ r, s.gLView = some r → r.shapes = created) (hstep : uiStep cv gl s e = some s') :
    ∀ r, s'.gLView = some r → r.shapes = surfaceStep created e := by
  cases e with
  | initMainUi =>
    cases hstep
    rintro r ⟨⟩
    rfl
  | onCameraFrame f =>
    simp only [uiStep, MainActivity.onCameraFrame, Option.bind_eq_bind,
      Option.bind_eq_some_iff] at hstep
    obtain ⟨out, _, info, _, hstep⟩ := hstep
    split_ifs at hstep
    · obtain ⟨r₀, hr₀, hstep⟩ := Option.bind_eq_some_iff.1 hstep
      cases hstep
      rintro r ⟨⟩
      exact h r₀ hr₀
    · cases hstep
      exact h
  | onSurfaceCreated =>
    obtain ⟨r₀, -, rfl⟩ := Option.map_eq_some_iff.1 hstep
    rintro r ⟨⟩
    rfl
  | onSurfaceChanged width height =>
    obtain ⟨r₀, hr₀, rfl⟩ := Option.map_eq_some_iff.1 hstep
    rintro r ⟨⟩
    exact h r₀ hr₀
  | onDrawFrame =>
    simp only [uiStep, Option.bind_eq_bind, Option.bind_eq_some_iff] at hstep
    obtain ⟨r₀, hr₀, d, hd, hstep⟩ := hstep
    cases hstep
    rintro r ⟨⟩
    exact (onDrawFrame_shapes hd).trans (h r₀ hr₀)

theorem runUi_shapes {es : List (UiStep K)} (hs : runUi cv gl (.initMainUi :: es) = some s) :
    ∀ r, s.gLView = some r → r.shapes = surfaceCreated es := by
  have hrun : run (uiStep cv gl) (MainActivity.load K).initMainUi es = some s := hs
  refine run_induction (C := fun _ _ => True)
    (fun es s => ∀ r, s.gLView = some r → r.shapes = surfaceCreated es) ?_ ?_
    (along_of_forall fun _ _ _ => trivial) hrun
  · rintro r ⟨⟩
    rfl
  · intro es s e s' _ h _ hstep
    have h' := uiStep_shapes h hstep
    simpa only [surfaceCreated, List.foldl_append, List.foldl_cons, List.foldl_nil] using h'

end Steps

variable [LinearOrder K]

/-- The array that OpenGL sees as `M`. -/
def toArray (M : Matrix (Fin 4) (Fin 4) K) : Fin 16 → K :=
  ![M 0 0, M 1 0, M 2 0, M 3 0, M 0 1, M 1 1, M 2 1, M 3 1,
    M 0 2, M 1 2, M 2 2, M 3 2, M 0 3, M 1 3, M 2 3, M 3 3]

omit [Field K] [LinearOrder K] in
theorem colMajor_toArray (M : Matrix (Fin 4) (Fin 4) K) : colMajor (toArray M) = M := by
  ext i j
  fin_cases i <;> fin_cases j <;> rfl

/-- The cross product, scaled to length one. -/
noncomputable def unitCross (u v : Vec3 ℝ) : Vec3 ℝ :=
  let w : Vec3 ℝ := ![u 1 * v 2 - u 2 * v 1, u 2 * v 0 - u 0 * v 2, u 0 * v 1 - u 1 * v 0]
  fun i => w i / Real.sqrt (w 0 ^ 2 + w 1 ^ 2 + w 2 ^ 2)

/-- The view from `eye` to `center`. -/
noncomputable def lookAt (eye center up : Vec3 ℝ) : Matrix (Fin 4) (Fin 4) ℝ :=
  let d : Vec3 ℝ := center - eye
  let f : Vec3 ℝ := fun i => d i / Real.sqrt (d 0 ^ 2 + d 1 ^ 2 + d 2 ^ 2)
  let side := unitCross f up
  let u := unitCross side f
  let rot : Matrix (Fin 3) (Fin 3) ℝ := ![side, u, -f]
  let e := -(rot.mulVec eye)
  !![side 0, side 1, side 2, e 0;
     u 0, u 1, u 2, e 1;
     -f 0, -f 1, -f 2, e 2;
     0, 0, 0, 1]

/-- The perspective with the vertical field of view `fovy`, in degrees. -/
noncomputable def perspective (fovy aspect zNear zFar : ℝ) : Matrix (Fin 4) (Fin 4) ℝ :=
  let f := 1 / Real.tan (fovy * (Real.pi / 360))
  !![f / aspect, 0, 0, 0;
     0, f, 0, 0;
     0, 0, (zFar + zNear) / (zNear - zFar), 2 * zFar * zNear / (zNear - zFar);
     0, 0, -1, 0]

/-- The matrices of OpenGL over the reals. -/
noncomputable def realMatrix : AndroidMatrix ℝ where
  setLookAtM eye center up := toArray (lookAt eye center up)
  perspectiveM fovy aspect zNear zFar := toArray (perspective fovy aspect zNear zFar)
  multiplyMM _ lhs rhs := toArray (colMajor lhs * colMajor rhs)

end Controller
