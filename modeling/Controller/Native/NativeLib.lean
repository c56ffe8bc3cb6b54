import Controller.Lib.PartialRun
import Controller.Native.PointTracker

/-!
# `native-lib.cpp` and `detect_obj.cpp`

The entry points Java calls: `InitMatrix`, `ConvertRGBtoGray` on a camera frame, and the two
read-outs `NativeInfo` and `GetRvecTvec`.

`convertRGBtoGray` is split where the source calls out: `beginFrame` fills the global `info`,
`detectPoints` and `estimatePose` get copies of it, and the pose of `objLeft` is written to the
sixteen floats of `mat_addr_rotation` (`modelMatrix`).  Reading a matrix that has no buffer, or an
index out of range in the drawing loop, is undefined behaviour: the step is `none`.

A run is a list of `Event`s from the state in which the library is loaded.
-/

namespace Controller

open PartialRun

variable {K : Type} [Field K] [LinearOrder K]

/-! ### Detection -/

/-- The centroid `detect_points` computes from the moments of a contour. -/
def Contour.centroid (c : Contour K) : Point2f K :=
  ⟨c.m10 / (c.m00 + 1 / 100000), c.m01 / (c.m00 + 1 / 100000)⟩

/-- `detect_obj::detect_points`: the local copy of `info` at its return, the points it pushes and
its drawing calls. -/
def detectPoints (info : PtCameraInfo K) (contours : List (Contour K)) :
    PtCameraInfo K × List (Point2f K) × List (Draw K) :=
  let kept := contours.filter fun c => ¬ (c.centroid.x = 0 ∧ c.centroid.y = 0)
  ({ info with contours := (contours.length : ℤ) },
    (kept.filter fun c => c.area > 300).map Contour.centroid,
    (kept.filter fun c => ¬ c.area > 300).map fun c => .circle c.centroid 1 (128, 128, 128))

/-- The points of a frame. -/
def CameraFrame.points (f : CameraFrame K) : List (Point2f K) :=
  ((f.contours.filter fun c => ¬ (c.centroid.x = 0 ∧ c.centroid.y = 0)).filter
    fun c => c.area > 300).map Contour.centroid

/-! ### Initialisation -/

/-- `point_obj::init`. -/
def PointObj.init (m : Mem K) (o : PointObj K) : Mem K × PointObj K :=
  let gR := m.mats.assign o.gR 1
  let gt := m.vecs.assign o.gt 0
  let gr := gt.1.assign o.gr 0
  (⟨gR.1, gr.1⟩, { o with gR := gR.2, gt := gt.2, gr := gr.2 })

/-- `InitMatrix`. -/
def initMatrix (s : NativeState K) : NativeState K :=
  let gR := s.mem.mats.assign s.gR 1
  let gt := s.mem.vecs.assign s.gt 0
  let gr := gt.1.assign s.gr 0
  let o := s.objLeft.init ⟨gR.1, gr.1⟩
  { s with mem := o.1, gR := gR.2, gt := gt.2, gr := gr.2, objLeft := o.2 }

/-! ### One frame -/

/-- `ConvertRGBtoGray` up to the call of `detect_points`. -/
def beginFrame (s : NativeState K) (f : CameraFrame K) : NativeState K :=
  let R := s.mem.mats.assign s.info.R 1
  let rvec := s.mem.vecs.assign s.info.rvec 0
  let tvec := rvec.1.assign s.info.tvec 0
  { s with
    mem := ⟨R.1, tvec.1⟩
    info := { s.info with
      R := R.2, rvec := rvec.2, tvec := tvec.2, rv := R.2, tv := tvec.2
      fov := 90, resX := f.cols, resY := f.rows, touchStatus := f.touchStatus } }

/-- `objLeft` once the points of the frame have been pushed to it. -/
def pushPoints (s : NativeState K) (f : CameraFrame K) : NativeState K :=
  { s with objLeft := { s.objLeft with points := f.points } }

/-- The call of `estimate_pose` that a frame with points makes. -/
def frameEstimate (cv : OpenCv K) (s : NativeState K) (f : CameraFrame K) : Estimate K :=
  let b := pushPoints (beginFrame s f) f
  estimatePose cv f.solvePnPGeneric b b.info b.objLeft.points b.objLeft.gr b.objLeft.gt

/-- The state after that call: the pointers `&objLeft.gR`, `&objLeft.gr`, `&objLeft.gt` have been
written through, the copy of `info` is gone. -/
def Estimate.toState (e : Estimate K) : NativeState K :=
  { e.state with objLeft := { e.state.objLeft with gR := e.Rot, gr := e.r, gt := e.t } }

/-- The sixteen floats written at the end of `ConvertRGBtoGray`. -/
def modelMatrix (R : Mat33 K) (t : Vec3 K) : Fin 16 → K :=
  ![R 0 0, R 0 1, R 0 2, 0,
    R 1 0, R 1 1, R 1 2, 0,
    R 2 0, R 2 1, R 2 2, 0,
    t 0, t 1, t 2, 1]

/-- The pose of `objLeft` as those sixteen floats. -/
def exportPose (s : NativeState K) : Option (Fin 16 → K) := do
  let R ← s.mem.mats.read s.objLeft.gR
  let t ← s.mem.vecs.read s.objLeft.gt
  some (modelMatrix R t)

/-- What `ConvertRGBtoGray` does for its caller: the returned `jint`, the sixteen floats, the
drawing on the result image and whether it called `tflite_model`. -/
structure FrameOut (K : Type) where
  ret : ℤ
  rotation : Fin 16 → K
  draws : List (Draw K)
  inference : Bool

/-- `ConvertRGBtoGray`. -/
def convertRGBtoGray (cv : OpenCv K) (s : NativeState K) (f : CameraFrame K) :
    Option (NativeState K × FrameOut K) :=
  let b := beginFrame s f
  let d := detectPoints b.info f.contours
  let points := d.2.1
  if points.length ≠ 0 then
    let e := frameEstimate cv s f
    let marks := points.map fun p => Draw.circle p 5 (255, 255, 255)
    e.draws.bind fun drawn => (exportPose e.toState).map fun v =>
      (e.toState,
        { ret := if e.ret then 1 else 0, rotation := v, draws := d.2.2 ++ marks ++ drawn
          inference := decide (b.info.touchStatus = 0) })
  else
    (exportPose b).map fun v =>
      (b, { ret := 0, rotation := v, draws := d.2.2, inference := false })

/-! ### Read-outs -/

/-- The sixteen floats of `NativeInfo`. -/
def nativeInfo (s : NativeState K) : Option (Fin 16 → K) := do
  let R ← s.mem.mats.read s.info.rv
  let t ← s.mem.vecs.read s.info.tv
  some ![R 0 0, R 0 1, R 0 2, R 1 0, R 1 1, R 1 2, R 2 0, R 2 1, R 2 2, t 0, t 1, t 2,
    (s.info.contours : K), (s.info.startTracking : K), (s.info.solutions : K), 0]

/-- `GetRvecTvec`. -/
def getRvecTvec (s : NativeState K) : Option (Vec3 K × Vec3 K) := do
  let r ← s.mem.vecs.read s.gr
  let t ← s.mem.vecs.read s.gt
  some (r, t)

/-! ### Runs -/

/-- What Java does to the native library. -/
inductive Event (K : Type)
  | initMatrix
  | frame (f : CameraFrame K)

/-- One event, with what a frame returns. -/
def eventOut (cv : OpenCv K) (s : NativeState K) :
    Event K → Option (NativeState K × Option (FrameOut K))
  | .initMatrix => some (initMatrix s, none)
  | .frame f => (convertRGBtoGray cv s f).map fun r => (r.1, some r.2)

/-- The state after one event. -/
def eventStep (cv : OpenCv K) (s : NativeState K) (e : Event K) : Option (NativeState K) :=
  (eventOut cv s e).map Prod.fst

/-- The state after the events `es`, from the loading of the library. -/
def runEvents (cv : OpenCv K) (es : List (Event K)) : Option (NativeState K) :=
  run (eventStep cv) (NativeState.load K) es

end Controller
