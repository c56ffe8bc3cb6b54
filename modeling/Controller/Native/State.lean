import Controller.Lib.BufferStore
import Controller.Lib.Numerals
import Mathlib.Data.Matrix.Mul
import Mathlib.LinearAlgebra.Matrix.Notation
import Mathlib.Algebra.Order.Field.Basic

/-!
# The data of the native library

The types of `utils.h`, `point_obj.h` and the globals of `native-lib.cpp` and `point_tracker.cpp`.
Arithmetic is exact: `float` and `double` are one ordered field `K`, and a narrowing cast does
nothing.

A `cv::Mat` is a header onto a reference-counted buffer (`BufferStore`): copying a
`pt_camera_info` copies its scalars and shares its matrices, `clone` makes a fresh buffer, and
assigning a matrix expression or passing a matrix as an output array writes in place when the
matrix already has a buffer.  All matrices of the library are `3 × 3` or `3 × 1`, so they live in
two stores (`Mem`).  A `double*` into a matrix is the address of its buffer.

What OpenCV computes from an image is part of a `CameraFrame`: the contours of the mask with the
moments and areas `detect_points` asks for, and the answer of the solver to any question put to it
during that frame.  The functions of OpenCV and of `math.h` that the library applies to numbers
are the fields of `OpenCv`.

Left out: `fps`, `name` (never read) and the `tflite_model` fields (no part of tracking).
-/

namespace Controller

/-- `cv::Point2f`. -/
structure Point2f (K : Type) where
  x : K
  y : K
  deriving DecidableEq

/-- `cv::Point3f`. -/
structure Point3f (K : Type) where
  x : K
  y : K
  z : K
  deriving DecidableEq

/-- The contents of a `3 × 3` matrix. -/
abbrev Mat33 (K : Type) := Matrix (Fin 3) (Fin 3) K

/-- The contents of a `3 × 1` matrix. -/
abbrev Vec3 (K : Type) := Fin 3 → K

/-- The buffers of all matrices. -/
structure Mem (K : Type) where
  mats : BufferStore (Mat33 K)
  vecs : BufferStore (Vec3 K)

/-- `pt_camera_info`. -/
structure PtCameraInfo (K : Type) where
  fov : K
  resX : ℤ
  resY : ℤ
  touchStatus : ℤ
  startTracking : ℤ
  contours : ℤ
  solutions : ℤ
  R : Header
  rvec : Header
  tvec : Header
  rv : Header
  tv : Header

/-- `point_obj`. -/
structure PointObj (K : Type) where
  gR : Header
  gt : Header
  gr : Header
  points : List (Point2f K)

/-- The globals: those of `point_tracker.cpp`, then those of `native-lib.cpp`. -/
structure NativeState (K : Type) where
  mem : Mem K
  modelPoints : List (Point3f K)
  objectPoints : List (Point3f K)
  gR : Header
  gt : Header
  gr : Header
  objLeft : PointObj K
  info : PtCameraInfo K

/-- What `detect_points` reads of a contour: its moments and its area. -/
structure Contour (K : Type) where
  m00 : K
  m10 : K
  m01 : K
  area : K

/-- `solvePnPGeneric` with its fixed arguments (no distortion, no initial guess, `SQPNP`): model
points, image points and camera matrix to the solutions, each a rotation and a translation
vector.  Its return value is the number of solutions. -/
abbrev Solver (K : Type) :=
  List (Point3f K) → List (Point2f K) → Mat33 K → List (Vec3 K × Vec3 K)

/-- One camera frame: the `cInfo` array of `onCameraFrame` and what OpenCV makes of the image. -/
structure CameraFrame (K : Type) where
  rows : ℤ
  cols : ℤ
  touchStatus : ℤ
  contours : List (Contour K)
  solvePnPGeneric : Solver K

/-- The numeric functions of OpenCV and `math.h` the library calls. -/
structure OpenCv (K : Type) where
  Rodrigues : Vec3 K → Mat33 K
  projectPoints : Point3f K → Vec3 K → Vec3 K → Mat33 K → Point2f K
  sqrt : K → K

/-- A drawing call on the result image. -/
inductive Draw (K : Type)
  | circle (center : Point2f K) (radius : ℕ) (color : ℕ × ℕ × ℕ)
  | line (p q : Point2f K) (color : ℕ × ℕ × ℕ)
  | putText (text : String) (org : Point2f K)

/-- The globals when the library is loaded: static initialisers only. -/
def NativeState.load (K : Type) [Zero K] : NativeState K where
  mem := ⟨BufferStore.empty, BufferStore.empty⟩
  modelPoints := []
  objectPoints := []
  gR := none
  gt := none
  gr := none
  objLeft := ⟨none, none, none, []⟩
  info :=
    { fov := 0, resX := 0, resY := 0, touchStatus := 1, startTracking := 0, contours := 0
      solutions := 0, R := none, rvec := none, tvec := none, rv := none, tv := none }

end Controller
