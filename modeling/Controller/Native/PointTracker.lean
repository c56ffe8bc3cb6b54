import Controller.Native.State
import Mathlib.Data.List.Sort
import Mathlib.Data.Prod.Lex

/-!
# `point_tracker.cpp`

`estimatePose` follows `point_tracker::estimate_pose` exit by exit.  It is called with `info` by
value and with pointers to the three matrices of the tracked object; `Estimate` collects what it
leaves behind, including the local copy of `info` at its return, the arguments of
`solvePnPGeneric` when that call is reached, and the drawing calls (`none` when the drawing loop
indexes a vector out of range).

`std::sort` is insertion sort by "not after": the comparator leaves no choice between distinct
entries, so every correct sort gives the same list.
-/

namespace Controller

variable {K : Type} [Field K] [LinearOrder K]

/-- `point_tracker::avg_coord`. -/
def avgCoord (getPoints : List (Point2f K)) : Point2f K :=
  let size : K := (getPoints.length : K)
  ⟨getPoints.foldl (fun a p => a + p.x) 0 / size, getPoints.foldl (fun a p => a + p.y) 0 / size⟩

/-- `point_comparator`: by distance, then by `x`, then by `y`. -/
def pointComparator (a b : Point2f K × K) : Bool :=
  if a.2 = b.2 then
    if b.1.x > a.1.x then true
    else if b.1.x = a.1.x then
      if b.1.y > a.1.y then true else false
    else false
  else decide (b.2 > a.2)

/-- The order `std::sort` produces: `b` does not come before `a`. -/
def NotAfter (a b : Point2f K × K) : Prop := pointComparator b a = false

instance : DecidableRel (NotAfter (K := K)) := fun a b =>
  inferInstanceAs (Decidable (pointComparator b a = false))

/-- The entries `refresh_model_points` pushes to `model_points`. -/
def modelPointsOf (getPoints : List (Point2f K)) : List (Point3f K) :=
  getPoints.map fun p => ⟨p.x, p.y, 10⟩

/-- The entries `refresh_model_points` pushes to `object_points`. -/
def objectPointsOf (getPoints : List (Point2f K)) : List (Point3f K) :=
  getPoints.mapIdx fun i p => ⟨p.x, p.y, (i : K)⟩

/-- `point_tracker::refresh_model_points`. -/
def refreshModelPoints (s : NativeState K) (getPoints : List (Point2f K)) : NativeState K :=
  { s with modelPoints := modelPointsOf getPoints, objectPoints := objectPointsOf getPoints }

/-- `point_tracker::add_distance`. -/
def addDistance (cv : OpenCv K) (srcPoints : List (Point2f K)) (midPoint : Point2f K) :
    List (Point2f K × K) :=
  srcPoints.map fun p => (p, cv.sqrt ((midPoint.x - p.x) ^ 2 + (midPoint.y - p.y) ^ 2))

/-- The `image_points` of `estimate_pose`: the points sorted by their distance to the average. -/
def imagePoints (cv : OpenCv K) (getPoints : List (Point2f K)) : List (Point2f K) :=
  ((addDistance cv getPoints (avgCoord getPoints)).insertionSort NotAfter).map Prod.fst

/-- The camera matrix of `estimate_pose`; `res_x / 2` and `res_y / 2` are integer divisions. -/
def cameraMatrix (info : PtCameraInfo K) : Mat33 K :=
  !![(info.resY : K), 0, ((info.resX.tdiv 2 : ℤ) : K);
     0, (info.resY : K), ((info.resY.tdiv 2 : ℤ) : K);
     0, 0, 1]

/-- The drawing loop of `estimate_pose`, over `i < g_size`. -/
def drawLoop (midPoint : Point2f K) (imagePts : List (Point2f K)) (objectPts : List (Point3f K))
    (gSize : ℕ) : Option (List (Draw K)) :=
  (List.range gSize).foldlM (fun acc i => do
    let p ← imagePts[i]?
    let q ← objectPts[i]?
    some (acc ++ [.line midPoint p (255, 255, 255), .line p ⟨q.x, q.y⟩ (255, 0, 255),
      .putText (toString (i + 1)) ⟨p.x + 10, p.y + 10⟩])) []

/-- What a call of `estimate_pose` leaves behind. -/
structure Estimate (K : Type) where
  state : NativeState K
  info : PtCameraInfo K
  Rot : Header
  r : Header
  t : Header
  ret : Bool
  draws : Option (List (Draw K))
  solverCall : Option (List (Point3f K) × List (Point2f K) × Mat33 K)

/-- `*Rot = info.R.clone(); return true`, with which every exit ends. -/
def Estimate.leave (s : NativeState K) (info : PtCameraInfo K) (r t : Header)
    (draws : Option (List (Draw K)))
    (solverCall : Option (List (Point3f K) × List (Point2f K) × Mat33 K)) : Estimate K :=
  let c := s.mem.mats.clone info.R
  { state := { s with mem := { s.mem with mats := c.1 } }
    info := info, Rot := c.2, r := r, t := t, ret := true, draws := draws, solverCall := solverCall }

/-- The translation stored for the first solution: `(tvec + R * (1, 1, 1)) / 100`. -/
def restvec (R : Mat33 K) (itvec : Vec3 K) : Vec3 K :=
  fun i => (itvec i + R.mulVec ![1, 1, 1] i) / 100

/-- The part of `estimate_pose` below `if (info.solutions > 0)`: the first solution becomes the
pose.  `info` is the local copy, so `info.rvec` and `info.tvec` get new buffers that only it knows,
while `Rodrigues` writes into the buffer of `info.R`, which the caller's `info` shares. -/
def takeSolution (cv : OpenCv K) (s : NativeState K) (info : PtCameraInfo K)
    (sol : Vec3 K × Vec3 K) : NativeState K × PtCameraInfo K × Header × Header :=
  let irvec := sol.1
  let itvec := sol.2
  let rvec := s.mem.vecs.alloc irvec
  let tvec := rvec.1.alloc itvec
  let R := s.mem.mats.assign info.R (cv.Rodrigues (-irvec))
  let t := tvec.1.alloc (restvec (cv.Rodrigues (-irvec)) itvec)
  let r := t.1.alloc (-irvec)
  ({ s with mem := ⟨R.1, r.1⟩ },
    { info with rvec := rvec.2, tvec := tvec.2, R := R.2, rv := R.2, tv := tvec.2 }, r.2, t.2)

/-- `estimate_pose` from the return of `solvePnPGeneric` on, with the solutions it returned. -/
def useSolutions (cv : OpenCv K) (s : NativeState K) (info : PtCameraInfo K) (r t : Header)
    (draws : Option (List (Draw K))) (call : List (Point3f K) × List (Point2f K) × Mat33 K)
    (sols : List (Vec3 K × Vec3 K)) : Estimate K :=
  let info := { info with solutions := (sols.length : ℤ) }
  match sols with
  | [] => .leave s { info with startTracking := 1 } r t draws (some call)
  | sol :: _ =>
    let p := takeSolution cv s info sol
    .leave p.1 { p.2.1 with startTracking := 1 } p.2.2.1 p.2.2.2 draws (some call)

/-- `point_tracker::estimate_pose`. -/
def estimatePose (cv : OpenCv K) (solvePnPGeneric : Solver K) (s : NativeState K)
    (info : PtCameraInfo K) (getPoints : List (Point2f K)) (r t : Header) : Estimate K :=
  let mSize := s.modelPoints.length
  let gSize := getPoints.length
  let midPoint := avgCoord getPoints
  let image := imagePoints cv getPoints
  if info.touchStatus = 0 then
    .leave (refreshModelPoints s image) { info with startTracking := 0 } r t (some []) none
  else if gSize ≤ 2 then
    .leave s { info with startTracking := 1 } r t (some []) none
  else if gSize ≠ mSize then
    .leave (refreshModelPoints s image) info r t (some []) none
  else
    let K₀ := cameraMatrix info
    -- `irvec` and `itvec` are still zero when the end point is projected
    let endPoint := cv.projectPoints ⟨0, 0, 100⟩ 0 0 K₀
    let draws := (drawLoop midPoint image s.objectPoints gSize).map
      (Draw.line midPoint endPoint (0, 0, 255) :: ·)
    useSolutions cv s info r t draws (s.modelPoints, image, K₀)
      (solvePnPGeneric s.modelPoints image K₀)

end Controller
