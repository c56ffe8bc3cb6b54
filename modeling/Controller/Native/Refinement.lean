import Controller.Native.NativeLib

/-!
# What the tracker is for, and that the library does it

A `Session` is the tracker without its memory: the reference points and the pose.  `Session.frame`
says what a frame does to it:

* a frame without points does nothing;
* a frame that *yields a pose* (`Session.solution`: not touched, as many points as the reference
  and at least three of them, and the solver finds something) replaces the pose;
* every other frame with points puts the rotation back to the identity, and its points become the
  reference when it `SetsReference`.

`Refines s a` says that the globals `s` represent the session `a`; the buffers of all matrices of
the library are separate, so an overwrite is seen through one of them only.  `initMatrix_refines`
and `frame_refines` are the simulation, `runEvents_refines` carries it to runs.
-/

namespace Controller

open PartialRun BufferStore

variable {K : Type} [Field K]

/-! ### Sessions -/

section Sessions

variable [LinearOrder K]

/-- The tracked pose: the fields `gR`, `gr`, `gt` of `objLeft`. -/
structure Pose (K : Type) where
  R : Mat33 K
  r : Vec3 K
  t : Vec3 K

/-- The pose of `point_obj::init`. -/
def Pose.initial : Pose K := ⟨1, 0, 0⟩

/-- The pose `estimate_pose` makes of a solution. -/
def Pose.ofSolution (cv : OpenCv K) (sol : Vec3 K × Vec3 K) : Pose K :=
  ⟨cv.Rodrigues (-sol.1), -sol.1, restvec (cv.Rodrigues (-sol.1)) sol.2⟩

/-- The reference points and the tracked pose. -/
structure Session (K : Type) where
  reference : List (Point2f K)
  pose : Pose K

/-- The frames that replace a reference of `n` points. -/
def CameraFrame.SetsReference (f : CameraFrame K) (n : ℕ) : Prop :=
  f.points ≠ [] ∧ (f.touchStatus = 0 ∨ 3 ≤ f.points.length ∧ f.points.length ≠ n)

instance (f : CameraFrame K) (n : ℕ) : Decidable (f.SetsReference n) :=
  inferInstanceAs (Decidable (_ ∧ (_ ∨ _ ∧ _)))

/-- The camera matrix of a frame. -/
def CameraFrame.camera (f : CameraFrame K) : Mat33 K :=
  !![(f.rows : K), 0, ((f.cols.tdiv 2 : ℤ) : K);
     0, (f.rows : K), ((f.rows.tdiv 2 : ℤ) : K);
     0, 0, 1]

/-- The frame reaches `solvePnPGeneric` when the reference has `n` points. -/
def CameraFrame.ReachesSolver (f : CameraFrame K) (n : ℕ) : Prop :=
  f.touchStatus ≠ 0 ∧ 3 ≤ f.points.length ∧ f.points.length = n

instance (f : CameraFrame K) (n : ℕ) : Decidable (f.ReachesSolver n) :=
  inferInstanceAs (Decidable (_ ∧ _ ∧ _))

/-- The first solution of a frame, if it yields a pose. -/
def Session.solution (cv : OpenCv K) (a : Session K) (f : CameraFrame K) :
    Option (Vec3 K × Vec3 K) :=
  if f.ReachesSolver a.reference.length then
    (f.solvePnPGeneric (modelPointsOf a.reference) (imagePoints cv f.points) f.camera).head?
  else none

/-- What a frame does to a session. -/
def Session.frame (cv : OpenCv K) (a : Session K) (f : CameraFrame K) : Session K :=
  if f.points = [] then a
  else
    { reference :=
        if f.SetsReference a.reference.length then imagePoints cv f.points else a.reference
      pose :=
        match a.solution cv f with
        | some sol => .ofSolution cv sol
        | none => { a.pose with R := 1 } }

/-- What an event does to a session. -/
def Session.event (cv : OpenCv K) (a : Session K) : Event K → Session K
  | .initMatrix => { a with pose := .initial }
  | .frame f => a.frame cv f

/-! ### Representation -/

/-- The matrices of the library do not share buffers. -/
structure Layout (s : NativeState K) : Prop where
  mats : Sep s.mem.mats [s.info.R, s.objLeft.gR, s.gR]
  vecs : Sep s.mem.vecs [s.info.rvec, s.info.tvec, s.objLeft.gr, s.objLeft.gt, s.gr, s.gt]

/-- The globals `s` represent the session `a`. -/
structure Refines (s : NativeState K) (a : Session K) : Prop where
  layout : Layout s
  model : s.modelPoints = modelPointsOf a.reference
  object : s.objectPoints = objectPointsOf a.reference
  gR : s.mem.mats.read s.objLeft.gR = some a.pose.R
  gr : s.mem.vecs.read s.objLeft.gr = some a.pose.r
  gt : s.mem.vecs.read s.objLeft.gt = some a.pose.t

/-- What no event ever writes: three scalars of the global `info`, and the matrices `gr`, `gt` of
`native-lib.cpp` once they are initialised. -/
structure Untouched (s : NativeState K) : Prop where
  contours : s.info.contours = 0
  startTracking : s.info.startTracking = 0
  solutions : s.info.solutions = 0
  gr : s.mem.vecs.read s.gr = some 0
  gt : s.mem.vecs.read s.gt = some 0

@[simp] theorem length_imagePoints (cv : OpenCv K) (ps : List (Point2f K)) :
    (imagePoints cv ps).length = ps.length := by
  simp [imagePoints, addDistance]

end Sessions

@[simp] theorem length_modelPointsOf (ps : List (Point2f K)) :
    (modelPointsOf ps).length = ps.length := by
  simp [modelPointsOf]

@[simp] theorem length_objectPointsOf (ps : List (Point2f K)) :
    (objectPointsOf ps).length = ps.length := by
  simp [objectPointsOf]

/-! ### Exporting -/

theorem modelMatrix_translation {R R' : Mat33 K} {t t' : Vec3 K}
    (h : modelMatrix R t = modelMatrix R' t') : t = t' := by
  funext i
  fin_cases i
  · exact congrFun h 12
  · exact congrFun h 13
  · exact congrFun h 14

theorem exportPose_eq {s : NativeState K} {R : Mat33 K} {t : Vec3 K}
    (hR : s.mem.mats.read s.objLeft.gR = some R) (ht : s.mem.vecs.read s.objLeft.gt = some t) :
    exportPose s = some (modelMatrix R t) := by
  simp [exportPose, hR, ht]

theorem Refines.exportPose [LinearOrder K] {s : NativeState K} {a : Session K} (h : Refines s a) :
    Controller.exportPose s = some (modelMatrix a.pose.R a.pose.t) :=
  exportPose_eq h.gR h.gt

/-! ### `InitMatrix` -/

theorem load_layout : Layout (NativeState.load K) where
  mats := sep_nil.cons_none.cons_none.cons_none
  vecs := sep_nil.cons_none.cons_none.cons_none.cons_none.cons_none.cons_none

section InitMatrix

variable {s : NativeState K}

theorem initMatrix_layout (h : Layout s) : Layout (initMatrix s) where
  mats := (h.mats.assign (l := [_, _]) 1).assign (l := [_]) 1
  vecs := (((h.vecs.assign (l := [_, _, _, _, _]) 0).assign (l := [_, _, _, _]) 0).assign
    (l := [_, _, _]) 0).assign (l := [_, _]) 0

theorem initMatrix_gR : (initMatrix s).mem.mats.read (initMatrix s).objLeft.gR = some 1 :=
  read_assign

theorem initMatrix_gr : (initMatrix s).mem.vecs.read (initMatrix s).objLeft.gr = some 0 :=
  read_assign

theorem initMatrix_gt (h : Layout s) :
    (initMatrix s).mem.vecs.read (initMatrix s).objLeft.gt = some 0 := by
  have h1 := (h.vecs.assign (l := [_, _, _, _, _]) 0).assign (l := [_, _, _, _]) 0
  have h2 := h1.assign (l := [_, _, _]) 0
  exact (h2.read_assign (l := [_, _]) (by simp [initMatrix, PointObj.init]) 0).trans read_assign

/-- `InitMatrix` keeps the reference and resets the pose. -/
theorem initMatrix_refines {ref : List (Point2f K)} (h : Layout s)
    (hm : s.modelPoints = modelPointsOf ref) (ho : s.objectPoints = objectPointsOf ref) :
    Refines (initMatrix s) ⟨ref, .initial⟩ where
  layout := initMatrix_layout h
  model := hm
  object := ho
  gR := initMatrix_gR
  gr := initMatrix_gr
  gt := initMatrix_gt h

theorem initMatrix_untouched (h : Layout s) (hc : s.info.contours = 0)
    (hs : s.info.startTracking = 0) (hn : s.info.solutions = 0) : Untouched (initMatrix s) where
  contours := hc
  startTracking := hs
  solutions := hn
  gr := by
    have h1 := h.vecs.assign (l := [_, _, _, _, _]) 0
    have h2 := h1.assign (l := [_, _, _, _]) 0
    have h3 := h2.assign (l := [_, _, _]) 0
    exact (h3.read_assign (l := [_, _]) (by simp [initMatrix, PointObj.init]) 0).trans
      ((h2.read_assign (l := [_, _, _]) (by simp [initMatrix, PointObj.init]) 0).trans read_assign)
  gt := by
    have h1 := h.vecs.assign (l := [_, _, _, _, _]) 0
    have h2 := h1.assign (l := [_, _, _, _]) 0
    have h3 := h2.assign (l := [_, _, _]) 0
    exact (h3.read_assign (l := [_, _]) (by simp [initMatrix, PointObj.init]) 0).trans
      ((h2.read_assign (l := [_, _, _]) (by simp [initMatrix, PointObj.init]) 0).trans
        ((h1.read_assign (l := [_, _, _, _]) (by simp [initMatrix, PointObj.init]) 0).trans read_assign))

end InitMatrix

/-! ### The beginning of a frame -/

section BeginFrame

variable {s : NativeState K} {f : CameraFrame K} {a : Session K}

theorem beginFrame_layout (h : Layout s) (f : CameraFrame K) : Layout (beginFrame s f) where
  mats := h.mats.assign (l := []) 1
  vecs := (h.vecs.assign (l := []) 0).assign (l := [_]) 0

theorem beginFrame_R : (beginFrame s f).mem.mats.read (beginFrame s f).info.R = some 1 :=
  read_assign

theorem beginFrame_tvec : (beginFrame s f).mem.vecs.read (beginFrame s f).info.tvec = some 0 :=
  read_assign

theorem beginFrame_R_ne : (beginFrame s f).info.R ≠ none := assign_ne_none

/-- What the matrices behind `info` do not share with is as before. -/
theorem beginFrame_read_mats (h : Layout s) {hd : Header} (hm : hd ∈ [s.objLeft.gR, s.gR]) :
    (beginFrame s f).mem.mats.read hd = s.mem.mats.read hd :=
  h.mats.read_assign (l := []) hm 1

theorem beginFrame_read_vecs (h : Layout s) {hd : Header}
    (hm : hd ∈ [s.objLeft.gr, s.objLeft.gt, s.gr, s.gt]) :
    (beginFrame s f).mem.vecs.read hd = s.mem.vecs.read hd := by
  have h1 := h.vecs.assign (l := []) 0
  have hm' : hd ∈ [(s.mem.vecs.assign s.info.rvec 0).2] ++ [s.objLeft.gr, s.objLeft.gt, s.gr, s.gt] :=
    List.mem_append_right _ hm
  have hm'' : hd ∈ ([] : List Header) ++ [s.info.tvec, s.objLeft.gr, s.objLeft.gt, s.gr, s.gt] :=
    List.mem_cons_of_mem _ hm
  exact (h1.read_assign (l := [_]) hm' 0).trans (h.vecs.read_assign (l := []) hm'' 0)

theorem beginFrame_refines (h : Refines s a) (f : CameraFrame K) : Refines (beginFrame s f) a where
  layout := beginFrame_layout h.layout f
  model := h.model
  object := h.object
  gR := (beginFrame_read_mats h.layout (by simp [beginFrame])).trans h.gR
  gr := (beginFrame_read_vecs h.layout (by simp [beginFrame])).trans h.gr
  gt := (beginFrame_read_vecs h.layout (by simp [beginFrame])).trans h.gt

theorem beginFrame_untouched (h : Layout s) (hu : Untouched s) : Untouched (beginFrame s f) where
  contours := hu.contours
  startTracking := hu.startTracking
  solutions := hu.solutions
  gr := (beginFrame_read_vecs h (by simp [beginFrame])).trans hu.gr
  gt := (beginFrame_read_vecs h (by simp [beginFrame])).trans hu.gt

end BeginFrame

/-! ### Taking a solution -/

section TakeSolution

variable (cv : OpenCv K) {b : NativeState K} (info : PtCameraInfo K) (sol : Vec3 K × Vec3 K)

theorem takeSolution_R (hne : info.R ≠ none) : (takeSolution cv b info sol).2.1.R = info.R :=
  assign_header hne

theorem takeSolution_mats (h : Layout b) (hR : info.R = b.info.R) (hne : b.info.R ≠ none) :
    Sep (takeSolution cv b info sol).1.mem.mats [b.info.R, b.objLeft.gR, b.gR] ∧
      (takeSolution cv b info sol).1.mem.mats.read b.info.R = some (cv.Rodrigues (-sol.1)) := by
  have hhd : (b.mem.mats.assign b.info.R (cv.Rodrigues (-sol.1))).2 = b.info.R := assign_header hne
  have hsep := h.mats.assign (l := []) (cv.Rodrigues (-sol.1))
  have hread : (b.mem.mats.assign b.info.R (cv.Rodrigues (-sol.1))).1.read
      (b.mem.mats.assign b.info.R (cv.Rodrigues (-sol.1))).2 = some (cv.Rodrigues (-sol.1)) :=
    read_assign
  simp only [takeSolution, hR]
  rw [hhd] at hsep hread
  exact ⟨hsep, hread⟩

theorem takeSolution_vecs (h : Layout b) :
    Sep (takeSolution cv b info sol).1.mem.vecs [b.info.rvec, b.info.tvec,
      (takeSolution cv b info sol).2.2.1, (takeSolution cv b info sol).2.2.2, b.gr, b.gt] :=
  (((h.vecs.alloc sol.1).alloc sol.2).fresh (l := [_, _, _]) _).fresh (l := [_, _]) _

theorem takeSolution_r :
    (takeSolution cv b info sol).1.mem.vecs.read (takeSolution cv b info sol).2.2.1 =
      some (-sol.1) :=
  read_alloc

theorem takeSolution_t (h : Layout b) :
    (takeSolution cv b info sol).1.mem.vecs.read (takeSolution cv b info sol).2.2.2 =
      some (restvec (cv.Rodrigues (-sol.1)) sol.2) := by
  have h1 := ((h.vecs.alloc sol.1).alloc sol.2).fresh (l := [_, _, _])
    (restvec (cv.Rodrigues (-sol.1)) sol.2)
  exact (h1.read_alloc (by simp [takeSolution]) (-sol.1)).trans read_alloc

/-- The buffers that were there before are not written. -/
theorem takeSolution_read_vecs (h : Layout b) (hd : Header)
    (hm : hd ∈ [b.info.rvec, b.info.tvec, b.objLeft.gr, b.objLeft.gt, b.gr, b.gt]) :
    (takeSolution cv b info sol).1.mem.vecs.read hd = b.mem.vecs.read hd := by
  have h1 := h.vecs.alloc sol.1
  have h2 := h1.alloc sol.2
  have h3 := h2.alloc (restvec (cv.Rodrigues (-sol.1)) sol.2)
  exact (h3.read_alloc hm _).trans ((h2.read_alloc hm _).trans
    ((h1.read_alloc hm _).trans (h.vecs.read_alloc hm _)))

end TakeSolution

/-! ### Leaving `estimate_pose` -/

section Leave

variable {b : NativeState K} {info : PtCameraInfo K} {r t : Header} {M : Mat33 K} {pr pt : Vec3 K}
  {ref : List (Point2f K)} {draws : Option (List (Draw K))}
  {call : Option (List (Point3f K) × List (Point2f K) × Mat33 K)}

theorem leave_refines (hmats : Sep b.mem.mats [b.info.R, b.objLeft.gR, b.gR])
    (hvecs : Sep b.mem.vecs [b.info.rvec, b.info.tvec, r, t, b.gr, b.gt])
    (hR : info.R = b.info.R) (hM : b.mem.mats.read b.info.R = some M)
    (hr : b.mem.vecs.read r = some pr) (ht : b.mem.vecs.read t = some pt)
    (hm : b.modelPoints = modelPointsOf ref) (ho : b.objectPoints = objectPointsOf ref) :
    Refines (Estimate.leave b info r t draws call).toState ⟨ref, ⟨M, pr, pt⟩⟩ := by
  have hc : b.mem.mats.clone info.R = b.mem.mats.alloc M := by rw [hR]; exact clone_of_read hM
  refine ⟨⟨?_, hvecs⟩, hm, ho, ?_, hr, ht⟩
  · simp only [Estimate.toState, Estimate.leave, hc]
    exact hmats.fresh (l := [_]) M
  · simp only [Estimate.toState, Estimate.leave, hc]
    exact read_alloc

omit [Field K] in
/-- The buffer of the global `info.R` still holds what `*Rot` is a clone of. -/
theorem leave_read_R (hmats : Sep b.mem.mats [b.info.R, b.objLeft.gR, b.gR])
    (hR : info.R = b.info.R) (hM : b.mem.mats.read b.info.R = some M) :
    (Estimate.leave b info r t draws call).state.mem.mats.read b.info.R = some M := by
  have hc : b.mem.mats.clone info.R = b.mem.mats.alloc M := by rw [hR]; exact clone_of_read hM
  simp only [Estimate.leave, hc]
  exact (hmats.read_alloc (by simp) M).trans hM

end Leave

/-! ### The exits of `estimate_pose` -/

section Exits

variable {cv : OpenCv K} {s : NativeState K} {f : CameraFrame K} {a : Session K}

/-- The drawing loop stays in range when both vectors have at least `gSize` entries. -/
theorem drawLoop_isSome (mid : Point2f K) (ps : List (Point2f K)) (qs : List (Point3f K)) {n : ℕ}
    (hp : n ≤ ps.length) (hq : n ≤ qs.length) : ∃ ds, drawLoop mid ps qs n = some ds := by
  induction n with
  | zero => exact ⟨[], rfl⟩
  | succ n ih =>
    obtain ⟨ds, hds⟩ := ih (by omega) (by omega)
    unfold drawLoop at hds ⊢
    rw [List.range_succ, List.foldlM_append, hds]
    simp [List.getElem?_eq_getElem (show n < ps.length by omega),
      List.getElem?_eq_getElem (show n < qs.length by omega)]

variable [LinearOrder K]

/-- The state in which a frame calls `estimate_pose`. -/
def callState (s : NativeState K) (f : CameraFrame K) : NativeState K :=
  pushPoints (beginFrame s f) f

theorem frameEstimate_touch (ht : f.touchStatus = 0) :
    frameEstimate cv s f = .leave (refreshModelPoints (callState s f) (imagePoints cv f.points))
      { (callState s f).info with startTracking := 0 } (callState s f).objLeft.gr
      (callState s f).objLeft.gt (some []) none :=
  if_pos ht

theorem frameEstimate_few (ht : f.touchStatus ≠ 0) (hf : f.points.length ≤ 2) :
    frameEstimate cv s f = .leave (callState s f) { (callState s f).info with startTracking := 1 }
      (callState s f).objLeft.gr (callState s f).objLeft.gt (some []) none :=
  (if_neg ht).trans (if_pos hf)

theorem frameEstimate_refresh (ht : f.touchStatus ≠ 0) (hf : ¬ f.points.length ≤ 2)
    (hn : f.points.length ≠ s.modelPoints.length) :
    frameEstimate cv s f = .leave (refreshModelPoints (callState s f) (imagePoints cv f.points))
      (callState s f).info (callState s f).objLeft.gr (callState s f).objLeft.gt (some []) none :=
  (if_neg ht).trans ((if_neg hf).trans (if_pos hn))

/-- The arguments a frame passes to `solvePnPGeneric`. -/
def solverArgs (cv : OpenCv K) (s : NativeState K) (f : CameraFrame K) :
    List (Point3f K) × List (Point2f K) × Mat33 K :=
  (s.modelPoints, imagePoints cv f.points, f.camera)

/-- The drawing of a frame that reaches the solver. -/
def solverDraws (cv : OpenCv K) (s : NativeState K) (f : CameraFrame K) :
    Option (List (Draw K)) :=
  (drawLoop (avgCoord f.points) (imagePoints cv f.points) s.objectPoints f.points.length).map
    (Draw.line (avgCoord f.points) (cv.projectPoints ⟨0, 0, 100⟩ 0 0 f.camera) (0, 0, 255) :: ·)

theorem frameEstimate_solver (hs : f.ReachesSolver s.modelPoints.length) :
    frameEstimate cv s f = useSolutions cv (callState s f) (callState s f).info
      (callState s f).objLeft.gr (callState s f).objLeft.gt (solverDraws cv s f) (solverArgs cv s f)
      (f.solvePnPGeneric s.modelPoints (imagePoints cv f.points) f.camera) := by
  obtain ⟨ht, h3, hn⟩ := hs
  have hf : ¬ f.points.length ≤ 2 := by omega
  exact (if_neg ht).trans ((if_neg hf).trans (if_neg (not_not.2 hn)))

theorem solverDraws_isSome (cv : OpenCv K) (hs : f.ReachesSolver s.modelPoints.length)
    (ho : s.objectPoints.length = s.modelPoints.length) : ∃ ds, solverDraws cv s f = some ds := by
  obtain ⟨_, _, hn⟩ := hs
  obtain ⟨ds, hds⟩ := drawLoop_isSome (avgCoord f.points) (imagePoints cv f.points) s.objectPoints
    (n := f.points.length) (by simp) (by omega)
  exact ⟨_, by rw [solverDraws, hds]; rfl⟩

/-- The four ways through `estimate_pose` short of the solver and the way to it. -/
theorem frame_exits (f : CameraFrame K) (n : ℕ) :
    f.touchStatus = 0 ∨ (f.touchStatus ≠ 0 ∧ f.points.length ≤ 2) ∨
      (f.touchStatus ≠ 0 ∧ ¬ f.points.length ≤ 2 ∧ f.points.length ≠ n) ∨ f.ReachesSolver n := by
  by_cases ht : f.touchStatus = 0
  · exact Or.inl ht
  · by_cases hf : f.points.length ≤ 2
    · exact Or.inr (Or.inl ⟨ht, hf⟩)
    · by_cases hn : f.points.length = n
      · exact Or.inr (Or.inr (Or.inr ⟨ht, by omega, hn⟩))
      · exact Or.inr (Or.inr (Or.inl ⟨ht, hf, hn⟩))

end Exits

/-! ### The same exits of a session -/

section SessionFrame

variable [LinearOrder K] {cv : OpenCv K} {f : CameraFrame K} {a : Session K}

theorem Session.frame_nil (hp : f.points = []) : a.frame cv f = a := if_pos hp

theorem Session.frame_of_sets (hr : f.SetsReference a.reference.length) :
    a.frame cv f = ⟨imagePoints cv f.points, { a.pose with R := 1 }⟩ := by
  have hs : ¬ f.ReachesSolver a.reference.length := by
    rintro ⟨ht, _, hn⟩
    rcases hr.2 with h | ⟨_, h⟩
    · exact ht h
    · exact h hn
  simp [Session.frame, hr.1, hr, Session.solution, hs]

theorem Session.frame_few (hp : f.points ≠ []) (ht : f.touchStatus ≠ 0)
    (hf : f.points.length ≤ 2) : a.frame cv f = ⟨a.reference, { a.pose with R := 1 }⟩ := by
  have hr : ¬ f.SetsReference a.reference.length := by
    rintro ⟨_, h | ⟨h, _⟩⟩
    · exact ht h
    · omega
  have hs : ¬ f.ReachesSolver a.reference.length := by
    rintro ⟨_, h, _⟩
    omega
  simp [Session.frame, hp, hr, Session.solution, hs]

theorem Session.frame_solver (hs : f.ReachesSolver a.reference.length) :
    a.frame cv f = ⟨a.reference,
      match (f.solvePnPGeneric (modelPointsOf a.reference) (imagePoints cv f.points)
        f.camera).head? with
      | some sol => .ofSolution cv sol
      | none => { a.pose with R := 1 }⟩ := by
  have hp : f.points ≠ [] := by
    intro h
    have := hs.2.1
    rw [h] at this
    simp at this
  have hr : ¬ f.SetsReference a.reference.length := by
    rintro ⟨_, h | ⟨_, h⟩⟩
    · exact hs.1 h
    · exact h hs.2.2
  simp [Session.frame, hp, hr, Session.solution, hs]

end SessionFrame

/-! ### The simulation -/

section Simulation

variable {cv : OpenCv K} {s : NativeState K} {f : CameraFrame K} {a : Session K}

theorem Refines.length_model (h : Refines s a) : s.modelPoints.length = a.reference.length := by
  rw [h.model, length_modelPointsOf]

theorem Refines.length_object (h : Refines s a) : s.objectPoints.length = s.modelPoints.length := by
  rw [h.object, h.model, length_objectPointsOf, length_modelPointsOf]

variable [LinearOrder K]

theorem callState_refines (h : Refines s a) (f : CameraFrame K) : Refines (callState s f) a :=
  let h' := beginFrame_refines h f
  ⟨⟨h'.layout.mats, h'.layout.vecs⟩, h'.model, h'.object, h'.gR, h'.gr, h'.gt⟩

theorem callState_R : (callState s f).mem.mats.read (callState s f).info.R = some 1 := beginFrame_R

theorem callState_R_ne : (callState s f).info.R ≠ none := beginFrame_R_ne

/-- A call of `estimate_pose` does to the session what the frame should do. -/
theorem frameEstimate_refines (h : Refines s a) (hp : f.points ≠ []) :
    Refines (frameEstimate cv s f).toState (a.frame cv f) := by
  have hc := callState_refines h f
  rcases frame_exits f s.modelPoints.length with ht | ⟨ht, hf⟩ | ⟨ht, hf, hn⟩ | hs
  · rw [frameEstimate_touch ht, Session.frame_of_sets ⟨hp, Or.inl ht⟩]
    exact leave_refines hc.layout.mats hc.layout.vecs rfl callState_R hc.gr hc.gt rfl rfl
  · rw [frameEstimate_few ht hf, Session.frame_few hp ht hf]
    exact leave_refines hc.layout.mats hc.layout.vecs rfl callState_R hc.gr hc.gt hc.model hc.object
  · rw [frameEstimate_refresh ht hf hn,
      Session.frame_of_sets ⟨hp, Or.inr ⟨by omega, by rw [← h.length_model]; exact hn⟩⟩]
    exact leave_refines hc.layout.mats hc.layout.vecs rfl callState_R hc.gr hc.gt rfl rfl
  · rw [frameEstimate_solver hs, Session.frame_solver (by rw [← h.length_model]; exact hs), ← h.model]
    cases f.solvePnPGeneric s.modelPoints (imagePoints cv f.points) f.camera with
    | nil =>
      exact leave_refines hc.layout.mats hc.layout.vecs rfl callState_R hc.gr hc.gt hc.model
        hc.object
    | cons sol rest =>
      have hm := takeSolution_mats cv { (callState s f).info with
        solutions := ((sol :: rest).length : ℤ) } sol hc.layout rfl callState_R_ne
      exact leave_refines hm.1 (takeSolution_vecs cv _ sol hc.layout)
        (takeSolution_R cv _ sol (callState_R_ne (f := f))) hm.2 (takeSolution_r cv _ sol)
        (takeSolution_t cv _ sol hc.layout) hc.model hc.object

theorem frameEstimate_ret : (frameEstimate cv s f).ret = true := by
  rcases frame_exits f s.modelPoints.length with ht | ⟨ht, hf⟩ | ⟨ht, hf, hn⟩ | hs
  · rw [frameEstimate_touch ht]; rfl
  · rw [frameEstimate_few ht hf]; rfl
  · rw [frameEstimate_refresh ht hf hn]; rfl
  · rw [frameEstimate_solver hs]
    cases f.solvePnPGeneric s.modelPoints (imagePoints cv f.points) f.camera <;> rfl

/-- The solver is called exactly when the frame reaches it. -/
theorem frameEstimate_solverCall : (frameEstimate cv s f).solverCall =
    if f.ReachesSolver s.modelPoints.length then some (solverArgs cv s f) else none := by
  rcases frame_exits f s.modelPoints.length with ht | ⟨ht, hf⟩ | ⟨ht, hf, hn⟩ | hs
  · rw [frameEstimate_touch ht, if_neg fun h => h.1 ht]; rfl
  · rw [frameEstimate_few ht hf, if_neg fun h => absurd h.2.1 (by omega)]; rfl
  · rw [frameEstimate_refresh ht hf hn, if_neg fun h => hn h.2.2]; rfl
  · rw [frameEstimate_solver hs, if_pos hs]
    cases f.solvePnPGeneric s.modelPoints (imagePoints cv f.points) f.camera <;> rfl

theorem frameEstimate_draws (cv : OpenCv K) (ho : s.objectPoints.length = s.modelPoints.length) :
    ∃ ds, (frameEstimate cv s f).draws = some ds := by
  rcases frame_exits f s.modelPoints.length with ht | ⟨ht, hf⟩ | ⟨ht, hf, hn⟩ | hs
  · rw [frameEstimate_touch ht]; exact ⟨[], rfl⟩
  · rw [frameEstimate_few ht hf]; exact ⟨[], rfl⟩
  · rw [frameEstimate_refresh ht hf hn]; exact ⟨[], rfl⟩
  · obtain ⟨ds, hds⟩ := solverDraws_isSome cv hs ho
    refine ⟨ds, ?_⟩
    rw [frameEstimate_solver hs, hds]
    cases f.solvePnPGeneric s.modelPoints (imagePoints cv f.points) f.camera <;> rfl

/-- The state after a frame. -/
def afterFrame (cv : OpenCv K) (s : NativeState K) (f : CameraFrame K) : NativeState K :=
  if f.points = [] then beginFrame s f else (frameEstimate cv s f).toState

theorem afterFrame_refines (cv : OpenCv K) (h : Refines s a) (f : CameraFrame K) :
    Refines (afterFrame cv s f) (a.frame cv f) := by
  unfold afterFrame
  split_ifs with hp
  · rw [Session.frame_nil hp]; exact beginFrame_refines h f
  · exact frameEstimate_refines h hp

theorem convertRGBtoGray_nil {v : Fin 16 → K} (hp : f.points = [])
    (hx : exportPose (beginFrame s f) = some v) :
    ∃ o, convertRGBtoGray cv s f = some (beginFrame s f, o) ∧ o.ret = 0 ∧ o.rotation = v := by
  have hl : ¬ (detectPoints (beginFrame s f).info f.contours).2.1.length ≠ 0 := by
    simpa [detectPoints, CameraFrame.points] using hp
  have e : convertRGBtoGray cv s f = _ := if_neg hl
  rw [hx] at e
  exact ⟨_, e, rfl, rfl⟩

theorem convertRGBtoGray_cons {v : Fin 16 → K} {ds : List (Draw K)} (hp : f.points ≠ [])
    (hd : (frameEstimate cv s f).draws = some ds)
    (hx : exportPose (frameEstimate cv s f).toState = some v) :
    ∃ o, convertRGBtoGray cv s f = some ((frameEstimate cv s f).toState, o) ∧ o.ret = 1 ∧
      o.rotation = v := by
  have hl : (detectPoints (beginFrame s f).info f.contours).2.1.length ≠ 0 := by
    simpa [detectPoints, CameraFrame.points] using hp
  have e : convertRGBtoGray cv s f = _ := if_pos hl
  rw [hd, Option.bind_some, hx, frameEstimate_ret] at e
  exact ⟨_, e, rfl, rfl⟩

/-- **A frame is defined wherever the globals represent a session, and refines the session's
frame**: the returned flag says whether the frame had points, the floats are the pose after it. -/
theorem frame_refines (cv : OpenCv K) (h : Refines s a) (f : CameraFrame K) :
    ∃ o, convertRGBtoGray cv s f = some (afterFrame cv s f, o) ∧
      o.ret = (if f.points = [] then 0 else 1) ∧
      o.rotation = modelMatrix (a.frame cv f).pose.R (a.frame cv f).pose.t := by
  have hx := (afterFrame_refines cv h f).exportPose
  by_cases hp : f.points = []
  · simp only [afterFrame, if_pos hp] at hx ⊢
    exact convertRGBtoGray_nil hp hx
  · obtain ⟨ds, hds⟩ := frameEstimate_draws cv (f := f) h.length_object
    simp only [afterFrame, if_neg hp] at hx ⊢
    exact convertRGBtoGray_cons hp hds hx

end Simulation

/-! ### Runs -/

section Runs

variable [LinearOrder K] {cv : OpenCv K} {s s' : NativeState K} {a : Session K} {es : List (Event K)}

/-- The session after a list of events. -/
def sessionAfter (cv : OpenCv K) (es : List (Event K)) : Session K :=
  es.foldl (Session.event cv) ⟨[], .initial⟩

@[simp] theorem sessionAfter_concat (es : List (Event K)) (e : Event K) :
    sessionAfter cv (es ++ [e]) = (sessionAfter cv es).event cv e := by
  simp [sessionAfter]

/-- The untouched part of the globals survives a frame. -/
theorem frameEstimate_untouched (h : Refines s a) (hu : Untouched s) (f : CameraFrame K) :
    Untouched (frameEstimate cv s f).toState := by
  have hb := beginFrame_untouched (f := f) h.layout hu
  have hc := callState_refines h f
  rcases frame_exits f s.modelPoints.length with ht | ⟨ht, hf⟩ | ⟨ht, hf, hn⟩ | hs
  · rw [frameEstimate_touch ht]; exact ⟨hb.1, hb.2, hb.3, hb.4, hb.5⟩
  · rw [frameEstimate_few ht hf]; exact ⟨hb.1, hb.2, hb.3, hb.4, hb.5⟩
  · rw [frameEstimate_refresh ht hf hn]; exact ⟨hb.1, hb.2, hb.3, hb.4, hb.5⟩
  · rw [frameEstimate_solver hs]
    cases f.solvePnPGeneric s.modelPoints (imagePoints cv f.points) f.camera with
    | nil => exact ⟨hb.1, hb.2, hb.3, hb.4, hb.5⟩
    | cons sol rest =>
      have hgr := takeSolution_read_vecs cv (callState s f).info sol hc.layout
        (callState s f).gr (by simp)
      have hgt := takeSolution_read_vecs cv (callState s f).info sol hc.layout
        (callState s f).gt (by simp)
      exact ⟨hb.1, hb.2, hb.3, hgr.trans hb.4, hgt.trans hb.5⟩

theorem afterFrame_untouched (cv : OpenCv K) (h : Refines s a) (hu : Untouched s) (f : CameraFrame K) :
    Untouched (afterFrame cv s f) := by
  unfold afterFrame
  split_ifs
  · exact beginFrame_untouched h.layout hu
  · exact frameEstimate_untouched h hu f

/-- One event of an initialised library. -/
theorem eventStep_refines (cv : OpenCv K) (h : Refines s a) (hu : Untouched s) (e : Event K) :
    ∃ s', eventStep cv s e = some s' ∧ Refines s' (a.event cv e) ∧ Untouched s' := by
  cases e with
  | initMatrix =>
    exact ⟨initMatrix s, rfl, initMatrix_refines h.layout h.model h.object,
      initMatrix_untouched h.layout hu.contours hu.startTracking hu.solutions⟩
  | frame f =>
    obtain ⟨o, ho, -⟩ := frame_refines cv h f
    exact ⟨afterFrame cv s f, by simp [eventStep, eventOut, ho], afterFrame_refines cv h f,
      afterFrame_untouched cv h hu f⟩

/-- Before the first `InitMatrix` a frame has no translation to export. -/
theorem convertRGBtoGray_load (f : CameraFrame K) :
    convertRGBtoGray cv (NativeState.load K) f = none := by
  by_cases hp : (detectPoints (beginFrame (NativeState.load K) f).info f.contours).2.1.length ≠ 0
  · have e : convertRGBtoGray cv (NativeState.load K) f = _ := if_pos hp
    have ht : (frameEstimate cv (NativeState.load K) f).toState.objLeft.gt = none := by
      rcases frame_exits f (NativeState.load K).modelPoints.length with
        ht | ⟨ht, hf⟩ | ⟨ht, hf, hn⟩ | ⟨_, h3, hn⟩
      · rw [frameEstimate_touch ht]; rfl
      · rw [frameEstimate_few ht hf]; rfl
      · rw [frameEstimate_refresh ht hf hn]; rfl
      · rw [hn] at h3; simp [NativeState.load] at h3
    have hx : exportPose (frameEstimate cv (NativeState.load K) f).toState = none := by
      simp [exportPose, ht]
    rw [e, hx]
    simp
  · exact if_neg hp

/-- **Runs refine sessions.**  A run starts with `InitMatrix`; after it, every event is defined and
the globals represent the session. -/
theorem runEvents_refines (hs : runEvents cv es = some s) :
    (es = [] ∧ s = NativeState.load K) ∨
      ((∃ rest, es = .initMatrix :: rest) ∧ Refines s (sessionAfter cv es) ∧ Untouched s) := by
  refine run_induction (C := fun _ _ => True) (fun es s => (es = [] ∧ s = NativeState.load K) ∨
      ((∃ rest, es = .initMatrix :: rest) ∧ Refines s (sessionAfter cv es) ∧ Untouched s))
    (Or.inl ⟨rfl, rfl⟩) ?_ (along_iff.2 fun _ _ _ _ _ _ => trivial) hs
  rintro es s e s' - hP - hstep
  right
  rcases hP with ⟨rfl, rfl⟩ | ⟨⟨rest, rfl⟩, hr, hu⟩
  · cases e with
    | initMatrix =>
      cases hstep
      exact ⟨⟨[], rfl⟩, initMatrix_refines load_layout rfl rfl,
        initMatrix_untouched load_layout rfl rfl rfl⟩
    | frame f => simp [eventStep, eventOut, convertRGBtoGray_load] at hstep
  · obtain ⟨t, ht, hrt, hut⟩ := eventStep_refines cv hr hu e
    rw [hstep] at ht
    cases ht
    exact ⟨⟨rest ++ [e], rfl⟩, by rw [sessionAfter_concat]; exact hrt, hut⟩

/-- A run that starts with `InitMatrix` is defined throughout. -/
theorem runEvents_defined (cv : OpenCv K) (es : List (Event K)) :
    ∃ s, runEvents cv (.initMatrix :: es) = some s ∧
      Refines s (sessionAfter cv (.initMatrix :: es)) ∧ Untouched s := by
  induction es using List.reverseRecOn with
  | nil =>
    exact ⟨initMatrix (NativeState.load K), rfl, initMatrix_refines load_layout rfl rfl,
      initMatrix_untouched load_layout rfl rfl rfl⟩
  | append_singleton es e ih =>
    obtain ⟨s, hs, hr, hu⟩ := ih
    obtain ⟨t, ht, hrt, hut⟩ := eventStep_refines cv hr hu e
    refine ⟨t, ?_, ?_, hut⟩
    · rw [← List.cons_append, runEvents, run_concat]
      exact (congrArg (Option.bind · _) hs).trans ht
    · rw [← List.cons_append, sessionAfter_concat]
      exact hrt

end Runs

end Controller
