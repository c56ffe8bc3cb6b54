import Controller.Native.Coherence

/-!
# The reference frame, seen again

A frame that sets the reference turns its points `(x, y)` into the model `(x, y, 10)`.  With the
camera matrix of `estimate_pose` there is one obvious pose for this model: no rotation, and the
translation `(-⌊res_x / 2⌋, -⌊res_y / 2⌋, res_y - 10)`, which puts the model at the depth of the
focal length and so projects each point to where it was seen (`reprojects`).

If the frame is seen again and the solver answers with this pose, the exported matrix should be the
one exported when the reference was set.  But setting the reference writes only the rotation and
leaves the translation as it was, so the object stays in place exactly when the translation already
was that of the reference pose: `replay_iff`.
-/

namespace Controller

open Matrix

variable {K : Type} [Field K] [LinearOrder K]

/-- The translation that puts the model where the reference frame saw it. -/
def referenceTranslation (f : CameraFrame K) : Vec3 K :=
  ![-((f.cols / 2 : ℤ) : K), -((f.rows / 2 : ℤ) : K), (f.rows : K) - 10]

/-- The translation exported for the reference pose. -/
def exportedTranslation (f : CameraFrame K) : Vec3 K :=
  ![(1 - ((f.cols / 2 : ℤ) : K)) / 100, (1 - ((f.rows / 2 : ℤ) : K)) / 100, ((f.rows : K) - 9) / 100]

/-- The pose projects the model point `m` to the image point `p`, with positive depth. -/
def Reprojects (cv : OpenCv K) (camera : Mat33 K) (r t : Vec3 K) (m : Point3f K) (p : Point2f K) :
    Prop :=
  0 < (cv.Rodrigues r *ᵥ ![m.x, m.y, m.z] + t) 2 ∧ pinhole cv.Rodrigues m r t camera = p

/-- The frame `f`, seen again while the screen is not touched. -/
structure CameraFrame.SeenAgain (f f' : CameraFrame K) : Prop where
  rows : f'.rows = f.rows
  cols : f'.cols = f.cols
  contours : f'.contours = f.contours
  touchStatus : f'.touchStatus ≠ 0

/-- Seeing `f` again, with the reference pose as the solver's answer, exports what `o₁` exported. -/
def StaysInPlace (cv : OpenCv K) (f : CameraFrame K) (s₁ : NativeState K) (o₁ : FrameOut K) : Prop :=
  ∀ f', f.SeenAgain f' →
    (f'.solvePnPGeneric s₁.modelPoints (imagePoints cv f.points) f.camera).head? =
      some (0, referenceTranslation f) →
    ∃ s₂ o₂, convertRGBtoGray cv s₁ f' = some (s₂, o₂) ∧ o₂.rotation = o₁.rotation

variable {cv : OpenCv K} {f f' : CameraFrame K} {s s₁ : NativeState K} {a : Session K}

theorem CameraFrame.SeenAgain.points (h : f.SeenAgain f') : f'.points = f.points := by
  unfold CameraFrame.points
  rw [h.contours]

omit [LinearOrder K] in
theorem CameraFrame.SeenAgain.camera (h : f.SeenAgain f') : f'.camera = f.camera := by
  unfold CameraFrame.camera
  rw [h.rows, h.cols]

/-! ### The reference pose -/

omit [LinearOrder K] in
theorem tdiv_two_cast {n : ℤ} (h : 0 < n) : ((n.tdiv 2 : ℤ) : K) = ((n / 2 : ℤ) : K) := by
  rw [Int.tdiv_eq_ediv_of_nonneg h.le]

variable [IsStrictOrderedRing K]

/-- The reference pose projects each point of the model to where it was seen. -/
theorem reprojects_point (h0 : cv.Rodrigues 0 = 1) (hx : 0 < f.cols) (hy : 0 < f.rows)
    (p : Point2f K) :
    Reprojects cv f.camera 0 (referenceTranslation f) ⟨p.x, p.y, 10⟩ p := by
  have hrows : (0 : K) < f.rows := Int.cast_pos.2 hy
  -- in camera coordinates
  have hq : cv.Rodrigues 0 *ᵥ ![p.x, p.y, 10] + referenceTranslation f =
      ![p.x - ((f.cols / 2 : ℤ) : K), p.y - ((f.rows / 2 : ℤ) : K), (f.rows : K)] := by
    rw [h0, one_mulVec]
    funext i
    fin_cases i <;> simp [referenceTranslation, sub_eq_add_neg]
  constructor
  · rw [hq]
    exact hrows
  · unfold pinhole
    rw [hq]
    have hc : f.camera *ᵥ ![p.x - ((f.cols / 2 : ℤ) : K), p.y - ((f.rows / 2 : ℤ) : K), (f.rows : K)] =
        ![f.rows * p.x, f.rows * p.y, (f.rows : K)] := by
      funext i
      fin_cases i <;>
        simp [CameraFrame.camera, mulVec, dotProduct, Fin.sum_univ_three, tdiv_two_cast hx,
          tdiv_two_cast hy] <;> ring
    rw [hc]
    show (⟨f.rows * p.x / f.rows, f.rows * p.y / f.rows⟩ : Point2f K) = p
    rw [mul_div_cancel_left₀ _ hrows.ne', mul_div_cancel_left₀ _ hrows.ne']

/-- The whole model of a reference. -/
theorem reprojects (h0 : cv.Rodrigues 0 = 1) (hx : 0 < f.cols) (hy : 0 < f.rows)
    (ps : List (Point2f K)) :
    List.Forall₂ (Reprojects cv f.camera 0 (referenceTranslation f)) (modelPointsOf ps) ps := by
  unfold modelPointsOf
  rw [List.forall₂_map_left_iff, List.forall₂_same]
  intro p _
  exact reprojects_point h0 hx hy p

/-- What `estimate_pose` makes of the reference pose. -/
theorem ofSolution_reference (h0 : cv.Rodrigues 0 = 1) (f : CameraFrame K) :
    Pose.ofSolution cv (0, referenceTranslation f) = ⟨1, 0, exportedTranslation f⟩ := by
  unfold Pose.ofSolution
  simp only [neg_zero, h0]
  congr 1
  funext i
  unfold restvec
  rw [one_mulVec]
  fin_cases i <;> simp [referenceTranslation, exportedTranslation] <;> ring

/-! ### Seeing the frame again -/

/-- Setting the reference keeps the translation, and the frame seen again is solved. -/
theorem replay_session (h0 : cv.Rodrigues 0 = 1) (hset : f.SetsReference a.reference.length)
    (h3 : 3 ≤ f.points.length) (hagain : f.SeenAgain f')
    (hsolve : (f'.solvePnPGeneric (modelPointsOf (imagePoints cv f.points))
      (imagePoints cv f.points) f.camera).head? = some (0, referenceTranslation f)) :
    ((a.frame cv f).frame cv f').pose = ⟨1, 0, exportedTranslation f⟩ := by
  rw [Session.frame_of_sets hset, Session.frame_solver]
  · simp only [hagain.points, hagain.camera, hsolve]
    exact ofSolution_reference h0 f
  · refine ⟨hagain.touchStatus, ?_, ?_⟩
    · rw [hagain.points]
      exact h3
    · rw [hagain.points, length_imagePoints]

section Outputs

variable {o₁ : FrameOut K}

omit [IsStrictOrderedRing K] in
/-- The frame that sets the reference. -/
theorem reference_output (hr : Refines s a) (hset : f.SetsReference s.modelPoints.length)
    (hf : convertRGBtoGray cv s f = some (s₁, o₁)) :
    s₁.modelPoints = modelPointsOf (imagePoints cv f.points) ∧
      o₁.rotation = modelMatrix 1 a.pose.t := by
  rw [hr.length_model] at hset
  obtain ⟨o, ho, -, hrot⟩ := frame_refines cv hr f
  rw [hf] at ho
  cases ho
  refine ⟨?_, ?_⟩
  · rw [(afterFrame_refines cv hr f).model, Session.frame_of_sets hset]
  · rw [hrot, Session.frame_of_sets hset]

/-- The frame seen again. -/
theorem replay_output (h0 : cv.Rodrigues 0 = 1) (hr : Refines s a)
    (hset : f.SetsReference s.modelPoints.length) (h3 : 3 ≤ f.points.length)
    (hf : convertRGBtoGray cv s f = some (s₁, o₁)) (hagain : f.SeenAgain f')
    (hsolve : (f'.solvePnPGeneric s₁.modelPoints (imagePoints cv f.points) f.camera).head? =
      some (0, referenceTranslation f)) :
    ∃ s₂ o₂, convertRGBtoGray cv s₁ f' = some (s₂, o₂) ∧
      o₂.rotation = modelMatrix 1 (exportedTranslation f) := by
  rw [(reference_output hr hset hf).1] at hsolve
  rw [hr.length_model] at hset
  have hr₁ : Refines s₁ (a.frame cv f) := by
    rw [frame_state hr hf]
    exact afterFrame_refines cv hr f
  obtain ⟨o₂, ho₂, -, hrot₂⟩ := frame_refines cv hr₁ f'
  exact ⟨_, o₂, ho₂, by rw [hrot₂, replay_session h0 hset h3 hagain hsolve]⟩

omit [IsStrictOrderedRing K] in
/-- Some frame shows the same again and is answered with the reference pose. -/
theorem exists_seenAgain (cv : OpenCv K) (f : CameraFrame K) (s₁ : NativeState K) :
    ∃ f', f.SeenAgain f' ∧
      (f'.solvePnPGeneric s₁.modelPoints (imagePoints cv f.points) f.camera).head? =
        some (0, referenceTranslation f) :=
  ⟨⟨f.rows, f.cols, 1, f.contours, fun _ _ _ => [(0, referenceTranslation f)]⟩,
    ⟨rfl, rfl, rfl, one_ne_zero⟩, rfl⟩

theorem staysInPlace_iff (h0 : cv.Rodrigues 0 = 1) (hr : Refines s a)
    (hset : f.SetsReference s.modelPoints.length) (h3 : 3 ≤ f.points.length)
    (hf : convertRGBtoGray cv s f = some (s₁, o₁)) :
    StaysInPlace cv f s₁ o₁ ↔ a.pose.t = exportedTranslation f := by
  obtain ⟨-, hrot⟩ := reference_output hr hset hf
  constructor
  · intro h
    obtain ⟨f', hagain, hsolve⟩ := exists_seenAgain cv f s₁
    obtain ⟨s₂, o₂, ho₂, hrot₂⟩ := replay_output h0 hr hset h3 hf hagain hsolve
    obtain ⟨s₃, o₃, ho₃, hsame⟩ := h f' hagain hsolve
    rw [ho₂] at ho₃
    cases ho₃
    rw [hrot₂, hrot] at hsame
    exact (modelMatrix_translation hsame).symm
  · intro h f' hagain hsolve
    obtain ⟨s₂, o₂, ho₂, hrot₂⟩ := replay_output h0 hr hset h3 hf hagain hsolve
    exact ⟨s₂, o₂, ho₂, by rw [hrot₂, hrot, h]⟩

end Outputs

/-- **Replaying the reference frame.**  In every state a run reaches, a frame of at least three
points that sets the reference gets a model which the reference pose projects back to the image;
and seeing the frame again leaves the exported matrix alone if and only if the translation tracked
before the frame already was that of the reference pose. -/
theorem replay_iff (h0 : cv.Rodrigues 0 = 1) {es : List (Event K)} {o₁ : FrameOut K}
    (hs : runEvents cv es = some s) (hx : 0 < f.cols) (hy : 0 < f.rows)
    (h3 : 3 ≤ f.points.length) (hset : f.SetsReference s.modelPoints.length)
    (hf : convertRGBtoGray cv s f = some (s₁, o₁)) :
    List.Forall₂ (Reprojects cv f.camera 0 (referenceTranslation f)) s₁.modelPoints
        (imagePoints cv f.points) ∧
      (StaysInPlace cv f s₁ o₁ ↔
        s.mem.vecs.read s.objLeft.gt = some (exportedTranslation f)) := by
  have hr := refines_of_frame hs hf
  constructor
  · rw [(reference_output hr hset hf).1]
    exact reprojects h0 hx hy _
  · rw [staysInPlace_iff h0 hr hset h3 hf, hr.gt, Option.some.injEq]

/-! ### Two runs -/

/-- The solver answers with the reference pose of a `720 × 1600` frame. -/
def referenceSolve : Solver ℝ := fun _ _ _ => [(0, ![-800, -360, 710])]

theorem referenceTranslation_sample (touchStatus : ℤ) :
    referenceTranslation (sampleFrame touchStatus referenceSolve) = ![-800, -360, 710] := by
  funext i
  fin_cases i <;> norm_num [referenceTranslation, sampleFrame, markerFrame]

/-- The first reference after `InitMatrix`: the object jumps when the frame is seen again. -/
theorem replay_moves : ∃ s s₁ o₁, runEvents realCv [.initMatrix] = some s ∧
    (sampleFrame 1 referenceSolve).SetsReference s.modelPoints.length ∧
    convertRGBtoGray realCv s (sampleFrame 1 referenceSolve) = some (s₁, o₁) ∧
    ¬ StaysInPlace realCv (sampleFrame 1 referenceSolve) s₁ o₁ := by
  obtain ⟨s, hs, hr, -⟩ := runEvents_defined realCv []
  obtain ⟨o₁, ho₁, -⟩ := frame_refines realCv hr (sampleFrame 1 referenceSolve)
  have hset : (sampleFrame 1 referenceSolve).SetsReference s.modelPoints.length := by
    apply sampleFrame_sets
    right
    rw [hr.length_model]
    decide
  have h3 : 3 ≤ (sampleFrame 1 referenceSolve).points.length := by
    rw [sampleFrame_points]
    simp
  refine ⟨s, _, o₁, hs, hset, ho₁, ?_⟩
  rw [staysInPlace_iff Rotation.rodrigues_zero hr hset h3 ho₁]
  intro h
  -- `InitMatrix` has set the translation to zero
  have h2 : (0 : ℝ) = (720 - 9) / 100 := congrFun h 2
  norm_num at h2

/-- A reference set while the object is at the reference pose. -/
theorem replay_iff_sample : ∃ s s₁ o₁,
    runEvents realCv [.initMatrix, .frame (sampleFrame 1 referenceSolve),
      .frame (sampleFrame 1 referenceSolve)] = some s ∧
    convertRGBtoGray realCv s (sampleFrame 0 referenceSolve) = some (s₁, o₁) ∧
    StaysInPlace realCv (sampleFrame 0 referenceSolve) s₁ o₁ := by
  obtain ⟨s, hs, hr, -⟩ := runEvents_defined realCv
    [.frame (sampleFrame 1 referenceSolve), .frame (sampleFrame 1 referenceSolve)]
  obtain ⟨o₁, ho₁, -⟩ := frame_refines realCv hr (sampleFrame 0 referenceSolve)
  refine ⟨s, _, o₁, hs, ho₁, ?_⟩
  have h3 : ∀ touchStatus, 3 ≤ (sampleFrame touchStatus referenceSolve).points.length := by
    intro touchStatus
    rw [sampleFrame_points]
    simp
  refine (replay_iff Rotation.rodrigues_zero hs (by decide) (by decide) (h3 0)
    (sampleFrame_sets (Or.inl rfl)) ho₁).2.2 ?_
  have hpose : (sessionAfter realCv [.initMatrix, .frame (sampleFrame 1 referenceSolve),
      .frame (sampleFrame 1 referenceSolve)]).pose =
        ⟨1, 0, exportedTranslation (sampleFrame 1 referenceSolve)⟩ := by
    refine replay_session (a := ⟨[], .initial⟩) Rotation.rodrigues_zero
      (sampleFrame_sets (Or.inr (by simp))) (h3 1) ⟨rfl, rfl, rfl, one_ne_zero⟩ ?_
    rw [referenceTranslation_sample]
    rfl
  rw [hr.gt, hpose]
  rfl

end Controller
