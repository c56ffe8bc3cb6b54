import Controller.Native.Coherence

/-!
# The axis drawn on a frame

When a frame reaches the solver, `estimate_pose` draws a red line from the average of the points to
the projection of `(0, 0, 100)`.  The projection is computed from `irvec` and `itvec`, which take the
first solution only further down; at the call of `projectPoints` they are zero.

`axis_follows_iff`: the line ends at the projection under the solved pose if and only if that pose
has `(0, 0, 100)` on the optical axis, off the plane of the camera, or the frame has no rows; and two
frames whose poses project it to different points have lines with different ends only when the
centres of the frames differ.  `axis_stays` is a solved frame whose line ends elsewhere.

What `projectPoints` returns for a point at depth `0` is left open.
-/

namespace Controller

open Matrix

variable {K : Type} [Field K] [LinearOrder K]

/-- The point `p` in camera coordinates. -/
def cameraCoords (cv : OpenCv K) (p : Point3f K) (r t : Vec3 K) : Vec3 K :=
  cv.Rodrigues r *ᵥ ![p.x, p.y, p.z] + t

/-- `q` is the pinhole projection of `p`, which has a depth. -/
def IsProjection (cv : OpenCv K) (p : Point3f K) (r t : Vec3 K) (c : Mat33 K) (q : Point2f K) :
    Prop :=
  (c *ᵥ cameraCoords cv p r t) 2 ≠ 0 ∧ q = pinhole cv.Rodrigues p r t c

/-- What is used of OpenCV: the zero vector is no rotation, and `projectPoints` is the pinhole
projection. -/
structure OpenCv.Pinhole (cv : OpenCv K) : Prop where
  rodrigues_zero : cv.Rodrigues 0 = 1
  projects : ∀ p r t c q, IsProjection cv p r t c q → cv.projectPoints p r t c = q

/-- The end of the axis of the object. -/
def axisPoint : Point3f K := ⟨0, 0, 100⟩

/-- The centre of the image, as the camera matrix has it. -/
def CameraFrame.center (f : CameraFrame K) : Point2f K :=
  ⟨((f.cols.tdiv 2 : ℤ) : K), ((f.rows.tdiv 2 : ℤ) : K)⟩

/-- The drawing call is a line in red. -/
def Draw.isAxis : Draw K → Bool
  | .line _ _ color => color = (0, 0, 255)
  | _ => false

/-- A frame of a run that is solved: the globals `s` before it, its outcome and the first
solution. -/
structure SolvedFrame (cv : OpenCv K) where
  es : List (Event K)
  s : NativeState K
  f : CameraFrame K
  s' : NativeState K
  out : FrameOut K
  sol : Vec3 K × Vec3 K
  rest : List (Vec3 K × Vec3 K)
  run : runEvents cv es = some s
  outcome : convertRGBtoGray cv s f = some (s', out)
  solved : frameSolutions cv s f = sol :: rest

namespace SolvedFrame

variable {cv : OpenCv K}

/-- The frame draws one line in red, from the average of its points to `q`. -/
def DrawsTo (d : SolvedFrame cv) (q : Point2f K) : Prop :=
  d.out.draws.filter Draw.isAxis = [.line (avgCoord d.f.points) q (0, 0, 255)]

/-- `q` is where the solved pose projects the end of the axis. -/
def ProjectsTo (d : SolvedFrame cv) (q : Point2f K) : Prop :=
  IsProjection cv axisPoint d.sol.1 d.sol.2 d.f.camera q

/-- The drawn axis follows the pose. -/
def AxisFollows (d : SolvedFrame cv) : Prop := ∃ q, d.DrawsTo q ∧ d.ProjectsTo q

/-- If the poses of two frames project the axis differently, the lines end differently. -/
def ToldApart (d₁ d₂ : SolvedFrame cv) : Prop :=
  ∀ p₁ p₂ q₁ q₂, d₁.ProjectsTo p₁ → d₂.ProjectsTo p₂ → d₁.DrawsTo q₁ → d₂.DrawsTo q₂ → p₁ ≠ p₂ →
    q₁ ≠ q₂

/-- The solved pose has the end of the axis on the optical axis and off the plane of the camera;
with no rows the focal length is `0` and only the plane matters. -/
def OnOpticalAxis (d : SolvedFrame cv) : Prop :=
  let x := cameraCoords cv axisPoint d.sol.1 d.sol.2
  x 2 ≠ 0 ∧ (d.f.rows = 0 ∨ x 0 = 0 ∧ x 1 = 0)

end SolvedFrame

/-! ### What is drawn -/

omit [LinearOrder K] in
/-- The drawing loop draws nothing in red. -/
theorem drawLoop_no_axis {mid : Point2f K} {ps : List (Point2f K)} {qs : List (Point3f K)} {n : ℕ}
    {ds : List (Draw K)} (h : drawLoop mid ps qs n = some ds) : ds.filter Draw.isAxis = [] := by
  induction n generalizing ds with
  | zero => cases h; rfl
  | succ n ih =>
    unfold drawLoop at h ih
    rw [List.range_succ, List.foldlM_append] at h
    obtain ⟨acc, hacc, h⟩ := Option.bind_eq_some_iff.1 h
    simp only [List.foldlM_cons, List.foldlM_nil, bind_assoc] at h
    obtain ⟨p, -, h⟩ := Option.bind_eq_some_iff.1 h
    obtain ⟨q, -, h⟩ := Option.bind_eq_some_iff.1 h
    cases h
    rw [List.filter_append, ih hacc]
    rfl

omit [Field K] [LinearOrder K] in
theorem filter_circles {α : Type} (xs : List α) (center : α → Point2f K) (radius : ℕ)
    (color : ℕ × ℕ × ℕ) :
    (xs.map fun x => Draw.circle (center x) radius color).filter Draw.isAxis = [] := by
  refine List.filter_eq_nil_iff.2 fun d hd => ?_
  obtain ⟨x, -, rfl⟩ := List.mem_map.1 hd
  exact Bool.false_ne_true

section Draws

variable {cv : OpenCv K} {s s' : NativeState K} {f : CameraFrame K} {o : FrameOut K}

theorem frameEstimate_draws_solver (hr : f.ReachesSolver s.modelPoints.length) :
    (frameEstimate cv s f).draws = solverDraws cv s f := by
  rw [frameEstimate_solver hr]
  cases f.solvePnPGeneric s.modelPoints (imagePoints cv f.points) f.camera <;> rfl

/-- A frame that reaches the solver draws its line to the projection under the zero pose. -/
theorem draws_axis (hr : f.ReachesSolver s.modelPoints.length)
    (hf : convertRGBtoGray cv s f = some (s', o)) : o.draws.filter Draw.isAxis =
      [.line (avgCoord f.points) (cv.projectPoints axisPoint 0 0 f.camera) (0, 0, 255)] := by
  have hlen : (detectPoints (beginFrame s f).info f.contours).2.1.length ≠ 0 := by
    change f.points.length ≠ 0
    have h3 := hr.2.1
    omega
  unfold convertRGBtoGray at hf
  rw [if_pos hlen] at hf
  obtain ⟨drawn, hdrawn, hf⟩ := Option.bind_eq_some_iff.1 hf
  obtain ⟨v, -, hv⟩ := Option.map_eq_some_iff.1 hf
  cases hv
  rw [frameEstimate_draws_solver hr] at hdrawn
  obtain ⟨ds, hds, rfl⟩ := Option.map_eq_some_iff.1 hdrawn
  -- the circles of small contours and of the points, the line, and the loop
  have hsmall : (detectPoints (beginFrame s f).info f.contours).2.2.filter Draw.isAxis = [] :=
    filter_circles _ Contour.centroid 1 (128, 128, 128)
  have hmarks : ((detectPoints (beginFrame s f).info f.contours).2.1.map fun p =>
      Draw.circle p 5 (255, 255, 255)).filter Draw.isAxis = [] :=
    filter_circles _ (fun p => p) 5 (255, 255, 255)
  show List.filter _ (_ ++ _ ++ Draw.line _ _ _ :: ds) = _
  rw [List.filter_append, List.filter_append, List.filter_cons_of_pos (by rfl), drawLoop_no_axis hds,
    hsmall, hmarks]
  rfl

end Draws

/-! ### Where it ends -/

section Camera

variable {cv : OpenCv K} {f : CameraFrame K}

omit [LinearOrder K] in
theorem camera_mulVec (f : CameraFrame K) (x : Vec3 K) :
    f.camera *ᵥ x =
      ![f.rows * x 0 + f.center.x * x 2, f.rows * x 1 + f.center.y * x 2, x 2] := by
  funext i
  fin_cases i <;>
    simp [CameraFrame.camera, CameraFrame.center, mulVec, dotProduct, Fin.sum_univ_three]

omit [LinearOrder K] in
/-- The projection in terms of the camera coordinates. -/
theorem isProjection_camera {p : Point3f K} {r t : Vec3 K} {q : Point2f K} :
    IsProjection cv p r t f.camera q ↔ cameraCoords cv p r t 2 ≠ 0 ∧
      q = ⟨f.rows * cameraCoords cv p r t 0 / cameraCoords cv p r t 2 + f.center.x,
        f.rows * cameraCoords cv p r t 1 / cameraCoords cv p r t 2 + f.center.y⟩ := by
  unfold IsProjection
  have hpinhole : pinhole cv.Rodrigues p r t f.camera =
      ⟨(f.camera *ᵥ cameraCoords cv p r t) 0 / (f.camera *ᵥ cameraCoords cv p r t) 2,
        (f.camera *ᵥ cameraCoords cv p r t) 1 / (f.camera *ᵥ cameraCoords cv p r t) 2⟩ := rfl
  rw [hpinhole, camera_mulVec]
  refine and_congr_right fun hx => ?_
  change cameraCoords cv p r t 2 ≠ 0 at hx
  simp only [cons_val_zero, cons_val_one, cons_val, add_div, mul_div_cancel_right₀ _ hx]

variable [IsStrictOrderedRing K]

/-- The zero pose projects the axis to the centre of the image. -/
theorem projectPoints_zero (hcv : cv.Pinhole) (f : CameraFrame K) :
    cv.projectPoints axisPoint 0 0 f.camera = f.center := by
  have hx : cameraCoords cv axisPoint 0 0 = ![0, 0, 100] := by
    rw [cameraCoords, hcv.rodrigues_zero, one_mulVec, add_zero]
    rfl
  refine hcv.projects _ _ _ _ _ (isProjection_camera.2 ?_)
  rw [hx]
  simp

/-- The centre is the projection of the points on the optical axis. -/
theorem isProjection_center_iff {p : Point3f K} {r t : Vec3 K} :
    IsProjection cv p r t f.camera f.center ↔ cameraCoords cv p r t 2 ≠ 0 ∧
      (f.rows = 0 ∨ cameraCoords cv p r t 0 = 0 ∧ cameraCoords cv p r t 1 = 0) := by
  rw [isProjection_camera]
  refine and_congr_right fun hx => ?_
  have hrows : (f.rows : K) = 0 ↔ f.rows = 0 := Int.cast_eq_zero
  have hsplit : ∀ a b : K, (⟨a + f.center.x, b + f.center.y⟩ : Point2f K) = f.center ↔
      a = 0 ∧ b = 0 := by
    intro a b
    simp [CameraFrame.center]
  rw [eq_comm, hsplit, div_eq_zero_iff, div_eq_zero_iff, mul_eq_zero, mul_eq_zero, hrows]
  simp only [hx, or_false]
  tauto

end Camera

namespace SolvedFrame

variable [IsStrictOrderedRing K] {cv : OpenCv K}

/-- The line always ends at the centre of the image. -/
theorem drawsTo_iff (hcv : cv.Pinhole) (d : SolvedFrame cv) (q : Point2f K) :
    d.DrawsTo q ↔ q = d.f.center := by
  unfold DrawsTo
  rw [draws_axis (reachesSolver_of_solutions d.solved) d.outcome, projectPoints_zero hcv]
  constructor
  · intro h
    cases h
    rfl
  · rintro rfl
    rfl

theorem axisFollows_iff (hcv : cv.Pinhole) (d : SolvedFrame cv) :
    d.AxisFollows ↔ d.OnOpticalAxis := by
  unfold AxisFollows
  simp only [drawsTo_iff hcv, exists_eq_left]
  exact isProjection_center_iff

theorem toldApart_iff (hcv : cv.Pinhole) (d₁ d₂ : SolvedFrame cv) : d₁.ToldApart d₂ ↔
    d₁.f.center ≠ d₂.f.center ∨ ∀ p₁ p₂, d₁.ProjectsTo p₁ → d₂.ProjectsTo p₂ → p₁ = p₂ := by
  unfold ToldApart
  simp only [drawsTo_iff hcv]
  constructor
  · intro h
    by_contra hne
    push Not at hne
    obtain ⟨hcenter, p₁, p₂, h₁, h₂, hp⟩ := hne
    exact h p₁ p₂ _ _ h₁ h₂ rfl rfl hp hcenter
  · rintro h p₁ p₂ q₁ q₂ h₁ h₂ rfl rfl hp
    rcases h with hcenter | hsame
    · exact hcenter
    · exact absurd (hsame p₁ p₂ h₁ h₂) hp

end SolvedFrame

/-- **The drawn axis.**  The line of a solved frame ends at the projection under the solved pose if
and only if the pose has the axis on the optical axis; two solved frames whose poses project it
differently have different lines if and only if the centres of the images differ. -/
theorem axis_follows_iff [IsStrictOrderedRing K] (cv : OpenCv K) (hcv : cv.Pinhole) :
    (∀ d : SolvedFrame cv, d.AxisFollows ↔ d.OnOpticalAxis) ∧
    ∀ d₁ d₂ : SolvedFrame cv, d₁.ToldApart d₂ ↔ d₁.f.center ≠ d₂.f.center ∨
      ∀ p₁ p₂, d₁.ProjectsTo p₁ → d₂.ProjectsTo p₂ → p₁ = p₂ :=
  ⟨SolvedFrame.axisFollows_iff hcv, SolvedFrame.toldApart_iff hcv⟩

/-! ### Two frames -/

theorem realCv_pinhole : realCv.Pinhole where
  rodrigues_zero := Rotation.rodrigues_zero
  projects := by
    rintro p r t c q ⟨-, rfl⟩
    rfl

theorem cameraCoords_zero (p : Point3f ℝ) (t : Vec3 ℝ) :
    cameraCoords realCv p 0 t = ![p.x, p.y, p.z] + t := by
  rw [cameraCoords, realCv_pinhole.rodrigues_zero, one_mulVec]

/-- The sample frame, seen again and solved by `sol`. -/
theorem exists_solvedFrame (sol : Vec3 ℝ × Vec3 ℝ) : ∃ d : SolvedFrame realCv,
    d.f = sampleFrame 1 (fun _ _ _ => [sol]) ∧ d.sol = sol := by
  obtain ⟨s, hs, hr, -⟩ := runEvents_defined realCv [.frame (sampleFrame 1 fun _ _ _ => [sol])]
  obtain ⟨o, ho, -⟩ := frame_refines realCv hr (sampleFrame 1 fun _ _ _ => [sol])
  exact ⟨⟨_, s, _, _, o, sol, [], hs, ho, markerFrame_solutions (by simp) rfl hs⟩, rfl, rfl⟩

/-- The object is straight ahead. -/
theorem axis_follows_iff_ahead : realCv.Pinhole ∧ ∃ d : SolvedFrame realCv,
    d.sol = (0, ![0, 0, 710]) ∧ d.AxisFollows := by
  obtain ⟨d, -, hsol⟩ := exists_solvedFrame (0, ![0, 0, 710])
  refine ⟨realCv_pinhole, d, hsol, ((axis_follows_iff realCv realCv_pinhole).1 d).2 ?_⟩
  unfold SolvedFrame.OnOpticalAxis
  rw [hsol, cameraCoords_zero]
  refine ⟨?_, Or.inr ⟨?_, ?_⟩⟩
  · show (100 : ℝ) + 710 ≠ 0
    norm_num
  · exact add_zero 0
  · exact add_zero 0

/-- The object is off the optical axis, at the pose in which the sample frame was taken. -/
theorem axis_stays : ∃ d : SolvedFrame realCv, d.f.rows = 720 ∧ d.f.cols = 1600 ∧
    d.sol = (0, ![-800, -360, 710]) ∧ d.DrawsTo ⟨800, 360⟩ ∧ ¬ d.AxisFollows := by
  obtain ⟨d, hf, hsol⟩ := exists_solvedFrame (0, ![-800, -360, 710])
  have hcenter : d.f.center = ⟨800, 360⟩ := by
    have hcols : Int.tdiv 1600 2 = 800 := rfl
    have hrows : Int.tdiv 720 2 = 360 := rfl
    rw [hf]
    norm_num [CameraFrame.center, sampleFrame, markerFrame, hcols, hrows]
  have hrows : d.f.rows = 720 := by rw [hf]; rfl
  refine ⟨d, hrows, by rw [hf]; rfl, hsol, (d.drawsTo_iff realCv_pinhole _).2 hcenter.symm, ?_⟩
  rw [SolvedFrame.axisFollows_iff realCv_pinhole, SolvedFrame.OnOpticalAxis, hsol,
    cameraCoords_zero, hrows]
  norm_num [axisPoint]

end Controller
