import Controller.Native.Coherence
import Controller.App.MyGLRenderer

/-!
# Is the exported matrix the solved pose?

A solved frame with rotation vector `r` and translation `t` should draw the model at
`p ↦ R p + (R o + t) / 100` with `R = Rodrigues(r)` and `o = (1, 1, 1)`, the offset that moves the
translation "to refer to the center of the paper".

`estimate_pose` negates `r` first and so works with the transpose of `R`.  For the rotation this is
undone when OpenGL reads the rows as columns, so the block that is drawn is `R`; for the offset it
is not, and the translation is `(Rᵀ o + t) / 100`.  The two agree exactly when turning `o` twice
brings it back: `exports_solved_pose_iff`.  For the rotation of a vector `r` this means that `r` is
a multiple of `(1, 1, 1)` or turns by a multiple of `π` (`turns_back_iff`).
-/

namespace Controller

open Matrix

variable {K : Type} [Field K]

/-- What OpenCV documents of `Rodrigues`. -/
structure OpenCv.Rotations (cv : OpenCv K) : Prop where
  neg : ∀ v, cv.Rodrigues (-v) = (cv.Rodrigues v)ᵀ
  orthogonal : ∀ v, cv.Rodrigues v * (cv.Rodrigues v)ᵀ = 1

/-- The offset that moves the translation vector. -/
def factor : Vec3 K := ![1, 1, 1]

/-- The vertex shader applies a matrix to a point of the model. -/
def transform (M : Matrix (Fin 4) (Fin 4) K) (p : Vec3 K) : Fin 4 → K := M *ᵥ ![p 0, p 1, p 2, 1]

/-- Where the solved pose puts a point of the model. -/
def solvedPoint (cv : OpenCv K) (sol : Vec3 K × Vec3 K) (p : Vec3 K) : Vec3 K :=
  cv.Rodrigues sol.1 *ᵥ p + (100 : K)⁻¹ • (cv.Rodrigues sol.1 *ᵥ factor + sol.2)

/-- The sixteen floats act on the model as the solved pose does. -/
def ActsAsSolved (cv : OpenCv K) (sol : Vec3 K × Vec3 K) (a : Fin 16 → K) : Prop :=
  ∀ p, transform (colMajor a) p =
    ![solvedPoint cv sol p 0, solvedPoint cv sol p 1, solvedPoint cv sol p 2, 1]

/-- The solved rotation, applied twice, brings the offset back. -/
def TurnsBack (cv : OpenCv K) (sol : Vec3 K × Vec3 K) : Prop :=
  cv.Rodrigues sol.1 *ᵥ (cv.Rodrigues sol.1 *ᵥ factor) = factor

variable {cv : OpenCv K} {sol : Vec3 K × Vec3 K}

/-! ### The action of the exported floats -/

/-- Read column by column, the floats of a pose act by the transposed rotation. -/
theorem transform_modelMatrix (R : Mat33 K) (t p : Vec3 K) :
    transform (colMajor (modelMatrix R t)) p =
      ![(Rᵀ *ᵥ p + t) 0, (Rᵀ *ᵥ p + t) 1, (Rᵀ *ᵥ p + t) 2, 1] := by
  funext i
  fin_cases i <;>
    simp [transform, colMajor, modelMatrix, mulVec, dotProduct, Fin.sum_univ_four,
      Fin.sum_univ_three]

theorem OpenCv.Rotations.transpose_neg (h : cv.Rotations) (v : Vec3 K) :
    (cv.Rodrigues (-v))ᵀ = cv.Rodrigues v := by
  rw [h.neg, transpose_transpose]

/-- The pose of a solution, exported, acts by the solved rotation and by a translation whose offset
is turned the other way. -/
theorem transform_ofSolution (h : cv.Rotations) (sol : Vec3 K × Vec3 K) (p : Vec3 K) :
    transform (colMajor (modelMatrix (Pose.ofSolution cv sol).R (Pose.ofSolution cv sol).t)) p =
      let q := cv.Rodrigues sol.1 *ᵥ p + (100 : K)⁻¹ • ((cv.Rodrigues sol.1)ᵀ *ᵥ factor + sol.2)
      ![q 0, q 1, q 2, 1] := by
  have ht : restvec (cv.Rodrigues (-sol.1)) sol.2 =
      (100 : K)⁻¹ • ((cv.Rodrigues sol.1)ᵀ *ᵥ factor + sol.2) := by
    funext i
    rw [h.neg]
    show (sol.2 i + ((cv.Rodrigues sol.1)ᵀ *ᵥ ![1, 1, 1]) i) / 100 = _
    simp only [Pi.smul_apply, Pi.add_apply, smul_eq_mul, factor]
    rw [add_comm, div_eq_inv_mul]
  rw [transform_modelMatrix]
  show _ = ![_, _, _, _]
  simp only [Pose.ofSolution, ht, h.transpose_neg]

theorem factor_eq_iff (h : cv.Rotations) (sol : Vec3 K × Vec3 K) :
    cv.Rodrigues sol.1 *ᵥ factor = (cv.Rodrigues sol.1)ᵀ *ᵥ factor ↔ TurnsBack cv sol := by
  have hR := h.orthogonal sol.1
  have hR' : (cv.Rodrigues sol.1)ᵀ * cv.Rodrigues sol.1 = 1 := mul_eq_one_comm.1 hR
  unfold TurnsBack
  constructor
  · intro e
    rw [e, mulVec_mulVec, hR, one_mulVec]
  · intro e
    calc cv.Rodrigues sol.1 *ᵥ factor
        = (cv.Rodrigues sol.1)ᵀ *ᵥ (cv.Rodrigues sol.1 *ᵥ (cv.Rodrigues sol.1 *ᵥ factor)) := by
          rw [mulVec_mulVec _ (cv.Rodrigues sol.1)ᵀ, hR', one_mulVec]
      _ = (cv.Rodrigues sol.1)ᵀ *ᵥ factor := by rw [e]

variable [LinearOrder K] [IsStrictOrderedRing K]

theorem actsAsSolved_iff (h : cv.Rotations) (sol : Vec3 K × Vec3 K) :
    ActsAsSolved cv sol (modelMatrix (Pose.ofSolution cv sol).R (Pose.ofSolution cv sol).t) ↔
      TurnsBack cv sol := by
  rw [← factor_eq_iff h]
  have h100 : (100 : K)⁻¹ ≠ 0 := inv_ne_zero (by norm_num)
  unfold ActsAsSolved
  constructor
  · intro hact
    -- at the origin only the translations are left
    have h0 := hact 0
    rw [transform_ofSolution h] at h0
    funext i
    have hi : ((100 : K)⁻¹ • ((cv.Rodrigues sol.1)ᵀ *ᵥ factor + sol.2)) i =
        ((100 : K)⁻¹ • (cv.Rodrigues sol.1 *ᵥ factor + sol.2)) i := by
      have e := congrFun h0 i.castSucc
      fin_cases i <;> simpa [solvedPoint] using e
    simp only [Pi.smul_apply, Pi.add_apply, smul_eq_mul] at hi
    exact (add_right_cancel (mul_left_cancel₀ h100 hi)).symm
  · intro e p
    rw [transform_ofSolution h, ← e]
    rfl

/-! ### Frames -/

omit [IsStrictOrderedRing K] in
/-- What a frame with a solution exports. -/
theorem rotation_of_solved {es : List (Event K)} {s s' : NativeState K} {f : CameraFrame K}
    {o : FrameOut K} {rest : List (Vec3 K × Vec3 K)} (hs : runEvents cv es = some s)
    (hf : convertRGBtoGray cv s f = some (s', o)) (hsol : frameSolutions cv s f = sol :: rest) :
    o.rotation = modelMatrix (Pose.ofSolution cv sol).R (Pose.ofSolution cv sol).t := by
  have hr := refines_of_frame hs hf
  obtain ⟨o', ho', -, hrot⟩ := frame_refines cv hr f
  rw [hf] at ho'
  cases ho'
  rw [hrot, frame_pose_solved hr hsol]

/-- **The exported matrix and the solved pose.**  On every frame with a solution, in every state a
run reaches, the rotation that is drawn is the solved one; and the sixteen floats act on the model
as the solved pose does if and only if the solved rotation, applied twice, brings the offset back. -/
theorem exports_solved_pose_iff (hcv : cv.Rotations) {es : List (Event K)} {s s' : NativeState K}
    {f : CameraFrame K} {o : FrameOut K} {rest : List (Vec3 K × Vec3 K)}
    (hs : runEvents cv es = some s) (hf : convertRGBtoGray cv s f = some (s', o))
    (hsol : frameSolutions cv s f = sol :: rest) :
    rotationBlock (colMajor o.rotation) = cv.Rodrigues sol.1 ∧
      (ActsAsSolved cv sol o.rotation ↔ TurnsBack cv sol) := by
  rw [rotation_of_solved hs hf hsol]
  refine ⟨?_, actsAsSolved_iff hcv sol⟩
  rw [rotationBlock_modelMatrix]
  exact hcv.transpose_neg sol.1

/-! ### OpenCV's rotations -/

theorem realCv_rotations : realCv.Rotations where
  neg := Rotation.rodrigues_neg
  orthogonal := Rotation.rodrigues_orthogonal

/-- For the rotation of a vector: it is a multiple of the offset, or turns by a multiple of `π`. -/
theorem turns_back_iff (sol : Vec3 ℝ × Vec3 ℝ) : TurnsBack realCv sol ↔
    Real.sin (Rotation.angle sol.1) = 0 ∨ sol.1 0 = sol.1 1 ∧ sol.1 1 = sol.1 2 :=
  (factor_eq_iff realCv_rotations sol).symm.trans (Rotation.rodrigues_ones_iff sol.1)

/-- A solver that finds the rotation by `θ` in the image plane and the translation `t`. -/
def turned (θ : ℝ) (t : Vec3 ℝ) : Solver ℝ := fun _ _ _ => [(![0, 0, θ], t)]

/-- A sample frame sets the reference, then three markers are seen and solved. -/
theorem turned_run (θ : ℝ) (t : Vec3 ℝ) (ps : List (Point2f ℝ)) (hps : ∀ p ∈ ps, p.y ≠ 0)
    (hlen : ps.length = 3) : ∃ s s' o,
    runEvents realCv [.initMatrix, .frame (sampleFrame 1 (turned θ t))] = some s ∧
      convertRGBtoGray realCv s (markerFrame ps 1 (turned θ t)) = some (s', o) ∧
      frameSolutions realCv s (markerFrame ps 1 (turned θ t)) = [(![0, 0, θ], t)] := by
  obtain ⟨s, hs, hr, -⟩ := runEvents_defined realCv [.frame (sampleFrame 1 (turned θ t))]
  obtain ⟨o, ho, -⟩ := frame_refines realCv hr (markerFrame ps 1 (turned θ t))
  exact ⟨s, _, o, hs, ho, markerFrame_solutions hps hlen hs⟩

theorem angle_third {θ : ℝ} (h : 0 ≤ θ) : Rotation.angle ![0, 0, θ] = θ := by
  simp [Rotation.angle, Real.sqrt_sq h]

/-- The three markers, turned by half a turn in the image: the floats are the solved pose. -/
theorem exports_solved_pose_half_turn : ∃ s s' o,
    runEvents realCv
        [.initMatrix, .frame (sampleFrame 1 (turned Real.pi ![-500, -160, 710]))] = some s ∧
      convertRGBtoGray realCv s (markerFrame [⟨200, 100⟩, ⟨160, 100⟩, ⟨90, 100⟩] 1
        (turned Real.pi ![-500, -160, 710])) = some (s', o) ∧
      ActsAsSolved realCv (![0, 0, Real.pi], ![-500, -160, 710]) o.rotation := by
  obtain ⟨s, s', o, hs, hf, hsol⟩ := turned_run Real.pi ![-500, -160, 710]
    [⟨200, 100⟩, ⟨160, 100⟩, ⟨90, 100⟩] (by simp) rfl
  refine ⟨s, s', o, hs, hf, (exports_solved_pose_iff realCv_rotations hs hf hsol).2.2 ?_⟩
  apply (turns_back_iff _).2
  left
  rw [angle_third Real.pi_pos.le]
  exact Real.sin_pi

/-- The three markers, turned by a quarter turn in the image: they are not. -/
theorem exports_other_pose : ∃ s s' o,
    runEvents realCv
        [.initMatrix, .frame (sampleFrame 1 (turned (Real.pi / 2) ![-600, -360, 710]))] = some s ∧
      convertRGBtoGray realCv s (markerFrame [⟨100, 100⟩, ⟨100, 140⟩, ⟨100, 210⟩] 1
        (turned (Real.pi / 2) ![-600, -360, 710])) = some (s', o) ∧
      frameSolutions realCv s (markerFrame [⟨100, 100⟩, ⟨100, 140⟩, ⟨100, 210⟩] 1
        (turned (Real.pi / 2) ![-600, -360, 710])) =
          [(![0, 0, Real.pi / 2], ![-600, -360, 710])] ∧
      ¬ ActsAsSolved realCv (![0, 0, Real.pi / 2], ![-600, -360, 710]) o.rotation := by
  have hpos : 0 < Real.pi / 2 := by positivity
  obtain ⟨s, s', o, hs, hf, hsol⟩ := turned_run (Real.pi / 2) ![-600, -360, 710]
    [⟨100, 100⟩, ⟨100, 140⟩, ⟨100, 210⟩] (by simp) rfl
  refine ⟨s, s', o, hs, hf, hsol, ?_⟩
  rw [rotation_of_solved hs hf hsol, actsAsSolved_iff realCv_rotations, turns_back_iff,
    angle_third hpos.le, Real.sin_pi_div_two]
  rintro (h | ⟨-, h⟩)
  · exact one_ne_zero h
  · exact hpos.ne h

end Controller
