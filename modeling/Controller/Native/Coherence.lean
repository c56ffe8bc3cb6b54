import Controller.Lib.Rodrigues
import Controller.Native.Reference

/-!
# Is the tracked pose one pose?

`objLeft` holds the tracked pose as a rotation matrix `gR`, a rotation vector `gr` and a
translation `gt`.  `Coherent` says that the three describe one pose: the initial one, or the one
some solved frame produced, with `gR = Rodrigues(gr)`.

A solved frame writes all three, but every other frame with points writes only `gR`, from the
`info.R` that was reset to the identity.  So a run stays coherent exactly as long as such frames
meet a rotation that already is the identity (`KeepsPose`): `coherent_run_iff`.
`coherence_fails` is a run that loses it.
-/

namespace Controller

open PartialRun

variable {K : Type} [Field K]

/-- The three matrices of `objLeft`. -/
def trackedPose (s : NativeState K) : Option (Pose K) := do
  let R ← s.mem.mats.read s.objLeft.gR
  let r ← s.mem.vecs.read s.objLeft.gr
  let t ← s.mem.vecs.read s.objLeft.gt
  some ⟨R, r, t⟩

theorem Refines.trackedPose {s : NativeState K} {a : Session K} (h : Refines s a) :
    Controller.trackedPose s = some a.pose := by
  simp [Controller.trackedPose, h.gR, h.gr, h.gt]

variable [LinearOrder K]

/-- The solutions of a frame that reaches the solver, none for the others. -/
def frameSolutions (cv : OpenCv K) (s : NativeState K) (f : CameraFrame K) :
    List (Vec3 K × Vec3 K) :=
  if f.ReachesSolver s.modelPoints.length then
    f.solvePnPGeneric s.modelPoints (imagePoints cv f.points) f.camera
  else []

/-- The frame yields a pose. -/
def Solved (cv : OpenCv K) (s : NativeState K) (f : CameraFrame K) : Prop :=
  frameSolutions cv s f ≠ []

/-- The pose `p` was produced by a solved frame of the run `es`. -/
def ProducedBySolvedFrame (cv : OpenCv K) (es : List (Event K)) (p : Pose K) : Prop :=
  ∃ pre f post t sol rest, es = pre ++ .frame f :: post ∧ runEvents cv pre = some t ∧
    frameSolutions cv t f = sol :: rest ∧ p = .ofSolution cv sol

/-- After the run `es` the fields of `objLeft` describe one pose. -/
def Coherent (cv : OpenCv K) (es : List (Event K)) (s : NativeState K) : Prop :=
  ∃ p, trackedPose s = some p ∧ (p = .initial ∨ ProducedBySolvedFrame cv es p) ∧
    p.R = cv.Rodrigues p.r

/-- The events that leave the three fields together: `InitMatrix`, a frame without points, a frame
that yields a pose, and any frame while the tracked rotation is the identity. -/
def KeepsPose (cv : OpenCv K) (s : NativeState K) : Event K → Prop
  | .initMatrix => True
  | .frame f => f.points = [] ∨ Solved cv s f ∨ s.mem.mats.read s.objLeft.gR = some 1

theorem Refines.solution {cv : OpenCv K} {s : NativeState K} {a : Session K} (h : Refines s a)
    (f : CameraFrame K) : a.solution cv f = (frameSolutions cv s f).head? := by
  unfold Session.solution frameSolutions
  rw [← h.length_model, ← h.model]
  split_ifs <;> rfl

/-- The pose after a frame that yields none. -/
theorem frame_pose_unsolved {cv : OpenCv K} {s : NativeState K} {a : Session K} (h : Refines s a)
    {f : CameraFrame K} (hp : f.points ≠ []) (hs : ¬ Solved cv s f) :
    (a.frame cv f).pose = { a.pose with R := 1 } := by
  have hn : a.solution cv f = none := by
    rw [h.solution, not_not.1 hs]; rfl
  simp [Session.frame, hp, hn]

theorem reachesSolver_of_solutions {cv : OpenCv K} {s : NativeState K} {f : CameraFrame K}
    {sol : Vec3 K × Vec3 K} {rest : List (Vec3 K × Vec3 K)}
    (h : frameSolutions cv s f = sol :: rest) : f.ReachesSolver s.modelPoints.length := by
  by_contra hr
  rw [frameSolutions, if_neg hr] at h
  cases h

theorem frame_pose_solved {cv : OpenCv K} {s : NativeState K} {a : Session K} (h : Refines s a)
    {f : CameraFrame K} {sol : Vec3 K × Vec3 K} {rest : List (Vec3 K × Vec3 K)}
    (hs : frameSolutions cv s f = sol :: rest) : (a.frame cv f).pose = .ofSolution cv sol := by
  have hr := reachesSolver_of_solutions hs
  have hp : f.points ≠ [] := by
    intro hp
    have := hr.2.1
    rw [hp] at this
    simp at this
  have hn : a.solution cv f = some sol := by rw [h.solution, hs]; rfl
  simp [Session.frame, hp, hn]

section Runs

variable {cv : OpenCv K} {es : List (Event K)} {s s' : NativeState K}

theorem ProducedBySolvedFrame.concat {p : Pose K} (h : ProducedBySolvedFrame cv es p)
    (e : Event K) : ProducedBySolvedFrame cv (es ++ [e]) p := by
  obtain ⟨pre, f, post, t, sol, rest, rfl, ht, hs, hp⟩ := h
  exact ⟨pre, f, post ++ [e], t, sol, rest, by simp, ht, hs, hp⟩

/-- One event that `KeepsPose` keeps a run coherent. -/
theorem coherent_step (h0 : cv.Rodrigues 0 = 1) (hrun : runEvents cv es = some s)
    (hr : Refines s (sessionAfter cv es)) (hc : Coherent cv es s) {e : Event K}
    (hk : KeepsPose cv s e) (hstep : eventStep cv s e = some s') : Coherent cv (es ++ [e]) s' := by
  obtain ⟨p, hp, hsrc, hRod⟩ := hc
  rw [hr.trackedPose] at hp
  cases hp
  cases e with
  | initMatrix =>
    cases hstep
    exact ⟨.initial, (initMatrix_refines hr.layout hr.model hr.object).trackedPose, Or.inl rfl,
      h0.symm⟩
  | frame f =>
    obtain ⟨o, ho⟩ := eventStep_frame hstep
    have hr' : Refines s' ((sessionAfter cv es).frame cv f) := by
      rw [frame_state hr ho]; exact afterFrame_refines cv hr f
    refine ⟨_, hr'.trackedPose, ?_⟩
    by_cases hpts : f.points = []
    · rw [Session.frame_nil hpts]
      exact ⟨hsrc.imp_right fun h => h.concat _, hRod⟩
    · by_cases hs : Solved cv s f
      · obtain ⟨sol, rest, hsol⟩ := List.exists_cons_of_ne_nil hs
        rw [frame_pose_solved hr hsol]
        exact ⟨Or.inr ⟨es, f, [], s, sol, rest, rfl, hrun, hsol, rfl⟩, rfl⟩
      · -- the rotation is overwritten by the identity, which it already was
        have hI : (sessionAfter cv es).pose.R = 1 := by
          rcases hk with h | h | h
          · exact absurd h hpts
          · exact absurd h hs
          · rw [hr.gR] at h; exact Option.some.inj h
        have e : (((sessionAfter cv es).frame cv f).pose) = (sessionAfter cv es).pose := by
          rw [frame_pose_unsolved hr hpts hs, ← hI]
        rw [e]
        exact ⟨hsrc.imp_right fun h => h.concat _, hRod⟩

/-- If a run is coherent before and after an event, the event `KeepsPose`. -/
theorem keepsPose_of_coherent (hr : Refines s (sessionAfter cv es)) (hc : Coherent cv es s)
    {e : Event K} (hstep : eventStep cv s e = some s') (hc' : Coherent cv (es ++ [e]) s') :
    KeepsPose cv s e := by
  cases e with
  | initMatrix => trivial
  | frame f =>
    by_cases hpts : f.points = []
    · exact Or.inl hpts
    · by_cases hs : Solved cv s f
      · exact Or.inr (Or.inl hs)
      · obtain ⟨p, hp, -, hRod⟩ := hc
        obtain ⟨p', hp', -, hRod'⟩ := hc'
        obtain ⟨o, ho⟩ := eventStep_frame hstep
        have hr' : Refines s' ((sessionAfter cv es).frame cv f) := by
          rw [frame_state hr ho]; exact afterFrame_refines cv hr f
        rw [hr.trackedPose] at hp
        rw [hr'.trackedPose, frame_pose_unsolved hr hpts hs] at hp'
        cases hp
        cases hp'
        right; right
        rw [hr.gR, hRod, ← hRod']

theorem coherent_initMatrix (h0 : cv.Rodrigues 0 = 1) :
    Coherent cv [.initMatrix] (initMatrix (NativeState.load K)) := by
  have h : Refines (initMatrix (NativeState.load K)) ⟨[], .initial⟩ :=
    initMatrix_refines load_layout rfl rfl
  exact ⟨.initial, h.trackedPose, Or.inl rfl, h0.symm⟩

/-- **Coherence of the tracked pose.**  A run that starts with `InitMatrix` is coherent in every
state it reaches if and only if each of its events `KeepsPose` in the state it meets. -/
theorem coherent_run_iff (cv : OpenCv K) (h0 : cv.Rodrigues 0 = 1) (es : List (Event K)) :
    (∀ pre post s, es = pre ++ post → runEvents cv (.initMatrix :: pre) = some s →
      Coherent cv (.initMatrix :: pre) s) ↔
    Along (eventStep cv) (KeepsPose cv) (initMatrix (NativeState.load K)) es := by
  constructor
  · intro h
    refine along_iff.2 fun pre e post s hes hs => ?_
    obtain ⟨s₁, hs₁, hr, hu⟩ := runEvents_defined cv pre
    have e₁ : some s₁ = some s := hs₁.symm.trans hs
    cases e₁
    obtain ⟨s', hs', -⟩ := eventStep_refines cv hr hu e
    refine keepsPose_of_coherent hr (h pre (e :: post) s hes hs₁) hs' ?_
    refine h (pre ++ [e]) post s' (by simp [hes]) ?_
    rw [← List.cons_append, runEvents, run_concat]
    exact (congrArg (Option.bind · _) hs₁).trans hs'
  · rintro h pre post s rfl hs
    refine run_induction (fun es s => Coherent cv (.initMatrix :: es) s) (coherent_initMatrix h0) ?_
      h.append_left hs
    intro es s e s' hrun hc hk hstep
    have hrun' : runEvents cv (.initMatrix :: es) = some s := hrun
    rcases runEvents_refines hrun' with ⟨h, -⟩ | ⟨-, hr, -⟩
    · cases h
    · exact coherent_step h0 hrun' hr hc hk hstep

end Runs

/-! ### A run that loses the pose -/

/-- Once a sample frame has set the reference, three markers are put to the solver. -/
theorem markerFrame_solutions [IsStrictOrderedRing K] {cv : OpenCv K} {s : NativeState K}
    {solve solve' : Solver K} {ps : List (Point2f K)} (hps : ∀ p ∈ ps, p.y ≠ 0)
    (hlen : ps.length = 3)
    (hs : runEvents cv [.initMatrix, .frame (sampleFrame 1 solve)] = some s) :
    frameSolutions cv s (markerFrame ps 1 solve') =
      solve' s.modelPoints (imagePoints cv ps) (markerFrame ps 1 solve').camera := by
  have hmodel : s.modelPoints.length = 3 := by
    rcases runEvents_refines hs with ⟨h, -⟩ | ⟨-, hr, -⟩
    · cases h
    · rw [hr.length_model]
      show (((⟨[], .initial⟩ : Session K).frame cv (sampleFrame 1 solve)).reference).length = 3
      rw [Session.frame_of_sets (sampleFrame_sets (Or.inr (by simp))), length_imagePoints,
        sampleFrame_points]
      rfl
  have hpts : (markerFrame ps 1 solve').points = ps := markerFrame_points hps 1 solve'
  unfold frameSolutions
  rw [if_pos ⟨one_ne_zero, by rw [hpts, hlen], by rw [hpts, hlen, hmodel]⟩, hpts]
  rfl

/-- OpenCV over the reals. -/
noncomputable def realCv : OpenCv ℝ where
  Rodrigues := Rotation.rodrigues
  projectPoints := pinhole Rotation.rodrigues
  sqrt := Real.sqrt

/-- A solver that sees the markers turned by half a turn. -/
noncomputable def halfTurn : Solver ℝ := fun _ _ _ => [(![0, 0, Real.pi], ![-800, -360, 710])]

/-- A frame sets the reference, the next one is solved, and then the screen is touched. -/
noncomputable def lostRun : List (Event ℝ) :=
  [.initMatrix, .frame (sampleFrame 1 halfTurn), .frame (sampleFrame 1 halfTurn),
    .frame (sampleFrame 0 halfTurn)]

theorem lostRun_pose :
    (sessionAfter realCv lostRun).pose.R = 1 ∧
      (sessionAfter realCv lostRun).pose.r = ![0, 0, -Real.pi] := by
  have h1 : (⟨[], Pose.initial⟩ : Session ℝ).frame realCv (sampleFrame 1 halfTurn) =
      ⟨imagePoints realCv (sampleFrame 1 halfTurn).points, .initial⟩ :=
    Session.frame_of_sets (sampleFrame_sets (Or.inr (by decide)))
  have h2 : (sampleFrame (K := ℝ) 1 halfTurn).ReachesSolver
      (imagePoints realCv (sampleFrame 1 halfTurn).points).length := by
    refine ⟨one_ne_zero, ?_, (length_imagePoints _ _).symm⟩
    rw [sampleFrame_points]
    simp
  have e : sessionAfter realCv lostRun =
      (((⟨[], Pose.initial⟩ : Session ℝ).frame realCv (sampleFrame 1 halfTurn)).frame realCv
        (sampleFrame 1 halfTurn)).frame realCv (sampleFrame 0 halfTurn) := rfl
  have h3 : (⟨imagePoints realCv (sampleFrame 1 halfTurn).points, .initial⟩ : Session ℝ).frame realCv
      (sampleFrame 1 halfTurn) = _ := Session.frame_solver h2
  rw [e, h1, h3, Session.frame_of_sets (sampleFrame_sets (Or.inl rfl))]
  refine ⟨rfl, ?_⟩
  simp [sampleFrame, markerFrame, halfTurn, Pose.ofSolution]

theorem coherence_fails : ∃ s, runEvents realCv lostRun = some s ∧ ¬ Coherent realCv lostRun s := by
  obtain ⟨s, hs, hr, -⟩ := runEvents_defined realCv lostRun.tail
  refine ⟨s, hs, ?_⟩
  rintro ⟨p, hp, -, hRod⟩
  rw [hr.trackedPose] at hp
  cases hp
  -- the matrix is the identity, the vector still is the half turn
  have h : (1 : Mat33 ℝ) = Rotation.rodrigues ![0, 0, -Real.pi] :=
    lostRun_pose.1.symm.trans (hRod.trans (congrArg Rotation.rodrigues lostRun_pose.2))
  rw [Rotation.rodrigues_half_turn] at h
  have h00 := congrFun (congrFun h 0) 0
  norm_num at h00

theorem coherent_run_iff_sample :
    realCv.Rodrigues 0 = 1 ∧
    ∀ pre post s, [Event.frame (sampleFrame 1 halfTurn)] = pre ++ post →
      runEvents realCv (.initMatrix :: pre) = some s → Coherent realCv (.initMatrix :: pre) s :=
  ⟨Rotation.rodrigues_zero, (coherent_run_iff realCv Rotation.rodrigues_zero _).2
    ⟨Or.inr (Or.inr initMatrix_gR), fun _ _ => trivial⟩⟩

end Controller
