import Controller.Native.Refinement

/-!
# The reference points over a run

The reference of the tracker lives in the globals `model_points` and `object_points`, which
survive from frame to frame.

* `ReferenceShape`: the two vectors describe the same points;
* `FromLastReference`: after a run they hold the points of the last frame that set the reference;
* `SolverReady`: a frame that reaches `solvePnPGeneric` hands it as many image points as model
  points, at least three, and its drawing loop stays in range.

`reference_state_machine` puts them together for every run.
-/

namespace Controller

open PartialRun

variable {K : Type} [Field K] [LinearOrder K]

/-- `model_points` and `object_points` list the same `(x, y)`, at heights `10` and `i`. -/
structure ReferenceShape (s : NativeState K) : Prop where
  length_eq : s.modelPoints.length = s.objectPoints.length
  entries : ∀ (i : ℕ) (p q : Point3f K), s.modelPoints[i]? = some p → s.objectPoints[i]? = some q →
    p.x = q.x ∧ p.y = q.y ∧ p.z = 10 ∧ q.z = (i : K)

/-- Both vectors are refreshed from the distance-sorted points of `f`. -/
def RefreshedFrom (cv : OpenCv K) (f : CameraFrame K) (s : NativeState K) : Prop :=
  s.modelPoints = modelPointsOf (imagePoints cv f.points) ∧
    s.objectPoints = objectPointsOf (imagePoints cv f.points)

/-- The events that set the reference, from the current globals. -/
def Event.SetsReference (t : NativeState K) : Event K → Prop
  | .initMatrix => False
  | .frame f => f.SetsReference t.modelPoints.length

/-- The reference of `s` is that of the last frame of `es` that set it; without such a frame there
is none. -/
def FromLastReference (cv : OpenCv K) (es : List (Event K)) (s : NativeState K) : Prop :=
  (Along (eventStep cv) (fun t e => ¬ e.SetsReference t) (NativeState.load K) es ∧
    s.modelPoints = [] ∧ s.objectPoints = []) ∨
  ∃ pre f post t t', es = pre ++ .frame f :: post ∧ runEvents cv pre = some t ∧
    f.SetsReference t.modelPoints.length ∧ eventStep cv t (.frame f) = some t' ∧
    Along (eventStep cv) (fun t e => ¬ e.SetsReference t) t' post ∧ RefreshedFrom cv f s

/-- A frame that reaches the solver passes vectors of one length `≥ 3`, and every index of its
drawing loop is in range. -/
def SolverReady (cv : OpenCv K) (s : NativeState K) (f : CameraFrame K) : Prop :=
  ∀ model image camera, (frameEstimate cv s f).solverCall = some (model, image, camera) →
    model = s.modelPoints ∧ 3 ≤ image.length ∧ model.length = image.length ∧
    s.objectPoints.length = image.length ∧ f.points.length = image.length ∧
    (∀ i < f.points.length, (∃ p, s.objectPoints[i]? = some p) ∧ ∃ q, image[i]? = some q) ∧
    (frameEstimate cv s f).draws ≠ none

omit [LinearOrder K] in
theorem referenceShape_of (s : NativeState K) {ref : List (Point2f K)}
    (hm : s.modelPoints = modelPointsOf ref) (ho : s.objectPoints = objectPointsOf ref) :
    ReferenceShape s where
  length_eq := by rw [hm, ho]; simp
  entries := by
    intro i p q hp hq
    rw [hm, modelPointsOf, List.getElem?_map, Option.map_eq_some_iff] at hp
    rw [ho, objectPointsOf, List.getElem?_mapIdx, Option.map_eq_some_iff] at hq
    obtain ⟨p', hp', rfl⟩ := hp
    obtain ⟨q', hq', rfl⟩ := hq
    rw [hp'] at hq'
    cases hq'
    exact ⟨rfl, rfl, rfl, rfl⟩

/-! ### What one frame does to the reference -/

theorem Session.frame_reference (cv : OpenCv K) (a : Session K) (f : CameraFrame K) :
    (a.frame cv f).reference =
      if f.SetsReference a.reference.length then imagePoints cv f.points else a.reference := by
  unfold Session.frame
  by_cases hp : f.points = []
  · rw [if_pos hp, if_neg fun h => h.1 hp]
  · rw [if_neg hp]

section Frame

variable {cv : OpenCv K} {s s' : NativeState K} {f : CameraFrame K} {o : FrameOut K}

/-- The state a frame leads to, once the library is initialised. -/
theorem frame_state {a : Session K} (h : Refines s a)
    (hf : convertRGBtoGray cv s f = some (s', o)) : s' = afterFrame cv s f := by
  obtain ⟨o', ho', -⟩ := frame_refines cv h f
  rw [hf] at ho'
  exact (Prod.ext_iff.1 (Option.some.inj ho')).1

theorem frame_sets {a : Session K} (h : Refines s a)
    (hf : convertRGBtoGray cv s f = some (s', o)) (hr : f.SetsReference s.modelPoints.length) :
    RefreshedFrom cv f s' := by
  rw [frame_state h hf]
  have h' := afterFrame_refines cv h f
  have e : (a.frame cv f).reference = imagePoints cv f.points := by
    rw [Session.frame_reference, if_pos (by rw [← h.length_model]; exact hr)]
  exact ⟨by rw [h'.model, e], by rw [h'.object, e]⟩

theorem frame_keeps {a : Session K} (h : Refines s a)
    (hf : convertRGBtoGray cv s f = some (s', o)) (hr : ¬ f.SetsReference s.modelPoints.length) :
    s'.modelPoints = s.modelPoints ∧ s'.objectPoints = s.objectPoints := by
  rw [frame_state h hf]
  have h' := afterFrame_refines cv h f
  have e : (a.frame cv f).reference = a.reference := by
    rw [Session.frame_reference, if_neg (by rw [← h.length_model]; exact hr)]
  exact ⟨by rw [h'.model, e, h.model], by rw [h'.object, e, h.object]⟩

theorem solverReady_of (hl : s.objectPoints.length = s.modelPoints.length) (f : CameraFrame K) :
    SolverReady cv s f := by
  intro model image camera hcall
  rw [frameEstimate_solverCall] at hcall
  split_ifs at hcall with hs
  cases hcall
  obtain ⟨ds, hds⟩ := frameEstimate_draws cv (f := f) hl
  have hn : f.points.length = s.modelPoints.length := hs.2.2
  have hi : (imagePoints cv f.points).length = f.points.length := length_imagePoints cv f.points
  refine ⟨rfl, by rw [hi]; exact hs.2.1, by rw [hi, hn], by rw [hi, hl, hn], hi.symm, ?_, ?_⟩
  · intro i hlt
    exact ⟨⟨_, List.getElem?_eq_getElem (by omega)⟩, ⟨_, List.getElem?_eq_getElem (by omega)⟩⟩
  · rw [hds]
    exact Option.some_ne_none ds

end Frame

/-! ### Runs -/

variable {cv : OpenCv K} {es : List (Event K)} {s : NativeState K}

/-- Along a run the globals have the shape of some reference. -/
theorem runEvents_reference (hs : runEvents cv es = some s) :
    ∃ ref, s.modelPoints = modelPointsOf ref ∧ s.objectPoints = objectPointsOf ref := by
  rcases runEvents_refines hs with ⟨-, rfl⟩ | ⟨-, h, -⟩
  · exact ⟨[], rfl, rfl⟩
  · exact ⟨_, h.model, h.object⟩

theorem eventStep_frame {t t' : NativeState K} {f : CameraFrame K}
    (h : eventStep cv t (.frame f) = some t') : ∃ o, convertRGBtoGray cv t f = some (t', o) := by
  simp only [eventStep, eventOut, Option.map_map, Option.map_eq_some_iff] at h
  obtain ⟨⟨u, o⟩, hu, rfl⟩ := h
  exact ⟨o, hu⟩

/-- A frame is only defined once the library is initialised. -/
theorem refines_of_frame {f : CameraFrame K} {r : NativeState K × FrameOut K}
    (hs : runEvents cv es = some s) (hf : convertRGBtoGray cv s f = some r) :
    Refines s (sessionAfter cv es) := by
  rcases runEvents_refines hs with ⟨-, rfl⟩ | ⟨-, h, -⟩
  · rw [convertRGBtoGray_load] at hf; cases hf
  · exact h

theorem fromLastReference_of_run (hs : runEvents cv es = some s) : FromLastReference cv es s := by
  refine run_induction (C := fun _ _ => True) (FromLastReference cv)
    (Or.inl ⟨trivial, rfl, rfl⟩) ?_ (along_iff.2 fun _ _ _ _ _ _ => trivial) hs
  rintro es s e s' hrun hP - hstep
  by_cases hsets : e.SetsReference s
  · -- this event is the last one that sets the reference
    cases e with
    | initMatrix => exact hsets.elim
    | frame f =>
      obtain ⟨o, ho⟩ := eventStep_frame hstep
      exact Or.inr ⟨es, f, [], s, s', rfl, hrun, hsets, hstep, trivial,
        frame_sets (refines_of_frame hrun ho) ho hsets⟩
  · -- the event leaves both vectors alone
    have hkeep : s'.modelPoints = s.modelPoints ∧ s'.objectPoints = s.objectPoints := by
      cases e with
      | initMatrix => cases hstep; exact ⟨rfl, rfl⟩
      | frame f =>
        obtain ⟨o, ho⟩ := eventStep_frame hstep
        exact frame_keeps (refines_of_frame hrun ho) ho hsets
    rcases hP with ⟨hal, hm, ho⟩ | ⟨pre, f, post, t, t', rfl, ht, hf, ht', hal, href⟩
    · refine Or.inl ⟨along_concat.2 ⟨hal, fun t ht => ?_⟩, hkeep.1.trans hm, hkeep.2.trans ho⟩
      have e : some t = some s := ht.symm.trans hrun
      cases e
      exact hsets
    · refine Or.inr ⟨pre, f, post ++ [e], t, t', by simp, ht, hf, ht',
        along_concat.2 ⟨hal, fun u hu => ?_⟩, hkeep.1.trans href.1, hkeep.2.trans href.2⟩
      have e' : run (eventStep cv) (NativeState.load K) (pre ++ .frame f :: post) = some u := by
        rw [run_append_some ht, run_cons, ht']
        exact hu
      have : some u = some s := e'.symm.trans hrun
      cases this
      exact hsets

/-- **The reference state machine.**  In every state reached by a run, the two vectors agree; a
frame replaces them by its own sorted points exactly when it sets the reference and leaves them
alone otherwise, as `InitMatrix` does; so they come from the last frame that set them; and a frame
that reaches the solver finds vectors of one length. -/
theorem reference_state_machine (cv : OpenCv K) (es : List (Event K)) (s : NativeState K)
    (hs : runEvents cv es = some s) :
    ReferenceShape s ∧
    (∀ f s' o, convertRGBtoGray cv s f = some (s', o) →
      (f.SetsReference s.modelPoints.length → RefreshedFrom cv f s') ∧
      (¬ f.SetsReference s.modelPoints.length →
        s'.modelPoints = s.modelPoints ∧ s'.objectPoints = s.objectPoints)) ∧
    ((initMatrix s).modelPoints = s.modelPoints ∧ (initMatrix s).objectPoints = s.objectPoints) ∧
    FromLastReference cv es s ∧
    ∀ f, SolverReady cv s f := by
  obtain ⟨ref, hm, ho⟩ := runEvents_reference hs
  have hl : s.objectPoints.length = s.modelPoints.length := by rw [hm, ho]; simp
  refine ⟨referenceShape_of s hm ho, fun f s' o hf => ?_, ⟨rfl, rfl⟩, fromLastReference_of_run hs,
    solverReady_of hl⟩
  have h := refines_of_frame hs hf
  exact ⟨frame_sets h hf, frame_keeps h hf⟩

/-! ### A run on concrete numbers -/

/-- The pinhole projection: rotate, translate, apply the camera matrix, divide. -/
def pinhole (Rodrigues : Vec3 K → Mat33 K) (p : Point3f K) (r t : Vec3 K) (c : Mat33 K) :
    Point2f K :=
  let q := c.mulVec ((Rodrigues r).mulVec ![p.x, p.y, p.z] + t)
  ⟨q 0 / q 2, q 1 / q 2⟩

/-- A contour of area `400` around `p`. -/
def markerContour (p : Point2f K) : Contour K :=
  ⟨400, p.x * (400 + 1 / 100000), p.y * (400 + 1 / 100000), 400⟩

/-- A `720 × 1600` frame with markers at `ps`. -/
def markerFrame (ps : List (Point2f K)) (touchStatus : ℤ) (solve : Solver K) : CameraFrame K where
  rows := 720
  cols := 1600
  touchStatus := touchStatus
  contours := ps.map markerContour
  solvePnPGeneric := solve

theorem markerContour_centroid [IsStrictOrderedRing K] (p : Point2f K) :
    (markerContour p).centroid = p := by
  have h : (400 + 1 / 100000 : K) ≠ 0 := by positivity
  simp only [Contour.centroid, markerContour]
  rw [mul_div_cancel_right₀ p.x h, mul_div_cancel_right₀ p.y h]

/-- The tracker sees the markers of a frame, in their order. -/
theorem markerFrame_points [IsStrictOrderedRing K] {ps : List (Point2f K)}
    (hps : ∀ p ∈ ps, p.y ≠ 0) (touchStatus : ℤ) (solve : Solver K) :
    (markerFrame ps touchStatus solve).points = ps := by
  have hkept : ((ps.map markerContour).filter fun c => ¬ (c.centroid.x = 0 ∧ c.centroid.y = 0)) =
      ps.map markerContour := by
    refine List.filter_eq_self.2 fun c hc => ?_
    obtain ⟨p, hp, rfl⟩ := List.mem_map.1 hc
    rw [markerContour_centroid]
    exact decide_eq_true fun h => hps p hp h.2
  have hlarge : ((ps.map markerContour).filter fun c => c.area > 300) = ps.map markerContour := by
    refine List.filter_eq_self.2 fun c hc => ?_
    obtain ⟨p, -, rfl⟩ := List.mem_map.1 hc
    have h : (300 : K) < 400 := by norm_num
    exact decide_eq_true h
  unfold CameraFrame.points
  change (((ps.map markerContour).filter _).filter _).map _ = ps
  rw [hkept, hlarge, List.map_map]
  exact (List.map_congr_left fun p _ => markerContour_centroid p).trans (List.map_id ps)

/-- Three markers in a row. -/
def sampleFrame (touchStatus : ℤ) (solve : Solver K) : CameraFrame K :=
  markerFrame [⟨100, 100⟩, ⟨140, 100⟩, ⟨210, 100⟩] touchStatus solve

theorem sampleFrame_points [IsStrictOrderedRing K] (touchStatus : ℤ) (solve : Solver K) :
    (sampleFrame touchStatus solve).points = [⟨100, 100⟩, ⟨140, 100⟩, ⟨210, 100⟩] :=
  markerFrame_points (by simp) touchStatus solve

/-- OpenCV over the rationals, with a rotation that is right at the zero vector. -/
def sampleCv : OpenCv ℚ where
  Rodrigues _ := 1
  projectPoints := pinhole fun _ => 1
  sqrt := Rat.sqrt

/-- The solver finds the pose that maps the markers at height `10` to where they are seen. -/
def sampleSolve : Solver ℚ := fun _ _ _ => [(0, ![-800, -360, 710])]

theorem sampleFrame_image (touchStatus : ℤ) (solve : Solver ℚ) :
    imagePoints sampleCv (sampleFrame touchStatus solve).points =
      [⟨140, 100⟩, ⟨100, 100⟩, ⟨210, 100⟩] := by
  rw [sampleFrame_points]
  decide +kernel

theorem sampleFrame_sets [IsStrictOrderedRing K] {touchStatus : ℤ} {solve : Solver K} {n : ℕ}
    (h : touchStatus = 0 ∨ n ≠ 3) : (sampleFrame touchStatus solve).SetsReference n := by
  unfold CameraFrame.SetsReference
  rw [sampleFrame_points]
  refine ⟨by simp, h.imp id fun h => ⟨by simp, ?_⟩⟩
  simpa using h.symm

theorem reference_state_machine_sample :
    ∃ s, runEvents sampleCv [.initMatrix, .frame (sampleFrame 1 sampleSolve)] = some s ∧
      s.modelPoints = [⟨140, 100, 10⟩, ⟨100, 100, 10⟩, ⟨210, 100, 10⟩] ∧
      ReferenceShape s ∧
      FromLastReference sampleCv [.initMatrix, .frame (sampleFrame 1 sampleSolve)] s ∧
      SolverReady sampleCv s (sampleFrame 1 sampleSolve) := by
  obtain ⟨s, hs, hr, -⟩ := runEvents_defined sampleCv [.frame (sampleFrame 1 sampleSolve)]
  obtain ⟨hshape, -, -, hlast, hsolver⟩ := reference_state_machine sampleCv _ s hs
  refine ⟨s, hs, ?_, hshape, hlast, hsolver _⟩
  rw [hr.model]
  change modelPointsOf ((⟨[], Pose.initial⟩ : Session ℚ).frame sampleCv _).reference = _
  rw [Session.frame_of_sets (sampleFrame_sets (Or.inr (by decide))), sampleFrame_image]
  rfl

end Controller
