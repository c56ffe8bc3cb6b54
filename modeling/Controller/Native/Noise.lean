import Controller.Native.PointOrder

/-!
# What the tracker does not see

`detect_points` turns a contour into a point when its area is above `300` and its centroid is not
the origin; all others are only counted and drawn.  `noise_ignored`: two runs that agree in the
remaining contours, in any order, keep the same reference, export the same pose and answer the next
frame the same, whatever small contours their frames have and wherever frames without any point come
in between.

The arithmetic is exact: `avg_coord` adds floats, so that its last digits also depend on the order of
the contours.
-/

namespace Controller

open PartialRun

variable {K : Type} [Field K] [LinearOrder K]

/-- The contour becomes a point. -/
def Contour.Counts (c : Contour K) : Prop :=
  ¬ (c.centroid.x = 0 ∧ c.centroid.y = 0) ∧ c.area > 300

instance (c : Contour K) : Decidable c.Counts := inferInstanceAs (Decidable (_ ∧ _))

/-- The frame without the contours that do not count. -/
def CameraFrame.markers (f : CameraFrame K) : CameraFrame K :=
  { f with contours := f.contours.filter fun c => c.Counts }

/-- What the tracker sees of an event: nothing of a frame without points. -/
def Event.seen : Event K → Option (Event K)
  | .initMatrix => some .initMatrix
  | .frame f => if f.points = [] then none else some (.frame f.markers)

section Seen

variable {cv : OpenCv K} {f f' : CameraFrame K} {a : Session K} {es es' : List (Event K)}
  {s s' : NativeState K}

theorem points_markers (f : CameraFrame K) : f.markers.points = f.points := by
  unfold CameraFrame.points CameraFrame.markers
  rw [List.filter_filter, List.filter_filter, List.filter_filter]
  congr 2
  funext c
  by_cases h : c.Counts
  · simp [h]
  · simp [Contour.Counts] at h ⊢
    tauto

/-- A session takes a frame for its markers. -/
theorem frame_markers (cv : OpenCv K) (a : Session K) (f : CameraFrame K) :
    a.frame cv f.markers = a.frame cv f := by
  have hreach : ∀ n, f.markers.ReachesSolver n ↔ f.ReachesSolver n := by
    intro n
    unfold CameraFrame.ReachesSolver
    rw [points_markers]
    rfl
  have hsets : ∀ n, f.markers.SetsReference n ↔ f.SetsReference n := by
    intro n
    unfold CameraFrame.SetsReference
    rw [points_markers]
    rfl
  have hsol : a.solution cv f.markers = a.solution cv f := by
    simp only [Session.solution, hreach, points_markers]
    rfl
  simp only [Session.frame, points_markers, hsol, hsets]

/-- What is not seen does not change the session. -/
theorem sessionAfter_seen (cv : OpenCv K) (es : List (Event K)) :
    sessionAfter cv (es.filterMap Event.seen) = sessionAfter cv es := by
  induction es using List.reverseRecOn with
  | nil => rfl
  | append_singleton es e ih =>
    rw [List.filterMap_append, sessionAfter_concat, ← ih]
    cases e with
    | initMatrix => exact sessionAfter_concat _ _
    | frame f =>
      by_cases hp : f.points = []
      · simp [Event.seen, hp, Session.event, Session.frame_nil hp]
      · have hseen : Event.seen (.frame f) = some (.frame f.markers) := if_neg hp
        rw [List.filterMap_cons_some hseen, List.filterMap_nil, sessionAfter_concat]
        exact frame_markers cv _ f

theorem points_of_markers (h : f.markers.Reordered f'.markers) : f'.points.Perm f.points := by
  rw [← points_markers f', ← points_markers f]
  exact h.points

/-- Frames with the same markers put the same question to the solver. -/
theorem solverCall_of_markers (h : f.markers.Reordered f'.markers)
    (hm : s'.modelPoints = s.modelPoints) :
    (frameEstimate cv s' f').solverCall = (frameEstimate cv s f).solverCall := by
  have hpoints := points_of_markers h
  have hreach : ∀ n, f'.ReachesSolver n ↔ f.ReachesSolver n := by
    intro n
    unfold CameraFrame.ReachesSolver
    rw [hpoints.length_eq, show f'.touchStatus = f.touchStatus from h.touchStatus]
  have hcamera : f'.camera = f.camera := h.camera
  simp only [frameEstimate_solverCall, solverArgs, hm, hreach, hcamera,
    imagePoints_eq_of_perm hpoints]

/-- And are answered the same. -/
theorem sameFrame_of_markers (h : f.markers.Reordered f'.markers) (hr : Refines s a)
    (hr' : Refines s' a) : SameFrame cv s s' f f' := by
  have hsession : a.frame cv f' = a.frame cv f := by
    rw [← frame_markers cv a f', ← frame_markers cv a f]
    exact h.session cv a
  have hnil : f'.points = [] ↔ f.points = [] := by
    rw [← List.length_eq_zero_iff, (points_of_markers h).length_eq, List.length_eq_zero_iff]
  refine ⟨solverCall_of_markers h (hr'.model.trans hr.model.symm), fun r hf => ?_⟩
  obtain ⟨o, ho, hret, hrot⟩ := frame_refines cv hr f
  obtain ⟨o', ho', hret', hrot'⟩ := frame_refines cv hr' f'
  rw [hf] at ho
  cases ho
  refine ⟨_, ho', ?_, ?_⟩
  · rw [hret', hret]
    simp only [hnil]
  · rw [hrot', hrot, hsession]

end Seen

/-- **Noise is ignored.**  In exact arithmetic: after two runs of which the tracker sees the same
markers, however many small contours and frames without points each of them has besides, the reference
and the exported pose agree, and frames with the same markers are answered with the same flag and the
same floats, from the same question to the solver. -/
theorem noise_ignored (cv : OpenCv K) (es es' : List (Event K)) (s s' : NativeState K)
    (hsame : List.Forall₂ Event.Reordered (es.filterMap Event.seen) (es'.filterMap Event.seen))
    (hs : runEvents cv es = some s) (hs' : runEvents cv es' = some s') :
    SameTracking s s' ∧
      ∀ f f', f.markers.Reordered f'.markers → SameFrame cv s s' f f' := by
  rcases runEvents_refines hs with ⟨rfl, rfl⟩ | ⟨⟨rest, rfl⟩, hr, -⟩ <;>
    rcases runEvents_refines hs' with ⟨rfl, rfl⟩ | ⟨⟨rest', rfl⟩, hr', -⟩
  · -- nothing has happened yet, and a frame is undefined
    refine ⟨⟨rfl, rfl, rfl⟩, fun f f' hf => ⟨solverCall_of_markers hf rfl, fun r hr => ?_⟩⟩
    rw [convertRGBtoGray_load] at hr
    cases hr
  · simp [Event.seen] at hsame
  · simp [Event.seen] at hsame
  · have hsession : sessionAfter cv (.initMatrix :: rest') = sessionAfter cv (.initMatrix :: rest) := by
      rw [← sessionAfter_seen, sessionAfter_reordered hsame, sessionAfter_seen]
    rw [hsession] at hr'
    exact ⟨sameTracking_of_refines hr hr', fun f f' hf => sameFrame_of_markers hf hr hr'⟩

/-- The sample frame with a speck in it. -/
def noisyFrame : CameraFrame ℚ :=
  { sampleFrame 1 (fun _ _ _ => []) with
    contours := ⟨1, 5, 5, 1⟩ :: (sampleFrame 1 fun _ _ _ => []).contours }

/-- A run with a speck and a frame without contours, and one with neither. -/
theorem noise_ignored_speck : ∃ s s',
    runEvents sampleCv [.initMatrix, .frame (sampleFrame 1 fun _ _ _ => [])] = some s ∧
    runEvents sampleCv [.initMatrix, .frame { noisyFrame with contours := [] }, .frame noisyFrame] =
      some s' ∧ SameTracking s s' := by
  have hspeck : ¬ (⟨1, 5, 5, 1⟩ : Contour ℚ).Counts := fun h => absurd h.2 (by norm_num)
  have hmarkers : noisyFrame.markers = (sampleFrame 1 fun _ _ _ => []).markers := by
    simp [CameraFrame.markers, noisyFrame, hspeck]
  have hpoints : noisyFrame.points ≠ [] := by
    rw [← points_markers, hmarkers, points_markers, sampleFrame_points]
    simp
  have hsame : List.Forall₂ Event.Reordered
      ([.initMatrix, .frame (sampleFrame 1 fun _ _ _ => [])].filterMap Event.seen)
      (([.initMatrix, .frame { noisyFrame with contours := [] }, .frame noisyFrame] :
        List (Event ℚ)).filterMap Event.seen) := by
    have hblank : ({ noisyFrame with contours := [] } : CameraFrame ℚ).points = [] := rfl
    have hpoints' : (sampleFrame 1 fun _ _ _ => [] : CameraFrame ℚ).points ≠ [] := by
      rw [sampleFrame_points]
      simp
    simp only [List.filterMap_cons, List.filterMap_nil, Event.seen, hblank, hpoints, hpoints',
      if_true, if_false, hmarkers]
    exact .cons .initMatrix (.cons (.frame ⟨rfl, rfl, rfl, rfl, .refl _⟩) .nil)
  obtain ⟨s, hs, -⟩ := runEvents_defined sampleCv [.frame (sampleFrame 1 fun _ _ _ => [])]
  obtain ⟨s', hs', -⟩ := runEvents_defined sampleCv
    [.frame { noisyFrame with contours := [] }, .frame noisyFrame]
  exact ⟨s, s', hs, hs', (noise_ignored sampleCv _ _ s s' hsame hs hs').1⟩

end Controller
