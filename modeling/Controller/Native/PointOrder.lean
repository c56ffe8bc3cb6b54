import Controller.Native.Reference

/-!
# The order of the points

`findContours` lists the blobs of a frame in no particular order, and `estimate_pose` brings them
into one: by distance to their average, then by `x`, then by `y`.

`point_comparator` compares the triples (distance, `x`, `y`) lexicographically (`pointKey`), so it
is a strict order in which only equal triples are incomparable, and there is only one sorted list.
Since the average does not depend on the order either, `image_points` is a function of the points
as a multiset, and so is everything the tracker makes of a frame: `canonical_point_order`.
-/

namespace Controller

open PartialRun

variable {K : Type}

/-! ### The comparator -/

section Comparator

/-- The triple by which a point with its distance is compared. -/
def pointKey (a : Point2f K × K) : K ×ₗ K ×ₗ K := toLex (a.2, toLex (a.1.x, a.1.y))

theorem pointKey_injective : Function.Injective (pointKey (K := K)) := by
  rintro ⟨⟨x, y⟩, d⟩ ⟨⟨x', y'⟩, d'⟩ h
  simp only [pointKey, EmbeddingLike.apply_eq_iff_eq, Prod.mk.injEq] at h
  obtain ⟨rfl, rfl, rfl⟩ := h
  rfl

variable [LinearOrder K]

theorem pointComparator_iff (a b : Point2f K × K) :
    pointComparator a b = true ↔ pointKey a < pointKey b := by
  unfold pointComparator pointKey
  rw [Prod.Lex.toLex_lt_toLex, Prod.Lex.toLex_lt_toLex]
  split_ifs with hd hx hx' hy
  · exact iff_of_true rfl (Or.inr ⟨hd, Or.inl hx⟩)
  · exact iff_of_true rfl (Or.inr ⟨hd, Or.inr ⟨hx'.symm, hy⟩⟩)
  · refine iff_of_false (by simp) ?_
    rintro (h | ⟨-, h | ⟨-, h⟩⟩)
    · exact h.ne hd
    · exact hx h
    · exact hy h
  · refine iff_of_false (by simp) ?_
    rintro (h | ⟨-, h | ⟨h, -⟩⟩)
    · exact h.ne hd
    · exact hx h
    · exact hx' h.symm
  · simp [hd]

theorem notAfter_iff (a b : Point2f K × K) : NotAfter a b ↔ pointKey a ≤ pointKey b := by
  unfold NotAfter
  rw [← not_lt, ← pointComparator_iff, Bool.not_eq_true]

theorem pointKey_le_iff {p q : Point2f K} {d e : K} : pointKey (p, d) ≤ pointKey (q, e) ↔
    d < e ∨ d = e ∧ (p.x < q.x ∨ p.x = q.x ∧ p.y ≤ q.y) := by
  unfold pointKey
  rw [Prod.Lex.toLex_le_toLex, Prod.Lex.toLex_le_toLex]

instance : IsTrans (Point2f K × K) NotAfter :=
  ⟨fun a b c hab hbc =>
    (notAfter_iff a c).2 (((notAfter_iff a b).1 hab).trans ((notAfter_iff b c).1 hbc))⟩

instance : Std.Total (NotAfter (K := K)) :=
  ⟨fun a b => (le_total (pointKey a) (pointKey b)).imp (notAfter_iff a b).2 (notAfter_iff b a).2⟩

instance : Std.Antisymm (NotAfter (K := K)) :=
  ⟨fun a b hab hba =>
    pointKey_injective (le_antisymm ((notAfter_iff a b).1 hab) ((notAfter_iff b a).1 hba))⟩

/-- Whatever `std::sort` does, as long as it sorts, it produces this list. -/
theorem sort_unique {as l : List (Point2f K × K)} (hp : l.Perm as) (hs : l.Pairwise NotAfter) :
    l = as.insertionSort NotAfter :=
  (hp.trans (List.perm_insertionSort NotAfter as).symm).eq_of_pairwise' hs
    (List.pairwise_insertionSort NotAfter as)

end Comparator

/-! ### The points of a frame -/

variable [Field K]

/-- The distance of `p` to the average of `ps`, as `add_distance` computes it. -/
def distanceToAvg (cv : OpenCv K) (ps : List (Point2f K)) (p : Point2f K) : K :=
  cv.sqrt (((avgCoord ps).x - p.x) ^ 2 + ((avgCoord ps).y - p.y) ^ 2)

section Points

variable {cv : OpenCv K} {ps qs : List (Point2f K)}

theorem addDistance_eq (cv : OpenCv K) (ps : List (Point2f K)) :
    addDistance cv ps (avgCoord ps) = ps.map fun p => (p, distanceToAvg cv ps p) := rfl

theorem avgCoord_perm (h : ps.Perm qs) : avgCoord ps = avgCoord qs := by
  have hx : ps.foldl (fun a p => a + p.x) 0 = qs.foldl (fun a p => a + p.x) 0 :=
    h.foldl_eq' (fun p _ q _ a => add_right_comm a p.x q.x) 0
  have hy : ps.foldl (fun a p => a + p.y) 0 = qs.foldl (fun a p => a + p.y) 0 :=
    h.foldl_eq' (fun p _ q _ a => add_right_comm a p.y q.y) 0
  unfold avgCoord
  rw [hx, hy, h.length_eq]

variable [LinearOrder K]

/-- **The image points depend on the points only as a multiset.** -/
theorem imagePoints_eq_of_perm (h : ps.Perm qs) : imagePoints cv ps = imagePoints cv qs := by
  have hd : (addDistance cv ps (avgCoord ps)).Perm (addDistance cv qs (avgCoord qs)) := by
    rw [avgCoord_perm h]
    exact h.map _
  unfold imagePoints
  rw [sort_unique ((List.perm_insertionSort NotAfter _).trans hd)
    (List.pairwise_insertionSort NotAfter _)]

theorem imagePoints_perm (cv : OpenCv K) (ps : List (Point2f K)) : (imagePoints cv ps).Perm ps := by
  have h := (List.perm_insertionSort NotAfter (addDistance cv ps (avgCoord ps))).map Prod.fst
  have hfst : (addDistance cv ps (avgCoord ps)).map Prod.fst = ps := by
    rw [addDistance_eq, List.map_map]
    exact List.map_id ps
  rw [hfst] at h
  exact h

/-- The sorted pairs are the image points with their distances. -/
theorem sorted_eq_map (cv : OpenCv K) (ps : List (Point2f K)) :
    (addDistance cv ps (avgCoord ps)).insertionSort NotAfter =
      (imagePoints cv ps).map fun p => (p, distanceToAvg cv ps p) := by
  unfold imagePoints
  rw [List.map_map]
  symm
  refine (List.map_congr_left fun a ha => ?_).trans (List.map_id _)
  have ha' := (List.perm_insertionSort NotAfter _).mem_iff.1 ha
  rw [addDistance_eq] at ha'
  obtain ⟨p, -, rfl⟩ := List.mem_map.1 ha'
  rfl

/-- The image points are sorted by their keys. -/
theorem imagePoints_sorted (cv : OpenCv K) (ps : List (Point2f K)) :
    (imagePoints cv ps).Pairwise fun p q =>
      pointKey (p, distanceToAvg cv ps p) ≤ pointKey (q, distanceToAvg cv ps q) := by
  have h := List.pairwise_insertionSort NotAfter (addDistance cv ps (avgCoord ps))
  rw [sorted_eq_map, List.pairwise_map] at h
  exact h.imp fun {p q} hpq => (notAfter_iff _ _).1 hpq

end Points

/-! ### Frames and runs -/

variable [LinearOrder K]

/-- The same frame, with its contours enumerated in another order. -/
structure CameraFrame.Reordered (f f' : CameraFrame K) : Prop where
  rows : f'.rows = f.rows
  cols : f'.cols = f.cols
  touchStatus : f'.touchStatus = f.touchStatus
  solvePnPGeneric : f'.solvePnPGeneric = f.solvePnPGeneric
  contours : f'.contours.Perm f.contours

/-- The same event, up to the order of contours. -/
inductive Event.Reordered : Event K → Event K → Prop
  | initMatrix : Event.Reordered .initMatrix .initMatrix
  | frame {f f' : CameraFrame K} (h : f.Reordered f') : Event.Reordered (.frame f) (.frame f')

section Frames

variable {cv : OpenCv K} {f f' : CameraFrame K} {a : Session K} {es es' : List (Event K)}

theorem CameraFrame.Reordered.points (h : f.Reordered f') : f'.points.Perm f.points :=
  ((h.contours.filter _).filter _).map _

omit [LinearOrder K] in
theorem CameraFrame.Reordered.camera (h : f.Reordered f') : f'.camera = f.camera := by
  unfold CameraFrame.camera
  rw [h.rows, h.cols]

theorem CameraFrame.Reordered.reachesSolver (h : f.Reordered f') (n : ℕ) :
    f'.ReachesSolver n ↔ f.ReachesSolver n := by
  unfold CameraFrame.ReachesSolver
  rw [h.touchStatus, h.points.length_eq]

theorem CameraFrame.Reordered.points_eq_nil (h : f.Reordered f') :
    f'.points = [] ↔ f.points = [] := by
  rw [← List.length_eq_zero_iff, h.points.length_eq, List.length_eq_zero_iff]

theorem CameraFrame.Reordered.setsReference (h : f.Reordered f') (n : ℕ) :
    f'.SetsReference n ↔ f.SetsReference n := by
  unfold CameraFrame.SetsReference
  rw [h.touchStatus, h.points.length_eq, ne_eq, h.points_eq_nil]

/-- A session cannot tell the two frames apart. -/
theorem CameraFrame.Reordered.session (cv : OpenCv K) (h : f.Reordered f') (a : Session K) :
    a.frame cv f' = a.frame cv f := by
  have himage : imagePoints cv f'.points = imagePoints cv f.points :=
    imagePoints_eq_of_perm h.points
  have hsol : a.solution cv f' = a.solution cv f := by
    simp only [Session.solution, h.reachesSolver, himage, h.camera, h.solvePnPGeneric]
  simp only [Session.frame, h.points_eq_nil, hsol, himage, h.setsReference]

theorem sessionAfter_reordered (h : List.Forall₂ Event.Reordered es es') :
    sessionAfter cv es' = sessionAfter cv es := by
  unfold sessionAfter
  generalize (⟨[], .initial⟩ : Session K) = a
  induction h generalizing a with
  | nil => rfl
  | cons he _ ih =>
    rw [List.foldl_cons, List.foldl_cons, ih]
    cases he with
    | initMatrix => rfl
    | frame hf => simp only [Session.event, hf.session cv a]

/-- Two states that agree in the reference and in the exported pose. -/
structure SameTracking (s s' : NativeState K) : Prop where
  modelPoints : s'.modelPoints = s.modelPoints
  objectPoints : s'.objectPoints = s.objectPoints
  exportPose : exportPose s' = exportPose s

/-- Two frames that ask the solver the same question and give Java the same answer. -/
def SameFrame (cv : OpenCv K) (s s' : NativeState K) (f f' : CameraFrame K) : Prop :=
  (frameEstimate cv s' f').solverCall = (frameEstimate cv s f).solverCall ∧
  ∀ r, convertRGBtoGray cv s f = some r → ∃ r', convertRGBtoGray cv s' f' = some r' ∧
    r'.2.ret = r.2.ret ∧ r'.2.rotation = r.2.rotation

variable {s s' : NativeState K}

/-- Globals that represent one session are the same to the caller. -/
theorem sameTracking_of_refines (h : Refines s a) (h' : Refines s' a) : SameTracking s s' where
  modelPoints := h'.model.trans h.model.symm
  objectPoints := h'.object.trans h.object.symm
  exportPose := h'.exportPose.trans h.exportPose.symm

/-- The solver's arguments depend on the state only through the reference. -/
theorem CameraFrame.Reordered.solverCall (cv : OpenCv K) (h : f.Reordered f')
    (hm : s'.modelPoints = s.modelPoints) :
    (frameEstimate cv s' f').solverCall = (frameEstimate cv s f).solverCall := by
  simp only [frameEstimate_solverCall, solverArgs, hm, h.reachesSolver, h.camera,
    imagePoints_eq_of_perm h.points]

/-- `ConvertRGBtoGray` answers the same to both frames. -/
theorem CameraFrame.Reordered.sameFrame (cv : OpenCv K) (h : f.Reordered f') (hr : Refines s a)
    (hr' : Refines s' a) : SameFrame cv s s' f f' := by
  refine ⟨h.solverCall cv (hr'.model.trans hr.model.symm), fun r hf => ?_⟩
  obtain ⟨o, ho, hret, hrot⟩ := frame_refines cv hr f
  obtain ⟨o', ho', hret', hrot'⟩ := frame_refines cv hr' f'
  rw [hf] at ho
  cases ho
  refine ⟨_, ho', ?_, ?_⟩
  · rw [hret', hret]
    simp only [h.points_eq_nil]
  · rw [hrot', hrot, h.session cv a]

/-- Two runs that differ in the order of contours only. -/
theorem runEvents_reordered (h : List.Forall₂ Event.Reordered es es')
    (hs : runEvents cv es = some s) :
    ∃ s', runEvents cv es' = some s' ∧ SameTracking s s' ∧
      ∀ f f', f.Reordered f' → SameFrame cv s s' f f' := by
  rcases runEvents_refines hs with ⟨rfl, rfl⟩ | ⟨⟨rest, rfl⟩, hr, -⟩
  · -- nothing has happened yet, and a frame is undefined
    cases h
    refine ⟨NativeState.load K, rfl, ⟨rfl, rfl, rfl⟩, fun f f' hf => ⟨hf.solverCall cv rfl, ?_⟩⟩
    intro r hr
    rw [convertRGBtoGray_load] at hr
    cases hr
  · obtain ⟨rest', rfl⟩ : ∃ rest', es' = .initMatrix :: rest' := by
      cases h with
      | cons he _ => cases he; exact ⟨_, rfl⟩
    obtain ⟨s', hs', hr', -⟩ := runEvents_defined cv rest'
    rw [sessionAfter_reordered h] at hr'
    exact ⟨s', hs', sameTracking_of_refines hr hr', fun f f' hf => hf.sameFrame cv hr hr'⟩

end Frames

/-- **The canonical order of the points.**  The comparator is a strict order in which incomparable
entries are equal; so every way of sorting gives the `image_points` of the model, which are the
points of the frame, sorted, whatever order they came in; and runs whose frames differ only in the
order of their contours keep the same reference, ask the solver the same and export the same. -/
theorem canonical_point_order (cv : OpenCv K) :
    ((∀ a : Point2f K × K, pointComparator a a = false) ∧
      (∀ a b c : Point2f K × K, pointComparator a b = true → pointComparator b c = true →
        pointComparator a c = true) ∧
      (∀ a b : Point2f K × K, pointComparator a b = false → pointComparator b a = false → a = b)) ∧
    (∀ ps (l : List (Point2f K × K)), l.Perm (addDistance cv ps (avgCoord ps)) →
      l.Pairwise NotAfter → l.map Prod.fst = imagePoints cv ps) ∧
    (∀ ps qs : List (Point2f K), ps.Perm qs → imagePoints cv ps = imagePoints cv qs) ∧
    (∀ ps, (imagePoints cv ps).Perm ps ∧
      (imagePoints cv ps).Pairwise fun p q =>
        distanceToAvg cv ps p < distanceToAvg cv ps q ∨
        distanceToAvg cv ps p = distanceToAvg cv ps q ∧
          (p.x < q.x ∨ p.x = q.x ∧ p.y ≤ q.y)) ∧
    (∀ es es' s, List.Forall₂ Event.Reordered es es' → runEvents cv es = some s →
      ∃ s', runEvents cv es' = some s' ∧ SameTracking s s' ∧
        ∀ f f', f.Reordered f' → SameFrame cv s s' f f') := by
  refine ⟨⟨fun a => ?_, fun a b c hab hbc => ?_, fun a b hab hba => ?_⟩, fun ps l hp hs => ?_,
    fun ps qs h => imagePoints_eq_of_perm h, fun ps => ⟨imagePoints_perm cv ps, ?_⟩,
    fun es es' s h hs => runEvents_reordered h hs⟩
  · apply Bool.eq_false_iff.2
    intro h
    exact lt_irrefl _ ((pointComparator_iff a a).1 h)
  · apply (pointComparator_iff a c).2
    exact ((pointComparator_iff a b).1 hab).trans ((pointComparator_iff b c).1 hbc)
  · exact antisymm_of NotAfter hba hab
  · rw [sort_unique hp hs]
    rfl
  · exact (imagePoints_sorted cv ps).imp fun {p q} h => pointKey_le_iff.1 h

end Controller
