import Controller.Native.Coherence
import Controller.Native.PointOrder

/-!
# The order of the points under a motion

What pairs a marker of the reference with a blob of a later frame is its rank in `image_points`.
This file follows the ranks under a similarity of the plane `p ↦ s Q p + c`, with `s > 0` and `Q`
orthogonal.

The average moves with the points and all distances to it are multiplied by `s`
(`distanceToAvg_map`), so the sorted distances keep their places.  With distinct distances so do
the points; with ties the order is decided by `x` and `y`, which only a motion without rotation
respects: `rank_correspondence`.
-/

namespace Controller

variable {K : Type} [Field K]

/-! ### Averages -/

theorem foldl_add_eq_sum (g : Point2f K → K) (ps : List (Point2f K)) :
    ps.foldl (fun a p => a + g p) 0 = (ps.map g).sum := by
  rw [List.sum_eq_foldl, List.foldl_map]

/-- An affine function of the coordinates, summed over the points. -/
theorem sum_affine (a b c : K) (ps : List (Point2f K)) :
    (ps.map fun p => a * p.x + b * p.y + c).sum =
      a * (ps.map Point2f.x).sum + b * (ps.map Point2f.y).sum + ps.length * c := by
  induction ps with
  | nil => simp
  | cons p ps ih =>
    simp only [List.map_cons, List.sum_cons, List.length_cons, Nat.cast_add, Nat.cast_one, ih]
    ring

theorem avgCoord_eq (ps : List (Point2f K)) : avgCoord ps =
    ⟨(ps.map Point2f.x).sum / ps.length, (ps.map Point2f.y).sum / ps.length⟩ := by
  unfold avgCoord
  rw [foldl_add_eq_sum Point2f.x, foldl_add_eq_sum Point2f.y]

/-! ### Similarities -/

variable [LinearOrder K]

/-- A similarity of the plane. -/
structure Similarity (K : Type) [Field K] [LinearOrder K] where
  s : K
  Q : Matrix (Fin 2) (Fin 2) K
  c : Point2f K
  pos : 0 < s
  orthogonal : Q.transpose * Q = 1

/-- The point `s Q p + c`. -/
def Similarity.apply (T : Similarity K) (p : Point2f K) : Point2f K :=
  ⟨T.s * (T.Q 0 0 * p.x + T.Q 0 1 * p.y) + T.c.x, T.s * (T.Q 1 0 * p.x + T.Q 1 1 * p.y) + T.c.y⟩

/-- What the tracker relies on of `sqrt`. -/
def OpenCv.SquareRoot (cv : OpenCv K) : Prop :=
  ∀ x, 0 ≤ x → 0 ≤ cv.sqrt x ∧ cv.sqrt x * cv.sqrt x = x

variable {cv : OpenCv K} {T : Similarity K} {ps : List (Point2f K)}

/-! ### Distances -/

theorem imagePoints_distances (cv : OpenCv K) (ps : List (Point2f K)) :
    ((imagePoints cv ps).map (distanceToAvg cv ps)).Pairwise (· ≤ ·) := by
  rw [List.pairwise_map]
  refine (imagePoints_sorted cv ps).imp fun {p q} hpq => ?_
  rcases pointKey_le_iff.1 hpq with h | ⟨h, -⟩
  · exact h.le
  · exact h.le

variable [IsStrictOrderedRing K]

/-- The average moves with the points. -/
theorem avgCoord_map (T : Similarity K) (hne : ps ≠ []) :
    avgCoord (ps.map T.apply) = T.apply (avgCoord ps) := by
  have hn : (ps.length : K) ≠ 0 := by
    rw [Nat.cast_ne_zero]
    exact mt List.length_eq_zero_iff.1 hne
  have hx : ((ps.map T.apply).map Point2f.x).sum = T.s * T.Q 0 0 * (ps.map Point2f.x).sum +
      T.s * T.Q 0 1 * (ps.map Point2f.y).sum + ps.length * T.c.x := by
    rw [List.map_map, ← sum_affine]
    congr 2
    funext p
    show T.s * (T.Q 0 0 * p.x + T.Q 0 1 * p.y) + T.c.x = _
    ring
  have hy : ((ps.map T.apply).map Point2f.y).sum = T.s * T.Q 1 0 * (ps.map Point2f.x).sum +
      T.s * T.Q 1 1 * (ps.map Point2f.y).sum + ps.length * T.c.y := by
    rw [List.map_map, ← sum_affine]
    congr 2
    funext p
    show T.s * (T.Q 1 0 * p.x + T.Q 1 1 * p.y) + T.c.y = _
    ring
  rw [avgCoord_eq, avgCoord_eq, hx, hy, List.length_map]
  unfold Similarity.apply
  congr 1 <;> field_simp

omit [IsStrictOrderedRing K] in
theorem Similarity.orthogonal_entries (T : Similarity K) :
    T.Q 0 0 * T.Q 0 0 + T.Q 1 0 * T.Q 1 0 = 1 ∧ T.Q 0 0 * T.Q 0 1 + T.Q 1 0 * T.Q 1 1 = 0 ∧
      T.Q 0 1 * T.Q 0 1 + T.Q 1 1 * T.Q 1 1 = 1 := by
  have h : ∀ i j, (T.Q.transpose * T.Q) i j = (1 : Matrix (Fin 2) (Fin 2) K) i j := by
    intro i j
    rw [T.orthogonal]
  have h00 := h 0 0
  have h01 := h 0 1
  have h11 := h 1 1
  simp only [Matrix.mul_apply, Fin.sum_univ_two, Matrix.transpose_apply, Matrix.one_apply]
    at h00 h01 h11
  exact ⟨h00, h01, h11⟩

/-- Squared distances are multiplied by `s ^ 2`. -/
theorem Similarity.sq_dist (T : Similarity K) (p q : Point2f K) :
    ((T.apply p).x - (T.apply q).x) ^ 2 + ((T.apply p).y - (T.apply q).y) ^ 2 =
      T.s ^ 2 * ((p.x - q.x) ^ 2 + (p.y - q.y) ^ 2) := by
  obtain ⟨h00, h01, h11⟩ := T.orthogonal_entries
  simp only [Similarity.apply]
  linear_combination T.s ^ 2 * (p.x - q.x) ^ 2 * h00 +
    2 * T.s ^ 2 * (p.x - q.x) * (p.y - q.y) * h01 + T.s ^ 2 * (p.y - q.y) ^ 2 * h11

theorem OpenCv.SquareRoot.sqrt_mul (h : cv.SquareRoot) {s x : K} (hs : 0 ≤ s) (hx : 0 ≤ x) :
    cv.sqrt (s ^ 2 * x) = s * cv.sqrt x := by
  obtain ⟨hpos, hsq⟩ := h x hx
  obtain ⟨hpos', hsq'⟩ := h (s ^ 2 * x) (mul_nonneg (sq_nonneg s) hx)
  apply (mul_self_inj hpos' (mul_nonneg hs hpos)).1
  calc cv.sqrt (s ^ 2 * x) * cv.sqrt (s ^ 2 * x) = s ^ 2 * x := hsq'
    _ = s ^ 2 * (cv.sqrt x * cv.sqrt x) := by rw [hsq]
    _ = s * cv.sqrt x * (s * cv.sqrt x) := by ring

/-- Distances to the average are multiplied by `s`. -/
theorem distanceToAvg_map (hcv : cv.SquareRoot) (T : Similarity K) (hne : ps ≠ []) (p : Point2f K) :
    distanceToAvg cv (ps.map T.apply) (T.apply p) = T.s * distanceToAvg cv ps p := by
  unfold distanceToAvg
  rw [avgCoord_map T hne, T.sq_dist]
  exact hcv.sqrt_mul T.pos.le (by positivity)

/-! ### Ranks -/

/-- The moved points, sorted, are the moves of some arrangement of the points, which is sorted by
the distances before the motion. -/
theorem imagePoints_map (hcv : cv.SquareRoot) (T : Similarity K) (ps : List (Point2f K)) :
    ∃ ms : List (Point2f K), ms.Perm ps ∧ imagePoints cv (ps.map T.apply) = ms.map T.apply ∧
      (ms.map (distanceToAvg cv ps)).Pairwise (· ≤ ·) := by
  rcases eq_or_ne ps [] with rfl | hne
  · exact ⟨[], .nil, rfl, .nil⟩
  -- sort the points themselves, by the key they have after the motion
  let key : Point2f K → Point2f K × K := fun p =>
    (T.apply p, distanceToAvg cv (ps.map T.apply) (T.apply p))
  have hsort : (ps.insertionSort fun p q => NotAfter (key p) (key q)).map key =
      (ps.map key).insertionSort NotAfter :=
    List.map_insertionSort _ NotAfter key ps fun p _ q _ => Iff.rfl
  have hpairs : addDistance cv (ps.map T.apply) (avgCoord (ps.map T.apply)) = ps.map key := by
    rw [addDistance_eq, List.map_map]
    rfl
  have himage : imagePoints cv (ps.map T.apply) =
      (ps.insertionSort fun p q => NotAfter (key p) (key q)).map T.apply := by
    unfold imagePoints
    rw [hpairs, ← hsort, List.map_map]
    rfl
  refine ⟨_, List.perm_insertionSort _ ps, himage, ?_⟩
  have hs := imagePoints_sorted cv (ps.map T.apply)
  rw [himage, List.pairwise_map] at hs
  rw [List.pairwise_map]
  refine hs.imp fun {p q} hpq => ?_
  rw [pointKey_le_iff, distanceToAvg_map hcv T hne, distanceToAvg_map hcv T hne] at hpq
  rcases hpq with h | ⟨h, -⟩
  · exact (lt_of_mul_lt_mul_left h T.pos.le).le
  · exact (mul_left_cancel₀ T.pos.ne' h).le

/-- At each rank the distance before the motion is the same. -/
theorem imagePoints_map_distances (hcv : cv.SquareRoot) (T : Similarity K)
    (ps : List (Point2f K)) :
    ∃ ms : List (Point2f K), ms.Perm ps ∧ imagePoints cv (ps.map T.apply) = ms.map T.apply ∧
      ms.map (distanceToAvg cv ps) = (imagePoints cv ps).map (distanceToAvg cv ps) := by
  obtain ⟨ms, hp, himage, hsorted⟩ := imagePoints_map hcv T ps
  refine ⟨ms, hp, himage, ?_⟩
  have hperm : (ms.map (distanceToAvg cv ps)).Perm
      ((imagePoints cv ps).map (distanceToAvg cv ps)) :=
    (hp.trans (imagePoints_perm cv ps).symm).map _
  exact hperm.eq_of_pairwise' hsorted (imagePoints_distances cv ps)

/-- Without ties the order moves with the points. -/
theorem imagePoints_map_of_nodup (hcv : cv.SquareRoot) (T : Similarity K)
    (hd : (ps.map (distanceToAvg cv ps)).Nodup) :
    imagePoints cv (ps.map T.apply) = (imagePoints cv ps).map T.apply := by
  obtain ⟨ms, hp, himage, hdist⟩ := imagePoints_map_distances hcv T ps
  have hinj : ∀ p ∈ ps, ∀ q ∈ ps, distanceToAvg cv ps p = distanceToAvg cv ps q → p = q :=
    fun p hp q hq h => List.inj_on_of_nodup_map hd hp hq h
  have hms : ms = imagePoints cv ps := by
    apply List.ext_getElem (hp.trans (imagePoints_perm cv ps).symm).length_eq
    intro i hi hi'
    refine hinj _ (hp.mem_iff.1 (List.getElem_mem hi)) _
      ((imagePoints_perm cv ps).mem_iff.1 (List.getElem_mem hi')) ?_
    have h := congrArg (fun l => l[i]?) hdist
    simp only [List.getElem?_map, List.getElem?_eq_getElem hi, List.getElem?_eq_getElem hi',
      Option.map_some, Option.some.injEq] at h
    exact h
  rw [himage, hms]

/-- Without rotation it does so even with ties. -/
theorem imagePoints_map_of_unrotated (hcv : cv.SquareRoot) (T : Similarity K) (hQ : T.Q = 1)
    (ps : List (Point2f K)) :
    imagePoints cv (ps.map T.apply) = (imagePoints cv ps).map T.apply := by
  rcases eq_or_ne ps [] with rfl | hne
  · rfl
  have hx : ∀ p, (T.apply p).x = T.s * p.x + T.c.x := by
    intro p
    simp [Similarity.apply, hQ]
  have hy : ∀ p, (T.apply p).y = T.s * p.y + T.c.y := by
    intro p
    simp [Similarity.apply, hQ]
  let move : Point2f K × K → Point2f K × K := fun a => (T.apply a.1, T.s * a.2)
  have hpairs : addDistance cv (ps.map T.apply) (avgCoord (ps.map T.apply)) =
      (addDistance cv ps (avgCoord ps)).map move := by
    rw [addDistance_eq, addDistance_eq, List.map_map, List.map_map]
    refine List.map_congr_left fun p _ => ?_
    show (T.apply p, distanceToAvg cv (ps.map T.apply) (T.apply p)) = _
    rw [distanceToAvg_map hcv T hne]
    rfl
  -- the motion keeps all three comparisons
  have hmove : ∀ a b, NotAfter a b ↔ NotAfter (move a) (move b) := by
    rintro ⟨p, d⟩ ⟨q, e⟩
    rw [notAfter_iff, notAfter_iff, pointKey_le_iff, pointKey_le_iff, hx, hx, hy, hy,
      mul_lt_mul_iff_right₀ T.pos, mul_right_inj' T.pos.ne', add_lt_add_iff_right,
      mul_lt_mul_iff_right₀ T.pos, add_left_inj, mul_right_inj' T.pos.ne', add_le_add_iff_right,
      mul_le_mul_iff_right₀ T.pos]
  unfold imagePoints
  rw [hpairs, ← List.map_insertionSort NotAfter NotAfter move _ fun a _ b _ => hmove a b,
    List.map_map, List.map_map]
  rfl

/-! ### The pairs given to the solver -/

omit [IsStrictOrderedRing K] in
/-- The solver gets each marker of the reference together with its moved image. -/
theorem solverCall_pairs {s : NativeState K} {f f' : CameraFrame K} (href : RefreshedFrom cv f s)
    (hmoved : f'.points.Perm (f.points.map T.apply))
    (himage : imagePoints cv (f.points.map T.apply) = (imagePoints cv f.points).map T.apply)
    {model : List (Point3f K)} {image : List (Point2f K)} {camera : Mat33 K}
    (hcall : (frameEstimate cv s f').solverCall = some (model, image, camera)) :
    List.Forall₂ (fun m p => ∃ q ∈ f.points, m = ⟨q.x, q.y, 10⟩ ∧ p = T.apply q) model image := by
  rw [frameEstimate_solverCall] at hcall
  split_ifs at hcall with hs
  cases hcall
  show List.Forall₂ _ s.modelPoints (imagePoints cv f'.points)
  rw [href.1, imagePoints_eq_of_perm hmoved, himage]
  unfold modelPointsOf
  rw [List.forall₂_map_left_iff, List.forall₂_map_right_iff, List.forall₂_same]
  intro q hq
  exact ⟨q, (imagePoints_perm cv f.points).mem_iff.1 hq, rfl, rfl⟩

/-- **Rank correspondence.**  Under a similarity of the plane the point of each rank is the moved
image of a point at the distance that has this rank; when all distances differ, or when the motion
does not rotate, it is the moved image of the very point that had this rank.  So the solver is
given pairs of one marker each. -/
theorem rank_correspondence (hcv : cv.SquareRoot) (T : Similarity K) (ps : List (Point2f K)) :
    (∀ i < ps.length, ∃ p ∈ ps, ∃ q, (imagePoints cv (ps.map T.apply))[i]? = some (T.apply p) ∧
      (imagePoints cv ps)[i]? = some q ∧ distanceToAvg cv ps p = distanceToAvg cv ps q) ∧
    ((ps.map (distanceToAvg cv ps)).Nodup →
      imagePoints cv (ps.map T.apply) = (imagePoints cv ps).map T.apply) ∧
    (T.Q = 1 → imagePoints cv (ps.map T.apply) = (imagePoints cv ps).map T.apply) ∧
    (∀ s f f' model image camera, RefreshedFrom cv f s → f.points = ps →
      f'.points.Perm (ps.map T.apply) → (ps.map (distanceToAvg cv ps)).Nodup ∨ T.Q = 1 →
      (frameEstimate cv s f').solverCall = some (model, image, camera) →
      List.Forall₂ (fun m p => ∃ q ∈ ps, m = ⟨q.x, q.y, 10⟩ ∧ p = T.apply q) model image) := by
  refine ⟨fun i hi => ?_, imagePoints_map_of_nodup hcv T,
    fun hQ => imagePoints_map_of_unrotated hcv T hQ ps, ?_⟩
  · obtain ⟨ms, hp, himage, hdist⟩ := imagePoints_map_distances hcv T ps
    have hm : i < ms.length := by
      rw [hp.length_eq]
      exact hi
    have hr : i < (imagePoints cv ps).length := by
      rw [length_imagePoints]
      exact hi
    have h := congrArg (fun l => l[i]?) hdist
    simp only [List.getElem?_map, List.getElem?_eq_getElem hm, List.getElem?_eq_getElem hr,
      Option.map_some, Option.some.injEq] at h
    refine ⟨ms[i], hp.mem_iff.1 (List.getElem_mem hm), (imagePoints cv ps)[i], ?_, ?_, h⟩
    · rw [himage, List.getElem?_map, List.getElem?_eq_getElem hm]
      rfl
    · exact List.getElem?_eq_getElem hr
  · rintro s f f' model image camera href rfl hmoved hkeep hcall
    refine solverCall_pairs href hmoved ?_ hcall
    rcases hkeep with hd | hQ
    · exact imagePoints_map_of_nodup hcv T hd
    · exact imagePoints_map_of_unrotated hcv T hQ f.points

theorem realCv_squareRoot : realCv.SquareRoot := fun x hx =>
  ⟨Real.sqrt_nonneg x, Real.mul_self_sqrt hx⟩

/-- A quarter turn, twice as large. -/
noncomputable def quarterTurn : Similarity ℝ where
  s := 2
  Q := !![0, -1; 1, 0]
  c := ⟨500, 7⟩
  pos := two_pos
  orthogonal := by
    ext i j
    fin_cases i <;> fin_cases j <;> simp [Matrix.mul_apply]

/-- Three markers in a row. -/
def markers : List (Point2f ℝ) := [⟨100, 100⟩, ⟨140, 100⟩, ⟨210, 100⟩]

theorem markers_distances : markers.map (distanceToAvg realCv markers) = [50, 10, 60] := by
  simp only [markers, List.map_cons, List.map_nil, distanceToAvg, avgCoord, List.foldl_cons,
    List.foldl_nil, List.length_cons, List.length_nil, realCv]
  norm_num

theorem markers_distances_nodup : (markers.map (distanceToAvg realCv markers)).Nodup := by
  rw [markers_distances]
  norm_num

theorem markers_points : (markerFrame markers 1 halfTurn).points = markers :=
  markerFrame_points (by simp [markers]) 1 halfTurn

theorem quarterTurn_markers_points :
    (markerFrame (markers.map quarterTurn.apply) 1 halfTurn).points =
      markers.map quarterTurn.apply := by
  apply markerFrame_points
  intro p hp
  obtain ⟨q, hq, rfl⟩ := List.mem_map.1 hp
  have hpos : 0 < q.x := by
    simp only [markers, List.mem_cons, List.not_mem_nil, or_false] at hq
    rcases hq with rfl | rfl | rfl <;> norm_num
  show 2 * (1 * q.x + 0 * q.y) + 7 ≠ 0
  linarith

theorem markers_reference :
    (sessionAfter realCv [.initMatrix, .frame (markerFrame markers 1 halfTurn)]).reference =
      imagePoints realCv markers := by
  have hsets : (markerFrame markers 1 halfTurn).SetsReference 0 := by
    refine ⟨?_, Or.inr ?_⟩
    · rw [markers_points]; simp [markers]
    · rw [markers_points]; simp [markers]
  show ((⟨[], .initial⟩ : Session ℝ).frame realCv (markerFrame markers 1 halfTurn)).reference = _
  rw [Session.frame_of_sets hsets, markers_points]

/-- A frame sets the reference, and the next one shows the markers moved. -/
theorem rank_correspondence_quarter_turn :
    imagePoints realCv (markers.map quarterTurn.apply) =
      (imagePoints realCv markers).map quarterTurn.apply ∧
    ∃ s model image camera,
      runEvents realCv [.initMatrix, .frame (markerFrame markers 1 halfTurn)] = some s ∧
      (frameEstimate realCv s (markerFrame (markers.map quarterTurn.apply) 1 halfTurn)).solverCall =
        some (model, image, camera) ∧
      List.Forall₂ (fun m p => ∃ q ∈ markers, m = ⟨q.x, q.y, 10⟩ ∧ p = quarterTurn.apply q)
        model image := by
  obtain ⟨-, hnodup, -, hpairs⟩ := rank_correspondence realCv_squareRoot quarterTurn markers
  refine ⟨hnodup markers_distances_nodup, ?_⟩
  obtain ⟨s, hs, hr, -⟩ := runEvents_defined realCv [.frame (markerFrame markers 1 halfTurn)]
  have hm : s.modelPoints = modelPointsOf (imagePoints realCv markers) := by
    rw [hr.model, markers_reference]
  have hreach : (markerFrame (markers.map quarterTurn.apply) 1 halfTurn).ReachesSolver
      s.modelPoints.length := by
    refine ⟨one_ne_zero, ?_, ?_⟩
    · rw [quarterTurn_markers_points]
      simp [markers]
    · rw [quarterTurn_markers_points, hm]
      simp
  have hcall : (frameEstimate realCv s
      (markerFrame (markers.map quarterTurn.apply) 1 halfTurn)).solverCall = _ :=
    frameEstimate_solverCall
  rw [if_pos hreach] at hcall
  refine ⟨s, _, _, _, hs, hcall, ?_⟩
  refine hpairs s (markerFrame markers 1 halfTurn) _ _ _ _ ?_ markers_points (by rw [quarterTurn_markers_points])
    (Or.inl markers_distances_nodup) hcall
  refine ⟨by rw [hm, markers_points], ?_⟩
  rw [hr.object, markers_reference, markers_points]

end Controller
