import Controller.Native.Reference

/-!
# Does `InitMatrix` start a fresh session?

`InitMatrix` resets the matrices of `objLeft` but not the reference in `model_points` and
`object_points`.  A frame looks at the reference only when it has three points or more, so two
histories that end with `InitMatrix` cannot be told apart by the frames after it exactly when they
leave the same reference, or references of fewer than three points: `initMatrix_fresh_iff`.

One direction is a bisimulation on sessions (`Session.Alike`).  For the other, a frame with as many
points as the longer reference and a solver that knows only that reference tell the two apart.
-/

namespace Controller

open PartialRun

variable {K : Type} [Field K] [LinearOrder K]

/-- A frame with what the caller sees of it: the returned flag and the sixteen floats. -/
def frameStep (cv : OpenCv K) (s : NativeState K) (f : CameraFrame K) :
    Option (NativeState K × ℤ × (Fin 16 → K)) :=
  (convertRGBtoGray cv s f).map fun r => (r.1, r.2.ret, r.2.rotation)

/-- What the caller sees of a frame in terms of the session. -/
theorem frameStep_refines {cv : OpenCv K} {s : NativeState K} {a : Session K} (h : Refines s a)
    (f : CameraFrame K) :
    frameStep cv s f = some (afterFrame cv s f, if f.points = [] then 0 else 1,
      modelMatrix (a.frame cv f).pose.R (a.frame cv f).pose.t) := by
  obtain ⟨o, ho, hret, hrot⟩ := frame_refines cv h f
  rw [frameStep, ho, Option.map_some, hret, hrot]

/-! ### References that no frame can tell apart -/

/-- The references are the same, or neither is long enough to be used. -/
def SameReference {α : Type} (as bs : List α) : Prop :=
  as = bs ∨ (as.length < 3 ∧ bs.length < 3)

/-- Sessions that differ in the rotation vector and in unusable references at most. -/
structure Session.Alike (a b : Session K) : Prop where
  R : a.pose.R = b.pose.R
  t : a.pose.t = b.pose.t
  reference : SameReference a.reference b.reference

section Alike

variable {cv : OpenCv K} {a b : Session K}

/-- A reference of fewer than three points is replaced before it could reach the solver. -/
theorem Session.frame_of_short (ha : a.reference.length < 3) (f : CameraFrame K) :
    a.frame cv f =
      if f.points = [] then a
      else ⟨if f.touchStatus = 0 ∨ 3 ≤ f.points.length then imagePoints cv f.points
        else a.reference, { a.pose with R := 1 }⟩ := by
  by_cases hp : f.points = []
  · rw [Session.frame_nil hp, if_pos hp]
  rw [if_neg hp]
  by_cases hr : f.touchStatus = 0 ∨ 3 ≤ f.points.length
  · have hs : f.SetsReference a.reference.length :=
      ⟨hp, hr.imp_right fun h => ⟨h, by omega⟩⟩
    rw [Session.frame_of_sets hs, if_pos hr]
  · have hr' := not_or.1 hr
    rw [Session.frame_few hp hr'.1 (by omega), if_neg hr]

theorem Session.Alike.frame (cv : OpenCv K) (h : a.Alike b) (f : CameraFrame K) :
    (a.frame cv f).Alike (b.frame cv f) := by
  rcases h.reference with href | ⟨ha, hb⟩
  · -- equal references ask the solver the same question
    have hsol : a.solution cv f = b.solution cv f := by
      unfold Session.solution
      rw [href]
    by_cases hp : f.points = []
    · rw [Session.frame_nil hp, Session.frame_nil hp]
      exact h
    · simp only [Session.frame, if_neg hp, hsol, href]
      cases b.solution cv f with
      | some sol => exact ⟨rfl, rfl, Or.inl rfl⟩
      | none => exact ⟨rfl, h.t, Or.inl rfl⟩
  · rw [Session.frame_of_short ha, Session.frame_of_short hb]
    split_ifs
    · exact h
    · exact ⟨rfl, h.t, Or.inl rfl⟩
    · exact ⟨rfl, h.t, Or.inr ⟨ha, hb⟩⟩

/-- Alike sessions look the same for ever. -/
theorem Session.Alike.outputs_eq {s t : NativeState K} (hs : Refines s a) (ht : Refines t b)
    (h : a.Alike b) (fs : List (CameraFrame K)) :
    outputs (frameStep cv) s fs = outputs (frameStep cv) t fs := by
  refine outputs_congr (fun s t => ∃ a b, Refines s a ∧ Refines t b ∧ a.Alike b) ?_
    ⟨a, b, hs, ht, h⟩ fs
  rintro s t f ⟨a, b, hs, ht, h⟩
  have h' := h.frame cv f
  refine ⟨_, _, _, frameStep_refines hs f, ?_, _, _, afterFrame_refines cv hs f,
    afterFrame_refines cv ht f, h'⟩
  rw [frameStep_refines ht f, h'.R, h'.t]

end Alike

/-! ### A frame that tells two references apart -/

/-- `n` markers in a row. -/
def markerRow (n : ℕ) : List (Point2f K) := (List.range n).map fun i => ⟨40 * (i + 1 : K), 100⟩

/-- The translation whose `restvec` is `(1, 1, 1)`. -/
def unitSolution (R : Mat33 K) : Vec3 K := fun i => 100 - R.mulVec ![1, 1, 1] i

/-- A solver that only knows the model `ref`. -/
def solverFor (cv : OpenCv K) (ref : List (Point2f K)) : Solver K := fun model _ _ =>
  if model = modelPointsOf ref then [(0, unitSolution (cv.Rodrigues (-0)))] else []

/-- A frame with as many markers as `ref` has points, and the solver that knows `ref`. -/
def probeFrame (cv : OpenCv K) (ref : List (Point2f K)) : CameraFrame K :=
  markerFrame (markerRow ref.length) 1 (solverFor cv ref)

omit [LinearOrder K] in
theorem modelPointsOf_injective : Function.Injective (modelPointsOf (K := K)) := by
  refine List.map_injective_iff.2 fun p q h => ?_
  cases p
  cases q
  simpa using h

section Probe

variable [IsStrictOrderedRing K] {cv : OpenCv K} {a b : Session K} {ref : List (Point2f K)}

theorem restvec_unitSolution (R : Mat33 K) : restvec R (unitSolution R) = 1 := by
  funext i
  simp [restvec, unitSolution]

theorem probeFrame_points : (probeFrame cv ref).points = markerRow ref.length := by
  refine markerFrame_points (fun p hp => ?_) _ _
  obtain ⟨i, -, rfl⟩ := List.mem_map.1 hp
  norm_num

theorem probeFrame_length (cv : OpenCv K) (ref : List (Point2f K)) :
    (probeFrame cv ref).points.length = ref.length := by
  rw [probeFrame_points]
  simp [markerRow]

theorem probeFrame_reaches (h3 : 3 ≤ ref.length) :
    (probeFrame cv ref).ReachesSolver ref.length :=
  ⟨one_ne_zero, by rw [probeFrame_length]; exact h3, probeFrame_length cv ref⟩

/-- The session with the reference `ref` moves. -/
theorem probeFrame_known (h3 : 3 ≤ a.reference.length) :
    (a.frame cv (probeFrame cv a.reference)).pose.t = 1 := by
  rw [Session.frame_solver (probeFrame_reaches h3)]
  simp [probeFrame, markerFrame, solverFor, Pose.ofSolution, restvec_unitSolution]

/-- A session with another reference stays where it is. -/
theorem probeFrame_unknown (h3 : 3 ≤ ref.length) (hne : b.reference ≠ ref) :
    (b.frame cv (probeFrame cv ref)).pose.t = b.pose.t := by
  have hp : (probeFrame cv ref).points ≠ [] := by
    intro h
    have hl := probeFrame_length cv ref
    rw [h, List.length_nil] at hl
    omega
  by_cases hn : b.reference.length = ref.length
  · have hm : modelPointsOf b.reference ≠ modelPointsOf ref :=
      fun h => hne (modelPointsOf_injective h)
    rw [Session.frame_solver (by rw [hn]; exact probeFrame_reaches h3)]
    simp [probeFrame, markerFrame, solverFor, hm]
  · have hs : (probeFrame cv ref).SetsReference b.reference.length := by
      refine ⟨hp, Or.inr ⟨?_, ?_⟩⟩
      · rw [probeFrame_length]; exact h3
      · rw [probeFrame_length]; exact fun h => hn h.symm
    rw [Session.frame_of_sets hs]

/-- Two sessions at the initial pose whose references are not the same are told apart by one
frame. -/
theorem probe_outputs_ne {s t : NativeState K} (hs : Refines s a) (ht : Refines t b)
    (hb : b.pose.t = 0) (h3 : 3 ≤ a.reference.length) (hne : b.reference ≠ a.reference) :
    outputs (frameStep cv) s [probeFrame cv a.reference] ≠
      outputs (frameStep cv) t [probeFrame cv a.reference] := by
  intro h
  simp only [outputs, frameStep_refines hs, frameStep_refines ht, Option.bind_some,
    Option.map_some, Option.some.injEq, List.cons.injEq, Prod.mk.injEq, and_true, true_and] at h
  have ht := congrFun (modelMatrix_translation h) 0
  rw [probeFrame_known h3, probeFrame_unknown h3 hne, hb] at ht
  exact one_ne_zero ht

end Probe

/-! ### Two histories -/

/-- A session to continue from once `InitMatrix` has returned. -/
theorem initMatrix_session {cv : OpenCv K} {es : List (Event K)} {s : NativeState K}
    (hs : runEvents cv es = some s) :
    ∃ ref, s.modelPoints = modelPointsOf ref ∧ Refines (initMatrix s) ⟨ref, .initial⟩ := by
  rcases runEvents_refines hs with ⟨-, rfl⟩ | ⟨-, h, -⟩
  · exact ⟨[], rfl, initMatrix_refines load_layout rfl rfl⟩
  · exact ⟨_, h.model, initMatrix_refines h.layout h.model h.object⟩

omit [LinearOrder K] in
theorem sameReference_modelPointsOf {as bs : List (Point2f K)} :
    SameReference (modelPointsOf as) (modelPointsOf bs) ↔ SameReference as bs := by
  simp [SameReference, modelPointsOf_injective.eq_iff]

/-- **What `InitMatrix` forgets.**  After two histories `es₁` and `es₂` and an `InitMatrix` each,
all continuations return the same flags and the same floats if and only if the histories left the
same reference points, or references of fewer than three points. -/
theorem initMatrix_fresh_iff [IsStrictOrderedRing K] (cv : OpenCv K) (es₁ es₂ : List (Event K))
    (s₁ s₂ : NativeState K) (h₁ : runEvents cv es₁ = some s₁) (h₂ : runEvents cv es₂ = some s₂) :
    (∀ fs, outputs (frameStep cv) (initMatrix s₁) fs = outputs (frameStep cv) (initMatrix s₂) fs) ↔
      SameReference s₁.modelPoints s₂.modelPoints := by
  obtain ⟨r₁, hm₁, hr₁⟩ := initMatrix_session h₁
  obtain ⟨r₂, hm₂, hr₂⟩ := initMatrix_session h₂
  rw [hm₁, hm₂, sameReference_modelPointsOf]
  constructor
  · intro h
    by_contra hne
    obtain ⟨hne, hlen⟩ := not_or.1 hne
    by_cases h3 : 3 ≤ r₁.length
    · exact probe_outputs_ne hr₁ hr₂ rfl h3 (Ne.symm hne) (h _)
    · exact probe_outputs_ne hr₂ hr₁ rfl (by simp only; omega) hne (h _).symm
  · intro h fs
    exact Session.Alike.outputs_eq hr₁ hr₂ ⟨rfl, rfl, h⟩ fs

/-! ### On concrete numbers -/

/-- One frame of the sample, which sets the reference. -/
def sampleHistory : List (Event ℚ) := [.initMatrix, .frame (sampleFrame 1 sampleSolve)]

theorem initMatrix_remembers :
    ∃ s₁ s₂, runEvents sampleCv [] = some s₁ ∧ runEvents sampleCv sampleHistory = some s₂ ∧
      outputs (frameStep sampleCv) (initMatrix s₁) [sampleFrame 1 sampleSolve] ≠
        outputs (frameStep sampleCv) (initMatrix s₂) [sampleFrame 1 sampleSolve] := by
  obtain ⟨s, hs, hr, -⟩ := runEvents_defined sampleCv [.frame (sampleFrame 1 sampleSolve)]
  refine ⟨NativeState.load ℚ, s, rfl, hs, ?_⟩
  have hr₁ : Refines (initMatrix (NativeState.load ℚ)) ⟨[], .initial⟩ :=
    initMatrix_refines load_layout rfl rfl
  have hr₂ : Refines (initMatrix s) ⟨(sessionAfter sampleCv sampleHistory).reference, .initial⟩ :=
    initMatrix_refines hr.layout hr.model hr.object
  have href : (sessionAfter sampleCv sampleHistory).reference.length = 3 := by
    change ((⟨[], Pose.initial⟩ : Session ℚ).frame sampleCv _).reference.length = _
    rw [Session.frame_of_sets (sampleFrame_sets (Or.inr (by decide))), sampleFrame_image]
    rfl
  have hreach : (sampleFrame 1 sampleSolve).ReachesSolver
      (sessionAfter sampleCv sampleHistory).reference.length := by
    rw [href]
    exact ⟨one_ne_zero, by rw [sampleFrame_points]; simp, by rw [sampleFrame_points]; rfl⟩
  have hset : (sampleFrame 1 sampleSolve).SetsReference ([] : List (Point2f ℚ)).length :=
    sampleFrame_sets (Or.inr (by decide))
  intro h
  simp only [outputs, frameStep_refines hr₁, frameStep_refines hr₂, Option.bind_some,
    Option.map_some, Option.some.injEq, List.cons.injEq, Prod.mk.injEq, and_true, true_and] at h
  -- with the old reference the first frame is solved, without it the frame sets one
  have ht := congrFun (modelMatrix_translation h) 0
  rw [Session.frame_of_sets hset,
    Session.frame_solver (a := ⟨(sessionAfter sampleCv sampleHistory).reference, .initial⟩)
      hreach] at ht
  simp [Pose.initial, sampleFrame, markerFrame, sampleSolve, Pose.ofSolution, restvec,
    sampleCv] at ht
  norm_num at ht

/-- Two histories with one reference: no continuation tells how often it was used. -/
theorem initMatrix_fresh_iff_sample :
    ∃ s₁ s₂, runEvents sampleCv sampleHistory = some s₁ ∧
      runEvents sampleCv (sampleHistory ++ [.frame (sampleFrame 1 sampleSolve)]) = some s₂ ∧
      ∀ fs, outputs (frameStep sampleCv) (initMatrix s₁) fs =
        outputs (frameStep sampleCv) (initMatrix s₂) fs := by
  obtain ⟨s₁, hs₁, hr₁, -⟩ := runEvents_defined sampleCv sampleHistory.tail
  obtain ⟨s₂, hs₂, hr₂, -⟩ := runEvents_defined sampleCv
    (sampleHistory.tail ++ [.frame (sampleFrame 1 sampleSolve)])
  refine ⟨s₁, s₂, hs₁, hs₂, (initMatrix_fresh_iff sampleCv _ _ s₁ s₂ hs₁ hs₂).2 (Or.inl ?_)⟩
  have href : (sessionAfter sampleCv sampleHistory).reference =
      imagePoints sampleCv (sampleFrame 1 sampleSolve).points := by
    change ((⟨[], Pose.initial⟩ : Session ℚ).frame sampleCv _).reference = _
    rw [Session.frame_of_sets (sampleFrame_sets (Or.inr (by decide)))]
  have hset : ¬ (sampleFrame 1 sampleSolve).SetsReference
      (sessionAfter sampleCv sampleHistory).reference.length := by
    rw [href, length_imagePoints]
    rintro ⟨-, h | ⟨-, h⟩⟩
    · exact one_ne_zero h
    · exact h rfl
  rw [hr₁.model, hr₂.model]
  refine congrArg modelPointsOf ?_
  change _ = ((sessionAfter sampleCv sampleHistory).frame sampleCv _).reference
  rw [Session.frame_reference, if_neg hset]
  rfl

end Controller
