import Controller.Native.Reference

/-!
# What the read-outs tell

`NativeInfo` reads the global `info` and `GetRvecTvec` the globals `gr` and `gt`, but
`detect_points` and `estimate_pose` get a copy of `info`, and the tracked pose is in `objLeft`.
Field by field, after a frame with points (`nativeInfo_frame`):

* the rotation arrives: `Rodrigues` overwrites the buffer that both copies of `info.R` share;
* the translation does not: the local `info.tvec` gets a buffer of its own;
* `contours`, `start_tracking` and `solutions` are scalars of the lost copy, and stay `0`;
* `GetRvecTvec` returns what `InitMatrix` wrote.

Since a frame with points has a contour, `NativeInfo` never describes it: `readOuts_never`.
-/

namespace Controller

open PartialRun

variable {K : Type} [Field K] [LinearOrder K]

/-- The read-outs in the state `s'` describe the frame `f` that was processed in `s`: `NativeInfo`
lists rotation and translation of the local `info` with which `estimate_pose` returned, the number
of contours, and its two flags; `GetRvecTvec` lists the tracked pose. -/
structure ReadOutsDescribe (cv : OpenCv K) (s : NativeState K) (f : CameraFrame K)
    (s' : NativeState K) : Prop where
  nativeInfo : ∃ v R t, Controller.nativeInfo s' = some v ∧
    (frameEstimate cv s f).state.mem.mats.read (frameEstimate cv s f).info.R = some R ∧
    (frameEstimate cv s f).state.mem.vecs.read (frameEstimate cv s f).info.tvec = some t ∧
    [v 0, v 1, v 2, v 3, v 4, v 5, v 6, v 7, v 8] =
      [R 0 0, R 0 1, R 0 2, R 1 0, R 1 1, R 1 2, R 2 0, R 2 1, R 2 2] ∧
    [v 9, v 10, v 11] = [t 0, t 1, t 2] ∧
    v 12 = (f.contours.length : K) ∧
    v 13 = ((frameEstimate cv s f).info.startTracking : K) ∧
    v 14 = ((frameEstimate cv s f).info.solutions : K)
  getRvecTvec : ∃ r t, s'.mem.vecs.read s'.objLeft.gr = some r ∧
    s'.mem.vecs.read s'.objLeft.gt = some t ∧ Controller.getRvecTvec s' = some (r, t)

section Frame

variable {cv : OpenCv K} {s s' : NativeState K} {f : CameraFrame K} {a : Session K}

/-- The copy of `info` ends with the global one's `R`, which the call leaves in place. -/
theorem frameEstimate_info (cv : OpenCv K) (s : NativeState K) (f : CameraFrame K) :
    (frameEstimate cv s f).state.info = (callState s f).info ∧
      (frameEstimate cv s f).info.R = (callState s f).info.R := by
  rcases frame_exits f s.modelPoints.length with ht | ⟨ht, hf⟩ | ⟨ht, hf, hn⟩ | hs
  · rw [frameEstimate_touch ht]; exact ⟨rfl, rfl⟩
  · rw [frameEstimate_few ht hf]; exact ⟨rfl, rfl⟩
  · rw [frameEstimate_refresh ht hf hn]; exact ⟨rfl, rfl⟩
  · rw [frameEstimate_solver hs]
    cases f.solvePnPGeneric s.modelPoints (imagePoints cv f.points) f.camera with
    | nil => exact ⟨rfl, rfl⟩
    | cons sol rest => exact ⟨rfl, takeSolution_R cv _ sol (callState_R_ne (f := f))⟩

/-- The buffer behind the global `info.R` holds the rotation of the frame. -/
theorem frameEstimate_read_R (cv : OpenCv K) (h : Refines s a) (hp : f.points ≠ []) :
    (frameEstimate cv s f).state.mem.mats.read (callState s f).info.R =
      some (a.frame cv f).pose.R := by
  have hc := callState_refines h f
  rcases frame_exits f s.modelPoints.length with ht | ⟨ht, hf⟩ | ⟨ht, hf, hn⟩ | hs
  · rw [frameEstimate_touch ht, Session.frame_of_sets ⟨hp, Or.inl ht⟩]
    exact leave_read_R hc.layout.mats rfl callState_R
  · rw [frameEstimate_few ht hf, Session.frame_few hp ht hf]
    exact leave_read_R hc.layout.mats rfl callState_R
  · rw [frameEstimate_refresh ht hf hn,
      Session.frame_of_sets ⟨hp, Or.inr ⟨by omega, by rw [← h.length_model]; exact hn⟩⟩]
    exact leave_read_R hc.layout.mats rfl callState_R
  · rw [frameEstimate_solver hs, Session.frame_solver (by rw [← h.length_model]; exact hs), ← h.model]
    cases f.solvePnPGeneric s.modelPoints (imagePoints cv f.points) f.camera with
    | nil => exact leave_read_R hc.layout.mats rfl callState_R
    | cons sol rest =>
      have hm := takeSolution_mats cv { (callState s f).info with
        solutions := ((sol :: rest).length : ℤ) } sol hc.layout rfl callState_R_ne
      exact leave_read_R hm.1 (takeSolution_R cv _ sol (callState_R_ne (f := f))) hm.2

/-- The buffer behind the global `info.tvec` keeps the zero it got at the beginning. -/
theorem frameEstimate_read_tvec (h : Refines s a) :
    (frameEstimate cv s f).state.mem.vecs.read (callState s f).info.tvec = some 0 := by
  have hc := callState_refines h f
  have h0 : (callState s f).mem.vecs.read (callState s f).info.tvec = some 0 := beginFrame_tvec
  rcases frame_exits f s.modelPoints.length with ht | ⟨ht, hf⟩ | ⟨ht, hf, hn⟩ | hs
  · rw [frameEstimate_touch ht]; exact h0
  · rw [frameEstimate_few ht hf]; exact h0
  · rw [frameEstimate_refresh ht hf hn]; exact h0
  · rw [frameEstimate_solver hs]
    cases f.solvePnPGeneric s.modelPoints (imagePoints cv f.points) f.camera with
    | nil => exact h0
    | cons sol rest =>
      have hkept := takeSolution_read_vecs cv (callState s f).info sol hc.layout
        (callState s f).info.tvec (by simp)
      exact hkept.trans h0

/-- **The read-outs after a frame with points**: the rotation of the frame and zeros. -/
theorem nativeInfo_frame (cv : OpenCv K) (h : Refines s a) (hu : Untouched s) (hp : f.points ≠ []) :
    ∃ R, (frameEstimate cv s f).state.mem.mats.read (frameEstimate cv s f).info.R = some R ∧
      Controller.nativeInfo (afterFrame cv s f) =
        some ![R 0 0, R 0 1, R 0 2, R 1 0, R 1 1, R 1 2, R 2 0, R 2 1, R 2 2,
          0, 0, 0, 0, 0, 0, 0] ∧
      Controller.getRvecTvec (afterFrame cv s f) = some (0, 0) := by
  obtain ⟨hinfo, hR⟩ := frameEstimate_info cv s f
  have hread := frameEstimate_read_R cv h hp
  have hu' := afterFrame_untouched cv h hu f
  have hs' : afterFrame cv s f = (frameEstimate cv s f).toState := if_neg hp
  have hrv : (afterFrame cv s f).mem.mats.read (afterFrame cv s f).info.rv =
      some (a.frame cv f).pose.R := by
    rw [hs']
    change (frameEstimate cv s f).state.mem.mats.read (frameEstimate cv s f).state.info.rv = _
    rw [hinfo]
    exact hread
  have htv : (afterFrame cv s f).mem.vecs.read (afterFrame cv s f).info.tv = some 0 := by
    rw [hs']
    change (frameEstimate cv s f).state.mem.vecs.read (frameEstimate cv s f).state.info.tv = _
    rw [hinfo]
    exact frameEstimate_read_tvec h
  refine ⟨(a.frame cv f).pose.R, by rw [hR]; exact hread, ?_, ?_⟩
  · simp [Controller.nativeInfo, hrv, htv, hu'.contours, hu'.startTracking, hu'.solutions]
  · simp [Controller.getRvecTvec, hu'.gr, hu'.gt]

/-- A frame with points has a contour. -/
theorem contours_of_points (hp : f.points ≠ []) : f.contours.length ≠ 0 := by
  intro h
  rw [List.length_eq_zero_iff] at h
  exact hp (by simp [CameraFrame.points, h])

theorem not_readOutsDescribe [CharZero K] (h : Refines s a) (hu : Untouched s)
    (hp : f.points ≠ []) : ¬ ReadOutsDescribe cv s f (afterFrame cv s f) := by
  rintro ⟨⟨v, R, t, hv, -, -, -, -, h12, -⟩, -⟩
  obtain ⟨R', -, hv', -⟩ := nativeInfo_frame cv h hu hp
  rw [hv] at hv'
  cases hv'
  have h0 : (0 : K) = (f.contours.length : K) := h12
  exact contours_of_points hp (Nat.cast_eq_zero.1 h0.symm)

end Frame

/-- **The read-outs never describe the frame.**  In every run and for every frame with points, what
`NativeInfo` and `GetRvecTvec` return afterwards is not what the frame computed. -/
theorem readOuts_never [CharZero K] (cv : OpenCv K) (es : List (Event K)) (s s' : NativeState K)
    (f : CameraFrame K) (o : FrameOut K) (hs : runEvents cv es = some s)
    (hf : convertRGBtoGray cv s f = some (s', o)) (hp : f.points ≠ []) :
    ¬ ReadOutsDescribe cv s f s' := by
  rcases runEvents_refines hs with ⟨-, rfl⟩ | ⟨-, h, hu⟩
  · rw [convertRGBtoGray_load] at hf; cases hf
  · rw [frame_state h hf]
    exact not_readOutsDescribe h hu hp

/-- One frame of three markers, right after `InitMatrix`. -/
theorem readOuts_fail :
    ∃ s s' o, runEvents sampleCv [.initMatrix] = some s ∧
      convertRGBtoGray sampleCv s (sampleFrame 1 sampleSolve) = some (s', o) ∧
      ¬ ReadOutsDescribe sampleCv s (sampleFrame 1 sampleSolve) s' := by
  obtain ⟨s, hs, hr, hu⟩ := runEvents_defined sampleCv []
  obtain ⟨o, ho, -⟩ := frame_refines sampleCv hr (sampleFrame 1 sampleSolve)
  have hp : (sampleFrame 1 sampleSolve).points ≠ [] := by rw [sampleFrame_points]; simp
  exact ⟨s, _, o, hs, ho, not_readOutsDescribe hr hu hp⟩

/-- The same frame once more, now that it has a reference and is solved. -/
theorem readOuts_never_sample :
    ∃ s s' o, runEvents sampleCv [.initMatrix, .frame (sampleFrame 1 sampleSolve)] = some s ∧
      convertRGBtoGray sampleCv s (sampleFrame 1 sampleSolve) = some (s', o) ∧
      ¬ ReadOutsDescribe sampleCv s (sampleFrame 1 sampleSolve) s' := by
  obtain ⟨s, hs, hr, -⟩ := runEvents_defined sampleCv [.frame (sampleFrame 1 sampleSolve)]
  obtain ⟨o, ho, -⟩ := frame_refines sampleCv hr (sampleFrame 1 sampleSolve)
  have hp : (sampleFrame 1 sampleSolve).points ≠ [] := by rw [sampleFrame_points]; simp
  exact ⟨s, _, o, hs, ho, readOuts_never sampleCv _ s _ _ o hs ho hp⟩

end Controller
