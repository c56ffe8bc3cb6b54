import Controller.Camera.Callbacks
import Controller.Lib.LatestSlot

/-!
# The two `Mat`s of the frame chain

`onPreviewFrame` and the worker share two `Mat`s and an index.  Together they are a slot that keeps
the latest picture (`LatestSlot`): `mFrameChain[mChainIdx]` is the slot, the other `Mat` what the
worker holds.  `refines_slot` is the simulation, over all interleavings and reconnections.

`delivered_sublist`: what the listener gets is a subsequence of what the camera sent, so frames may
be skipped, but none comes twice, late or out of order.  `held_frame`: the worker takes the newest
picture there is, and as long as it works on it nothing writes to its `Mat`, however many pictures
arrive.
-/

namespace Controller.Camera

open PartialRun LatestSlot

variable {F : Type} {s s' : View F} {l : ViewState} {a : Slot F}

/-- The `Mat`s handed to `onCameraFrame`. -/
def delivered (cs : List (Callback F)) : List (YuvMat F) :=
  cs.filterMap fun
    | .onCameraFrame m => some m
    | _ => none

/-- The `Mat` is the picture `f`, or too small for any picture. -/
def YuvMat.Shows (m : YuvMat F) (f : F) : Prop := m = .image f ∨ m = .empty

/-- The chain and the worker as a slot. -/
structure View.Refines (s : View F) (a : Slot F) : Prop where
  out : delivered s.callbacks = a.out.map .image
  stale : s.mCameraFrameReady = false → a.fresh = none
  fresh : ∀ c, s.mFrameChain = some c → s.mCameraFrameReady = true →
    ∃ f, a.fresh = some f ∧ (c s.mChainIdx).Shows f
  held : ∀ c w, s.mFrameChain = some c → s.mThread = some w → w.Holds →
    ∃ f, a.held = some f ∧ (c (1 - s.mChainIdx)).Shows f

theorem delivered_concat (cs : List (Callback F)) (x : Callback F) :
    delivered (cs ++ [x]) = delivered cs ++ delivered [x] := by
  unfold delivered
  rw [List.filterMap_append]

theorem YuvMat.put_shows (m : YuvMat F) (f : F) : (m.put f).Shows f := by
  cases m with
  | empty => exact .inr rfl
  | blank => exact .inl rfl
  | image g => exact .inl rfl

/-- A step that leaves the chain alone and gives the worker nothing. -/
theorem Refines_of_same (hr : s.Refines a) (hd : delivered s'.callbacks = delivered s.callbacks)
    (hready : s'.mCameraFrameReady = s.mCameraFrameReady)
    (hchain : s'.mFrameChain = s.mFrameChain) (hidx : s'.mChainIdx = s.mChainIdx)
    (hthread : ∀ w, s'.mThread = some w → w.Holds → ∃ w', s.mThread = some w' ∧ w'.Holds) :
    s'.Refines a := by
  refine ⟨hd.trans hr.out, ?_, ?_, ?_⟩
  · rw [hready]; exact hr.stale
  · rw [hready, hchain, hidx]; exact hr.fresh
  · rw [hchain, hidx]
    intro c w hc hw hh
    obtain ⟨w', hw', hh'⟩ := hthread w hw hh
    exact hr.held c w' hc hw' hh'

theorem Refines_notify (hr : s.Refines a) : s.notify.Refines a := by
  rcases notify_cases s with h | ⟨hw, h⟩
  · rw [h]; exact hr
  · rw [h]
    refine Refines_of_same hr rfl rfl rfl rfl ?_
    rintro w ⟨⟩ hh
    exact absurd hh (by simp [Worker.Holds])

/-- A step of the worker is a `take`, a `give` or nothing. -/
theorem Refines_workerStep (hi : s.ThreadOk) (hr : s.Refines a) (h : s.workerStep = some s') :
    s'.Refines (a.step .take) ∨ s'.Refines (a.step .give) ∨ s'.Refines a := by
  have hnone : ∀ {t : View F}, t.callbacks = s.callbacks →
      t.mCameraFrameReady = s.mCameraFrameReady → t.mFrameChain = s.mFrameChain →
      t.mChainIdx = s.mChainIdx → (∀ w, t.mThread = some w → ¬ w.Holds) → t.Refines a := by
    intro t hcb hrd hch hix hh
    exact Refines_of_same hr (by rw [hcb]) hrd hch hix fun w hw hw' => absurd hw' (hh w hw)
  rcases workerStep_cases h with ⟨ht, hready, rfl⟩ | ⟨ht, -, hstop, rfl⟩ | ⟨ht, -, hstop, rfl⟩ |
    ⟨ht, -, rfl⟩ | ⟨b, ht, -, rfl⟩ | ⟨c, ht, hc, ⟨he, rfl⟩ | ⟨he, rfl⟩⟩ | ⟨ht, rfl⟩ |
    ⟨c, i, ht, hc, rfl⟩ | ⟨ht, hstop, rfl⟩ | ⟨ht, hstop, rfl⟩
  · left
    refine ⟨hr.out, fun _ => rfl, by simp, ?_⟩
    intro c w hc _ _
    obtain ⟨f, hf, hs⟩ := hr.fresh c hc hready
    refine ⟨f, hf, ?_⟩
    rw [one_sub_one_sub]
    exact hs
  · exact .inr (.inr (hnone rfl rfl rfl rfl (by simp [Worker.Holds])))
  · exact .inr (.inr (hnone rfl rfl rfl rfl (by simp [Worker.Holds])))
  · exact .inr (.inr (Refines_of_same hr rfl rfl rfl rfl fun _ _ _ => ⟨_, ht, rfl⟩))
  · exact .inr (.inr (hnone rfl rfl rfl rfl (by simp [Worker.Holds])))
  · exact .inr (.inr (hnone rfl rfl rfl rfl (by simp [Worker.Holds])))
  · exact .inr (.inr (Refines_of_same hr rfl rfl rfl rfl fun _ _ _ => ⟨_, ht, trivial⟩))
  · exact .inr (.inr (Refines_of_same hr rfl rfl rfl rfl fun _ _ _ => ⟨_, ht, trivial⟩))
  · -- the call of the listener
    right; left
    obtain ⟨rfl, he⟩ := hi.delivering c i hc ht
    obtain ⟨f, hf, hs | hs⟩ := hr.held c _ hc ht trivial
    · refine ⟨?_, hr.stale, hr.fresh, by simp [Worker.Holds]⟩
      rw [delivered_concat, hr.out, hs]
      simp [Slot.step, hf, delivered]
    · exact absurd hs he
  · exact .inr (.inr (hnone rfl rfl rfl rfl (by simp [Worker.Holds])))
  · exact .inr (.inr (hnone rfl rfl rfl rfl (by simp [Worker.Holds])))

/-- A step of the main thread is a `clear` or nothing. -/
theorem Refines_mainStep (hm : s.MainOk l) (hr : s.Refines a) (h : s.mainStep = some s') :
    s'.Refines (a.step .clear) ∨ s'.Refines a := by
  have hkeep : ∀ {t : View F}, s.SameCamera t → t.callbacks = s.callbacks → t.Refines a := by
    intro t hc hcb
    refine Refines_of_same hr (by rw [hcb]) hc.ready hc.mFrameChain hc.mChainIdx ?_
    intro w hw hh
    exact ⟨w, hc.mThread ▸ hw, hh⟩
  rcases mainStep_cases h with ⟨c, cs, hpc, -, rfl⟩ | ⟨hpc, rfl⟩ | ⟨hpc, rfl⟩ | ⟨hpc, -, rfl⟩ |
    ⟨hpc, rfl⟩ | ⟨hpc, rfl⟩ | ⟨hpc, rfl⟩
  · right
    have hc : s.SameCamera ({ s with todo := cs }.set c) := by
      obtain ⟨h1, h2, h3, h4, h5, h6, h7⟩ := set_sameCamera { s with todo := cs } c
      exact ⟨h1, h2, h3, h4, h5, h6, h7⟩
    obtain ⟨h1, h2, h3, h4, h5, h6, h7⟩ := hc
    rcases checkCurrentState_cases ({ s with todo := cs }.set c) with ⟨-, h⟩ | ⟨-, -, h⟩ |
      ⟨-, -, h⟩ <;> rw [h] <;>
      exact hkeep ⟨h1, h2, h3, h4, h5, h6, h7⟩ (set_callbacks _ c)
  · exact .inr (Refines_of_same hr rfl rfl rfl rfl fun w hw hh => ⟨w, hw, hh⟩)
  · right
    have hn := Refines_notify hr
    exact Refines_of_same hn rfl rfl rfl rfl fun w hw hh => ⟨w, hw, hh⟩
  · exact .inr (Refines_of_same hr rfl rfl rfl rfl (by simp))
  · left
    unfold View.MainOk at hm
    simp only [hpc] at hm
    refine ⟨hr.out, fun _ => rfl, by simp [View.releaseCamera], ?_⟩
    intro c w _ hw
    rw [show View.mThread { s.releaseCamera with mState := .stopped, pc := .enteringStopped } =
      none from hm.2.2.2] at hw
    cases hw
  · refine .inr (Refines_of_same hr ?_ rfl rfl rfl fun w hw hh => ⟨w, hw, hh⟩)
    rw [delivered_concat]
    exact List.append_nil _
  · refine .inr (Refines_of_same hr ?_ rfl rfl rfl fun w hw hh => ⟨w, hw, hh⟩)
    rw [delivered_concat]
    exact List.append_nil _

/-- `connectCamera` finds the slot empty and leaves it so. -/
theorem Refines_connectCamera (hm : s.MainOk l) (hr : s.Refines a) (hpc : s.pc = .connecting)
    (o : Opening) : (s.connectCamera o).Refines a := by
  unfold View.MainOk at hm
  simp only [hpc] at hm
  obtain ⟨hthread, -, -, hready⟩ := hm.2.2.2
  have hfresh := hr.stale hready
  have hkeep : ∀ {t : View F}, t.callbacks = s.callbacks → t.mCameraFrameReady = false →
      (∀ w, t.mThread = some w → ¬ w.Holds) → t.Refines a := by
    intro t hcb hrd hh
    refine ⟨by rw [hcb]; exact hr.out, fun _ => hfresh, fun c _ h => ?_, fun c w _ hw h => ?_⟩
    · rw [hrd] at h; cases h
    · exact absurd h (hh w hw)
  cases o with
  | unavailable => exact hkeep rfl hready (by simp [View.connectCamera, hthread])
  | failed allocated =>
    cases allocated with
    | none => exact hkeep rfl hready (by simp [View.connectCamera, hthread])
    | some wh => exact hkeep rfl hready (by simp [View.connectCamera, View.allocate, hthread])
  | opened w h => exact hkeep rfl rfl (by simp [View.connectCamera, Worker.Holds])

/-- `onPreviewFrame` is a `put`. -/
theorem Refines_onPreviewFrame {f : F} (hr : s.Refines a) (h : s.onPreviewFrame f = some s') :
    s'.Refines (a.step (.put f)) := by
  obtain ⟨c, hc, rfl⟩ := onPreviewFrame_eq h
  refine Refines_notify ⟨hr.out, by simp [View.written], ?_, ?_⟩
  · rintro c' ⟨⟩ _
    refine ⟨f, rfl, ?_⟩
    show (Function.update c s.mChainIdx _ s.mChainIdx).Shows f
    rw [Function.update_self]
    exact YuvMat.put_shows _ f
  · rintro c' w ⟨⟩ hw hh
    obtain ⟨g, hg, hs⟩ := hr.held c w hc hw hh
    refine ⟨g, hg, ?_⟩
    show (Function.update c s.mChainIdx _ (1 - s.mChainIdx)).Shows g
    rw [Function.update_of_ne (one_sub_ne _)]
    exact hs

/-- Every run of the view is a run of the slot with the same pictures. -/
theorem refines_slot {visible : Bool} {es : List (Event F)} (h : runView visible es = some s) :
    ∃ ops, s.Refines (after ops) ∧ puts ops = previews es := by
  refine run_induction (C := fun _ _ => True)
    (fun es (s : View F) => ∃ ops, s.Refines (after ops) ∧ puts ops = previews es) ?_ ?_
    (along_of_forall fun _ _ _ => trivial) h
  · refine ⟨[], ⟨rfl, fun _ => rfl, ?_, ?_⟩, rfl⟩ <;> simp [View.init]
  · rintro es s e s' hs ⟨ops, hr, hops⟩ - hstep
    obtain ⟨l, hi⟩ := reachable_inv (show runView visible es = some s from hs)
    have hsame : ∀ {e : Event F}, previews [e] = [] → puts ops = previews (es ++ [e]) := by
      intro e he
      unfold previews at he ⊢
      rw [List.filterMap_append, he, List.append_nil]
      exact hops
    cases e with
    | call c =>
      obtain ⟨-, hstep⟩ := Option.ite_none_right_eq_some.1 hstep
      cases hstep
      exact ⟨ops, Refines_of_same hr rfl rfl rfl rfl fun w hw hh => ⟨w, hw, hh⟩, hsame rfl⟩
    | main =>
      rcases Refines_mainStep hi.main hr hstep with h | h
      · refine ⟨ops ++ [.clear], by rw [after_concat]; exact h, ?_⟩
        rw [puts_concat_of_ne _ (by simp)]
        exact hsame rfl
      · exact ⟨ops, h, hsame rfl⟩
    | initializeCamera o =>
      obtain ⟨hpc, hstep⟩ := Option.ite_none_right_eq_some.1 hstep
      cases hstep
      exact ⟨ops, Refines_connectCamera hi.main hr hpc o, hsame rfl⟩
    | onPreviewFrame f =>
      obtain ⟨-, hstep⟩ := Option.ite_none_right_eq_some.1 hstep
      refine ⟨ops ++ [.put f], by rw [after_concat]; exact Refines_onPreviewFrame hr hstep, ?_⟩
      rw [puts_concat_put, hops]
      simp [previews]
    | worker =>
      rcases Refines_workerStep hi.thread hr hstep with h | h | h
      · refine ⟨ops ++ [.take], by rw [after_concat]; exact h, ?_⟩
        rw [puts_concat_of_ne _ (by simp)]
        exact hsame rfl
      · refine ⟨ops ++ [.give], by rw [after_concat]; exact h, ?_⟩
        rw [puts_concat_of_ne _ (by simp)]
        exact hsame rfl
      · exact ⟨ops, h, hsame rfl⟩
    | wakeup =>
      obtain ⟨hw, hstep⟩ := Option.ite_none_right_eq_some.1 hstep
      cases hstep
      refine ⟨ops, Refines_of_same hr rfl rfl rfl rfl ?_, hsame rfl⟩
      rintro w ⟨⟩ hh
      exact absurd hh (by simp [Worker.Holds])

/-- The listener gets pictures the camera sent, in the order they were sent, each at most once. -/
theorem delivered_sublist {visible : Bool} {es : List (Event F)}
    (h : runView visible es = some s) :
    ∃ fs : List F, delivered s.callbacks = fs.map .image ∧ fs.Sublist (previews es) := by
  obtain ⟨ops, hr, hops⟩ := refines_slot h
  refine ⟨(after ops).out, hr.out, ?_⟩
  rw [← hops]
  have := sublist_puts ops
  rw [List.append_assoc] at this
  exact (List.sublist_append_left _ _).trans this

/-- Of three pictures the second is overwritten before the worker comes back. -/
theorem delivered_sublist_skip : ∃ s, runView true
    [.call .setCameraPermissionGranted, .main, .call .enableView, .main, .call .surfaceChanged,
      .main, .initializeCamera (.opened 4 2), .main, .onPreviewFrame 7, .worker, .onPreviewFrame 8,
      .worker, .worker, .worker, .onPreviewFrame 9, .worker, .worker, .worker, .worker, .worker,
      .worker, .worker] = some s ∧
    delivered s.callbacks = [.image 7, .image 9] ∧
    ∃ fs : List ℕ, delivered s.callbacks = fs.map .image ∧ fs.Sublist [7, 8, 9] := by
  obtain ⟨s, hs, hd⟩ := Option.map_eq_some_iff.1 (show (runView true
    [.call .setCameraPermissionGranted, .main, .call .enableView, .main, .call .surfaceChanged,
      .main, .initializeCamera (.opened 4 2), .main, .onPreviewFrame 7, .worker, .onPreviewFrame 8,
      .worker, .worker, .worker, .onPreviewFrame 9, .worker, .worker, .worker, .worker, .worker,
      .worker, .worker]).map (fun s => delivered s.callbacks) = some [.image 7, .image 9] by decide)
  exact ⟨s, hs, hd, delivered_sublist hs⟩

/-! ### The `Mat` the worker works on -/

/-- No step writes to the `Mat` the worker holds, or moves it. -/
theorem held_same {e : Event F} {w w' : Worker} {c : Fin 2 → YuvMat F} (hi : s.Inv l)
    (h : s.step e = some s') (hw : s.mThread = some w) (hh : w.Holds)
    (hw' : s'.mThread = some w') (hc : s.mFrameChain = some c) :
    ∃ c', s'.mFrameChain = some c' ∧ s'.mChainIdx = s.mChainIdx ∧
      c' (1 - s.mChainIdx) = c (1 - s.mChainIdx) := by
  have hn : s.mThread ≠ none := by simp [hw]
  cases e with
  | call d =>
    obtain ⟨-, h⟩ := Option.ite_none_right_eq_some.1 h
    cases h
    exact ⟨c, hc, rfl, rfl⟩
  | main =>
    have hm := hi.main
    unfold View.MainOk at hm
    rcases mainStep_cases h with ⟨d, cs, hpc, -, rfl⟩ | ⟨hpc, rfl⟩ | ⟨hpc, rfl⟩ | ⟨hpc, -, rfl⟩ |
      ⟨hpc, rfl⟩ | ⟨hpc, rfl⟩ | ⟨hpc, rfl⟩
    · have hset := set_sameCamera { s with todo := cs } d
      refine ⟨c, ?_, ?_, rfl⟩
      · rcases checkCurrentState_cases ({ s with todo := cs }.set d) with ⟨-, h⟩ | ⟨-, -, h⟩ |
          ⟨-, -, h⟩ <;> rw [h] <;> exact hset.mFrameChain.trans hc
      · rcases checkCurrentState_cases ({ s with todo := cs }.set d) with ⟨-, h⟩ | ⟨-, -, h⟩ |
          ⟨-, -, h⟩ <;> rw [h] <;> exact hset.mChainIdx
    · exact ⟨c, hc, rfl, rfl⟩
    · rcases notify_cases s with h | ⟨hw, h⟩ <;> rw [h] <;> exact ⟨c, hc, rfl, rfl⟩
    · cases hw'
    · simp only [hpc] at hm
      exact absurd hm.2.2.2 hn
    · exact ⟨c, hc, rfl, rfl⟩
    · exact ⟨c, hc, rfl, rfl⟩
  | initializeCamera o =>
    obtain ⟨hpc, -⟩ := Option.ite_none_right_eq_some.1 h
    have hm := hi.main
    unfold View.MainOk at hm
    simp only [hpc] at hm
    exact absurd hm.2.2.2.mThread hn
  | onPreviewFrame f =>
    obtain ⟨-, h⟩ := Option.ite_none_right_eq_some.1 h
    obtain ⟨c', hc', rfl⟩ := onPreviewFrame_eq h
    rw [hc] at hc'
    cases hc'
    have hupd : Function.update c s.mChainIdx ((c s.mChainIdx).put f) (1 - s.mChainIdx) =
        c (1 - s.mChainIdx) := Function.update_of_ne (one_sub_ne _) _ _
    rcases notify_cases (s.written c f) with h | ⟨-, h⟩ <;> rw [h] <;> exact ⟨_, rfl, rfl, hupd⟩
  | worker =>
    rcases workerStep_cases h with ⟨ht, -, rfl⟩ | ⟨ht, -, -, rfl⟩ | ⟨ht, -, -, rfl⟩ |
      ⟨-, -, rfl⟩ | ⟨b, -, -, rfl⟩ | ⟨d, -, -, ⟨-, rfl⟩ | ⟨-, rfl⟩⟩ | ⟨-, rfl⟩ |
      ⟨d, i, -, -, rfl⟩ | ⟨-, -, rfl⟩ | ⟨-, -, rfl⟩
    · rw [hw] at ht
      cases ht
      exact absurd hh (by simp [Worker.Holds])
    all_goals exact ⟨c, hc, rfl, rfl⟩
  | wakeup =>
    obtain ⟨-, h⟩ := Option.ite_none_right_eq_some.1 h
    cases h
    exact ⟨c, hc, rfl, rfl⟩

/-- The worker holds a frame. -/
def View.Holding (s : View F) : Prop := ∃ w, s.mThread = some w ∧ w.Holds

/-- While the worker holds a frame, other steps change nothing in it. -/
theorem held_run {fs : List (Event F)} {t : View F} (hi : s.Inv l)
    (hrun : run View.step s fs = some t) (hold : Along View.step (fun u _ => u.Holding) s fs)
    (ht : t.Holding) {c : Fin 2 → YuvMat F} (hc : s.mFrameChain = some c) :
    ∃ c', t.mFrameChain = some c' ∧ c' (1 - t.mChainIdx) = c (1 - s.mChainIdx) := by
  induction fs generalizing s l c with
  | nil => cases hrun; exact ⟨c, hc, rfl⟩
  | cons e fs ih =>
    rw [run_cons] at hrun
    obtain ⟨s', hs', hrun⟩ := Option.bind_eq_some_iff.1 hrun
    obtain ⟨⟨w, hw, hh⟩, hrest⟩ := hold
    obtain ⟨l', hi'⟩ := Inv_step hi hs'
    have hs'h : s'.Holding := by
      cases fs with
      | nil => cases hrun; exact ht
      | cons e' fs => exact (hrest s' hs').1
    obtain ⟨w', hw', -⟩ := hs'h
    obtain ⟨c', hc', hidx, hsame⟩ := held_same hi hs' hw hh hw' hc
    obtain ⟨c'', hc'', h⟩ := ih hi' hrun (hrest s' hs') hc'
    refine ⟨c'', hc'', ?_⟩
    rw [h, hidx]
    exact hsame

/-- When the worker enters the monitor and finds a frame, it takes the newest picture the camera has
sent; for as long as it holds it, its `Mat` keeps that picture, whatever the other thread does. -/
theorem held_frame {visible : Bool} {es fs : List (Event F)} {t : View F}
    (hs : runView visible es = some s) (he : s.mThread = some .entering)
    (hready : s.mCameraFrameReady = true) (hstep : s.step .worker = some s')
    (hrun : run View.step s' fs = some t)
    (hold : Along View.step (fun u _ => u.Holding) s' fs) (ht : t.Holding) :
    ∃ f c, (previews es).getLast? = some f ∧ t.mFrameChain = some c ∧
      (c (1 - t.mChainIdx)).Shows f := by
  obtain ⟨l, hi⟩ := reachable_inv hs
  obtain ⟨ops, hr, hops⟩ := refines_slot hs
  have hs' : s' = { s with
      mChainIdx := 1 - s.mChainIdx, mCameraFrameReady := false, mThread := some (.left true) } := by
    simpa [View.step, View.workerStep, he, hready] using hstep.symm
  cases hc : s.mFrameChain with
  | none => exact absurd hc (hi.thread.chain (.inr (by simp [he])))
  | some c =>
    obtain ⟨f, hf, hshow⟩ := hr.fresh c hc hready
    obtain ⟨l', hi'⟩ := Inv_step hi hstep
    have hc' : s'.mFrameChain = some c := by rw [hs']; exact hc
    obtain ⟨c', htc, hsame⟩ := held_run hi' hrun hold ht hc'
    refine ⟨f, c', ?_, htc, ?_⟩
    · rw [← hops]
      exact fresh_eq_last ops hf
    · rw [hsame, hs']
      show (c (1 - (1 - s.mChainIdx))).Shows f
      rw [one_sub_one_sub]
      exact hshow

/-- A picture arrives while the worker has the one before. -/
theorem held_frame_overtaken : ∃ s s' t : View ℕ, runView true
    [.call .setCameraPermissionGranted, .main, .call .enableView, .main, .call .surfaceChanged,
      .main, .initializeCamera (.opened 4 2), .main, .onPreviewFrame 7] = some s ∧
    s.step .worker = some s' ∧ run View.step s' [.onPreviewFrame 8] = some t ∧
    ∃ f c, ([7] : List ℕ).getLast? = some f ∧ t.mFrameChain = some c ∧
      (c (1 - t.mChainIdx)).Shows f := by
  obtain ⟨s, hs, h0⟩ := Option.map_eq_some_iff.1 (show (runView true
    [.call .setCameraPermissionGranted, .main, .call .enableView, .main, .call .surfaceChanged,
      .main, .initializeCamera (.opened 4 2), .main, .onPreviewFrame (7 : ℕ)]).map
        (fun s => (s.mThread, s.mCameraFrameReady, (s.step .worker).map View.mThread,
          (s.step .worker).map fun s' => (run View.step s' [.onPreviewFrame 8]).map View.mThread)) =
      some (some .entering, true, some (some (.left true)), some (some (some (.left true)))) by
    decide)
  simp only [Prod.mk.injEq] at h0
  obtain ⟨he, hready, h1, h2⟩ := h0
  obtain ⟨s', hs', hl⟩ := Option.map_eq_some_iff.1 h1
  rw [hs', Option.map_some, Option.some.injEq] at h2
  obtain ⟨t, ht, hl'⟩ := Option.map_eq_some_iff.1 h2
  exact ⟨s, s', t, hs, hs', ht, held_frame hs he hready hs' ht
    ⟨⟨_, hl, rfl⟩, fun _ _ => trivial⟩ ⟨_, hl', rfl⟩⟩

end Controller.Camera
