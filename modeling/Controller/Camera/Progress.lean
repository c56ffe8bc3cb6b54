import Controller.Camera.FrameChain

/-!
# The view comes to rest

`disconnectCamera` waits for a worker that itself waits for frames, and the flag that ends it is
set outside the monitor.  `threads_settle`: left to themselves, the main thread and the worker take
boundedly many steps, and where they stop every call has returned and the worker is gone or waits
with nothing to take.  So no notification is lost and `join` always returns.

`newest_delivered`: when they have come to rest without a disconnection, the last picture the
camera sent is the last one the listener got.
-/

namespace Controller.Camera

open PartialRun

variable {F : Type} {s s' : View F} {l : ViewState}

/-- The event is a step of the program itself: no call, picture or spurious wakeup from outside. -/
def Event.Internal : Event F → Prop
  | .main | .initializeCamera _ | .worker => True
  | _ => False

/-- How many statements of `checkCurrentState` are left. -/
def Pc.rank : Pc → ℕ
  | .idle => 0
  | .enteringStopped | .enteringStarted => 1
  | .releasing | .connecting => 2
  | .joining => 3
  | .notifying => 4
  | .stopping => 5

/-- How far the worker is from waiting, or from its end once it has been told to stop. -/
def Worker.rank (stop ready : Bool) : Worker → ℕ
  | .waiting | .finished => 0
  | .entering => if stop then 6 else if ready then 8 else 1
  | .testing => if stop then 1 else if ready then 9 else 2
  | .delivering _ => if stop then 2 else if ready then 10 else 3
  | .picking => if stop then 3 else if ready then 11 else 4
  | .checking => if stop then 4 else if ready then 12 else 5
  | .left _ => if stop then 5 else if ready then 13 else 6

/-- What is left to do for the worker. -/
def View.workerRank (s : View F) : ℕ :=
  match s.mThread with
  | none => 0
  | some w => w.rank s.mStopThread s.mCameraFrameReady

/-- What is left to do for both threads. -/
def View.rank (s : View F) : ℕ := 20 * (6 * s.todo.length + s.pc.rank) + s.workerRank

theorem Worker.rank_lt (stop ready : Bool) (w : Worker) : w.rank stop ready < 20 := by
  cases stop <;> cases ready <;> cases w <;> simp [Worker.rank]

theorem workerRank_lt (s : View F) : s.workerRank < 20 := by
  unfold View.workerRank
  cases s.mThread with
  | none => simp
  | some w => exact Worker.rank_lt _ _ w

theorem workerRank_workerStep (h : s.workerStep = some s') : s'.workerRank < s.workerRank := by
  rcases workerStep_cases h with ⟨ht, hr, rfl⟩ | ⟨ht, hr, hs, rfl⟩ | ⟨ht, hr, hs, rfl⟩ |
    ⟨ht, hs, rfl⟩ | ⟨b, ht, hs, rfl⟩ | ⟨c, ht, hc, ⟨-, rfl⟩ | ⟨-, rfl⟩⟩ | ⟨ht, rfl⟩ |
    ⟨c, i, ht, hc, rfl⟩ | ⟨ht, hs, rfl⟩ | ⟨ht, hs, rfl⟩
  all_goals
    unfold View.workerRank
    simp only [ht, Worker.rank]
    split_ifs <;> simp_all

theorem checkCurrentState_todo (s : View F) : s.checkCurrentState.todo = s.todo := by
  rcases checkCurrentState_cases s with ⟨-, h⟩ | ⟨-, -, h⟩ | ⟨-, -, h⟩ <;> rw [h]

theorem checkCurrentState_rank (s : View F) (hpc : s.pc = .idle) :
    s.checkCurrentState.pc.rank ≤ 5 := by
  rcases checkCurrentState_cases s with ⟨-, h⟩ | ⟨-, -, h⟩ | ⟨-, -, h⟩ <;> rw [h] <;>
    simp [Pc.rank, hpc]

theorem set_todo (s : View F) (c : Change) : (s.set c).todo = s.todo := by
  cases c <;> rfl

theorem notify_todo (s : View F) : s.notify.todo = s.todo := by
  rcases notify_cases s with h | ⟨-, h⟩ <;> rw [h]

/-- The main thread's part of the rank. -/
theorem mainRank_mainStep (h : s.mainStep = some s') :
    6 * s'.todo.length + s'.pc.rank < 6 * s.todo.length + s.pc.rank := by
  rcases mainStep_cases h with ⟨c, cs, hpc, hcs, rfl⟩ | ⟨hpc, rfl⟩ | ⟨hpc, rfl⟩ | ⟨hpc, -, rfl⟩ |
    ⟨hpc, rfl⟩ | ⟨hpc, rfl⟩ | ⟨hpc, rfl⟩
  · have hr := checkCurrentState_rank ({ s with todo := cs }.set c) (by rw [set_pc]; exact hpc)
    rw [checkCurrentState_todo, set_todo, hcs, List.length_cons]
    show 6 * cs.length + _ < _
    omega
  · simp only [hpc, Pc.rank]; omega
  · simp only [hpc, Pc.rank, notify_todo]; omega
  · simp only [hpc, Pc.rank]; omega
  · simp only [hpc, Pc.rank, View.releaseCamera]; omega
  · simp only [hpc, Pc.rank]; omega
  · simp only [hpc, Pc.rank]; omega

theorem connectCamera_todo_pc (s : View F) (o : Opening) :
    (s.connectCamera o).todo = s.todo ∧ (s.connectCamera o).pc = .enteringStarted := by
  cases o with
  | failed allocated => cases allocated <;> exact ⟨rfl, rfl⟩
  | _ => exact ⟨rfl, rfl⟩

theorem rank_step {e : Event F} (he : e.Internal) (h : s.step e = some s') : s'.rank < s.rank := by
  have hw := workerRank_lt s'
  unfold View.rank
  cases e with
  | main =>
    have := mainRank_mainStep h
    omega
  | initializeCamera o =>
    obtain ⟨hpc, h⟩ := Option.ite_none_right_eq_some.1 h
    cases h
    obtain ⟨h1, h2⟩ := connectCamera_todo_pc s o
    rw [h1, h2, hpc]
    simp only [Pc.rank]
    omega
  | worker =>
    have hs := workerStep_sameBut h
    have := workerRank_workerStep h
    rw [hs.todo, hs.pc]
    omega
  | call c => cases he
  | onPreviewFrame f => cases he
  | wakeup => cases he

/-- Every call has returned, and the worker is gone or waits with nothing to take. -/
def View.Settled (s : View F) : Prop :=
  s.pc = .idle ∧ s.todo = [] ∧
    (s.mThread = none ∨ s.mThread = some .waiting ∧ s.mCameraFrameReady = false)

/-- A worker that cannot go on is gone, waits or has ended. -/
theorem workerStep_stuck (hi : s.ThreadOk) (h : s.workerStep = none) :
    s.mThread = none ∨ s.mThread = some .waiting ∨ s.mThread = some .finished := by
  cases ht : s.mThread with
  | none => exact .inl rfl
  | some w =>
    obtain ⟨c, hc⟩ := Option.ne_none_iff_exists'.1 (hi.chain (.inr (by simp [ht])))
    unfold View.workerStep at h
    cases w <;> simp only [ht, hc, Option.map_some, reduceCtorEq] at h ⊢
    case entering => split_ifs at h
    all_goals simp

/-- Threads that cannot go on have settled. -/
theorem settled_of_stuck (hi : s.Inv l) (h : ∀ e : Event F, e.Internal → s.step e = none) :
    s.Settled := by
  have hmain : s.mainStep = none := h .main trivial
  have hconn := h (.initializeCamera .unavailable) trivial
  have hworker := workerStep_stuck hi.thread (h .worker trivial)
  have hm := hi.main
  unfold View.MainOk at hm
  unfold View.mainStep at hmain
  cases hpc : s.pc with
  | idle =>
    simp only [hpc] at hm hmain
    refine ⟨hpc, ?_, ?_⟩
    · cases htodo : s.todo with
      | nil => rfl
      | cons c cs => rw [htodo] at hmain; cases hmain
    · rcases hworker with hw | hw | hw
      · exact .inl hw
      · exact .inr ⟨hw, hi.thread.awake hw⟩
      · cases hst : s.mState with
        | stopped => exact .inl (hm.2.2.1 hst).mThread
        | started => exact absurd hw (hm.2.2.2 hst).not_finished
  | joining =>
    simp only [hpc] at hm hmain
    rcases hworker with hw | hw | hw
    · rw [hw] at hmain; cases hmain
    · exact absurd hw hm.2.2.2.2.2
    · rw [hw] at hmain; cases hmain
  | connecting => simp [View.step, hpc] at hconn
  | _ => simp [hpc] at hmain

/-- From every reachable state the two threads take boundedly many steps of their own, whatever
their order, and they stop only where every call has returned and no frame is left to take. -/
theorem threads_settle {visible : Bool} {es fs : List (Event F)} {t : View F}
    (hs : runView visible es = some s) (hfs : ∀ e ∈ fs, e.Internal)
    (ht : run View.step s fs = some t) :
    fs.length ≤ s.rank ∧ ((∀ e : Event F, e.Internal → t.step e = none) → t.Settled) := by
  refine ⟨?_, fun hstuck => ?_⟩
  · have := length_add_rank_le View.rank Event.Internal (fun _ _ _ he h => rank_step he h) hfs ht
    omega
  · have hrun : runView visible (es ++ fs) = some t := by
      unfold runView
      rw [run_append_some hs]
      exact ht
    obtain ⟨l, hi⟩ := reachable_inv hrun
    exact settled_of_stuck hi hstuck

/-- The view is disabled while its worker waits. -/
theorem threads_settle_disconnect : ∃ s t : View ℕ, runView true
    [.call .setCameraPermissionGranted, .main, .call .enableView, .main, .call .surfaceChanged,
      .main, .initializeCamera (.opened 4 2), .main, .worker, .call .disableView, .main, .main] =
      some s ∧ s.mThread = some .waiting ∧ s.mStopThread = true ∧
    run View.step s [.main, .worker, .worker, .worker, .main, .main, .main] = some t ∧
    (7 ≤ s.rank ∧ ((∀ e : Event ℕ, e.Internal → t.step e = none) → t.Settled)) := by
  obtain ⟨s, hs, h0⟩ := Option.map_eq_some_iff.1 (show (runView (F := ℕ) true
    [.call .setCameraPermissionGranted, .main, .call .enableView, .main, .call .surfaceChanged,
      .main, .initializeCamera (.opened 4 2), .main, .worker, .call .disableView, .main,
      .main]).map (fun s => (s.mThread, s.mStopThread,
        (run View.step s [.main, .worker, .worker, .worker, .main, .main, .main]).isSome)) =
      some (some .waiting, true, true) by decide)
  simp only [Prod.mk.injEq] at h0
  obtain ⟨t, ht⟩ := Option.isSome_iff_exists.1 h0.2.2
  refine ⟨s, t, hs, h0.1, h0.2.1, ht, threads_settle hs ?_ ht⟩
  simp [Event.Internal]

/-! ### The last picture -/

/-- The picture `f` is in the slot, or with the worker, or was the last one delivered. -/
def View.Tracks (s : View F) (f : F) : Prop :=
  ∃ c, s.mFrameChain = some c ∧ s.mThread ≠ none ∧
    ((s.mCameraFrameReady = true ∧ c s.mChainIdx = .image f) ∨
      (s.mCameraFrameReady = false ∧ s.Holding ∧ c (1 - s.mChainIdx) = .image f) ∨
      (s.mCameraFrameReady = false ∧ ¬ s.Holding ∧
        (delivered s.callbacks).getLast? = some (.image f)))

theorem Tracks_of_same {f : F} (h : s.Tracks f) (hc : s.SameCamera s')
    (hd : delivered s'.callbacks = delivered s.callbacks) : s'.Tracks f := by
  obtain ⟨c, h1, h2, h3⟩ := h
  refine ⟨c, hc.mFrameChain.trans h1, by rw [hc.mThread]; exact h2, ?_⟩
  unfold View.Holding at h3 ⊢
  rw [hc.ready, hc.mChainIdx, hc.mThread, hd]
  exact h3

/-- A worker that has not been told to stop passes the picture on. -/
theorem Tracks_workerStep {f : F} (hi : s.ThreadOk) (hstop : s.mStopThread = false)
    (h : s.Tracks f) (hw : s.workerStep = some s') : s'.Tracks f := by
  obtain ⟨c, hc, hn, htrack⟩ := h
  have hs := workerStep_sameBut hw
  refine ⟨c, hs.mFrameChain.trans hc, hs.thread', ?_⟩
  rcases htrack with ⟨hr, hf⟩ | ⟨hr, ⟨w, ht, hh⟩, hf⟩ | ⟨hr, hh, hf⟩
  · -- the picture waits in the slot: the worker takes it or is busy with another
    rcases workerStep_cases hw with ⟨ht, -, rfl⟩ | ⟨ht, hr', -, rfl⟩ | ⟨ht, hr', -, rfl⟩ |
      ⟨ht, -, rfl⟩ | ⟨b, ht, -, rfl⟩ | ⟨d, ht, -, ⟨-, rfl⟩ | ⟨-, rfl⟩⟩ | ⟨ht, rfl⟩ |
      ⟨d, i, ht, -, rfl⟩ | ⟨ht, -, rfl⟩ | ⟨ht, -, rfl⟩
    · refine .inr (.inl ⟨rfl, ⟨_, rfl, rfl⟩, ?_⟩)
      show c (1 - (1 - s.mChainIdx)) = .image f
      rw [one_sub_one_sub]
      exact hf
    · exact absurd (hr.symm.trans hr') (by simp)
    · exact absurd (hr.symm.trans hr') (by simp)
    all_goals exact .inl ⟨hr, hf⟩
  · -- the worker has it
    rcases workerStep_cases hw with ⟨ht', -, rfl⟩ | ⟨ht', -, -, rfl⟩ | ⟨ht', -, -, rfl⟩ |
      ⟨ht', -, rfl⟩ | ⟨b, ht', hb, rfl⟩ | ⟨d, ht', hd, ⟨he, rfl⟩ | ⟨-, rfl⟩⟩ | ⟨ht', rfl⟩ |
      ⟨d, i, ht', hd, rfl⟩ | ⟨ht', -, rfl⟩ | ⟨ht', -, rfl⟩
    all_goals
      rw [ht] at ht'
      cases ht'
    · exact absurd hh (by simp [Worker.Holds])
    · exact absurd hh (by simp [Worker.Holds])
    · exact absurd hh (by simp [Worker.Holds])
    · exact .inr (.inl ⟨hr, ⟨_, rfl, trivial⟩, hf⟩)
    · rw [show b = true from hh, hstop] at hb
      simp at hb
    · rw [hc] at hd
      cases hd
      exact absurd (hf.symm.trans he) (by simp)
    · exact .inr (.inl ⟨hr, ⟨_, rfl, trivial⟩, hf⟩)
    · exact .inr (.inl ⟨hr, ⟨_, rfl, trivial⟩, hf⟩)
    · rw [hc] at hd
      cases hd
      obtain ⟨rfl, -⟩ := hi.delivering c i hc ht
      refine .inr (.inr ⟨hr, ?_, ?_⟩)
      · rintro ⟨w, ⟨⟩, hw⟩
        exact hw
      · show (delivered (s.callbacks ++ [.onCameraFrame (c (1 - s.mChainIdx))])).getLast? = _
        rw [delivered_concat, hf]
        exact List.getLast?_concat
    · exact absurd hh (by simp [Worker.Holds])
    · exact absurd hh (by simp [Worker.Holds])
  · -- it has been delivered, and there is no other
    have hnone : ¬ s'.Holding := by
      rintro ⟨w, hw', hh'⟩
      exact workerStep_holds hw hr (fun w hw hh'' => hh ⟨w, hw, hh''⟩) w hw' hh'
    have hr' : s'.mCameraFrameReady = false := by
      by_contra h
      exact absurd (hr.symm.trans (hs.ready (by simpa using h))) (by simp)
    refine .inr (.inr ⟨hr', hnone, ?_⟩)
    rcases workerStep_cases hw with ⟨-, -, rfl⟩ | ⟨-, -, -, rfl⟩ | ⟨-, -, -, rfl⟩ |
      ⟨-, -, rfl⟩ | ⟨b, -, -, rfl⟩ | ⟨d, -, -, ⟨-, rfl⟩ | ⟨-, rfl⟩⟩ | ⟨-, rfl⟩ |
      ⟨d, i, ht, -, rfl⟩ | ⟨-, -, rfl⟩ | ⟨-, -, rfl⟩
    iterate 8 exact hf
    · exact absurd ⟨_, ht, trivial⟩ hh
    · exact hf
    · exact hf

/-- Until the next picture or the next `mStopThread`, every step keeps track of the picture. -/
theorem Tracks_step {e : Event F} {f : F} (hi : s.Inv l) (hstop : s.mStopThread = false)
    (he : ∀ g, e ≠ .onPreviewFrame g) (h : s.Tracks f) (hs : s.step e = some s') :
    s'.Tracks f := by
  have hn : s.mThread ≠ none := h.choose_spec.2.1
  have hm := hi.main
  unfold View.MainOk at hm
  cases e with
  | call c =>
    obtain ⟨-, hs⟩ := Option.ite_none_right_eq_some.1 hs
    cases hs
    exact Tracks_of_same h ⟨rfl, rfl, rfl, rfl, rfl, rfl, rfl⟩ rfl
  | main =>
    rcases mainStep_cases hs with ⟨c, cs, hpc, -, rfl⟩ | ⟨hpc, rfl⟩ | ⟨hpc, rfl⟩ | ⟨hpc, -, rfl⟩ |
      ⟨hpc, rfl⟩ | ⟨hpc, rfl⟩ | ⟨hpc, rfl⟩ <;> simp only [hpc] at hm
    · obtain ⟨h1, h2, h3, h4, h5, h6, h7⟩ := set_sameCamera { s with todo := cs } c
      have hcb : delivered ({ s with todo := cs }.set c).callbacks = delivered s.callbacks := by
        rw [set_callbacks]
      rcases checkCurrentState_cases ({ s with todo := cs }.set c) with ⟨-, h'⟩ | ⟨-, -, h'⟩ |
        ⟨-, -, h'⟩ <;> rw [h'] <;> exact Tracks_of_same h ⟨h1, h2, h3, h4, h5, h6, h7⟩ hcb
    · exact h
    · exact absurd (hstop.symm.trans hm.2.2.2.2) (by simp)
    · exact absurd (hstop.symm.trans hm.2.2.2.2.1) (by simp)
    · exact absurd hm.2.2.2 hn
    · exact absurd hm.2.2.2.mThread hn
    · refine Tracks_of_same h ⟨rfl, rfl, rfl, rfl, rfl, rfl, rfl⟩ ?_
      rw [delivered_concat]
      exact List.append_nil _
  | initializeCamera o =>
    obtain ⟨hpc, -⟩ := Option.ite_none_right_eq_some.1 hs
    simp only [hpc] at hm
    exact absurd hm.2.2.2.mThread hn
  | onPreviewFrame g => exact absurd rfl (he g)
  | worker => exact Tracks_workerStep hi.thread hstop h hs
  | wakeup =>
    obtain ⟨hw, hs⟩ := Option.ite_none_right_eq_some.1 hs
    cases hs
    obtain ⟨c, hc, -, ht⟩ := h
    refine ⟨c, hc, by simp, ?_⟩
    rcases ht with ht | ⟨-, ⟨w, hw', hh⟩, -⟩ | ⟨hr, -, hf⟩
    · exact .inl ht
    · rw [hw] at hw'
      cases hw'
      exact absurd hh (by simp [Worker.Holds])
    · refine .inr (.inr ⟨hr, ?_, hf⟩)
      rintro ⟨w, ⟨⟩, hh⟩
      exact hh

theorem Tracks_run {fs : List (Event F)} {f : F} {t : View F} (hi : s.Inv l) (h : s.Tracks f)
    (ht : run View.step s fs = some t) (hfs : ∀ e ∈ fs, ∀ g, e ≠ .onPreviewFrame g)
    (hstop : Along View.step (fun u _ => u.mStopThread = false) s fs) : t.Tracks f := by
  induction fs generalizing s l with
  | nil => cases ht; exact h
  | cons e fs ih =>
    rw [run_cons] at ht
    obtain ⟨u, hu, ht⟩ := Option.bind_eq_some_iff.1 ht
    obtain ⟨l', hi'⟩ := Inv_step hi hu
    have hu' := Tracks_step hi hstop.1 (hfs e (by simp)) h hu
    exact ih hi' hu' ht (fun e' he' => hfs e' (by simp [he'])) (hstop.2 u hu)

/-- After the last picture, if the camera is not disconnected, the view comes to rest with that
picture as the last one the listener got. -/
theorem newest_delivered {visible : Bool} {es fs : List (Event F)} {f : F} {t : View F}
    (hs : runView visible es = some s) (hf : s.step (.onPreviewFrame f) = some s')
    (hsize : ∀ c i, s.mFrameChain = some c → c i ≠ .empty) (ht : run View.step s' fs = some t)
    (hfs : ∀ e ∈ fs, ∀ g, e ≠ .onPreviewFrame g)
    (hstop : Along View.step (fun u _ => u.mStopThread = false) s' fs) (hset : t.Settled) :
    (delivered t.callbacks).getLast? = some (.image f) := by
  obtain ⟨l, hi⟩ := reachable_inv hs
  obtain ⟨l', hi'⟩ := Inv_step hi hf
  have h0 : s'.Tracks f := by
    obtain ⟨⟨hpc, -, hprev⟩, h⟩ := Option.ite_none_right_eq_some.1 hf
    obtain ⟨c, hc, rfl⟩ := onPreviewFrame_eq h
    have hput : Function.update c s.mChainIdx ((c s.mChainIdx).put f) s.mChainIdx = .image f := by
      rw [Function.update_self]
      cases he : c s.mChainIdx with
      | empty => exact absurd he (hsize c _ hc)
      | _ => rfl
    have hn : s.mThread ≠ none := by
      have hm := hi.main
      unfold View.MainOk at hm
      simp only [hpc] at hm
      intro h0
      cases hst : s.mState with
      | stopped => exact absurd ((hm.2.2.1 hst).preview.symm.trans hprev) (by simp)
      | started => exact absurd (((hm.2.2.2 hst).thread_iff.1 h0).symm.trans hprev) (by simp)
    rcases notify_cases (s.written c f) with h | ⟨-, h⟩ <;> rw [h]
    · exact ⟨_, rfl, hn, .inl ⟨rfl, hput⟩⟩
    · exact ⟨_, rfl, by simp, .inl ⟨rfl, hput⟩⟩
  obtain ⟨-, -, hthread⟩ := hset
  obtain ⟨c, -, hn, htr⟩ := Tracks_run hi' h0 ht hfs hstop
  rcases hthread with h | ⟨hw, hr⟩
  · exact absurd h hn
  · rcases htr with ⟨hr', -⟩ | ⟨-, ⟨w, hw', hh⟩, -⟩ | ⟨-, -, h⟩
    · exact absurd (hr.symm.trans hr') (by simp)
    · rw [hw] at hw'
      cases hw'
      exact absurd hh (by simp [Worker.Holds])
    · exact h

theorem along_workers (n : ℕ) (h : s.mStopThread = false) :
    Along View.step (fun u _ => u.mStopThread = false) s (List.replicate n .worker) := by
  induction n generalizing s with
  | zero => exact trivial
  | succ n ih =>
    exact ⟨h, fun u hu => ih ((workerStep_sameBut (s := s) hu).mStopThread.trans h)⟩

/-- The second picture arrives while the worker has the first. -/
theorem newest_delivered_second : ∃ s s' t : View ℕ, runView true
    [.call .setCameraPermissionGranted, .main, .call .enableView, .main, .call .surfaceChanged,
      .main, .initializeCamera (.opened 4 2), .main, .onPreviewFrame 7, .worker] = some s ∧
    s.step (.onPreviewFrame 8) = some s' ∧
    run View.step s' (List.replicate 12 .worker) = some t ∧
    (delivered t.callbacks).getLast? = some (.image 8) := by
  obtain ⟨s, hs, h0⟩ := Option.map_eq_some_iff.1 (show (runView (F := ℕ) true
    [.call .setCameraPermissionGranted, .main, .call .enableView, .main, .call .surfaceChanged,
      .main, .initializeCamera (.opened 4 2), .main, .onPreviewFrame 7, .worker]).map
        (fun s => (s.mFrameChain.map fun c => (c 0, c 1), (s.step (.onPreviewFrame 8)).map fun s' =>
          (s'.mStopThread, (run View.step s' (List.replicate 12 .worker)).map fun t =>
            (t.pc, t.todo, t.mThread, t.mCameraFrameReady)))) =
      some (some (.image 7, .blank), some (false, some (.idle, [], some .waiting, false))) from rfl)
  simp only [Prod.mk.injEq] at h0
  obtain ⟨s', hs', h1⟩ := Option.map_eq_some_iff.1 h0.2
  simp only [Prod.mk.injEq] at h1
  obtain ⟨t, ht, h2⟩ := Option.map_eq_some_iff.1 h1.2
  simp only [Prod.mk.injEq] at h2
  have hsize : ∀ c i, s.mFrameChain = some c → c i ≠ .empty := by
    intro c i hc
    have := h0.1
    rw [hc] at this
    simp only [Option.map_some, Option.some.injEq, Prod.mk.injEq] at this
    fin_cases i <;> simp [this.1, this.2]
  exact ⟨s, s', t, hs, hs', ht, newest_delivered hs hs' hsize ht (by simp) (along_workers 12 h1.1)
    ⟨h2.1, h2.2.1, .inr ⟨h2.2.2.1, h2.2.2.2⟩⟩⟩

end Controller.Camera
