import Controller.App.ModelLoading

/-!
# Gestures and the touch status

`MyGLSurfaceView.onTouchEvent` passes `ACTION_DOWN` and `ACTION_UP` on to `setTouchEvent` and
ignores all other actions.  Android ends a gesture by `ACTION_UP` or, when the system takes the
gesture away from the view, by `ACTION_CANCEL`.

`follows_iff`: the touch status follows the gestures in a run, with all that depends on it, if and
only if no gesture of the run is cancelled.  `cancelled_gesture` is the run of one cancelled
gesture: the status stays `0` and the next frame, with nobody touching the screen, sets the
reference and runs the network.

Touches come between the steps of `ModelLoading`, in any interleaving.
-/

namespace Controller

open PartialRun

variable {K : Type} [Field K] [LinearOrder K]

/-! ### Gestures -/

/-- The `MotionEvent`s of a touch screen; a pointer event has the index of its pointer. -/
inductive MotionEvent
  | down
  | up
  | move
  | cancel
  | pointerDown (index : ℕ)
  | pointerUp (index : ℕ)
  deriving DecidableEq

/-- `MotionEvent.getAction`: the action code, with the pointer index in the bits from 8 on. -/
def MotionEvent.getAction : MotionEvent → ℤ
  | .down => 0
  | .up => 1
  | .move => 2
  | .cancel => 3
  | .pointerDown index => 5 + 256 * index
  | .pointerUp index => 6 + 256 * index

/-- The events between the first and the last of a gesture. -/
def MotionEvent.Inside : MotionEvent → Prop
  | .move => True
  | .pointerDown _ => True
  | .pointerUp _ => True
  | _ => False

/-- A well-formed gesture: how it goes on after `ACTION_DOWN` and whether it is cancelled. -/
structure Gesture where
  middle : List MotionEvent
  cancelled : Bool
  inside : ∀ e ∈ middle, e.Inside

namespace Gesture

/-- The event that ends the gesture. -/
def last (g : Gesture) : MotionEvent := if g.cancelled then .cancel else .up

/-- The events of the gesture. -/
def events (g : Gesture) : List MotionEvent := .down :: (g.middle ++ [g.last])

end Gesture

/-- What can be delivered to the view: the events of gestures, possibly cut off in the last one. -/
def WellFormed (es : List MotionEvent) : Prop := ∃ gs : List Gesture, es <+: gs.flatMap Gesture.events

/-- `es` consists of the gestures `gs` and the part `p` of a gesture that is still in progress;
`p` is empty when none is. -/
def Delivered (gs : List Gesture) (p es : List MotionEvent) : Prop :=
  es = gs.flatMap Gesture.events ++ p ∧ ∃ (g : Gesture) (q : List MotionEvent),
    q ≠ [] ∧ g.events = p ++ q

/-! ### The view -/

/-- `MyGLSurfaceView.onTouchEvent`. -/
def LoadState.onTouchEvent (s : LoadState K) (e : MotionEvent) : LoadState K :=
  if e.getAction = 0 then s.setTouchEvent 0
  else if e.getAction = 1 then s.setTouchEvent 1
  else s

/-- A touch, or a step of another thread or callback. -/
inductive TouchAction (K : Type)
  | touch (e : MotionEvent)
  | other (a : LoadAction K)

/-- The state after one step.  The view has to exist to be touched, and only its `onTouchEvent`
calls `setTouchEvent`. -/
def LoadState.touchStep (cv : OpenCv K) (s : LoadState K) : TouchAction K → Option (LoadState K)
  | .touch e => if 0 < s.views then some (s.onTouchEvent e) else none
  | .other (.setTouchEvent _) => none
  | .other a => s.step cv a

/-- The state after the steps `as` of a new process. -/
def runTouches (cv : OpenCv K) (as : List (TouchAction K)) : Option (LoadState K) :=
  run (LoadState.touchStep cv) (LoadState.start K) as

/-- The event that an action delivers. -/
def TouchAction.event : TouchAction K → Option MotionEvent
  | .touch e => some e
  | .other _ => none

/-- The events delivered to the view. -/
def touches (as : List (TouchAction K)) : List MotionEvent := as.filterMap TouchAction.event

/-- The action takes a `NATIVE_FILE` message from the queue. -/
def TouchAction.handles : TouchAction K → Bool
  | .other .handleMessage => true
  | _ => false

/-- The frame `f` is begun after the steps `pre` and processed in the state `s`, with outcome
`r`. -/
def Processed (cv : OpenCv K) (as pre : List (TouchAction K)) (f : CameraFrame K)
    (s : LoadState K) (r : NativeState K × FrameOut K) : Prop :=
  ∃ mid post, as = pre ++ .other (.onCameraFrame f) :: (mid ++ .other .convertRGBtoGray :: post) ∧
    (∀ a ∈ mid, a ≠ .other .convertRGBtoGray) ∧
    runTouches cv (pre ++ .other (.onCameraFrame f) :: mid) = some s ∧
    s.frame.bind (convertRGBtoGray cv s.native) = some r

/-- The touch status follows the gestures: it is `0` exactly while one is in progress; each gesture
posts one `NATIVE_FILE` message; frames begun during a gesture, and only those, run the network;
they set the reference, which otherwise changes only with the number of points. -/
structure Follows (cv : OpenCv K) (as : List (TouchAction K)) : Prop where
  status : ∀ pre post s gs p, as = pre ++ post → runTouches cv pre = some s →
    Delivered gs p (touches pre) → (s.mTouchStatus = 0 ↔ p ≠ [])
  requests : ∀ pre post s gs p, as = pre ++ post → runTouches cv pre = some s →
    Delivered gs p (touches pre) →
    s.messages.length + pre.countP TouchAction.handles = gs.length + if p = [] then 0 else 1
  inference : ∀ pre f s r gs p, Processed cv as pre f s r → Delivered gs p (touches pre) →
    (r.2.inference = true ↔ f.points ≠ [] ∧ p ≠ [])
  sets : ∀ pre f s r gs p, Processed cv as pre f s r → Delivered gs p (touches pre) → p ≠ [] →
    f.points ≠ [] → RefreshedFrom cv f r.1
  keeps : ∀ pre f s r gs p, Processed cv as pre f s r → Delivered gs p (touches pre) → p = [] →
    (f.points.length ≤ 2 ∨ f.points.length = s.native.modelPoints.length) →
    r.1.modelPoints = s.native.modelPoints ∧ r.1.objectPoints = s.native.objectPoints

/-! ### Streams of gestures -/

theorem exists_delivered {es : List MotionEvent} (h : WellFormed es) : ∃ gs p, Delivered gs p es := by
  obtain ⟨gs, h⟩ := h
  induction gs generalizing es with
  | nil =>
    obtain rfl := List.prefix_nil.1 h
    exact ⟨[], [], rfl, ⟨[], false, by simp⟩, _, List.cons_ne_nil _ _, rfl⟩
  | cons g gs ih =>
    obtain ⟨rest, h⟩ := h
    rw [List.flatMap_cons, List.append_eq_append_iff] at h
    rcases h with ⟨q, hg, -⟩ | ⟨q, rfl, hq⟩
    · by_cases hnil : q = []
      · subst hnil
        rw [List.append_nil] at hg
        exact ⟨[g], [], by simp [hg], g, g.events, List.cons_ne_nil _ _, rfl⟩
      · exact ⟨[], es, rfl, g, q, hnil, hg⟩
    · obtain ⟨gs', p, rfl, hp⟩ := ih ⟨rest, hq.symm⟩
      exact ⟨g :: gs', p, by simp, hp⟩

/-- What is delivered of a gesture in progress. -/
theorem part_of_gesture {g : Gesture} {p q : List MotionEvent} (hg : g.events = p ++ q)
    (hq : q ≠ []) (hp : p ≠ []) : ∃ m, p = .down :: m ∧ ∀ e ∈ m, e.Inside := by
  obtain ⟨e, m, rfl⟩ := List.exists_cons_of_ne_nil hp
  obtain rfl | ⟨q', e', rfl⟩ := List.eq_nil_or_concat' q
  · exact absurd rfl hq
  · -- the event that ends the gesture is the last of `q`
    simp only [Gesture.events, List.cons_append, List.cons.injEq, ← List.append_assoc] at hg
    have hm : g.middle = m ++ q' := (List.append_inj' hg.2 rfl).1
    refine ⟨m, by rw [hg.1], fun e he => g.inside e ?_⟩
    rw [hm]
    exact List.mem_append_left q' he

/-- The touch status after an event. -/
def touched (t : ℤ) (e : MotionEvent) : ℤ :=
  if e.getAction = 0 then 0 else if e.getAction = 1 then 1 else t

theorem MotionEvent.Inside.two_le {e : MotionEvent} (h : e.Inside) : 2 ≤ e.getAction := by
  cases e with
  | move => exact le_rfl
  | pointerDown i => show (2 : ℤ) ≤ 5 + 256 * i; omega
  | pointerUp i => show (2 : ℤ) ≤ 6 + 256 * i; omega
  | down => exact h.elim
  | up => exact h.elim
  | cancel => exact h.elim

theorem touched_inside {e : MotionEvent} (h : e.Inside) (t : ℤ) : touched t e = t := by
  have h2 := h.two_le
  unfold touched
  rw [if_neg (by omega), if_neg (by omega)]

theorem foldl_inside {m : List MotionEvent} (h : ∀ e ∈ m, e.Inside) (t : ℤ) :
    m.foldl touched t = t := by
  induction m with
  | nil => rfl
  | cons e m ih =>
    rw [List.foldl_cons, touched_inside (h e List.mem_cons_self)]
    exact ih fun e' he' => h e' (List.mem_cons_of_mem e he')

theorem foldl_events {g : Gesture} (h : g.cancelled = false) (t : ℤ) :
    g.events.foldl touched t = 1 := by
  unfold Gesture.events
  rw [List.foldl_cons, List.foldl_append, foldl_inside g.inside]
  simp [Gesture.last, h, touched, MotionEvent.getAction]

theorem foldl_gestures {gs : List Gesture} (h : ∀ g ∈ gs, g.cancelled = false) :
    (gs.flatMap Gesture.events).foldl touched 1 = 1 := by
  induction gs with
  | nil => rfl
  | cons g gs ih =>
    rw [List.flatMap_cons, List.foldl_append, foldl_events (h g List.mem_cons_self)]
    exact ih fun g' hg' => h g' (List.mem_cons_of_mem g hg')

theorem not_cancelled {gs : List Gesture} (h : .cancel ∉ gs.flatMap Gesture.events) :
    ∀ g ∈ gs, g.cancelled = false := by
  intro g hg
  by_contra hc
  refine h (List.mem_flatMap.2 ⟨g, hg, ?_⟩)
  simp [Gesture.events, Gesture.last, hc]

/-- Without cancelled gestures, the events lead to the status `0` when a gesture is in progress. -/
theorem Delivered.status {gs : List Gesture} {p es : List MotionEvent} (h : Delivered gs p es)
    (hc : .cancel ∉ es) : es.foldl touched 1 = 0 ↔ p ≠ [] := by
  obtain ⟨rfl, g, q, hq, hg⟩ := h
  have hgs := not_cancelled fun h => hc (List.mem_append_left p h)
  rw [List.foldl_append, foldl_gestures hgs]
  by_cases hp : p = []
  · subst hp
    simp
  · obtain ⟨m, rfl, hm⟩ := part_of_gesture hg hq hp
    rw [List.foldl_cons, foldl_inside hm]
    simp [touched, MotionEvent.getAction]

theorem count_down_inside {m : List MotionEvent} (h : ∀ e ∈ m, e.Inside) : m.count .down = 0 :=
  List.count_eq_zero.2 fun hd => h .down hd

theorem count_down_events (g : Gesture) : g.events.count .down = 1 := by
  have hlast : [g.last].count .down = 0 := by
    unfold Gesture.last
    cases g.cancelled <;> rfl
  unfold Gesture.events
  rw [List.count_cons_self, List.count_append, count_down_inside g.inside, hlast]

theorem count_down_gestures (gs : List Gesture) :
    (gs.flatMap Gesture.events).count .down = gs.length := by
  induction gs with
  | nil => rfl
  | cons g gs ih =>
    rw [List.flatMap_cons, List.count_append, count_down_events, ih, List.length_cons]
    omega

/-- Each gesture begins with its one `ACTION_DOWN`. -/
theorem Delivered.count_down {gs : List Gesture} {p es : List MotionEvent} (h : Delivered gs p es) :
    es.count .down = gs.length + if p = [] then 0 else 1 := by
  obtain ⟨rfl, g, q, hq, hg⟩ := h
  rw [List.count_append, count_down_gestures]
  by_cases hp : p = []
  · subst hp
    rfl
  · obtain ⟨m, rfl, hm⟩ := part_of_gesture hg hq hp
    rw [List.count_cons_self, count_down_inside hm, if_neg hp]

/-- Before an `ACTION_CANCEL` a gesture is in progress, after it none is. -/
theorem delivered_cancel {es : List MotionEvent} (h : WellFormed (es ++ [.cancel])) :
    (∃ gs p, p ≠ [] ∧ Delivered gs p es) ∧ ∃ gs, Delivered gs [] (es ++ [.cancel]) := by
  obtain ⟨gs, p, hd⟩ := exists_delivered h
  obtain ⟨hes, g, q, hq, hg⟩ := id hd
  by_cases hp : p = []
  · subst hp
    refine ⟨?_, gs, hd⟩
    rw [List.append_nil] at hes
    obtain rfl | ⟨gs', g', rfl⟩ := List.eq_nil_or_concat' gs
    · simp at hes
    · have hes' : es ++ [.cancel] = (gs'.flatMap Gesture.events ++ .down :: g'.middle) ++ [g'.last] := by
        rw [hes]
        simp [Gesture.events]
      exact ⟨gs', .down :: g'.middle, List.cons_ne_nil _ _, (List.append_inj' hes' rfl).1, g',
        [g'.last], List.cons_ne_nil _ _, rfl⟩
  · -- the last event delivered of a gesture in progress does not end it
    obtain ⟨m, rfl, hm⟩ := part_of_gesture hg hq hp
    obtain rfl | ⟨m', e, rfl⟩ := List.eq_nil_or_concat' m
    · have hlast := (List.append_inj' hes rfl).2
      simp at hlast
    · rw [← List.cons_append, ← List.append_assoc] at hes
      have hlast := (List.append_inj' hes rfl).2
      have he : e = .cancel := (List.cons.inj hlast).1.symm
      exact (hm .cancel (by simp [he])).elim

/-! ### Steps -/

section Steps

variable {cv : OpenCv K} {s s' : LoadState K}

/-- What a step that is no touch does to the touch status, the messages, the frame and the native
globals. -/
structure Bystander (cv : OpenCv K) (s s' : LoadState K) (a : TouchAction K) : Prop where
  mTouchStatus : s'.mTouchStatus = s.mTouchStatus
  messages : s'.messages.length + [a].countP TouchAction.handles = s.messages.length
  frame : ∀ f, s.frame = some f → a ≠ .other .convertRGBtoGray → s'.frame = some f
  native : ∃ es, run (eventStep cv) s.native es = some s'.native

omit [Field K] [LinearOrder K] in
theorem LoadState.nativeFile_keeps (s : LoadState K) (h : ℕ) :
    (s.nativeFile h).mTouchStatus = s.mTouchStatus ∧ (s.nativeFile h).messages = s.messages ∧
    (s.nativeFile h).frame = s.frame ∧ (s.nativeFile h).native = s.native := by
  unfold LoadState.nativeFile
  split_ifs <;> exact ⟨rfl, rfl, rfl, rfl⟩

theorem touchStep_other {b : LoadAction K} (h : s.touchStep cv (.other b) = some s') :
    Bystander cv s s' (.other b) := by
  have same : ∃ es, run (eventStep cv) s.native es = some s.native := ⟨[], rfl⟩
  cases b with
  | initMainUi =>
    cases h
    exact ⟨rfl, rfl, fun f hf _ => hf, [.initMatrix], rfl⟩
  | onResume =>
    cases h
    exact ⟨rfl, rfl, fun f hf _ => hf, same⟩
  | setTouchEvent event => cases h
  | handleMessage =>
    simp only [LoadState.touchStep, LoadState.step] at h
    cases hm : s.messages with
    | nil => rw [hm] at h; cases h
    | cons i rest =>
      rw [hm] at h
      cases h
      obtain ⟨ht, hq, hf, hn⟩ := LoadState.nativeFile_keeps { s with messages := rest } i
      refine ⟨ht, ?_, fun f hf' _ => hf.trans hf', by rw [hn]; exact same⟩
      rw [hq, hm]
      rfl
  | startTask | openFails | replaceModel | buildInterpreter | allocateTensors =>
    -- the executor and the network
    simp only [LoadState.touchStep, LoadState.step] at h
    split at h <;> cases h
    exact ⟨rfl, rfl, fun f hf _ => hf, same⟩
  | onCameraFrame g =>
    simp only [LoadState.touchStep, LoadState.step] at h
    split_ifs at h with hnone
    cases h
    refine ⟨rfl, rfl, fun f hf _ => ?_, same⟩
    rw [hf] at hnone
    cases hnone
  | convertRGBtoGray =>
    obtain ⟨f, -, h⟩ := Option.bind_eq_some_iff.1 h
    obtain ⟨r, hr, rfl⟩ := Option.map_eq_some_iff.1 h
    refine ⟨rfl, rfl, fun _ _ hne => absurd rfl hne, [.frame f], ?_⟩
    rw [run_singleton]
    simp [eventStep, eventOut, hr]

theorem touchStep_touch {e : MotionEvent} (h : s.touchStep cv (.touch e) = some s') :
    0 < s.views ∧ s' = s.onTouchEvent e := by
  simp only [LoadState.touchStep] at h
  split_ifs at h with hv
  cases h
  exact ⟨hv, rfl⟩

theorem MotionEvent.getAction_eq_zero (e : MotionEvent) : e.getAction = 0 ↔ e = .down := by
  cases e <;> simp [MotionEvent.getAction] <;> omega

omit [Field K] [LinearOrder K] in
/-- What a touch does to the same data. -/
theorem onTouchEvent_spec (s : LoadState K) (e : MotionEvent) :
    (s.onTouchEvent e).mTouchStatus = touched s.mTouchStatus e ∧
    (s.onTouchEvent e).messages.length = s.messages.length + [e].count .down ∧
    (s.onTouchEvent e).frame = s.frame ∧ (s.onTouchEvent e).native = s.native := by
  by_cases h0 : e.getAction = 0
  · obtain rfl := e.getAction_eq_zero.1 h0
    simp [LoadState.onTouchEvent, LoadState.setTouchEvent, touched, h0]
  · have hd : e ≠ .down := fun h => h0 (e.getAction_eq_zero.2 h)
    have hcount : [e].count .down = 0 := List.count_eq_zero.2 (by simpa using hd.symm)
    rw [hcount]
    unfold LoadState.onTouchEvent touched
    rw [if_neg h0, if_neg h0]
    split_ifs with h1
    · exact ⟨rfl, rfl, rfl, rfl⟩
    · exact ⟨rfl, rfl, rfl, rfl⟩

end Steps

/-! ### Runs -/

section Runs

variable {cv : OpenCv K} {as : List (TouchAction K)} {s : LoadState K}

omit [Field K] [LinearOrder K] in
theorem touches_append (as bs : List (TouchAction K)) :
    touches (as ++ bs) = touches as ++ touches bs := List.filterMap_append

/-- The state of a run in terms of the events delivered and the messages handled. -/
structure Reflects (cv : OpenCv K) (as : List (TouchAction K)) (s : LoadState K) : Prop where
  mTouchStatus : s.mTouchStatus = (touches as).foldl touched 1
  messages : s.messages.length + as.countP TouchAction.handles = (touches as).count .down
  native : ∃ es, runEvents cv es = some s.native

theorem reflects_of_run (hs : runTouches cv as = some s) : Reflects cv as s := by
  refine run_induction (C := fun _ _ => True) (Reflects cv) ⟨rfl, rfl, [], rfl⟩ ?_
    (along_of_forall fun _ _ _ => trivial) hs
  rintro as s a s' - ⟨hstatus, hmessages, es, hes⟩ - hstep
  cases a with
  | touch e =>
    obtain ⟨-, rfl⟩ := touchStep_touch hstep
    obtain ⟨ht, hm, -, hn⟩ := onTouchEvent_spec s e
    have htouches : touches (as ++ [.touch e]) = touches as ++ [e] := touches_append as _
    refine ⟨?_, ?_, es, by rw [hn]; exact hes⟩
    · rw [ht, hstatus, htouches, List.foldl_append]
      rfl
    · have hh : (as ++ [TouchAction.touch e]).countP TouchAction.handles = as.countP TouchAction.handles := by
        rw [List.countP_append]
        rfl
      rw [hm, hh, htouches, List.count_append]
      omega
  | other b =>
    obtain ⟨ht, hm, -, es', hes'⟩ := touchStep_other hstep
    have htouches : touches (as ++ [.other b]) = touches as := by
      rw [touches_append]
      exact List.append_nil _
    refine ⟨?_, ?_, es ++ es', ?_⟩
    · rw [ht, hstatus, htouches]
    · rw [htouches, List.countP_append]
      omega
    · exact (run_append_some hes).trans hes'

/-- Until it is processed, a frame stays as it was begun. -/
theorem frame_stays {s s' : LoadState K} {f : CameraFrame K} {mid : List (TouchAction K)}
    (hmid : ∀ a ∈ mid, a ≠ .other .convertRGBtoGray) (hf : s.frame = some f)
    (hs : run (LoadState.touchStep cv) s mid = some s') : s'.frame = some f := by
  induction mid generalizing s with
  | nil => cases hs; exact hf
  | cons a mid ih =>
    obtain ⟨t, ht, hs⟩ := Option.bind_eq_some_iff.1 hs
    refine ih (fun b hb => hmid b (List.mem_cons_of_mem a hb)) ?_ hs
    cases a with
    | touch e =>
      obtain ⟨-, rfl⟩ := touchStep_touch ht
      exact (onTouchEvent_spec s e).2.2.1.trans hf
    | other b => exact (touchStep_other ht).frame f hf (hmid _ List.mem_cons_self)

/-- A frame is processed with the touch status at its beginning. -/
theorem Processed.spec {pre : List (TouchAction K)} {f : CameraFrame K}
    {r : NativeState K × FrameOut K} (h : Processed cv as pre f s r) :
    ∃ post s₀, as = pre ++ post ∧ runTouches cv pre = some s₀ ∧
      convertRGBtoGray cv s.native { f with touchStatus := s₀.mTouchStatus } = some r ∧
      ∃ es, runEvents cv es = some s.native := by
  obtain ⟨mid, post, has, hmid, hs, hr⟩ := h
  have hnative := (reflects_of_run hs).native
  unfold runTouches at hs
  rw [run_append] at hs
  obtain ⟨s₀, hs₀, hs⟩ := Option.bind_eq_some_iff.1 hs
  obtain ⟨s₁, hs₁, hs⟩ := Option.bind_eq_some_iff.1 hs
  have hf : s₁.frame = some { f with touchStatus := s₀.mTouchStatus } := by
    simp only [LoadState.touchStep, LoadState.step] at hs₁
    split_ifs at hs₁
    cases hs₁
    rfl
  rw [frame_stays hmid hf hs, Option.bind_some] at hr
  exact ⟨_, s₀, has, hs₀, hr, hnative⟩

/-- Without `ACTION_CANCEL` the touch status follows the gestures. -/
theorem follows_of_no_cancel (hc : .cancel ∉ touches as) : Follows cv as := by
  have hpre : ∀ {pre post}, as = pre ++ post → .cancel ∉ touches pre := by
    rintro pre post rfl h
    exact hc (by rw [touches_append]; exact List.mem_append_left _ h)
  have hstatus : ∀ pre post s gs p, as = pre ++ post → runTouches cv pre = some s →
      Delivered gs p (touches pre) → (s.mTouchStatus = 0 ↔ p ≠ []) := by
    intro pre post s gs p has hs hd
    rw [(reflects_of_run hs).mTouchStatus]
    exact hd.status (hpre has)
  refine ⟨hstatus, ?_, ?_, ?_, ?_⟩
  · intro pre post s gs p _ hs hd
    rw [(reflects_of_run hs).messages]
    exact hd.count_down
  · intro pre f s r gs p h hd
    obtain ⟨post, s₀, has, hs₀, hr, -⟩ := h.spec
    rw [convertRGBtoGray_inference hr]
    exact and_congr_right fun _ => hstatus pre post s₀ gs p has hs₀ hd
  · intro pre f s r gs p h hd hp hpoints
    obtain ⟨post, s₀, has, hs₀, hr, es, hes⟩ := h.spec
    have ht : s₀.mTouchStatus = 0 := (hstatus pre post s₀ gs p has hs₀ hd).2 hp
    have hset : RefreshedFrom cv { f with touchStatus := s₀.mTouchStatus } r.1 :=
      frame_sets (refines_of_frame hes hr) hr ⟨hpoints, Or.inl ht⟩
    exact hset
  · intro pre f s r gs p h hd hp hsize
    obtain ⟨post, s₀, has, hs₀, hr, es, hes⟩ := h.spec
    have ht : s₀.mTouchStatus ≠ 0 := fun h => (hstatus pre post s₀ gs p has hs₀ hd).1 h hp
    refine frame_keeps (refines_of_frame hes hr) hr ?_
    rintro ⟨-, h | ⟨h3, hne⟩⟩
    · exact ht h
    · rcases hsize with h2 | heq
      · exact absurd h2 (by change 3 ≤ f.points.length at h3; omega)
      · exact hne heq

/-- **The touch status follows the gestures.**  In a run whose touches are well-formed gestures, it
does if and only if none of the gestures is cancelled. -/
theorem follows_iff (cv : OpenCv K) (as : List (TouchAction K)) (hwf : WellFormed (touches as))
    (hrun : (runTouches cv as).isSome) : Follows cv as ↔ .cancel ∉ touches as := by
  refine ⟨fun h hc => ?_, follows_of_no_cancel⟩
  obtain ⟨a, ha, he⟩ := List.mem_filterMap.1 hc
  cases a with
  | other b => cases he
  | touch e =>
    cases he
    obtain ⟨pre, post, rfl⟩ := List.append_of_mem ha
    have hsplit : pre ++ .touch .cancel :: post = (pre ++ [.touch .cancel]) ++ post := by simp
    have htouches : touches (pre ++ [.touch .cancel]) = touches pre ++ [.cancel] :=
      touches_append pre _
    have hwf' : WellFormed (touches pre ++ [.cancel]) := by
      obtain ⟨gs, hgs⟩ := hwf
      refine ⟨gs, List.IsPrefix.trans ⟨touches post, ?_⟩ hgs⟩
      rw [hsplit, touches_append, htouches]
    obtain ⟨⟨gs, p, hp, hd⟩, gs', hd'⟩ := delivered_cancel hwf'
    -- the status is `0` before the event, which leaves it alone
    obtain ⟨s, hs⟩ := Option.isSome_iff_exists.1 hrun
    rw [hsplit] at hs
    unfold runTouches at hs
    rw [run_append] at hs
    obtain ⟨s₁, hs₁, -⟩ := Option.bind_eq_some_iff.1 hs
    obtain ⟨s₀, hs₀, hstep⟩ := run_concat_some hs₁
    have h0 : s₀.mTouchStatus = 0 := (h.status pre _ s₀ gs p rfl hs₀ hd).2 hp
    have h1 : s₁.mTouchStatus = 0 := by
      rw [(touchStep_touch hstep).2, (onTouchEvent_spec s₀ .cancel).1]
      exact h0
    exact (h.status _ post _ gs' [] hsplit hs₁ (by rw [htouches]; exact hd')).1 h1 rfl

end Runs

/-- A gesture with two fingers. -/
def pinch : Gesture where
  middle := [.pointerDown 1, .move, .pointerUp 1]
  cancelled := false
  inside := by simp [MotionEvent.Inside]

theorem follows_iff_pinch :
    Follows sampleCv (.other .initMainUi :: pinch.events.map TouchAction.touch) :=
  (follows_iff sampleCv _ ⟨[pinch], List.prefix_rfl⟩ rfl).2 (by decide)

/-- A gesture that the system takes away. -/
def takenAway : Gesture where
  middle := []
  cancelled := true
  inside := by simp

/-- The gesture, and the next frame. -/
def takenAwayRun : List (TouchAction ℚ) :=
  .other .initMainUi :: takenAway.events.map TouchAction.touch ++
    [.other (.onCameraFrame (sampleFrame 1 sampleSolve)), .other .convertRGBtoGray]

theorem cancelled_gesture : touches takenAwayRun = takenAway.events ∧
    (∃ s, runTouches sampleCv (takenAwayRun.take 3) = some s ∧ s.mTouchStatus = 0) ∧
    (∃ s r, Processed sampleCv takenAwayRun (takenAwayRun.take 3) (sampleFrame 1 sampleSolve) s r ∧
      r.2.inference = true) ∧
    ¬ Follows sampleCv takenAwayRun := by
  have hd : Delivered [takenAway] [] (touches (takenAwayRun.take 3)) :=
    ⟨rfl, takenAway, takenAway.events, List.cons_ne_nil _ _, rfl⟩
  refine ⟨rfl, ⟨_, rfl, rfl⟩, ?_, fun h => ?_⟩
  · have hr : Refines (initMatrix (NativeState.load ℚ)) ⟨[], .initial⟩ :=
      initMatrix_refines load_layout rfl rfl
    obtain ⟨o, ho, -⟩ := frame_refines sampleCv hr (sampleFrame 0 sampleSolve)
    refine ⟨_, _, ⟨[], [], rfl, by simp, rfl, ho⟩, (convertRGBtoGray_inference ho).2 ⟨?_, rfl⟩⟩
    rw [sampleFrame_points]
    simp
  · exact (h.status (takenAwayRun.take 3) _ _ [takenAway] [] rfl rfl hd).1 rfl rfl

end Controller
