import Controller.Camera.Callbacks

/-!
# Permissions and the life cycle of the activity

`onStart` tells the view that the camera permission is granted without asking; what keeps the camera
closed is that `onResume` returns before `enableView` unless `permissionCheck` finds all three
permissions.  Requests are answered later, in any order, or cancelled with an empty answer, and a
denial repeats the request of the last check.

* `camera_permitted`: in every run, no view ever created has opened the camera while a permission
  was missing, also when OpenCV is loaded asynchronously.
* `requests_wellformed`: every request names at least one permission, in the order of the source,
  none twice (a request for nothing would throw).
* `javaFile_posted`: `mkdirs`, and with it the copy of the assets, is asked for only in a process
  that started without the storage permission; `answer_posts` says by which answers: not by one that
  also refuses the permission to read.

A permission that is granted stays granted, since taking it back ends the process; an answer
carries the grants of the moment it arrives.  Every view ever made stays in `views`, the newest,
which is `mOpenCvCameraView`, first; its methods run on the main thread and return before the next
callback.  Left out: the `GLSurfaceView`, the texts on the screen, and errors in `init_main_ui`.
-/

namespace Controller

open PartialRun Camera

variable {F : Type}

/-- The permissions the app asks for. -/
inductive Permission
  | readExternalStorage
  | writeExternalStorage
  | camera
  deriving DecidableEq, Repr

/-- `permissions`. -/
def permissions : List Permission :=
  [.readExternalStorage, .writeExternalStorage, .camera]

/-- A `PermissionSupport` whose `checkPermission` has been called. -/
structure PermissionSupport where
  permissionList : List Permission
  deriving DecidableEq, Repr

/-- `PERMISSION_GRANTED`. -/
def permissionGranted : ℤ := 0

/-- `PERMISSION_DENIED`, which the source compares with as `-1`. -/
def permissionDenied : ℤ := -1

/-- `MULTIPLE_PERMISSIONS`. -/
def multiplePermissions : ℤ := 1023

/-- `checkPermission`: the permissions that are missing. -/
def checkPermission (granted : Permission → Bool) : PermissionSupport :=
  ⟨permissions.filter fun p => !granted p⟩

/-- The loop of `permissionResult`: its result, and how often it called `mkdirs`. -/
def resultLoop : List (Permission × ℤ) → Bool × ℕ
  | [] => (true, 0)
  | (p, r) :: rest =>
    let calls := if p = .writeExternalStorage ∧ r = permissionGranted then 1 else 0
    if r = permissionDenied then (false, calls)
    else ((resultLoop rest).1, calls + (resultLoop rest).2)

/-- `permissionResult`. -/
def permissionResult (requestCode : ℤ) (results : List (Permission × ℤ)) : Bool × ℕ :=
  if requestCode = multiplePermissions ∧ 0 < results.length then resultLoop results else (true, 0)

/-- The activity: the permissions of the process, the requests not yet answered, the number of
`JAVA_FILE` messages posted and of OpenCV loads under way, and the camera views. -/
structure Activity (F : Type) where
  granted : Permission → Bool
  permission : Option PermissionSupport
  requests : List (List Permission)
  initDone : Bool
  javaFile : ℕ
  loading : ℕ
  views : List (View F)

/-- A callback of the activity, an act of the user, or a step of a view. -/
inductive Happening (F : Type)
  | onCreate
  | onStart
  | onResume (initDebug : Bool)
  | onManagerConnected (success : Bool)
  | onPause
  | onDestroy
  | grant (p : Permission)
  | answer (i : ℕ)
  | cancel (i : ℕ)
  | view (i : ℕ) (e : Camera.Event F)

namespace Activity

/-- A new process. -/
def init (F : Type) (granted : Permission → Bool) : Activity F where
  granted := granted
  permission := none
  requests := []
  initDone := false
  javaFile := 0
  loading := 0
  views := []

/-- The main thread is in no method of a view. -/
def Idle (s : Activity F) : Prop := ∀ v ∈ s.views, v.pc = .idle ∧ v.todo = []

instance (s : Activity F) : Decidable s.Idle :=
  inferInstanceAs (Decidable (∀ v ∈ s.views, v.pc = .idle ∧ v.todo = []))

/-- `permissionCheck`. -/
def permissionCheck (sdk : ℕ) (s : Activity F) : Activity F × Bool :=
  if 23 ≤ sdk then
    let p := checkPermission s.granted
    if p.permissionList = [] then ({ s with permission := some p }, true)
    else ({ s with permission := some p, requests := s.requests ++ [p.permissionList] }, false)
  else (s, true)

/-- A method of `mOpenCvCameraView` is called, if there is one. -/
def callView (s : Activity F) (c : Call) : Activity F :=
  match s.views with
  | [] => s
  | v :: vs => { s with views := { v with todo := v.changes c } :: vs }

/-- `onCreate`: a new instance, whose `init_main_ui` makes a new view. -/
def onCreate (sdk : ℕ) (s : Activity F) : Activity F :=
  let s := (permissionCheck sdk { s with permission := none }).1
  { s with views := View.init F true :: s.views }

/-- `onResume`. -/
def onResume (sdk : ℕ) (s : Activity F) (initDebug : Bool) : Activity F :=
  if (permissionCheck sdk s).2 then
    let s := { (permissionCheck sdk s).1 with initDone := true }
    if initDebug then s.callView .enableView else { s with loading := s.loading + 1 }
  else (permissionCheck sdk s).1

/-- `onRequestPermissionsResult`, after the request `i` has been taken from the list. -/
def onRequestPermissionsResult (s : Activity F) (results : List (Permission × ℤ)) :
    Option (Activity F) :=
  s.permission.map fun p =>
    let r := permissionResult multiplePermissions results
    { s with
      javaFile := s.javaFile + r.2
      requests := if r.1 then s.requests else s.requests ++ [p.permissionList] }

/-- What the system answers to a request. -/
def results (s : Activity F) (ps : List Permission) : List (Permission × ℤ) :=
  ps.map fun p => (p, if s.granted p then permissionGranted else permissionDenied)

/-- The calls of a view that do not come from the activity. -/
def allowed (s : Activity F) : Camera.Event F → Prop
  | .call c => s.Idle ∧ (c = .surfaceChanged ∨ c = .surfaceDestroyed)
  | .onPreviewFrame _ => s.Idle
  | _ => True

instance (s : Activity F) : (e : Camera.Event F) → Decidable (s.allowed e)
  | .call c => inferInstanceAs
      (Decidable (s.Idle ∧ (c = .surfaceChanged ∨ c = .surfaceDestroyed)))
  | .onPreviewFrame _ => inferInstanceAs (Decidable s.Idle)
  | .main | .initializeCamera _ | .worker | .wakeup => .isTrue trivial

/-- The state after one happening. -/
def step (sdk : ℕ) (s : Activity F) : Happening F → Option (Activity F)
  | .onCreate => if s.Idle then some (s.onCreate sdk) else none
  | .onStart => if s.Idle then some (s.callView .setCameraPermissionGranted) else none
  | .onResume initDebug => if s.Idle then some (s.onResume sdk initDebug) else none
  | .onManagerConnected success =>
    if s.Idle ∧ 0 < s.loading then
      let s := { s with loading := s.loading - 1 }
      some (if success then s.callView .enableView else s)
    else none
  | .onPause => if s.Idle then some (s.callView .disableView) else none
  | .onDestroy => if s.Idle then some (s.callView .disableView) else none
  | .grant p => some { s with granted := Function.update s.granted p true }
  | .answer i =>
    if s.Idle then
      s.requests[i]?.bind fun ps =>
        { s with requests := s.requests.eraseIdx i }.onRequestPermissionsResult (s.results ps)
    else none
  | .cancel i =>
    if s.Idle ∧ i < s.requests.length then
      { s with requests := s.requests.eraseIdx i }.onRequestPermissionsResult []
    else none
  | .view i e =>
    if s.allowed e then
      s.views[i]?.bind fun v => (v.step e).map fun v' => { s with views := s.views.set i v' }
    else none

end Activity

/-- The activity after some happenings, in a process that starts with the given permissions. -/
def runActivity (sdk : ℕ) (granted : Permission → Bool) (hs : List (Happening F)) :
    Option (Activity F) :=
  run (Activity.step sdk) (Activity.init F granted) hs

/-! ### The loop of `permissionResult` -/

/-- A refusal is found exactly when there is one. -/
theorem resultLoop_false {rs : List (Permission × ℤ)} (h : (resultLoop rs).1 = false) :
    ∃ p, (p, permissionDenied) ∈ rs := by
  induction rs with
  | nil => cases h
  | cons pr rest ih =>
    obtain ⟨p, r⟩ := pr
    by_cases hr : r = permissionDenied
    · exact ⟨p, by simp [hr]⟩
    · simp only [resultLoop, if_neg hr] at h
      obtain ⟨q, hq⟩ := ih h
      exact ⟨q, List.mem_cons_of_mem _ hq⟩

/-- `mkdirs` is called for a grant of the storage permission only. -/
theorem resultLoop_calls {rs : List (Permission × ℤ)} (h : 0 < (resultLoop rs).2) :
    (.writeExternalStorage, permissionGranted) ∈ rs := by
  induction rs with
  | nil => cases h
  | cons pr rest ih =>
    obtain ⟨p, r⟩ := pr
    simp only [resultLoop] at h
    by_cases hp : p = .writeExternalStorage ∧ r = permissionGranted
    · simp [hp.1, hp.2]
    · simp only [if_neg hp] at h
      split_ifs at h with hr
      · exact absurd h (by simp)
      · exact List.mem_cons_of_mem _ (ih (by simpa using h))

/-- The loop calls `mkdirs` for the storage permission if it comes before the first refusal. -/
theorem resultLoop_results (s : Activity F) (ps : List Permission) : (resultLoop (s.results ps)).2 =
    (ps.takeWhile fun p => s.granted p).count .writeExternalStorage := by
  induction ps with
  | nil => rfl
  | cons p ps ih =>
    have hcons : s.results (p :: ps) =
        (p, if s.granted p then permissionGranted else permissionDenied) :: s.results ps := rfl
    rw [hcons, resultLoop, List.takeWhile_cons]
    cases hp : s.granted p with
    | true =>
      have hne : permissionGranted ≠ permissionDenied := by decide
      by_cases hw : p = .writeExternalStorage <;> simp [hw, hne, ih, Nat.add_comm]
    | false =>
      have hne : permissionDenied ≠ permissionGranted := by decide
      simp [hne]

/-- The first of some permissions is reached exactly when it is asked for. -/
theorem mem_takeWhile_first {g : Permission → Bool} {a : Permission} {l ps : List Permission}
    (h : ps.Sublist (a :: l)) (ha : a ∉ l) : a ∈ ps.takeWhile g ↔ a ∈ ps ∧ g a = true := by
  rcases List.sublist_cons_iff.1 h with h | ⟨r, rfl, -⟩
  · have hno : a ∉ ps := fun hmem => ha (h.subset hmem)
    exact iff_of_false (fun hmem => hno ((List.takeWhile_sublist g).subset hmem)) fun hmem => hno hmem.1
  · cases hg : g a <;> simp [hg]

/-- The permission to read is the only one that comes before the storage permission. -/
theorem storage_taken_iff {g : Permission → Bool} {ps : List Permission} (h : ps.Sublist permissions) :
    .writeExternalStorage ∈ ps.takeWhile g ↔ .writeExternalStorage ∈ ps ∧
      g .writeExternalStorage = true ∧ (.readExternalStorage ∈ ps → g .readExternalStorage = true) := by
  rcases List.sublist_cons_iff.1 h with h | ⟨r, rfl, hr⟩
  · have hno : Permission.readExternalStorage ∉ ps := fun hmem => by simpa using h.subset hmem
    rw [mem_takeWhile_first h (by decide)]
    simp [hno]
  · have hrest := mem_takeWhile_first (g := g) hr (by decide)
    cases hg : g .readExternalStorage <;> simp [hg, hrest]

theorem permissionResult_cases (requestCode : ℤ) (rs : List (Permission × ℤ)) :
    permissionResult requestCode rs = (true, 0) ∨
      permissionResult requestCode rs = resultLoop rs := by
  unfold permissionResult
  split_ifs
  · exact .inr rfl
  · exact .inl rfl

theorem permissionResult_false {code : ℤ} {rs : List (Permission × ℤ)}
    (h : (permissionResult code rs).1 = false) : ∃ p, (p, permissionDenied) ∈ rs := by
  rcases permissionResult_cases code rs with h' | h' <;> rw [h'] at h
  · cases h
  · exact resultLoop_false h

theorem permissionResult_calls {code : ℤ} {rs : List (Permission × ℤ)}
    (h : 0 < (permissionResult code rs).2) :
    (.writeExternalStorage, permissionGranted) ∈ rs := by
  rcases permissionResult_cases code rs with h' | h' <;> rw [h'] at h
  · cases h
  · exact resultLoop_calls h

/-! ### The invariant -/

/-- All permissions are there, or the system grants them at installation. -/
def Permitted (sdk : ℕ) (granted : Permission → Bool) : Prop :=
  sdk < 23 ∨ ∀ p, granted p = true

/-- The list of missing permissions of some moment since the start, at which no more were granted
than now. -/
structure Missing (start granted : Permission → Bool) (ps : List Permission) : Prop where
  sublist : ps.Sublist permissions
  at_start : ∀ p ∈ ps, start p = false
  covers : ∀ p, granted p = false → p ∈ ps

/-- What is known of a view: it is enabled, about to be, or has the camera, only with permission. -/
structure ViewOk (sdk : ℕ) (granted : Permission → Bool) (v : View F) : Prop where
  inv : ∃ l, v.Inv l
  enabled : v.mEnabled = true ∨ .enabled true ∈ v.todo → Permitted sdk granted
  camera : v.mCamera = true → Permitted sdk granted

/-- What holds in every reachable state, the process having started with the grants `start`. -/
structure Activity.Ok (sdk : ℕ) (start : Permission → Bool) (s : Activity F) : Prop where
  mono : ∀ p, start p = true → s.granted p = true
  support : ∀ p, s.permission = some p → Missing start s.granted p.permissionList
  requests : ∀ ps ∈ s.requests, ps ≠ [] ∧ ps.Sublist permissions ∧ ∀ p ∈ ps, start p = false
  asked : s.requests ≠ [] → 23 ≤ sdk ∧ s.permission ≠ none
  initDone : s.initDone = true → Permitted sdk s.granted
  loading : 0 < s.loading → Permitted sdk s.granted
  views : ∀ v ∈ s.views, ViewOk sdk s.granted v
  javaFile : 0 < s.javaFile →
    s.granted .writeExternalStorage = true ∧ start .writeExternalStorage = false

theorem mem_permissions (p : Permission) : p ∈ permissions := by
  cases p <;> decide

theorem missing_checkPermission {start granted : Permission → Bool}
    (h : ∀ p, start p = true → granted p = true) :
    Missing start granted (checkPermission granted).permissionList := by
  refine ⟨List.filter_sublist, fun p hp => ?_, fun p hp => ?_⟩
  · have hg := (List.mem_filter.1 hp).2
    cases hs : start p with
    | false => rfl
    | true => simp [h p hs] at hg
  · exact List.mem_filter.2 ⟨mem_permissions p, by simp [hp]⟩

theorem checkPermission_nil {granted : Permission → Bool}
    (h : (checkPermission granted).permissionList = []) (p : Permission) : granted p = true := by
  have := List.filter_eq_nil_iff.1 h p (mem_permissions p)
  simpa using this

/-! ### Views -/

section Views

variable {sdk : ℕ} {granted : Permission → Bool} {v v' : View F}

theorem enabled_mem_changes {c : Call} (h : .enabled true ∈ v.changes c) : c = .enableView := by
  cases c with
  | surfaceChanged => unfold View.changes at h; split_ifs at h <;> simp at h
  | enableView => rfl
  | _ => simp [View.changes] at h

theorem set_mEnabled {c : Change} (h : (v.set c).mEnabled = true) :
    v.mEnabled = true ∨ c = .enabled true := by
  cases c with
  | enabled b => exact .inr (by rw [show b = true from h])
  | _ => exact .inl h

theorem checkCurrentState_same (v : View F) :
    v.checkCurrentState.mEnabled = v.mEnabled ∧ v.checkCurrentState.todo = v.todo ∧
      v.checkCurrentState.mCamera = v.mCamera := by
  rcases checkCurrentState_cases v with ⟨-, h⟩ | ⟨-, -, h⟩ | ⟨-, -, h⟩ <;> rw [h] <;>
    exact ⟨rfl, rfl, rfl⟩

/-- A step of a view enables nothing that was not asked for, and opens the camera of an enabled
view only. -/
theorem view_step {e : Camera.Event F} {l : ViewState} (hi : v.Inv l) (h : v.step e = some v')
    (he : e ≠ .call .enableView) :
    (v'.mEnabled = true ∨ .enabled true ∈ v'.todo →
      v.mEnabled = true ∨ .enabled true ∈ v.todo) ∧
    (v'.mCamera = true → v.mCamera = true ∨ v.mEnabled = true) := by
  cases e with
  | call c =>
    obtain ⟨⟨-, htodo⟩, h⟩ := Option.ite_none_right_eq_some.1 h
    cases h
    refine ⟨fun h => ?_, fun h => .inl h⟩
    rcases h with h | h
    · exact .inl h
    · exact absurd (by rw [enabled_mem_changes h]) he
  | main =>
    rcases mainStep_cases h with ⟨c, cs, hpc, hcs, rfl⟩ | ⟨hpc, rfl⟩ | ⟨hpc, rfl⟩ |
      ⟨hpc, -, rfl⟩ | ⟨hpc, rfl⟩ | ⟨hpc, rfl⟩ | ⟨hpc, rfl⟩
    · obtain ⟨h1, h2, h3⟩ := checkCurrentState_same ({ v with todo := cs }.set c)
      rw [h1, h2, h3]
      refine ⟨fun h => ?_, fun h => .inl ?_⟩
      · rw [hcs]
        rcases h with h | h
        · rcases set_mEnabled h with h | h
          · exact .inl h
          · exact .inr (by simp [h])
        · refine .inr (List.mem_cons_of_mem _ ?_)
          cases c <;> exact h
      · cases c <;> exact h
    · exact ⟨id, .inl⟩
    · rcases notify_cases v with h | ⟨-, h⟩ <;> rw [h] <;> exact ⟨id, .inl⟩
    · exact ⟨id, .inl⟩
    · exact ⟨id, fun h => by cases h⟩
    · exact ⟨id, .inl⟩
    · exact ⟨id, .inl⟩
  | initializeCamera o =>
    obtain ⟨hpc, h⟩ := Option.ite_none_right_eq_some.1 h
    cases h
    have hm := hi.main
    unfold View.MainOk at hm
    simp only [hpc] at hm
    have hen : v.mEnabled = true := by
      have := hm.1
      unfold View.targetState at this
      split_ifs at this with hf
      simp only [Bool.and_eq_true] at hf
      exact hf.1.1.1
    refine ⟨fun _ => .inl hen, fun _ => .inr hen⟩
  | onPreviewFrame f =>
    obtain ⟨-, h⟩ := Option.ite_none_right_eq_some.1 h
    obtain ⟨c, -, rfl⟩ := onPreviewFrame_eq h
    rcases notify_cases (v.written c f) with h | ⟨-, h⟩ <;> rw [h] <;> exact ⟨id, .inl⟩
  | worker =>
    have hs := workerStep_sameBut h
    have hen : v'.mEnabled = v.mEnabled := by
      rcases workerStep_cases h with ⟨-, -, rfl⟩ | ⟨-, -, -, rfl⟩ | ⟨-, -, -, rfl⟩ |
        ⟨-, -, rfl⟩ | ⟨b, -, -, rfl⟩ | ⟨d, -, -, ⟨-, rfl⟩ | ⟨-, rfl⟩⟩ | ⟨-, rfl⟩ |
        ⟨d, i, -, -, rfl⟩ | ⟨-, -, rfl⟩ | ⟨-, -, rfl⟩ <;> rfl
    rw [hen, hs.todo, hs.mCamera]
    exact ⟨id, .inl⟩
  | wakeup =>
    obtain ⟨-, h⟩ := Option.ite_none_right_eq_some.1 h
    cases h
    exact ⟨id, .inl⟩

theorem ViewOk_step {e : Camera.Event F} (hv : ViewOk sdk granted v) (h : v.step e = some v')
    (he : e = .call .enableView → Permitted sdk granted) : ViewOk sdk granted v' := by
  obtain ⟨⟨l, hi⟩, hen, hcam⟩ := hv
  by_cases hcall : e = .call .enableView
  · have hp := he hcall
    exact ⟨Inv_step hi h, fun _ => hp, fun _ => hp⟩
  · obtain ⟨h1, h2⟩ := view_step hi h hcall
    refine ⟨Inv_step hi h, fun h => hen (h1 h), fun h => ?_⟩
    rcases h2 h with h | h
    · exact hcam h
    · exact hen (.inl h)

theorem ViewOk_init : ViewOk sdk granted (View.init F true) :=
  ⟨⟨_, Inv_init true⟩, by simp [View.init], by simp [View.init]⟩

end Views

/-! ### Steps of the activity -/

variable {sdk : ℕ} {start : Permission → Bool} {s s' : Activity F}

/-- A method of the view may be called; `enableView` only with permission. -/
theorem Ok_callView (h : s.Ok sdk start) (hidle : s.Idle) {c : Call}
    (hc : c = .enableView → Permitted sdk s.granted) : (s.callView c).Ok sdk start := by
  unfold Activity.callView
  cases hviews : s.views with
  | nil => simpa only [hviews] using h
  | cons v vs =>
    have hv := hidle v (by simp [hviews])
    have hstep : v.step (.call c) = some { v with todo := v.changes c } := if_pos hv
    refine ⟨h.mono, h.support, h.requests, h.asked, h.initDone, h.loading, ?_, h.javaFile⟩
    intro u hu
    rcases List.mem_cons.1 hu with rfl | hu
    · exact ViewOk_step (h.views v (by simp [hviews])) hstep
        (fun he => hc (Event.call.inj he))
    · exact h.views u (by simp [hviews, hu])

/-- What `permissionCheck` does. -/
theorem permissionCheck_cases (sdk : ℕ) (s : Activity F) :
    (23 ≤ sdk ∧ (checkPermission s.granted).permissionList = [] ∧ s.permissionCheck sdk =
      ({ s with permission := some (checkPermission s.granted) }, true)) ∨
    (23 ≤ sdk ∧ (checkPermission s.granted).permissionList ≠ [] ∧ s.permissionCheck sdk =
      ({ s with
        permission := some (checkPermission s.granted)
        requests := s.requests ++ [(checkPermission s.granted).permissionList] }, false)) ∨
    (sdk < 23 ∧ s.permissionCheck sdk = (s, true)) := by
  by_cases hsdk : 23 ≤ sdk
  · by_cases hnil : (checkPermission s.granted).permissionList = []
    · exact .inl ⟨hsdk, hnil, (if_pos hsdk).trans (if_pos hnil)⟩
    · exact .inr (.inl ⟨hsdk, hnil, (if_pos hsdk).trans (if_neg hnil)⟩)
  · exact .inr (.inr ⟨by omega, if_neg hsdk⟩)

theorem Ok_permissionCheck (h : s.Ok sdk start) :
    ((s.permissionCheck sdk).1).Ok sdk start ∧
      ((s.permissionCheck sdk).2 = true → Permitted sdk s.granted) ∧
      (s.permissionCheck sdk).1.granted = s.granted ∧
      (s.permissionCheck sdk).1.views = s.views := by
  have hmiss := missing_checkPermission h.mono
  have hsup : ∀ p, some (checkPermission s.granted) = some p →
      Missing start s.granted p.permissionList := by
    rintro p ⟨⟩
    exact hmiss
  rcases permissionCheck_cases sdk s with ⟨hsdk, hnil, heq⟩ | ⟨hsdk, hnil, heq⟩ | ⟨hsdk, heq⟩
  · rw [heq]
    exact ⟨⟨h.mono, hsup, h.requests, fun _ => ⟨hsdk, by simp⟩, h.initDone, h.loading, h.views,
      h.javaFile⟩, fun _ => .inr (checkPermission_nil hnil), rfl, rfl⟩
  · rw [heq]
    refine ⟨⟨h.mono, hsup, ?_, fun _ => ⟨hsdk, by simp⟩, h.initDone, h.loading, h.views,
      h.javaFile⟩, by simp, rfl, rfl⟩
    intro ps hps
    rcases List.mem_append.1 hps with hps | hps
    · exact h.requests ps hps
    · rw [List.mem_singleton.1 hps]
      exact ⟨hnil, hmiss.sublist, hmiss.at_start⟩
  · rw [heq]
    exact ⟨h, fun _ => .inl hsdk, rfl, rfl⟩

theorem Ok_onCreate (h : s.Ok sdk start) : (s.onCreate sdk).Ok sdk start := by
  have hcheck : ((Activity.permissionCheck sdk { s with permission := none }).1).Ok sdk start := by
    by_cases hsdk : 23 ≤ sdk
    · have heq : Activity.permissionCheck sdk { s with permission := none } =
          s.permissionCheck sdk := by
        unfold Activity.permissionCheck
        rw [if_pos hsdk, if_pos hsdk]
      rw [heq]
      exact (Ok_permissionCheck h).1
    · have heq : Activity.permissionCheck sdk { s with permission := none } =
          ({ s with permission := none }, true) := if_neg hsdk
      rw [heq]
      exact ⟨h.mono, by simp, h.requests, fun hr => absurd (h.asked hr).1 hsdk, h.initDone,
        h.loading, h.views, h.javaFile⟩
  unfold Activity.onCreate
  refine ⟨hcheck.mono, hcheck.support, hcheck.requests, hcheck.asked, hcheck.initDone,
    hcheck.loading, ?_, hcheck.javaFile⟩
  intro v hv
  rcases List.mem_cons.1 hv with rfl | hv
  · exact ViewOk_init
  · exact hcheck.views v hv

theorem Ok_onResume (h : s.Ok sdk start) (hidle : s.Idle) (initDebug : Bool) :
    (s.onResume sdk initDebug).Ok sdk start := by
  obtain ⟨hok, hperm, hg, hv⟩ := Ok_permissionCheck h
  unfold Activity.onResume
  split_ifs with hc hd
  · have hp : Permitted sdk (s.permissionCheck sdk).1.granted := by
      rw [hg]
      exact hperm hc
    have hok' : Activity.Ok sdk start { (s.permissionCheck sdk).1 with initDone := true } :=
      ⟨hok.mono, hok.support, hok.requests, hok.asked, fun _ => hp, hok.loading, hok.views,
        hok.javaFile⟩
    exact Ok_callView hok' (fun v hmem => hidle v (hv ▸ hmem)) fun _ => hp
  · have hp : Permitted sdk (s.permissionCheck sdk).1.granted := by
      rw [hg]
      exact hperm hc
    exact ⟨hok.mono, hok.support, hok.requests, hok.asked, fun _ => hp, fun _ => hp, hok.views,
      hok.javaFile⟩
  · exact hok

/-- A result is delivered: a refusal in it is a permission missing since the last check. -/
theorem Ok_onRequestPermissionsResult {i : ℕ} {rs : List (Permission × ℤ)} (h : s.Ok sdk start)
    (hden : ∀ p, (p, permissionDenied) ∈ rs → s.granted p = false)
    (hgr : (.writeExternalStorage, permissionGranted) ∈ rs →
      s.granted .writeExternalStorage = true ∧ start .writeExternalStorage = false)
    (hr : s.requests ≠ [])
    (hs : { s with requests := s.requests.eraseIdx i }.onRequestPermissionsResult rs = some s') :
    s'.Ok sdk start := by
  obtain ⟨p, hp, rfl⟩ := Option.map_eq_some_iff.1 hs
  have hmiss := h.support p hp
  refine ⟨h.mono, h.support, ?_, fun _ => ⟨(h.asked hr).1, Option.ne_none_iff_exists'.2 ⟨p, hp⟩⟩,
    h.initDone, h.loading, h.views, fun hj => ?_⟩
  · have hold : ∀ ps ∈ s.requests.eraseIdx i,
        ps ≠ [] ∧ ps.Sublist permissions ∧ ∀ p ∈ ps, start p = false :=
      fun ps hps => h.requests ps (List.mem_of_mem_eraseIdx hps)
    intro ps hps
    dsimp only at hps
    split_ifs at hps with hb
    · exact hold ps hps
    · rcases List.mem_append.1 hps with hps | hps
      · exact hold ps hps
      · rw [List.mem_singleton.1 hps]
        obtain ⟨q, hq⟩ := permissionResult_false (by simpa using hb)
        have hmem := hmiss.covers q (hden q hq)
        exact ⟨List.ne_nil_of_mem hmem, hmiss.sublist, hmiss.at_start⟩
  · by_cases hcalls : 0 < (permissionResult multiplePermissions rs).2
    · exact hgr (permissionResult_calls hcalls)
    · refine h.javaFile ?_
      dsimp only at hj
      omega

/-- A permission that is granted takes nothing away. -/
theorem Ok_grant (h : s.Ok sdk start) (p : Permission) :
    Activity.Ok sdk start { s with granted := Function.update s.granted p true } := by
  have hle : ∀ q, s.granted q = true → Function.update s.granted p true q = true := by
    intro q hq
    by_cases hqp : q = p
    · rw [hqp, Function.update_self]
    · rw [Function.update_of_ne hqp]
      exact hq
  have hperm : Permitted sdk s.granted → Permitted sdk (Function.update s.granted p true) :=
    fun hp => hp.imp_right fun hall q => hle q (hall q)
  refine ⟨fun q hq => hle q (h.mono q hq), fun sup hsup => ?_, h.requests, h.asked,
    fun hi => hperm (h.initDone hi), fun hl => hperm (h.loading hl), fun v hv => ?_,
    fun hj => ⟨hle _ (h.javaFile hj).1, (h.javaFile hj).2⟩⟩
  · obtain ⟨h1, h2, h3⟩ := h.support sup hsup
    refine ⟨h1, h2, fun q hq => h3 q ?_⟩
    cases hg : s.granted q with
    | false => rfl
    | true => exact absurd (hq.symm.trans (hle q hg)) (by simp)
  · obtain ⟨h1, h2, h3⟩ := h.views v hv
    exact ⟨h1, fun he => hperm (h2 he), fun hc => hperm (h3 hc)⟩

/-- Every happening keeps the invariant. -/
theorem Ok_step {e : Happening F} (h : s.Ok sdk start) (hs : s.step sdk e = some s') :
    s'.Ok sdk start := by
  cases e with
  | onCreate =>
    obtain ⟨-, hs⟩ := Option.ite_none_right_eq_some.1 hs
    cases hs
    exact Ok_onCreate h
  | onStart =>
    obtain ⟨hidle, hs⟩ := Option.ite_none_right_eq_some.1 hs
    cases hs
    exact Ok_callView h hidle (by simp)
  | onResume initDebug =>
    obtain ⟨hidle, hs⟩ := Option.ite_none_right_eq_some.1 hs
    cases hs
    exact Ok_onResume h hidle initDebug
  | onManagerConnected success =>
    obtain ⟨⟨hidle, hload⟩, hs⟩ := Option.ite_none_right_eq_some.1 hs
    have h' : Activity.Ok sdk start { s with loading := s.loading - 1 } :=
      ⟨h.mono, h.support, h.requests, h.asked, h.initDone, fun _ => h.loading hload, h.views,
        h.javaFile⟩
    cases hs
    cases success with
    | true => exact Ok_callView h' hidle fun _ => h.loading hload
    | false => exact h'
  | onPause =>
    obtain ⟨hidle, hs⟩ := Option.ite_none_right_eq_some.1 hs
    cases hs
    exact Ok_callView h hidle (by simp)
  | onDestroy =>
    obtain ⟨hidle, hs⟩ := Option.ite_none_right_eq_some.1 hs
    cases hs
    exact Ok_callView h hidle (by simp)
  | grant p =>
    cases hs
    exact Ok_grant h p
  | answer i =>
    obtain ⟨-, hs⟩ := Option.ite_none_right_eq_some.1 hs
    obtain ⟨ps, hps, hs⟩ := Option.bind_eq_some_iff.1 hs
    have hmem := List.mem_of_getElem? hps
    refine Ok_onRequestPermissionsResult h (fun p hp => ?_) (fun hp => ?_)
      (List.ne_nil_of_mem hmem) hs
    · obtain ⟨q, -, hq⟩ := List.mem_map.1 hp
      cases hg : s.granted q <;> simp [hg, permissionGranted, permissionDenied] at hq
      rw [← hq]
      exact hg
    · obtain ⟨q, hqm, hq⟩ := List.mem_map.1 hp
      cases hg : s.granted q <;> simp [hg, permissionGranted, permissionDenied] at hq
      subst hq
      exact ⟨hg, (h.requests ps hmem).2.2 _ hqm⟩
  | cancel i =>
    obtain ⟨⟨-, hi⟩, hs⟩ := Option.ite_none_right_eq_some.1 hs
    refine Ok_onRequestPermissionsResult h (by simp) (by simp) ?_ hs
    intro hnil
    rw [hnil] at hi
    cases hi
  | view i e =>
    obtain ⟨hallow, hs⟩ := Option.ite_none_right_eq_some.1 hs
    obtain ⟨v, hv, hs⟩ := Option.bind_eq_some_iff.1 hs
    obtain ⟨v', hv', rfl⟩ := Option.map_eq_some_iff.1 hs
    have hvok := h.views v (List.mem_of_getElem? hv)
    refine ⟨h.mono, h.support, h.requests, h.asked, h.initDone, h.loading, ?_, h.javaFile⟩
    intro u hu
    rcases List.mem_or_eq_of_mem_set hu with hu | rfl
    · exact h.views u hu
    · refine ViewOk_step hvok hv' ?_
      rintro rfl
      exact absurd hallow.2 (by simp)

theorem Ok_init (sdk : ℕ) (start : Permission → Bool) :
    (Activity.init F start).Ok sdk start := by
  refine ⟨fun _ h => h, ?_, ?_, ?_, ?_, ?_, ?_, ?_⟩ <;> simp [Activity.init]

theorem reachable_ok {hs : List (Happening F)} (h : runActivity sdk start hs = some s) :
    s.Ok sdk start :=
  run_invariant (fun s : Activity F => s.Ok sdk start) (Ok_init sdk start)
    (fun _ _ _ hok hstep => Ok_step hok hstep) h

/-! ### The results -/

/-- The first start: the two requests of `onCreate` and `onResume` are answered and cancelled, and
after the next `onResume` the camera is opened. -/
def firstStart : List (Happening ℕ) :=
  [.onCreate, .onStart, .view 0 .main, .onResume true, .cancel 1, .grant .readExternalStorage,
    .grant .writeExternalStorage, .grant .camera, .answer 0, .onResume true, .view 0 .main,
    .view 0 (.call .surfaceChanged), .view 0 .main, .view 0 (.initializeCamera (.opened 4 2))]

/-- A camera that is open, an `init_done` that is set and an enabled view each mean that all three
permissions are granted, in every run and for every view ever created. -/
theorem camera_permitted {hs : List (Happening F)} (hsdk : 23 ≤ sdk)
    (h : runActivity sdk start hs = some s) :
    (s.initDone = true ∨ ∃ v ∈ s.views, v.mEnabled = true ∨ v.mCamera = true) →
      ∀ p, s.granted p = true := by
  have hok := reachable_ok h
  have hout : Permitted sdk s.granted → ∀ p, s.granted p = true := by
    rintro (hlt | hall)
    · omega
    · exact hall
  rintro (hi | ⟨v, hv, hen | hcam⟩)
  · exact hout (hok.initDone hi)
  · exact hout ((hok.views v hv).enabled (.inl hen))
  · exact hout ((hok.views v hv).camera hcam)

theorem camera_permitted_firstStart : ∃ s, runActivity 30 (fun _ => false) firstStart = some s ∧
    (s.views.map View.mCamera = [true]) ∧ ∀ p, s.granted p = true := by
  obtain ⟨s, hs, hv⟩ := Option.map_eq_some_iff.1 (show (runActivity 30 (fun _ => false)
    firstStart).map (fun s => s.views.map View.mCamera) = some [true] by decide)
  refine ⟨s, hs, hv, camera_permitted (by decide) hs (.inr ?_)⟩
  obtain ⟨v, hmem, hcam⟩ := List.mem_map.1 (show true ∈ s.views.map View.mCamera by rw [hv]; simp)
  exact ⟨v, hmem, .inr hcam⟩

/-- Every request that waits for an answer asks for at least one permission, in the order of the
source and none twice, and none of them was granted when the process started; and there is a
`PermissionSupport` to take the answer. -/
theorem requests_wellformed {hs : List (Happening F)} (h : runActivity sdk start hs = some s) :
    ∀ ps ∈ s.requests, ps ≠ [] ∧ ps.Sublist permissions ∧ (∀ p ∈ ps, start p = false) ∧
      s.permission ≠ none := by
  intro ps hps
  have hok := reachable_ok h
  obtain ⟨h1, h2, h3⟩ := hok.requests ps hps
  exact ⟨h1, h2, h3, (hok.asked (List.ne_nil_of_mem hps)).2⟩

/-- The camera is refused, and the request is repeated as it was. -/
theorem requests_wellformed_refused : ∃ s : Activity ℕ, runActivity 30 (fun _ => false)
    [.onCreate, .grant .readExternalStorage, .grant .writeExternalStorage, .answer 0] = some s ∧
    s.requests = [permissions] ∧ ∀ ps ∈ s.requests, ps ≠ [] ∧ ps.Sublist permissions ∧
      (∀ p ∈ ps, (fun _ => false) p = false) ∧ s.permission ≠ none := by
  obtain ⟨s, hs, hr⟩ := Option.map_eq_some_iff.1 (show (runActivity (F := ℕ) 30 (fun _ => false)
    [.onCreate, .grant .readExternalStorage, .grant .writeExternalStorage, .answer 0]).map
      Activity.requests = some [permissions] by decide)
  exact ⟨s, hs, hr, requests_wellformed hs⟩

/-- `mkdirs` is called only in a process that got the storage permission while it ran. -/
theorem javaFile_posted {hs : List (Happening F)} (h : runActivity sdk start hs = some s)
    (hj : 0 < s.javaFile) :
    s.granted .writeExternalStorage = true ∧ start .writeExternalStorage = false :=
  (reachable_ok h).javaFile hj

theorem javaFile_posted_firstStart : ∃ s, runActivity 30 (fun _ => false) firstStart = some s ∧
    s.javaFile = 1 ∧ s.granted .writeExternalStorage = true ∧
      (fun _ => false) Permission.writeExternalStorage = false := by
  obtain ⟨s, hs, hj⟩ := Option.map_eq_some_iff.1 (show (runActivity 30 (fun _ => false)
    firstStart).map Activity.javaFile = some 1 by decide)
  exact ⟨s, hs, hj, javaFile_posted hs (by omega)⟩

/-- The answer to a request asks for the directory exactly when it grants the storage permission and
does not refuse the permission to read, which comes first. -/
theorem answer_posts {hs : List (Happening F)} {i : ℕ} {ps : List Permission}
    (h : runActivity sdk start hs = some s) (hps : s.requests[i]? = some ps)
    (hstep : s.step sdk (.answer i) = some s') :
    s'.javaFile = s.javaFile +
      if .writeExternalStorage ∈ ps ∧ s.granted .writeExternalStorage = true ∧
        (.readExternalStorage ∈ ps → s.granted .readExternalStorage = true) then 1 else 0 := by
  obtain ⟨hne, hsub, -⟩ := (reachable_ok h).requests ps (List.mem_of_getElem? hps)
  obtain ⟨-, hstep⟩ := Option.ite_none_right_eq_some.1 hstep
  rw [hps, Option.bind_some] at hstep
  obtain ⟨p, -, rfl⟩ := Option.map_eq_some_iff.1 hstep
  have hlen : 0 < (s.results ps).length := by
    rw [Activity.results, List.length_map]
    exact List.length_pos_of_ne_nil hne
  have hloop : permissionResult multiplePermissions (s.results ps) = resultLoop (s.results ps) :=
    if_pos ⟨rfl, hlen⟩
  show s.javaFile + (permissionResult multiplePermissions (s.results ps)).2 = _
  rw [hloop]
  rw [resultLoop_results, ((hsub.nodup (by decide)).sublist (List.takeWhile_sublist _)).count]
  simp only [storage_taken_iff hsub]

/-- The storage permission is granted and the permission to read refused: nothing is posted. -/
theorem answer_posts_refused : ∃ s s' : Activity ℕ, runActivity 30 (fun _ => false)
    [.onCreate, .grant .writeExternalStorage] = some s ∧ s.step 30 (.answer 0) = some s' ∧
    s'.javaFile = s.javaFile +
      if .writeExternalStorage ∈ permissions ∧ s.granted .writeExternalStorage = true ∧
        (.readExternalStorage ∈ permissions → s.granted .readExternalStorage = true) then 1
      else 0 := by
  obtain ⟨s, hs, h0⟩ := Option.map_eq_some_iff.1 (show (runActivity (F := ℕ) 30 (fun _ => false)
    [.onCreate, .grant .writeExternalStorage]).map
      (fun s => (s.requests[0]?, (s.step 30 (.answer 0)).isSome)) = some (some permissions, true) by
    decide)
  simp only [Prod.mk.injEq] at h0
  obtain ⟨s', hs'⟩ := Option.isSome_iff_exists.1 h0.2
  exact ⟨s, s', hs, hs', answer_posts hs h0.1 hs'⟩

end Controller
