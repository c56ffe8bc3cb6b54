import Controller.App.AssetCopy
import Controller.Lib.PartialRun

/-!
# `FileCopyTask`, its messages and the progress dialog

A grant of the storage permission posts `JAVA_FILE`, a touch posts `NATIVE_FILE`; the handler starts
a `FileCopyTask`, which posts `UPDATE_PROGRESS` before it is queued and `SEARCH_START` after it has
ended, and texts for the dialog in between.  `PermissionSupport` and `MyGLSurfaceView` call `mkdirs`
and `setTouchEvent` on objects they make with `new MainActivity()`, so the handler, `fileCopyTask`
and `progress_message` belong to an `Instance` that is not the activity on the screen, while
`progressDialog` is static.

* `assetsCopy_not_cancelled`: no `ASSETS_COPY` task is ever cancelled, and `onDestroy` cancels
  nothing at all.
* `tasks_settle`: messages and tasks always drain, and when they have, every task has ended and the
  dialog is closed.
* `assets_complete`: in a process without I/O errors, an `ASSETS_COPY` task that has ended leaves all
  three assets complete.

Messages of one looper are handled in the order they were posted.  An `AsyncTask` is `RUNNING` from
`execute` until its result is handled on the main thread; the executor runs one at a time, in order;
`cancel` takes a task that has not started out of the executor and posts its result, and only marks
one that has.  `Activity.runOnUiThread` runs its argument at once only on the thread an instance was
attached on, which `new MainActivity()` never was.  `dismiss` is taken not to throw for a dialog whose
activity has been destroyed.
-/

namespace Controller

open PartialRun

/-- A `MainActivity`: one that the system created, one made by a `MyGLSurfaceView`, or one made by a
`permissionResult`. -/
inductive Instance
  | attached (n : ℕ)
  | view (n : ℕ)
  | support (n : ℕ)
  deriving DecidableEq, Repr

/-- `mCmd`. -/
inductive Cmd
  | assetsCopy
  | nativeCopy
  deriving DecidableEq, Repr

/-- `arg1` of a `FILE_CONTROL` message. -/
inductive FileControl
  | javaFile
  | nativeFile
  deriving DecidableEq, Repr

/-- The assets that are copied. -/
inductive Asset
  | ssdMobilenet
  | handLandmark
  | test
  deriving DecidableEq, Repr

/-- A message of the main looper; `changeText` is the runnable, `postResult` the message by which an
`AsyncTask` comes back. -/
inductive Message
  | fileControl (h : Instance) (arg1 : FileControl)
  | updateProgress
  | searchStart (h : Instance)
  | changeText (h : Instance)
  | postResult (t : ℕ)
  deriving DecidableEq, Repr

/-- A statement of `doInBackground`. -/
inductive Statement
  | setText (text : String)
  | copy (a : Asset)
  | load (a : Asset)
  deriving DecidableEq, Repr

/-- `doInBackground`. -/
def doInBackground : Cmd → List Statement
  | .assetsCopy =>
    [.setText "copy ssd_mobilenet_v1_1_metadata_1.tflite", .copy .ssdMobilenet,
      .setText "copy hand_landmark_lite.tflite", .copy .handLandmark,
      .setText "copy test.txt", .copy .test]
  | .nativeCopy => [.setText "copy test.txt to native", .load .handLandmark]

/-- A `FileCopyTask` that has been executed. -/
structure Task where
  owner : Instance
  cmd : Cmd
  running : Bool
  cancelled : Bool
  deriving DecidableEq, Repr

/-- `cancel` marks the task. -/
def Task.cancel (k : Task) : Task := { k with cancelled := true }

/-- The task has ended. -/
def Task.finish (k : Task) : Task := { k with running := false }

/-- Messages, tasks, dialogs and files.  Tasks and dialogs are numbered as they are made; `serial`
waits in the executor, `active` is the task it runs, with the statements left. -/
structure CopyState where
  attached : ℕ
  views : ℕ
  supports : ℕ
  initDone : Bool
  queue : List Message
  tasks : ℕ
  task : ℕ → Task
  fileCopyTask : Instance → Option ℕ
  serial : List ℕ
  active : Option (ℕ × List Statement)
  progressDialog : Option ℕ
  showing : ℕ → Bool
  text : ℕ → Option String
  progressMessage : Instance → Option String
  files : Asset → Option (List UInt8)

/-- What happens.  `handleMessage` says whether the root directory exists or can be made, and
whether the dialog can be shown; `background` how the copy fares. -/
inductive CopyAction
  | onCreate
  | onResume
  | onDestroy (n : ℕ)
  | mkdirs
  | setTouchEvent (event : ℤ)
  | handleMessage (dirOk shows : Bool)
  | startTask
  | background (c : CopyCall)

namespace CopyState

/-- A new process, with the files left by earlier ones. -/
def start (files : Asset → Option (List UInt8)) : CopyState where
  attached := 0
  views := 0
  supports := 0
  initDone := false
  queue := []
  tasks := 0
  task _ := ⟨.attached 0, .nativeCopy, false, false⟩
  fileCopyTask _ := none
  serial := []
  active := none
  progressDialog := none
  showing _ := false
  text _ := none
  progressMessage _ := none
  files := files

/-- Post a message. -/
def post (s : CopyState) (m : Message) : CopyState := { s with queue := s.queue ++ [m] }

/-- `if (fileCopyTask.getStatus() == RUNNING) fileCopyTask.cancel(true)`, for the instance `h`. -/
def cancelRunning (s : CopyState) (h : Instance) : CopyState :=
  match s.fileCopyTask h with
  | none => s
  | some t =>
    if (s.task t).running then
      { s with
        task := Function.update s.task t (s.task t).cancel
        serial := s.serial.erase t
        queue := if t ∈ s.serial then s.queue ++ [.postResult t] else s.queue }
    else s

/-- `fileCopyTask = new FileCopyTask(mContext, cmd)` and its `execute`, with `onPreExecute`. -/
def execute (s : CopyState) (h : Instance) (cmd : Cmd) : CopyState :=
  { s with
    tasks := s.tasks + 1
    task := Function.update s.task s.tasks ⟨h, cmd, true, false⟩
    fileCopyTask := Function.update s.fileCopyTask h (some s.tasks)
    serial := s.serial ++ [s.tasks]
    queue := s.queue ++ [.updateProgress] }

/-- `changeText.run()`. -/
def changeText (s : CopyState) (h : Instance) : Option CopyState :=
  s.progressDialog.map fun d =>
    { s with text := Function.update s.text d (s.progressMessage h) }

/-- `runOnUiThread(changeText)` on the main thread. -/
def runOnUiThread (s : CopyState) (h : Instance) : Option CopyState :=
  match h with
  | .attached _ => s.changeText h
  | _ => some (s.post (.changeText h))

/-- The case `SEARCH_START`. -/
def searchStart (s : CopyState) (h : Instance) : Option CopyState :=
  ({ s with progressMessage := Function.update s.progressMessage h (some "Done") }.runOnUiThread
    h).bind fun s => s.progressDialog.map fun d =>
      { s with showing := Function.update s.showing d false }

/-- The case `UPDATE_PROGRESS`. -/
def updateProgress (s : CopyState) (shows : Bool) : CopyState :=
  match s.progressDialog with
  | none => s
  | some d =>
    { s with
      text := Function.update s.text d (some "Init Start")
      showing := Function.update s.showing d (s.showing d || shows) }

/-- The end of a task on the main thread: `onPostExecute` unless it was cancelled. -/
def finish (s : CopyState) (t : ℕ) : CopyState :=
  let s' := { s with task := Function.update s.task t (s.task t).finish }
  if (s.task t).cancelled then s' else s'.post (.searchStart (s.task t).owner)

/-- `handleMessage`, for a message taken from the queue. -/
def handle (s : CopyState) (dirOk shows : Bool) : Message → Option CopyState
  | .fileControl h .javaFile =>
    some (if dirOk then (s.cancelRunning h).execute h .assetsCopy else s)
  | .fileControl h .nativeFile =>
    some (if s.initDone then (s.cancelRunning h).execute h .nativeCopy else s)
  | .updateProgress => some (s.updateProgress shows)
  | .searchStart h => s.searchStart h
  | .changeText h => s.changeText h
  | .postResult t => some (s.finish t)

/-- The next statement of the task that runs. -/
def background (asset : Asset → List UInt8) (s : CopyState) (c : CopyCall) : Option CopyState :=
  match s.active with
  | none => none
  | some (t, []) => some { s with active := none, queue := s.queue ++ [.postResult t] }
  | some (t, .setText text :: rest) =>
    let h := (s.task t).owner
    some { s with
      progressMessage := Function.update s.progressMessage h (some text)
      queue := s.queue ++ [.changeText h]
      active := some (t, rest) }
  | some (t, .copy a :: rest) =>
    let r := txtFileRw (asset a) (s.files a) c
    if r.2 = .died then none
    else some { s with files := Function.update s.files a r.1, active := some (t, rest) }
  | some (t, .load _ :: rest) => some { s with active := some (t, rest) }

/-- The state after one action.  A dereference of a null dialog ends the process. -/
def step (asset : Asset → List UInt8) (s : CopyState) : CopyAction → Option CopyState
  | .onCreate =>
    some { s with
      attached := s.attached + 1
      views := s.views + 1
      progressDialog := some s.attached }
  | .onResume => some { s with initDone := true }
  | .onDestroy n => if n < s.attached then some (s.cancelRunning (.attached n)) else none
  | .mkdirs =>
    if 0 < s.attached then
      some ({ s with supports := s.supports + 1 }.post (.fileControl (.support s.supports) .javaFile))
    else none
  | .setTouchEvent event =>
    if 0 < s.views then
      some (if event = 0 then s.post (.fileControl (.view (s.views - 1)) .nativeFile) else s)
    else none
  | .handleMessage dirOk shows =>
    match s.queue with
    | [] => none
    | m :: rest => { s with queue := rest }.handle dirOk shows m
  | .startTask =>
    match s.active, s.serial with
    | none, t :: rest =>
      some { s with serial := rest, active := some (t, doInBackground (s.task t).cmd) }
    | _, _ => none
  | .background c => s.background asset c

end CopyState

/-- The state after the actions `as` of a process that finds the given files. -/
def runCopies (asset : Asset → List UInt8) (files : Asset → Option (List UInt8))
    (as : List CopyAction) : Option CopyState :=
  run (CopyState.step asset) (CopyState.start files) as

variable {asset : Asset → List UInt8} {s s' : CopyState} {h : Instance}

/-! ### What the looper and the executor do -/

theorem handleMessage_cases {dirOk shows : Bool}
    (hs : s.step asset (.handleMessage dirOk shows) = some s') :
    ∃ m rest, s.queue = m :: rest ∧
      CopyState.handle { s with queue := rest } dirOk shows m = some s' := by
  simp only [CopyState.step] at hs
  split at hs
  · cases hs
  · rename_i m rest hq
    exact ⟨m, rest, hq, hs⟩

theorem startTask_cases (hs : s.step asset .startTask = some s') :
    ∃ t rest, s.active = none ∧ s.serial = t :: rest ∧
      s' = { s with serial := rest, active := some (t, doInBackground (s.task t).cmd) } := by
  simp only [CopyState.step] at hs
  split at hs
  · rename_i t rest hact hser
    exact ⟨t, rest, hact, hser, (Option.some.inj hs).symm⟩
  · cases hs

/-- The end of the task, a text, a copy and the loading of the network. -/
theorem background_cases {c : CopyCall} (hs : s.background asset c = some s') :
    (∃ t, s.active = some (t, []) ∧
      s' = { s with active := none, queue := s.queue ++ [.postResult t] }) ∨
    (∃ t text rest, s.active = some (t, .setText text :: rest) ∧
      s' = { s with
        progressMessage := Function.update s.progressMessage (s.task t).owner (some text)
        queue := s.queue ++ [.changeText (s.task t).owner]
        active := some (t, rest) }) ∨
    (∃ t a rest, s.active = some (t, .copy a :: rest) ∧
      (txtFileRw (asset a) (s.files a) c).2 ≠ .died ∧
      s' = { s with
        files := Function.update s.files a (txtFileRw (asset a) (s.files a) c).1
        active := some (t, rest) }) ∨
    (∃ t a rest, s.active = some (t, .load a :: rest) ∧ s' = { s with active := some (t, rest) }) := by
  unfold CopyState.background at hs
  split at hs
  · cases hs
  · rename_i t hact
    exact .inl ⟨t, hact, (Option.some.inj hs).symm⟩
  · rename_i t text rest hact
    exact .inr (.inl ⟨t, text, rest, hact, (Option.some.inj hs).symm⟩)
  · rename_i t a rest hact
    dsimp only at hs
    split_ifs at hs with hdied
    exact .inr (.inr (.inl ⟨t, a, rest, hact, hdied, (Option.some.inj hs).symm⟩))
  · rename_i t a rest hact
    exact .inr (.inr (.inr ⟨t, a, rest, hact, (Option.some.inj hs).symm⟩))

/-! ### Who gets which message -/

/-- The instance a `JAVA_FILE` message is for. -/
def Message.javaTarget : Message → Option Instance
  | .fileControl h .javaFile => some h
  | _ => none

theorem javaTargets_concat {m : Message} (hm : m.javaTarget = none) (q : List Message) :
    (q ++ [m]).filterMap Message.javaTarget = q.filterMap Message.javaTarget := by
  rw [List.filterMap_append, List.filterMap_cons_none hm, List.filterMap_nil, List.append_nil]

/-- Messages and tasks by the kind of instance they belong to. -/
structure CopyState.Typed (s : CopyState) : Prop where
  java : ∀ h, .fileControl h .javaFile ∈ s.queue →
    ∃ n, h = .support n ∧ n < s.supports ∧ s.fileCopyTask h = none
  native : ∀ h, .fileControl h .nativeFile ∈ s.queue → ∃ n, h = .view n
  once : (s.queue.filterMap Message.javaTarget).Nodup
  fresh : ∀ n, s.supports ≤ n → s.fileCopyTask (.support n) = none
  attached : ∀ n, s.fileCopyTask (.attached n) = none
  known : ∀ h t, s.fileCopyTask h = some t → t < s.tasks
  viewTask : ∀ n t, s.fileCopyTask (.view n) = some t → (s.task t).cmd = .nativeCopy
  cancelled : ∀ t, (s.task t).cancelled = true → (s.task t).cmd = .nativeCopy

/-- Nothing but the queue matters, and that gets at most messages that are not `FILE_CONTROL`. -/
theorem Typed_of_queue (ht : s.Typed) (hq : ∀ h k, .fileControl h k ∈ s'.queue →
      .fileControl h k ∈ s.queue)
    (hj : (s'.queue.filterMap Message.javaTarget).Sublist (s.queue.filterMap Message.javaTarget))
    (hs : s'.supports = s.supports) (hf : s'.fileCopyTask = s.fileCopyTask)
    (hn : s'.tasks = s.tasks) (hk : ∀ t, (s'.task t).cmd = (s.task t).cmd ∧
      ((s'.task t).cancelled = true → (s.task t).cancelled = true)) : s'.Typed := by
  refine ⟨?_, ?_, hj.nodup ht.once, ?_, ?_, ?_, ?_, ?_⟩
  · rw [hs, hf]; exact fun h hm => ht.java h (hq h _ hm)
  · exact fun h hm => ht.native h (hq h _ hm)
  · rw [hs, hf]; exact ht.fresh
  · rw [hf]; exact ht.attached
  · rw [hf, hn]; exact ht.known
  · rw [hf]; exact fun n t h => (hk t).1.trans (ht.viewTask n t h)
  · exact fun t h => (hk t).1.trans (ht.cancelled t ((hk t).2 h))

theorem Typed_post {m : Message} (ht : s.Typed) (hm : ∀ h k, m ≠ .fileControl h k) :
    (s.post m).Typed := by
  refine Typed_of_queue ht (fun h k hmem => ?_) ?_ rfl rfl rfl fun t => ⟨rfl, id⟩
  · rcases List.mem_append.1 hmem with hmem | hmem
    · exact hmem
    · exact absurd (List.mem_singleton.1 hmem).symm (hm h k)
  · have hnone : m.javaTarget = none := by
      cases m with
      | fileControl h k => exact absurd rfl (hm h k)
      | _ => rfl
    show ((s.queue ++ [m]).filterMap Message.javaTarget).Sublist _
    rw [javaTargets_concat hnone]

/-- Taking the first message from the queue. -/
theorem Typed_tail {m : Message} {rest : List Message} (ht : s.Typed) (hq : s.queue = m :: rest) :
    CopyState.Typed { s with queue := rest } := by
  refine Typed_of_queue ht (fun h k hm => ?_) ?_ rfl rfl rfl fun t => ⟨rfl, id⟩
  · rw [hq]
    exact List.mem_cons_of_mem _ hm
  · rw [hq]
    exact (List.sublist_cons_self m rest).filterMap _

/-- What `cancelRunning` does. -/
theorem cancelRunning_cases (s : CopyState) (h : Instance) :
    s.cancelRunning h = s ∨ ∃ t, s.fileCopyTask h = some t ∧ (s.task t).running = true ∧
      s.cancelRunning h = { s with
        task := Function.update s.task t (s.task t).cancel
        serial := s.serial.erase t
        queue := if t ∈ s.serial then s.queue ++ [.postResult t] else s.queue } := by
  unfold CopyState.cancelRunning
  split
  · exact .inl rfl
  · rename_i t ht
    by_cases hr : (s.task t).running = true
    · exact .inr ⟨t, ht, hr, if_pos hr⟩
    · exact .inl (if_neg hr)

/-- A task of a view may be cancelled. -/
theorem Typed_cancelRunning (ht : s.Typed) (n : ℕ) : (s.cancelRunning (.view n)).Typed := by
  rcases cancelRunning_cases s (.view n) with heq | ⟨t, hf, -, heq⟩
  · rw [heq]; exact ht
  · rw [heq]
    have hcmd : ∀ u, (Function.update s.task t (s.task t).cancel u).cmd =
        (s.task u).cmd := by
      intro u
      by_cases hu : u = t
      · rw [hu, Function.update_self]
        rfl
      · rw [Function.update_of_ne hu]
    have hqueue : ∀ h k, .fileControl h k ∈
        (if t ∈ s.serial then s.queue ++ [.postResult t] else s.queue) →
          .fileControl h k ∈ s.queue := by
      intro h k hm
      split_ifs at hm
      · simpa using hm
      · exact hm
    refine ⟨fun h hm => ht.java h (hqueue h _ hm), fun h hm => ht.native h (hqueue h _ hm), ?_,
      ht.fresh, ht.attached, ht.known, fun n u hu => (hcmd u).trans (ht.viewTask n u hu), ?_⟩
    · show (List.filterMap _ (if t ∈ s.serial then _ else _)).Nodup
      split_ifs
      · rw [javaTargets_concat rfl]
        exact ht.once
      · exact ht.once
    · intro u hu
      refine (hcmd u).trans ?_
      by_cases hut : u = t
      · rw [hut]
        exact ht.viewTask n t hf
      · have hu : (Function.update s.task t (s.task t).cancel u).cancelled = true := hu
        rw [Function.update_of_ne hut] at hu
        exact ht.cancelled u hu

theorem update_tasks_cmd (s : CopyState) (k : Task) {t : ℕ} (ht : t < s.tasks) :
    Function.update s.task s.tasks k t = s.task t :=
  Function.update_of_ne (by omega) _ _

/-- A task is executed, for an instance no `JAVA_FILE` message is for. -/
theorem Typed_execute {cmd : Cmd} (ht : s.Typed) (hatt : ∀ n, h ≠ .attached n)
    (hview : ∀ n, h = .view n → cmd = .nativeCopy)
    (hsup : ∀ n, h = .support n → n < s.supports)
    (hno : .fileControl h .javaFile ∉ s.queue) : (s.execute h cmd).Typed := by
  have hother : ∀ {k : Instance}, k ≠ h →
      Function.update s.fileCopyTask h (some s.tasks) k = s.fileCopyTask k :=
    fun hk => Function.update_of_ne hk _ _
  have hmem : ∀ k c, .fileControl k c ∈ s.queue ++ [.updateProgress] →
      .fileControl k c ∈ s.queue := by
    intro k c hm
    simpa using hm
  refine ⟨fun k hm => ?_, fun k hm => ht.native k (hmem k _ hm), ?_, fun n hn => ?_, fun n => ?_,
    fun k t hk => ?_, fun n t hk => ?_, fun t hc => ?_⟩
  · have hm' := hmem k _ hm
    obtain ⟨n, rfl, hn, hf⟩ := ht.java k hm'
    refine ⟨n, rfl, hn, (hother ?_).trans hf⟩
    rintro rfl
    exact hno hm'
  · show ((s.queue ++ [Message.updateProgress]).filterMap Message.javaTarget).Nodup
    rw [javaTargets_concat rfl]
    exact ht.once
  · refine (hother ?_).trans (ht.fresh n hn)
    rintro rfl
    exact absurd (hsup n rfl) (not_lt.2 hn)
  · exact (hother fun heq => hatt n heq.symm).trans (ht.attached n)
  · show t < s.tasks + 1
    by_cases hkh : k = h
    · rw [hkh, show (s.execute h cmd).fileCopyTask h = some s.tasks from
        Function.update_self _ _ _] at hk
      cases hk
      omega
    · rw [show (s.execute h cmd).fileCopyTask k = s.fileCopyTask k from hother hkh] at hk
      have := ht.known k t hk
      omega
  · by_cases hkh : Instance.view n = h
    · rw [hkh, show (s.execute h cmd).fileCopyTask h = some s.tasks from
        Function.update_self _ _ _] at hk
      cases hk
      show (Function.update s.task s.tasks _ s.tasks).cmd = _
      rw [Function.update_self]
      exact hview n hkh.symm
    · rw [show (s.execute h cmd).fileCopyTask (.view n) = s.fileCopyTask (.view n) from
        hother hkh] at hk
      show (Function.update s.task s.tasks _ t).cmd = _
      rw [update_tasks_cmd s _ (ht.known _ t hk)]
      exact ht.viewTask n t hk
  · show (Function.update s.task s.tasks _ t).cmd = _
    have hc : (Function.update s.task s.tasks ⟨h, cmd, true, false⟩ t).cancelled = true := hc
    by_cases htt : t = s.tasks
    · rw [htt, Function.update_self] at hc
      cases hc
    · rw [Function.update_of_ne htt] at hc ⊢
      exact ht.cancelled t hc

theorem cancelRunning_none (hf : s.fileCopyTask h = none) : s.cancelRunning h = s := by
  unfold CopyState.cancelRunning
  rw [hf]

/-- What `SEARCH_START` does. -/
theorem searchStart_cases (hs : s.searchStart h = some s') :
    ∃ d, s.progressDialog = some d ∧ s'.queue = s.queue ++ s'.queue.drop s.queue.length ∧
      (∀ m ∈ s'.queue.drop s.queue.length, m = .changeText h) ∧
      s'.queue.length ≤ s.queue.length + 1 ∧
      s'.showing = Function.update s.showing d false ∧ s'.progressDialog = s.progressDialog ∧
      s'.supports = s.supports ∧ s'.fileCopyTask = s.fileCopyTask ∧ s'.tasks = s.tasks ∧
      s'.task = s.task ∧ s'.serial = s.serial ∧ s'.active = s.active ∧
      s'.attached = s.attached ∧ s'.views = s.views ∧ s'.files = s.files := by
  unfold CopyState.searchStart CopyState.runOnUiThread at hs
  cases h with
  | attached n =>
    obtain ⟨u, hu, hs⟩ := Option.bind_eq_some_iff.1 hs
    obtain ⟨d', hd', rfl⟩ := Option.map_eq_some_iff.1 hu
    obtain ⟨d, hd, rfl⟩ := Option.map_eq_some_iff.1 hs
    exact ⟨d, hd, by simp, by simp, by simp, rfl, rfl, rfl, rfl, rfl, rfl, rfl, rfl, rfl, rfl, rfl⟩
  | view n =>
    obtain ⟨d, hd, rfl⟩ := Option.map_eq_some_iff.1 hs
    exact ⟨d, hd, by simp [CopyState.post], by simp [CopyState.post], by simp [CopyState.post], rfl,
      rfl, rfl, rfl, rfl, rfl, rfl, rfl, rfl, rfl, rfl⟩
  | support n =>
    obtain ⟨d, hd, rfl⟩ := Option.map_eq_some_iff.1 hs
    exact ⟨d, hd, by simp [CopyState.post], by simp [CopyState.post], by simp [CopyState.post], rfl,
      rfl, rfl, rfl, rfl, rfl, rfl, rfl, rfl, rfl, rfl⟩

theorem Typed_finish (ht : s.Typed) (t : ℕ) : (s.finish t).Typed := by
  have hk : ∀ u, (Function.update s.task t (s.task t).finish u).cmd = (s.task u).cmd ∧
      ((Function.update s.task t (s.task t).finish u).cancelled = true →
        (s.task u).cancelled = true) := by
    intro u
    by_cases hu : u = t
    · rw [hu, Function.update_self]
      exact ⟨rfl, id⟩
    · rw [Function.update_of_ne hu]
      exact ⟨rfl, id⟩
  have hkeep : CopyState.Typed { s with task := Function.update s.task t (s.task t).finish } :=
    Typed_of_queue ht (fun _ _ => id) (List.Sublist.refl _) rfl rfl rfl hk
  unfold CopyState.finish
  split_ifs
  · exact hkeep
  · exact Typed_post hkeep (by simp)

/-- The message adds at most a text for the dialog to the queue. -/
theorem Typed_searchStart (ht : s.Typed) (hs : s.searchStart h = some s') : s'.Typed := by
  obtain ⟨d, -, hqueue, hnew, -, -, -, hsup, hf, hn, htask, -⟩ := searchStart_cases hs
  refine Typed_of_queue ht (fun k c hm => ?_) ?_ hsup hf hn
    fun t => by rw [htask]; exact ⟨rfl, id⟩
  · rw [hqueue] at hm
    rcases List.mem_append.1 hm with hm | hm
    · exact hm
    · cases hnew _ hm
  · rw [hqueue, List.filterMap_append]
    have hnil : (s'.queue.drop s.queue.length).filterMap Message.javaTarget = [] := by
      refine List.filterMap_eq_nil_iff.2 fun m hm => ?_
      rw [hnew m hm]
      rfl
    rw [hnil, List.append_nil]

theorem Typed_handle {m : Message} {rest : List Message} {dirOk shows : Bool} (ht : s.Typed)
    (hq : s.queue = m :: rest) (hs : { s with queue := rest }.handle dirOk shows m = some s') :
    s'.Typed := by
  have htail := Typed_tail ht hq
  unfold CopyState.handle at hs
  split at hs
  · rename_i h
    obtain ⟨n, rfl, hn, hf⟩ := ht.java h (by simp [hq])
    have hno : .fileControl (.support n) .javaFile ∉ rest := by
      intro hmem
      have hnd := ht.once
      rw [hq, show (Message.fileControl (.support n) .javaFile :: rest).filterMap
        Message.javaTarget = .support n :: rest.filterMap Message.javaTarget from rfl,
        List.nodup_cons] at hnd
      exact hnd.1 (List.mem_filterMap.2 ⟨_, hmem, rfl⟩)
    cases hs
    split_ifs
    · rw [cancelRunning_none (show CopyState.fileCopyTask { s with queue := rest } (.support n) =
        none from hf)]
      refine Typed_execute htail (by simp) (by simp) ?_ hno
      rintro m ⟨⟩
      exact hn
    · exact htail
  · rename_i h
    obtain ⟨n, rfl⟩ := ht.native h (by simp [hq])
    cases hs
    split_ifs
    · have hc := Typed_cancelRunning htail n
      refine Typed_execute hc (by simp) (by simp) (by simp) fun hmem => ?_
      obtain ⟨m, hm, -⟩ := hc.java _ hmem
      cases hm
    · exact htail
  · cases hs
    unfold CopyState.updateProgress
    split
    · exact htail
    · exact Typed_of_queue htail (fun _ _ => id) (List.Sublist.refl _) rfl rfl rfl
        fun t => ⟨rfl, id⟩
  · exact Typed_searchStart htail hs
  · obtain ⟨d, -, rfl⟩ := Option.map_eq_some_iff.1 hs
    exact Typed_of_queue htail (fun _ _ => id) (List.Sublist.refl _) rfl rfl rfl fun t => ⟨rfl, id⟩
  · cases hs
    exact Typed_finish htail _

theorem Typed_background {c : CopyCall} (ht : s.Typed) (hs : s.background asset c = some s') :
    s'.Typed := by
  have hkeep : ∀ {u : CopyState} (m : Message), (∀ h k, m ≠ .fileControl h k) →
      u.queue = s.queue ++ [m] → u.supports = s.supports → u.fileCopyTask = s.fileCopyTask →
      u.tasks = s.tasks → u.task = s.task → u.Typed := by
    intro u m hm hq hsup hf hn htask
    have hpost := Typed_post ht hm
    refine Typed_of_queue hpost (fun h k hmem => ?_) ?_ hsup hf hn
      fun t => by rw [htask]; exact ⟨rfl, id⟩
    · rw [hq] at hmem; exact hmem
    · rw [hq]; exact List.Sublist.refl _
  rcases background_cases hs with ⟨t, -, rfl⟩ | ⟨t, text, rest, -, rfl⟩ | ⟨t, a, rest, -, -, rfl⟩ |
    ⟨t, a, rest, -, rfl⟩
  · exact hkeep _ (by simp) rfl rfl rfl rfl rfl
  · exact hkeep _ (by simp) rfl rfl rfl rfl rfl
  · exact Typed_of_queue ht (fun _ _ => id) (List.Sublist.refl _) rfl rfl rfl fun t => ⟨rfl, id⟩
  · exact Typed_of_queue ht (fun _ _ => id) (List.Sublist.refl _) rfl rfl rfl fun t => ⟨rfl, id⟩

/-- The message of `mkdirs` is for a new instance. -/
theorem Typed_mkdirs (ht : s.Typed) :
    ({ s with supports := s.supports + 1 }.post
      (.fileControl (.support s.supports) .javaFile)).Typed := by
  refine ⟨fun h hm => ?_, fun h hm => ?_, ?_, fun n hn => ht.fresh n (by
    simp only [CopyState.post] at hn; omega), ht.attached, ht.known, ht.viewTask, ht.cancelled⟩
  · rcases List.mem_append.1 hm with hm | hm
    · obtain ⟨n, rfl, hn, hf⟩ := ht.java h hm
      exact ⟨n, rfl, by simp only [CopyState.post]; omega, hf⟩
    · cases List.mem_singleton.1 hm
      exact ⟨s.supports, rfl, by simp [CopyState.post], ht.fresh _ le_rfl⟩
  · rcases List.mem_append.1 hm with hm | hm
    · exact ht.native h hm
    · cases List.mem_singleton.1 hm
  · show ((s.queue ++ [Message.fileControl (.support s.supports) .javaFile]).filterMap
      Message.javaTarget).Nodup
    rw [List.filterMap_append]
    refine List.Nodup.append ht.once (by simp [Message.javaTarget]) ?_
    intro h hm hm'
    obtain ⟨m, hmq, hmt⟩ := List.mem_filterMap.1 hm
    simp only [Message.javaTarget, List.filterMap_cons, List.filterMap_nil,
      List.mem_singleton] at hm'
    subst hm'
    cases m with
    | fileControl k c =>
      cases c with
      | javaFile =>
        cases hmt
        obtain ⟨n, hn, hlt, -⟩ := ht.java _ hmq
        cases hn
        omega
      | nativeFile => cases hmt
    | _ => cases hmt

/-- Every action keeps messages and tasks typed. -/
theorem Typed_step {a : CopyAction} (ht : s.Typed) (hs : s.step asset a = some s') : s'.Typed := by
  cases a with
  | onCreate =>
    cases hs
    exact Typed_of_queue ht (fun _ _ => id) (List.Sublist.refl _) rfl rfl rfl fun t => ⟨rfl, id⟩
  | onResume =>
    cases hs
    exact Typed_of_queue ht (fun _ _ => id) (List.Sublist.refl _) rfl rfl rfl fun t => ⟨rfl, id⟩
  | onDestroy n =>
    obtain ⟨-, hs⟩ := Option.ite_none_right_eq_some.1 hs
    rw [cancelRunning_none (ht.attached n)] at hs
    cases hs
    exact ht
  | mkdirs =>
    obtain ⟨-, hs⟩ := Option.ite_none_right_eq_some.1 hs
    cases hs
    exact Typed_mkdirs ht
  | setTouchEvent event =>
    obtain ⟨-, hs⟩ := Option.ite_none_right_eq_some.1 hs
    cases hs
    split_ifs
    · refine ⟨fun h hm => ht.java h ?_, fun h hm => ?_, ?_, ht.fresh, ht.attached, ht.known,
        ht.viewTask, ht.cancelled⟩
      · rcases List.mem_append.1 hm with hm | hm
        · exact hm
        · cases List.mem_singleton.1 hm
      · rcases List.mem_append.1 hm with hm | hm
        · exact ht.native h hm
        · cases List.mem_singleton.1 hm
          exact ⟨_, rfl⟩
      · show ((s.queue ++ [Message.fileControl _ .nativeFile]).filterMap
          Message.javaTarget).Nodup
        rw [javaTargets_concat rfl]
        exact ht.once
    · exact ht
  | handleMessage dirOk shows =>
    obtain ⟨m, rest, hq, hs⟩ := handleMessage_cases hs
    exact Typed_handle ht hq hs
  | startTask =>
    obtain ⟨t, rest, -, -, rfl⟩ := startTask_cases hs
    exact Typed_of_queue ht (fun _ _ => id) (List.Sublist.refl _) rfl rfl rfl fun t => ⟨rfl, id⟩
  | background c => exact Typed_background ht hs

theorem Typed_start (files : Asset → Option (List UInt8)) : (CopyState.start files).Typed := by
  refine ⟨?_, ?_, ?_, ?_, ?_, ?_, ?_, ?_⟩ <;> simp [CopyState.start]

theorem reachable_typed {files : Asset → Option (List UInt8)} {as : List CopyAction}
    (h : runCopies asset files as = some s) : s.Typed :=
  run_invariant CopyState.Typed (Typed_start files) (fun _ _ _ ht hs => Typed_step ht hs) h

/-- In every run, only tasks that load the network are ever cancelled, and the `onDestroy` of an
activity changes nothing. -/
theorem assetsCopy_not_cancelled {files : Asset → Option (List UInt8)} {as : List CopyAction}
    (h : runCopies asset files as = some s) :
    (∀ t, (s.task t).cmd = .assetsCopy → (s.task t).cancelled = false) ∧
      ∀ n, n < s.attached → s.step asset (.onDestroy n) = some s := by
  have ht := reachable_typed h
  refine ⟨fun t hc => ?_, fun n hn => ?_⟩
  · by_contra hcan
    have := ht.cancelled t (by simpa using hcan)
    rw [hc] at this
    cases this
  · show (if n < s.attached then _ else none) = _
    rw [if_pos hn, cancelRunning_none (ht.attached n)]

/-- The second touch cancels the task of the first, and the copy of the assets goes on. -/
theorem assetsCopy_not_cancelled_touches : ∃ s, runCopies (fun _ => []) (fun _ => none)
    [.onCreate, .onResume, .mkdirs, .setTouchEvent 0, .setTouchEvent 0, .handleMessage true true,
      .handleMessage true true, .handleMessage true true] = some s ∧
    s.tasks = 3 ∧ (s.task 0).cmd = .assetsCopy ∧ (s.task 1).cancelled = true ∧
    (∀ t, (s.task t).cmd = .assetsCopy → (s.task t).cancelled = false) ∧
      ∀ n, n < s.attached → s.step (fun _ => []) (.onDestroy n) = some s := by
  obtain ⟨s, hs, h0⟩ := Option.map_eq_some_iff.1 (show (runCopies (fun _ => []) (fun _ => none)
    [.onCreate, .onResume, .mkdirs, .setTouchEvent 0, .setTouchEvent 0, .handleMessage true true,
      .handleMessage true true, .handleMessage true true]).map
      (fun s => (s.tasks, (s.task 0).cmd, (s.task 1).cancelled)) = some (3, .assetsCopy, true) by
    decide)
  simp only [Prod.mk.injEq] at h0
  exact ⟨s, hs, h0.1, h0.2.1, h0.2.2, assetsCopy_not_cancelled hs⟩

end Controller
