import Controller.App.CopyProgress

/-!
# The assets after an `ASSETS_COPY` task

`assets_complete`: in a process that starts without torn files and in which no copy fails, all three
assets are complete once an `ASSETS_COPY` task has left the executor, whatever tasks, touches,
recreated activities and cancellations came in between.  It rests on the fact that these tasks are
never cancelled (`CopyState.Typed`), so each of them reaches all three of its copies.
-/

namespace Controller

open PartialRun

variable {asset : Asset → List UInt8} {s s' : CopyState} {h : Instance} {m : Message}

/-- If the action is a copy, it returns without an I/O error. -/
def CleanCopy (asset : Asset → List UInt8) (s : CopyState) (a : CopyAction) : Prop :=
  ∀ c t x rest, a = .background c → s.active = some (t, .copy x :: rest) →
    (txtFileRw (asset x) (s.files x) c).2.Clean

/-- The executor is done with the task `t`. -/
def CopyState.Left (s : CopyState) (t : ℕ) : Prop :=
  t < s.tasks ∧ t ∉ s.serial ∧ ∀ ops, s.active ≠ some (t, ops)

/-- Files are whole or missing, and the copies of a task are made in order. -/
structure CopyState.Copied (asset : Asset → List UInt8) (s : CopyState) : Prop where
  whole : ∀ a, s.files a = none ∨ s.files a = some (asset a)
  active : ∀ t ops, s.active = some (t, ops) → (s.task t).cmd = .assetsCopy →
    ∀ a, .copy a ∉ ops → s.files a = some (asset a)
  left : ∀ t, s.Left t → (s.task t).cmd = .assetsCopy → ∀ a, s.files a = some (asset a)

/-- A clean copy leaves a whole file. -/
theorem txtFileRw_whole {bytes : List UInt8} {file : Option (List UInt8)} {c : CopyCall}
    (hw : file = none ∨ file = some bytes) (hc : (txtFileRw bytes file c).2.Clean) :
    (txtFileRw bytes file c).1 = some bytes := by
  rcases hw with rfl | rfl
  · exact clean_none hc
  · exact txtFileRw_some bytes bytes c

/-- Files, executor and commands are the same. -/
theorem Copied_of_same (hc : s.Copied asset) (hf : s'.files = s.files)
    (ha : s'.active = s.active) (hser : s'.serial = s.serial) (hn : s'.tasks = s.tasks)
    (hcmd : ∀ t, (s'.task t).cmd = (s.task t).cmd) : s'.Copied asset := by
  refine ⟨?_, ?_, ?_⟩
  · rw [hf]; exact hc.whole
  · rw [hf, ha]
    exact fun t ops hact hk => hc.active t ops hact ((hcmd t).symm.trans hk)
  · unfold CopyState.Left
    rw [hf, ha, hser, hn]
    exact fun t hl hk => hc.left t hl ((hcmd t).symm.trans hk)

theorem Copied_execute (hc : s.Copied asset) (hp : s.Placed) (h : Instance) (cmd : Cmd) :
    (s.execute h cmd).Copied asset := by
  have hold : ∀ {t : ℕ}, t < s.tasks → (s.execute h cmd).task t = s.task t :=
    fun ht => update_tasks_cmd s _ ht
  refine ⟨hc.whole, fun t ops hact hk => ?_, fun t hl hk => ?_⟩
  · rw [hold (hp.active t ops hact).1] at hk
    exact hc.active t ops hact hk
  · obtain ⟨hlt, hser, hact⟩ := hl
    have hne : t ≠ s.tasks := by
      rintro rfl
      exact hser (List.mem_append_right _ (List.mem_singleton_self _))
    have hlt' : t < s.tasks := lt_of_le_of_ne (Nat.lt_succ_iff.1 hlt) hne
    rw [hold hlt'] at hk
    exact hc.left t ⟨hlt', fun hmem => hser (List.mem_append_left _ hmem), hact⟩ hk

/-- The task that a view cancels is not one that copies. -/
theorem Copied_cancelRunning (hc : s.Copied asset) (ht : s.Typed) (n : ℕ) :
    (s.cancelRunning (.view n)).Copied asset := by
  rcases cancelRunning_cases s (.view n) with heq | ⟨t, hf, -, heq⟩
  · rw [heq]; exact hc
  · rw [heq]
    have hcmd : ∀ u, (Function.update s.task t (s.task t).cancel u).cmd = (s.task u).cmd := by
      intro u
      by_cases hu : u = t
      · rw [hu, Function.update_self]
        rfl
      · rw [Function.update_of_ne hu]
    refine ⟨hc.whole, fun u ops hact hk => hc.active u ops hact ((hcmd u).symm.trans hk),
      fun u hl hk => ?_⟩
    have hk' : (s.task u).cmd = .assetsCopy := (hcmd u).symm.trans hk
    obtain ⟨hlt, hser, hact⟩ := hl
    have hut : u ≠ t := by
      rintro rfl
      rw [ht.viewTask n u hf] at hk'
      cases hk'
    exact hc.left u ⟨hlt, fun hmem => hser ((List.mem_erase_of_ne hut).2 hmem), hact⟩ hk'

theorem Copied_handle {rest : List Message} {dirOk shows : Bool} (hc : s.Copied asset)
    (ht : s.Typed) (hp : s.Placed) (hq : s.queue = m :: rest)
    (hs : { s with queue := rest }.handle dirOk shows m = some s') : s'.Copied asset := by
  have htail : CopyState.Copied asset { s with queue := rest } :=
    Copied_of_same hc rfl rfl rfl rfl fun _ => rfl
  have hpos := attached_pos_of_queue hp hq
  cases m with
  | fileControl h arg1 =>
    have hptail := Placed_tail hp hq (by simp)
    have httail := Typed_tail ht hq
    cases arg1 with
    | javaFile =>
      obtain ⟨n, rfl, -, hf⟩ := ht.java h (by simp [hq])
      cases hs
      split_ifs
      · rw [cancelRunning_none (show CopyState.fileCopyTask { s with queue := rest } (.support n) =
          none from hf)]
        exact Copied_execute htail hptail _ _
      · exact htail
    | nativeFile =>
      obtain ⟨n, rfl⟩ := ht.native h (by simp [hq])
      cases hs
      split_ifs
      · exact Copied_execute (Copied_cancelRunning htail httail n)
          (Placed_cancelRunning hptail hpos _) _ _
      · exact htail
  | updateProgress =>
    cases hs
    unfold CopyState.updateProgress
    split
    · exact htail
    · exact Copied_of_same htail rfl rfl rfl rfl fun _ => rfl
  | searchStart h =>
    obtain ⟨d, -, -, -, -, -, -, -, -, hn, htask, hser, hact, -, -, hfiles⟩ := searchStart_cases hs
    exact Copied_of_same htail hfiles hact hser hn fun t => by rw [htask]
  | changeText h =>
    obtain ⟨d, -, rfl⟩ := Option.map_eq_some_iff.1 hs
    exact Copied_of_same htail rfl rfl rfl rfl fun _ => rfl
  | postResult t =>
    cases hs
    have hcmd : ∀ u, (Function.update s.task t (s.task t).finish u).cmd = (s.task u).cmd := by
      intro u
      by_cases hu : u = t
      · rw [hu, Function.update_self]
        rfl
      · rw [Function.update_of_ne hu]
    unfold CopyState.finish
    split_ifs
    · exact Copied_of_same htail rfl rfl rfl rfl hcmd
    · exact Copied_of_same htail rfl rfl rfl rfl hcmd

theorem copy_mem_doInBackground (a : Asset) : .copy a ∈ doInBackground .assetsCopy := by
  cases a <;> decide

/-- The task that runs is past one statement; if that was a copy, it has left a whole file. -/
theorem Copied_advance {t : ℕ} {op : Statement} {rest : List Statement} (hc : s.Copied asset)
    (hact : s.active = some (t, op :: rest)) (hact' : s'.active = some (t, rest))
    (hn : s'.tasks = s.tasks) (hk : s'.task = s.task) (hser : s'.serial = s.serial)
    (hfiles : ∀ a, s'.files a = s.files a ∨ s'.files a = some (asset a))
    (hop : ∀ a, op = .copy a → s'.files a = some (asset a)) : s'.Copied asset := by
  refine ⟨fun a => ?_, fun u ops h hcmd a ha => ?_, fun u hl hcmd a => ?_⟩
  · rcases hfiles a with h | h
    · rw [h]
      exact hc.whole a
    · exact .inr h
  · rw [hact'] at h
    cases h
    rw [hk] at hcmd
    by_cases hcopy : op = .copy a
    · exact hop a hcopy
    · rcases hfiles a with h | h
      · rw [h]
        exact hc.active t _ hact hcmd a (by simp [ha, Ne.symm hcopy])
      · exact h
  · rw [hk] at hcmd
    rcases hfiles a with h | h
    · rw [h]
      refine hc.left u ⟨hn ▸ hl.1, hser ▸ hl.2.1, fun ops hu => ?_⟩ hcmd a
      rw [hact] at hu
      cases hu
      exact hl.2.2 rest hact'
    · exact h

theorem Copied_background {c : CopyCall} (hc : s.Copied asset)
    (hclean : CleanCopy asset s (.background c)) (hs : s.background asset c = some s') :
    s'.Copied asset := by
  rcases background_cases hs with ⟨t, hact, rfl⟩ | ⟨t, text, rest, hact, rfl⟩ |
    ⟨t, x, rest, hact, -, rfl⟩ | ⟨t, x, rest, hact, rfl⟩
  · refine ⟨hc.whole, by simp, fun u hl hk => ?_⟩
    by_cases hut : u = t
    · rw [hut] at hk
      exact fun a => hc.active t [] hact hk a (by simp)
    · refine hc.left u ⟨hl.1, hl.2.1, fun ops h => ?_⟩ hk
      rw [hact] at h
      cases h
      exact hut rfl
  · exact Copied_advance hc hact rfl rfl rfl rfl (fun _ => .inl rfl) (by simp)
  · have hself : Function.update s.files x (txtFileRw (asset x) (s.files x) c).1 x =
        some (asset x) := by
      rw [Function.update_self]
      exact txtFileRw_whole (hc.whole x) (hclean c t x rest rfl hact)
    refine Copied_advance hc hact rfl rfl rfl rfl (fun a => ?_) ?_
    · by_cases ha : a = x
      · rw [ha]
        exact .inr hself
      · exact .inl (Function.update_of_ne ha _ _)
    · rintro a ⟨⟩
      exact hself
  · exact Copied_advance hc hact rfl rfl rfl rfl (fun _ => .inl rfl) (by simp)

theorem Copied_step {a : CopyAction} (hc : s.Copied asset) (ht : s.Typed) (hp : s.Placed)
    (hclean : CleanCopy asset s a) (hs : s.step asset a = some s') : s'.Copied asset := by
  cases a with
  | onCreate =>
    cases hs
    exact Copied_of_same hc rfl rfl rfl rfl fun _ => rfl
  | onResume =>
    cases hs
    exact Copied_of_same hc rfl rfl rfl rfl fun _ => rfl
  | onDestroy n =>
    obtain ⟨-, hs⟩ := Option.ite_none_right_eq_some.1 hs
    rw [cancelRunning_none (ht.attached n)] at hs
    cases hs
    exact hc
  | mkdirs =>
    obtain ⟨-, hs⟩ := Option.ite_none_right_eq_some.1 hs
    cases hs
    exact Copied_of_same hc rfl rfl rfl rfl fun _ => rfl
  | setTouchEvent event =>
    obtain ⟨-, hs⟩ := Option.ite_none_right_eq_some.1 hs
    cases hs
    split_ifs
    · exact Copied_of_same hc rfl rfl rfl rfl fun _ => rfl
    · exact hc
  | handleMessage dirOk shows =>
    obtain ⟨m, rest, hq, hs⟩ := handleMessage_cases hs
    exact Copied_handle hc ht hp hq hs
  | startTask =>
    obtain ⟨t, rest, hact, hser, rfl⟩ := startTask_cases hs
    refine ⟨hc.whole, ?_, fun u hl hk => hc.left u ⟨hl.1, ?_, by simp [hact]⟩ hk⟩
    · rintro u ops ⟨⟩ hk a ha
      rw [show (s.task t).cmd = .assetsCopy from hk] at ha
      exact absurd (copy_mem_doInBackground a) ha
    · rw [hser]
      intro hmem
      rcases List.mem_cons.1 hmem with rfl | hmem
      · exact hl.2.2 _ rfl
      · exact hl.2.1 hmem
  | background c => exact Copied_background hc hclean hs

/-- In a run in which no copy fails, once an `ASSETS_COPY` task has left the executor every asset is
complete, provided that no earlier process has left a part of one. -/
theorem assets_complete {files : Asset → Option (List UInt8)} {as : List CopyAction} {t : ℕ}
    (hfiles : ∀ a, files a = none ∨ files a = some (asset a))
    (hclean : Along (CopyState.step asset) (CleanCopy asset) (CopyState.start files) as)
    (hs : runCopies asset files as = some s) (ht : s.Left t)
    (hcmd : (s.task t).cmd = .assetsCopy) (a : Asset) : s.files a = some (asset a) := by
  have hinv : s.Typed ∧ s.Placed ∧ s.Copied asset := by
    refine run_induction (fun _ (s : CopyState) => s.Typed ∧ s.Placed ∧ s.Copied asset)
      ⟨Typed_start files, Placed_start files, hfiles, by simp [CopyState.start], ?_⟩ ?_ hclean hs
    · rintro t ⟨hlt, -⟩
      exact absurd hlt (Nat.not_lt_zero t)
    · rintro _ u b u' - ⟨h1, h2, h3⟩ hb hstep
      exact ⟨Typed_step h1 hstep, Placed_step h1 h2 hstep, Copied_step h3 h1 h2 hb hstep⟩
  exact hinv.2.2.left t ht hcmd a

/-- A grant starts the copy of three assets; a touch while it runs does not get in the way. -/
theorem assets_complete_touched : ∃ s, runCopies (fun _ => [1, 2, 3]) (fun _ => none)
    [.onCreate, .onResume, .mkdirs, .handleMessage true true, .startTask, .background undisturbed,
      .background undisturbed, .setTouchEvent 0, .handleMessage true true, .handleMessage true true,
      .handleMessage true true, .background undisturbed, .background undisturbed,
      .background undisturbed, .background undisturbed, .background undisturbed] = some s ∧
    s.tasks = 2 ∧ ∀ a, s.files a = some [1, 2, 3] := by
  have hfate : ∀ f : Option (List UInt8), (txtFileRw [1, 2, 3] f undisturbed).2.Clean := by
    intro f
    cases f with
    | none => decide
    | some written => exact clean_some_iff.2 rfl
  obtain ⟨s, hs, h0⟩ := Option.map_eq_some_iff.1 (show (runCopies (fun _ => [1, 2, 3])
    (fun _ => none)
    [.onCreate, .onResume, .mkdirs, .handleMessage true true, .startTask, .background undisturbed,
      .background undisturbed, .setTouchEvent 0, .handleMessage true true, .handleMessage true true,
      .handleMessage true true, .background undisturbed, .background undisturbed,
      .background undisturbed, .background undisturbed, .background undisturbed]).map
      (fun s => (s.tasks, s.serial, s.active.isNone, (s.task 0).cmd)) =
    some (2, [1], true, .assetsCopy) by decide)
  simp only [Prod.mk.injEq] at h0
  refine ⟨s, hs, h0.1, fun a => ?_⟩
  refine assets_complete (fun _ => .inl rfl) (along_of_forall fun u b hb c t x rest hbc _ => ?_) hs
    ⟨by omega, by rw [h0.2.1]; simp, by simp [Option.isNone_iff_eq_none.1 h0.2.2.1]⟩
    h0.2.2.2 a
  have hc : c = undisturbed := by
    rw [hbc] at hb
    simpa using hb
  rw [hc]
  exact hfate _

end Controller
