import Controller.App.FileCopyTask

/-!
# Messages and tasks drain, and the dialog closes

`UPDATE_PROGRESS` opens the dialog and is posted when a task is executed; `SEARCH_START` closes it
and is posted when a task that was not cancelled has ended.  Several tasks may be under way, and a
cancelled one never closes the dialog.

`tasks_settle`: left to themselves, the looper and the executor take boundedly many steps; where
they stop, the queue is empty, every task has ended and the current dialog is closed.  The reason
(`DialogOk`) is that a task is cancelled only to make room for another: either some task will still
close the dialog, or a `SEARCH_START` is queued behind every `UPDATE_PROGRESS`.
-/

namespace Controller

open PartialRun

variable {asset : Asset → List UInt8} {s s' : CopyState} {h : Instance} {m : Message}

/-! ### Where the tasks are -/

/-- A task that has not ended is waiting, running or on its way back, and there is a dialog for what
they post. -/
structure CopyState.Placed (s : CopyState) : Prop where
  serial : ∀ t ∈ s.serial, t < s.tasks ∧ (s.task t).cancelled = false
  nodup : s.serial.Nodup
  active : ∀ t ops, s.active = some (t, ops) → t < s.tasks ∧ t ∉ s.serial
  found : ∀ t, t < s.tasks → (s.task t).running = true →
    t ∈ s.serial ∨ (∃ ops, s.active = some (t, ops)) ∨ .postResult t ∈ s.queue
  quiet : s.attached = 0 → s.views = 0 ∧ s.queue = [] ∧ s.serial = [] ∧ s.active = none
  dialog : 0 < s.attached → s.progressDialog ≠ none

/-- Only the queue and the tasks' own marks change, and no result is taken from the queue. -/
theorem Placed_of_same (hp : s.Placed) (hser : s'.serial = s.serial) (hact : s'.active = s.active)
    (hn : s'.tasks = s.tasks) (htask : s'.task = s.task)
    (hq : ∀ t, .postResult t ∈ s.queue → .postResult t ∈ s'.queue)
    (hatt : s'.attached = s.attached) (hviews : s'.views = s.views)
    (hnil : s'.attached = 0 → s'.queue = []) (hd : s'.progressDialog = s.progressDialog) :
    s'.Placed := by
  refine ⟨?_, ?_, ?_, ?_, ?_, ?_⟩
  · rw [hser, hn, htask]; exact hp.serial
  · rw [hser]; exact hp.nodup
  · rw [hact, hn, hser]; exact hp.active
  · rw [hn, htask, hser, hact]
    intro t ht hr
    exact (hp.found t ht hr).imp_right fun hf => hf.imp_right (hq t)
  · intro h0
    obtain ⟨h1, -, h3, h4⟩ := hp.quiet (hatt ▸ h0)
    exact ⟨hviews.trans h1, hnil h0, hser.trans h3, hact.trans h4⟩
  · rw [hatt, hd]; exact hp.dialog

theorem attached_pos_of_queue (hp : s.Placed) {q : List Message} (hq : s.queue = m :: q) :
    0 < s.attached := by
  rcases Nat.eq_zero_or_pos s.attached with h0 | hpos
  · have := (hp.quiet h0).2.1
    rw [hq] at this
    cases this
  · exact hpos

theorem Placed_post (hp : s.Placed) (hpos : 0 < s.attached) (m : Message) : (s.post m).Placed := by
  refine Placed_of_same hp rfl rfl rfl rfl (fun t ht => List.mem_append_left _ ht) rfl rfl ?_ rfl
  intro h0
  exact absurd h0 hpos.ne'

/-- A message that brings no result is taken from the queue. -/
theorem Placed_tail (hp : s.Placed) {rest : List Message} (hq : s.queue = m :: rest)
    (hm : ∀ t, m ≠ .postResult t) : CopyState.Placed { s with queue := rest } := by
  have hpos := attached_pos_of_queue hp hq
  refine Placed_of_same hp rfl rfl rfl rfl (fun t ht => ?_) rfl rfl (fun h0 => absurd h0 hpos.ne')
    rfl
  rw [hq] at ht
  rcases List.mem_cons.1 ht with ht | ht
  · exact absurd ht.symm (hm t)
  · exact ht

theorem Placed_cancelRunning (hp : s.Placed) (hpos : 0 < s.attached) (h : Instance) :
    (s.cancelRunning h).Placed := by
  rcases cancelRunning_cases s h with heq | ⟨t, -, -, heq⟩
  · rw [heq]; exact hp
  · rw [heq]
    have hother : ∀ {u : ℕ}, u ≠ t → Function.update s.task t (s.task t).cancel u = s.task u :=
      fun hu => Function.update_of_ne hu _ _
    refine ⟨fun u hu => ?_, hp.nodup.erase _, fun u ops hu => ?_, fun u hu hr => ?_,
      fun h0 => absurd h0 hpos.ne', hp.dialog⟩
    · obtain ⟨hne, hmem⟩ := hp.nodup.mem_erase_iff.1 hu
      obtain ⟨h1, h2⟩ := hp.serial u hmem
      refine ⟨h1, ?_⟩
      show (Function.update s.task t (s.task t).cancel u).cancelled = false
      rw [hother hne]
      exact h2
    · obtain ⟨h1, h2⟩ := hp.active u ops hu
      exact ⟨h1, fun hmem => h2 (List.mem_of_mem_erase hmem)⟩
    · by_cases hut : u = t
      · subst hut
        have hr' : (s.task u).running = true := by
          have hr : (Function.update s.task u (s.task u).cancel u).running = true := hr
          rw [Function.update_self] at hr
          exact hr
        show _ ∨ _ ∨ Message.postResult u ∈
          (if u ∈ s.serial then s.queue ++ [.postResult u] else s.queue)
        by_cases hser : u ∈ s.serial
        · rw [if_pos hser]
          exact .inr (.inr (by simp))
        · rw [if_neg hser]
          rcases hp.found u hu hr' with hf | hf
          · exact absurd hf hser
          · exact .inr hf
      · have hr' : (s.task u).running = true := by
          have hr : (Function.update s.task t (s.task t).cancel u).running = true := hr
          rw [hother hut] at hr
          exact hr
        rcases hp.found u hu hr' with hf | hf | hf
        · exact .inl ((List.mem_erase_of_ne hut).2 hf)
        · exact .inr (.inl hf)
        · refine .inr (.inr ?_)
          show Message.postResult u ∈
            (if t ∈ s.serial then s.queue ++ [.postResult t] else s.queue)
          split_ifs
          · exact List.mem_append_left _ hf
          · exact hf

theorem Placed_execute (hp : s.Placed) (hpos : 0 < s.attached) (h : Instance) (cmd : Cmd) :
    (s.execute h cmd).Placed := by
  have hold : ∀ {t : ℕ}, t < s.tasks → (s.execute h cmd).task t = s.task t :=
    fun ht => update_tasks_cmd s _ ht
  refine ⟨fun t ht => ?_, ?_, fun t ops ht => ?_, fun t ht hr => ?_, fun h0 => absurd h0 hpos.ne',
    hp.dialog⟩
  · show t < s.tasks + 1 ∧ _
    rcases List.mem_append.1 ht with ht | ht
    · obtain ⟨h1, h2⟩ := hp.serial t ht
      rw [hold h1]
      exact ⟨by omega, h2⟩
    · rw [List.mem_singleton.1 ht]
      refine ⟨by omega, ?_⟩
      show (Function.update s.task s.tasks _ s.tasks).cancelled = false
      rw [Function.update_self]
  · refine List.Nodup.append hp.nodup (List.nodup_singleton _) ?_
    intro t ht ht'
    have := (hp.serial t ht).1
    rw [List.mem_singleton.1 ht'] at this
    omega
  · obtain ⟨h1, h2⟩ := hp.active t ops ht
    refine ⟨Nat.lt_succ_of_lt h1, fun hmem => ?_⟩
    rcases List.mem_append.1 hmem with hmem | hmem
    · exact h2 hmem
    · rw [List.mem_singleton.1 hmem] at h1
      omega
  · by_cases htt : t = s.tasks
    · exact .inl (by rw [htt]; exact List.mem_append_right _ (List.mem_singleton_self _))
    · have hlt : t < s.tasks := lt_of_le_of_ne (Nat.lt_succ_iff.1 ht) htt
      rw [hold hlt] at hr
      rcases hp.found t hlt hr with hf | hf | hf
      · exact .inl (List.mem_append_left _ hf)
      · exact .inr (.inl hf)
      · exact .inr (.inr (List.mem_append_left _ hf))

/-- The result of a task is taken from the queue, and the task has ended. -/
theorem Placed_finish (hp : s.Placed) {t : ℕ} {rest : List Message}
    (hq : s.queue = .postResult t :: rest) :
    (CopyState.finish { s with queue := rest } t).Placed := by
  have hpos := attached_pos_of_queue hp hq
  have hother : ∀ {u : ℕ}, u ≠ t → Function.update s.task t (s.task t).finish u = s.task u :=
    fun hu => Function.update_of_ne hu _ _
  have hmain : CopyState.Placed
      { s with queue := rest, task := Function.update s.task t (s.task t).finish } := by
    refine ⟨fun u hu => ?_, hp.nodup, hp.active, fun u hu hr => ?_, fun h0 => absurd h0 hpos.ne',
      hp.dialog⟩
    · obtain ⟨h1, h2⟩ := hp.serial u hu
      refine ⟨h1, ?_⟩
      show (Function.update s.task t (s.task t).finish u).cancelled = false
      by_cases hut : u = t
      · rw [hut, Function.update_self]
        rw [hut] at h2
        exact h2
      · rw [hother hut]
        exact h2
    · have hr : (Function.update s.task t (s.task t).finish u).running = true := hr
      by_cases hut : u = t
      · rw [hut, Function.update_self] at hr
        cases hr
      · rw [hother hut] at hr
        rcases hp.found u hu hr with hf | hf | hf
        · exact .inl hf
        · exact .inr (.inl hf)
        · rw [hq] at hf
          rcases List.mem_cons.1 hf with hf | hf
          · exact absurd (Message.postResult.inj hf) hut
          · exact .inr (.inr hf)
  unfold CopyState.finish
  split_ifs
  · exact hmain
  · exact Placed_post hmain hpos _

theorem Placed_handle {rest : List Message} {dirOk shows : Bool} (hp : s.Placed)
    (hq : s.queue = m :: rest) (hs : { s with queue := rest }.handle dirOk shows m = some s') :
    s'.Placed := by
  have hpos := attached_pos_of_queue hp hq
  cases m with
  | fileControl h arg1 =>
    have htail := Placed_tail hp hq (by simp)
    cases arg1 <;> cases hs <;> split_ifs
    · exact Placed_execute (Placed_cancelRunning htail hpos h)
        (by rcases cancelRunning_cases { s with queue := rest } h with he | ⟨_, -, -, he⟩ <;>
              rw [he] <;> exact hpos) h _
    · exact htail
    · exact Placed_execute (Placed_cancelRunning htail hpos h)
        (by rcases cancelRunning_cases { s with queue := rest } h with he | ⟨_, -, -, he⟩ <;>
              rw [he] <;> exact hpos) h _
    · exact htail
  | updateProgress =>
    have htail := Placed_tail hp hq (by simp)
    cases hs
    unfold CopyState.updateProgress
    split
    · exact htail
    · exact Placed_of_same htail rfl rfl rfl rfl (fun _ => id) rfl rfl
        (fun h0 => absurd h0 hpos.ne') rfl
  | searchStart h =>
    have htail := Placed_tail hp hq (by simp)
    obtain ⟨d, -, hqueue, -, -, -, hd, -, -, hn, htask, hser, hact, hatt, hviews, -⟩ :=
      searchStart_cases hs
    refine Placed_of_same htail hser hact hn htask (fun t ht => ?_) hatt hviews
      (fun h0 => absurd (hatt.symm.trans h0) hpos.ne') hd
    rw [hqueue]
    exact List.mem_append_left _ ht
  | changeText h =>
    have htail := Placed_tail hp hq (by simp)
    obtain ⟨d, -, rfl⟩ := Option.map_eq_some_iff.1 hs
    exact Placed_of_same htail rfl rfl rfl rfl (fun _ => id) rfl rfl
      (fun h0 => absurd h0 hpos.ne') rfl
  | postResult t =>
    cases hs
    exact Placed_finish hp hq

/-- The task that runs goes on to its next statement. -/
theorem Placed_advance (hp : s.Placed) {t : ℕ} {ops ops' : List Statement}
    (hact : s.active = some (t, ops)) (hact' : s'.active = some (t, ops'))
    (hser : s'.serial = s.serial) (hn : s'.tasks = s.tasks) (htask : s'.task = s.task)
    (hq : ∀ m, m ∈ s.queue → m ∈ s'.queue) (hatt : s'.attached = s.attached)
    (hd : s'.progressDialog = s.progressDialog) : s'.Placed := by
  refine ⟨?_, ?_, ?_, ?_, fun h0 => ?_, ?_⟩
  · rw [hser, hn, htask]; exact hp.serial
  · rw [hser]; exact hp.nodup
  · rw [hact', hser, hn]
    rintro u ops'' ⟨⟩
    exact hp.active t ops hact
  · rw [hn, htask, hser, hact']
    intro u hu hr
    rcases hp.found u hu hr with hf | ⟨ops'', hf⟩ | hf
    · exact .inl hf
    · rw [hact] at hf
      cases hf
      exact .inr (.inl ⟨_, rfl⟩)
    · exact .inr (.inr (hq _ hf))
  · exact absurd (hact.symm.trans (hp.quiet (hatt ▸ h0)).2.2.2) (by simp)
  · rw [hatt, hd]; exact hp.dialog

/-- Every action keeps the tasks placed. -/
theorem Placed_step {a : CopyAction} (ht : s.Typed) (hp : s.Placed)
    (hs : s.step asset a = some s') : s'.Placed := by
  cases a with
  | onCreate =>
    cases hs
    exact ⟨hp.serial, hp.nodup, hp.active, hp.found, by simp, by simp⟩
  | onResume =>
    cases hs
    exact ⟨hp.serial, hp.nodup, hp.active, hp.found, hp.quiet, hp.dialog⟩
  | onDestroy n =>
    obtain ⟨-, hs⟩ := Option.ite_none_right_eq_some.1 hs
    rw [cancelRunning_none (ht.attached n)] at hs
    cases hs
    exact hp
  | mkdirs =>
    obtain ⟨hpos, hs⟩ := Option.ite_none_right_eq_some.1 hs
    cases hs
    have hp' : CopyState.Placed { s with supports := s.supports + 1 } :=
      ⟨hp.serial, hp.nodup, hp.active, hp.found, hp.quiet, hp.dialog⟩
    exact Placed_post hp' hpos _
  | setTouchEvent event =>
    obtain ⟨hv, hs⟩ := Option.ite_none_right_eq_some.1 hs
    cases hs
    split_ifs
    · refine Placed_post hp ?_ _
      rcases Nat.eq_zero_or_pos s.attached with h0 | hpos
      · have := (hp.quiet h0).1
        omega
      · exact hpos
    · exact hp
  | handleMessage dirOk shows =>
    obtain ⟨m, rest, hq, hs⟩ := handleMessage_cases hs
    exact Placed_handle hp hq hs
  | startTask =>
    obtain ⟨t, rest, hact, hser, rfl⟩ := startTask_cases hs
    have hmem := hp.serial t (by simp [hser])
    have hnd := hp.nodup
    rw [hser, List.nodup_cons] at hnd
    refine ⟨fun u hu => hp.serial u (by simp [hser, hu]), hnd.2, ?_, fun u hu hr => ?_,
      fun h0 => ?_, hp.dialog⟩
    · rintro u ops ⟨⟩
      exact ⟨hmem.1, hnd.1⟩
    · rcases hp.found u hu hr with hf | ⟨ops, hf⟩ | hf
      · rw [hser] at hf
        rcases List.mem_cons.1 hf with rfl | hf
        · exact .inr (.inl ⟨_, rfl⟩)
        · exact .inl hf
      · rw [hact] at hf
        cases hf
      · exact .inr (.inr hf)
    · have := (hp.quiet h0).2.2.1
      rw [hser] at this
      cases this
  | background c =>
    rcases background_cases hs with ⟨t, hact, rfl⟩ | ⟨t, text, rest, hact, rfl⟩ |
      ⟨t, a, rest, hact, -, rfl⟩ | ⟨t, a, rest, hact, rfl⟩
    · refine ⟨hp.serial, hp.nodup, by simp, fun u hu hr => ?_, fun h0 => ?_, hp.dialog⟩
      · rcases hp.found u hu hr with hf | ⟨ops, hf⟩ | hf
        · exact .inl hf
        · rw [hact] at hf
          cases hf
          exact .inr (.inr (by simp))
        · exact .inr (.inr (List.mem_append_left _ hf))
      · exact absurd (hact.symm.trans (hp.quiet h0).2.2.2) (by simp)
    · exact Placed_advance hp hact rfl rfl rfl rfl (fun _ => List.mem_append_left _) rfl rfl
    · exact Placed_advance hp hact rfl rfl rfl rfl (fun _ => id) rfl rfl
    · exact Placed_advance hp hact rfl rfl rfl rfl (fun _ => id) rfl rfl

theorem Placed_start (files : Asset → Option (List UInt8)) : (CopyState.start files).Placed := by
  refine ⟨?_, ?_, ?_, ?_, ?_, ?_⟩ <;> simp [CopyState.start]

/-! ### The dialog -/

/-- A `SEARCH_START` is queued behind every `UPDATE_PROGRESS`. -/
def Backed : List Message → Prop
  | [] => True
  | .updateProgress :: q => (∃ h, .searchStart h ∈ q) ∧ Backed q
  | _ :: q => Backed q

theorem Backed.tail {q : List Message} (hb : Backed (m :: q)) : Backed q := by
  cases m with
  | updateProgress => exact hb.2
  | _ => exact hb

theorem Backed.concat {q : List Message} (hb : Backed q) (hm : m ≠ .updateProgress) :
    Backed (q ++ [m]) := by
  induction q with
  | nil =>
    cases m with
    | updateProgress => exact absurd rfl hm
    | _ => exact trivial
  | cons x q ih =>
    cases x with
    | updateProgress =>
      obtain ⟨⟨h, hh⟩, hq⟩ := hb
      exact ⟨⟨h, List.mem_append_left _ hh⟩, ih hq⟩
    | _ => exact ih hb

theorem Backed.append {q new : List Message} (hb : Backed q)
    (hnew : ∀ m ∈ new, m ≠ .updateProgress) : Backed (q ++ new) := by
  induction new generalizing q with
  | nil => rwa [List.append_nil]
  | cons x new ih =>
    rw [List.append_cons]
    exact ih (hb.concat (hnew x (by simp))) fun m hm => hnew m (by simp [hm])

theorem backed_concat_searchStart (q : List Message) (h : Instance) :
    Backed (q ++ [.searchStart h]) := by
  induction q with
  | nil => exact trivial
  | cons x q ih =>
    cases x with
    | updateProgress => exact ⟨⟨h, by simp⟩, ih⟩
    | _ => exact ih

/-- Some task has not ended and has not been cancelled. -/
def CopyState.Live (s : CopyState) : Prop :=
  ∃ t, t < s.tasks ∧ (s.task t).running = true ∧ (s.task t).cancelled = false

/-- The current dialog is open. -/
def CopyState.Open (s : CopyState) : Prop := ∃ d, s.progressDialog = some d ∧ s.showing d = true

/-- Whatever opens the dialog is followed by something that closes it. -/
structure CopyState.DialogOk (s : CopyState) : Prop where
  fresh : ∀ d, s.attached ≤ d → s.showing d = false
  current : ∀ d, s.progressDialog = some d → d < s.attached
  closes : s.Live ∨ Backed s.queue ∧ (s.Open → ∃ h, .searchStart h ∈ s.queue)

/-- Only the queue grows, by messages that do not open the dialog. -/
theorem DialogOk_concat (hd : s.DialogOk) (hm : m ≠ .updateProgress)
    (hq : s'.queue = s.queue ++ [m]) (hn : s'.tasks = s.tasks) (htask : s'.task = s.task)
    (hp : s'.progressDialog = s.progressDialog) (hshow : s'.showing = s.showing)
    (hatt : s'.attached = s.attached) : s'.DialogOk := by
  refine ⟨?_, ?_, ?_⟩
  · rw [hatt, hshow]; exact hd.fresh
  · rw [hp, hatt]; exact hd.current
  · unfold CopyState.Live CopyState.Open
    rw [hn, htask, hp, hshow, hq]
    refine hd.closes.imp_right fun ⟨hb, ho⟩ => ⟨hb.concat hm, fun h => ?_⟩
    obtain ⟨k, hk⟩ := ho h
    exact ⟨k, List.mem_append_left _ hk⟩

/-- The queue stays as it is. -/
theorem DialogOk_of_same (hd : s.DialogOk) (hq : s'.queue = s.queue) (hn : s'.tasks = s.tasks)
    (htask : s'.task = s.task) (hp : s'.progressDialog = s.progressDialog)
    (hshow : s'.showing = s.showing) (hatt : s'.attached = s.attached) : s'.DialogOk := by
  refine ⟨?_, ?_, ?_⟩
  · rw [hatt, hshow]; exact hd.fresh
  · rw [hp, hatt]; exact hd.current
  · unfold CopyState.Live CopyState.Open
    rw [hn, htask, hp, hshow, hq]
    exact hd.closes

/-- A message that does not close the dialog is taken from the queue. -/
theorem DialogOk_tail (hd : s.DialogOk) {rest : List Message} (hq : s.queue = m :: rest)
    (hm : ∀ h, m ≠ .searchStart h) : CopyState.DialogOk { s with queue := rest } := by
  refine ⟨hd.fresh, hd.current, hd.closes.imp_right fun ⟨hb, ho⟩ => ?_⟩
  rw [hq] at hb ho
  refine ⟨hb.tail, fun h => ?_⟩
  obtain ⟨k, hk⟩ := ho h
  rcases List.mem_cons.1 hk with hk | hk
  · exact absurd hk.symm (hm k)
  · exact ⟨k, hk⟩

/-- A new task will close the dialog. -/
theorem DialogOk_execute (hd : s.DialogOk) (h : Instance) (cmd : Cmd) :
    ((s.cancelRunning h).execute h cmd).DialogOk := by
  have hsame : (s.cancelRunning h).attached = s.attached ∧
      (s.cancelRunning h).showing = s.showing ∧
      (s.cancelRunning h).progressDialog = s.progressDialog := by
    rcases cancelRunning_cases s h with heq | ⟨t, -, -, heq⟩ <;> rw [heq] <;>
      exact ⟨rfl, rfl, rfl⟩
  refine ⟨?_, ?_, .inl ⟨(s.cancelRunning h).tasks, Nat.lt_succ_self _, ?_⟩⟩
  · show ∀ d, (s.cancelRunning h).attached ≤ d → (s.cancelRunning h).showing d = false
    rw [hsame.1, hsame.2.1]
    exact hd.fresh
  · show ∀ d, (s.cancelRunning h).progressDialog = some d → d < (s.cancelRunning h).attached
    rw [hsame.1, hsame.2.2]
    exact hd.current
  · simp only [CopyState.execute, Function.update_self, and_self]

theorem DialogOk_updateProgress {rest : List Message} (hd : s.DialogOk)
    (hq : s.queue = .updateProgress :: rest) (shows : Bool) :
    CopyState.DialogOk (CopyState.updateProgress { s with queue := rest } shows) := by
  have htail := DialogOk_tail hd hq (by simp)
  unfold CopyState.updateProgress
  split
  · exact htail
  · rename_i d hdlg
    have hlt := hd.current d hdlg
    refine ⟨fun e he => ?_, htail.current, ?_⟩
    · show Function.update s.showing d _ e = false
      rw [Function.update_of_ne (by simp only at he; omega)]
      exact hd.fresh e he
    · rcases hd.closes with hl | ⟨hb, -⟩
      · exact .inl hl
      · rw [hq] at hb
        exact .inr ⟨hb.2, fun _ => hb.1⟩

/-- The message closes the dialog. -/
theorem DialogOk_searchStart {rest : List Message} {h : Instance} (hd : s.DialogOk)
    (hq : s.queue = .searchStart h :: rest)
    (hs : CopyState.searchStart { s with queue := rest } h = some s') : s'.DialogOk := by
  obtain ⟨d, hdlg, hqueue, hnew, -, hshow, hp, -, -, hn, htask, -, -, hatt, -⟩ :=
    searchStart_cases hs
  refine ⟨fun e he => ?_, by rw [hp, hatt]; exact hd.current, ?_⟩
  · rw [hshow]
    by_cases hed : e = d
    · rw [hed, Function.update_self]
    · rw [Function.update_of_ne hed]
      exact hd.fresh e (hatt ▸ he)
  · rcases hd.closes with hl | ⟨hb, -⟩
    · left
      unfold CopyState.Live
      rw [hn, htask]
      exact hl
    · right
      rw [hq] at hb
      refine ⟨?_, fun ho => ?_⟩
      · rw [hqueue]
        exact Backed.append (q := rest) hb fun m hm => by rw [hnew m hm]; simp
      · obtain ⟨e, he, hshown⟩ := ho
        rw [hp] at he
        have hde : d = e := Option.some.inj (hdlg.symm.trans he)
        rw [hshow, ← hde, Function.update_self] at hshown
        cases hshown

theorem DialogOk_finish (hd : s.DialogOk) (t : ℕ) : (s.finish t).DialogOk := by
  have hother : ∀ {u : ℕ}, u ≠ t → Function.update s.task t (s.task t).finish u = s.task u :=
    fun hu => Function.update_of_ne hu _ _
  unfold CopyState.finish
  split_ifs with hc
  · -- a cancelled task ends: it was not the one that closes the dialog
    refine ⟨hd.fresh, hd.current, hd.closes.imp_left ?_⟩
    rintro ⟨u, hu, hr, hcan⟩
    have hut : u ≠ t := by
      rintro rfl
      exact absurd (hcan.symm.trans hc) (by simp)
    refine ⟨u, hu, ?_⟩
    show (Function.update s.task t (s.task t).finish u).running = true ∧
      (Function.update s.task t (s.task t).finish u).cancelled = false
    rw [hother hut]
    exact ⟨hr, hcan⟩
  · exact ⟨hd.fresh, hd.current, .inr ⟨backed_concat_searchStart _ _, fun _ =>
      ⟨_, List.mem_append_right _ (List.mem_singleton_self _)⟩⟩⟩

theorem DialogOk_handle {rest : List Message} {dirOk shows : Bool} (hd : s.DialogOk)
    (hq : s.queue = m :: rest) (hs : { s with queue := rest }.handle dirOk shows m = some s') :
    s'.DialogOk := by
  cases m with
  | fileControl h arg1 =>
    have htail := DialogOk_tail hd hq (by simp)
    cases arg1 <;> cases hs <;> split_ifs
    · exact DialogOk_execute htail h _
    · exact htail
    · exact DialogOk_execute htail h _
    · exact htail
  | updateProgress =>
    cases hs
    exact DialogOk_updateProgress hd hq shows
  | searchStart h => exact DialogOk_searchStart hd hq hs
  | changeText h =>
    have htail := DialogOk_tail hd hq (by simp)
    obtain ⟨d, -, rfl⟩ := Option.map_eq_some_iff.1 hs
    exact DialogOk_of_same htail rfl rfl rfl rfl rfl rfl
  | postResult t =>
    cases hs
    exact DialogOk_finish (DialogOk_tail hd hq (by simp)) t

/-- Every action keeps the dialog in order. -/
theorem DialogOk_step {a : CopyAction} (ht : s.Typed) (hd : s.DialogOk)
    (hs : s.step asset a = some s') : s'.DialogOk := by
  cases a with
  | onCreate =>
    cases hs
    refine ⟨fun d hle => hd.fresh d (by simp only at hle; omega), ?_, ?_⟩
    · rintro d ⟨⟩
      exact Nat.lt_succ_self _
    · refine hd.closes.imp_right fun ⟨hb, _⟩ => ⟨hb, ?_⟩
      rintro ⟨d, ⟨⟩, hshown⟩
      exact absurd ((hd.fresh s.attached le_rfl).symm.trans hshown) (by simp)
  | onResume =>
    cases hs
    exact DialogOk_of_same hd rfl rfl rfl rfl rfl rfl
  | onDestroy n =>
    obtain ⟨-, hs⟩ := Option.ite_none_right_eq_some.1 hs
    rw [cancelRunning_none (ht.attached n)] at hs
    cases hs
    exact hd
  | mkdirs =>
    obtain ⟨-, hs⟩ := Option.ite_none_right_eq_some.1 hs
    cases hs
    exact DialogOk_concat hd (by simp) rfl rfl rfl rfl rfl rfl
  | setTouchEvent event =>
    obtain ⟨-, hs⟩ := Option.ite_none_right_eq_some.1 hs
    cases hs
    split_ifs
    · exact DialogOk_concat hd (by simp) rfl rfl rfl rfl rfl rfl
    · exact hd
  | handleMessage dirOk shows =>
    obtain ⟨m, rest, hq, hs⟩ := handleMessage_cases hs
    exact DialogOk_handle hd hq hs
  | startTask =>
    obtain ⟨t, rest, -, -, rfl⟩ := startTask_cases hs
    exact DialogOk_of_same hd rfl rfl rfl rfl rfl rfl
  | background c =>
    rcases background_cases hs with ⟨t, -, rfl⟩ | ⟨t, text, rest, -, rfl⟩ |
      ⟨t, a, rest, -, -, rfl⟩ | ⟨t, a, rest, -, rfl⟩
    · exact DialogOk_concat hd (by simp) rfl rfl rfl rfl rfl rfl
    · exact DialogOk_concat hd (by simp) rfl rfl rfl rfl rfl rfl
    · exact DialogOk_of_same hd rfl rfl rfl rfl rfl rfl
    · exact DialogOk_of_same hd rfl rfl rfl rfl rfl rfl

theorem DialogOk_start (files : Asset → Option (List UInt8)) :
    (CopyState.start files).DialogOk := by
  refine ⟨fun _ _ => rfl, by simp [CopyState.start], .inr ⟨trivial, ?_⟩⟩
  rintro ⟨d, hd, -⟩
  cases hd

theorem reachable_placed {files : Asset → Option (List UInt8)} {as : List CopyAction}
    (h : runCopies asset files as = some s) : s.Typed ∧ s.Placed ∧ s.DialogOk :=
  run_invariant (fun s : CopyState => s.Typed ∧ s.Placed ∧ s.DialogOk)
    ⟨Typed_start files, Placed_start files, DialogOk_start files⟩
    (fun _ _ _ ⟨ht, hp, hd⟩ hs => ⟨Typed_step ht hs, Placed_step ht hp hs, DialogOk_step ht hd hs⟩) h

/-! ### Nothing goes on for ever -/

/-- The action is a step of the looper or the executor. -/
def CopyAction.Internal : CopyAction → Prop
  | .handleMessage _ _ | .startTask | .background _ => True
  | _ => False

/-- How many steps a message can cause. -/
def Message.weight : Message → ℕ
  | .fileControl _ _ => 17
  | .updateProgress => 1
  | .searchStart _ => 2
  | .changeText _ => 1
  | .postResult _ => 3

/-- How many steps a statement can cause. -/
def Statement.weight : Statement → ℕ
  | .setText _ => 2
  | .copy _ => 1
  | .load _ => 1

/-- What is left of the task that runs. -/
def activeRank : Option (ℕ × List Statement) → ℕ
  | none => 0
  | some (_, ops) => 4 + (ops.map Statement.weight).sum

/-- What is left to do. -/
def CopyState.rank (s : CopyState) : ℕ :=
  (s.queue.map Message.weight).sum + 14 * s.serial.length + activeRank s.active

theorem activeRank_doInBackground (t : ℕ) (cmd : Cmd) :
    activeRank (some (t, doInBackground cmd)) < 14 := by
  cases cmd <;> simp [activeRank, doInBackground, Statement.weight]

theorem weights_concat (q : List Message) (m : Message) :
    ((q ++ [m]).map Message.weight).sum = (q.map Message.weight).sum + m.weight := by
  simp

/-- Cancelling leaves no more to do than before. -/
theorem rank_cancelRunning (s : CopyState) (h : Instance) : (s.cancelRunning h).rank ≤ s.rank := by
  rcases cancelRunning_cases s h with heq | ⟨t, -, -, heq⟩
  · rw [heq]
  · rw [heq]
    unfold CopyState.rank
    by_cases ht : t ∈ s.serial
    · have hlen := List.length_erase_of_mem ht
      have hpos := List.length_pos_of_mem ht
      simp only [if_pos ht, weights_concat, Message.weight]
      omega
    · have hlen := List.length_erase_le (a := t) (l := s.serial)
      simp only [if_neg ht]
      omega

theorem rank_execute (s : CopyState) (h : Instance) (cmd : Cmd) :
    (s.execute h cmd).rank = s.rank + 15 := by
  unfold CopyState.rank
  simp only [CopyState.execute, weights_concat, Message.weight, List.length_append,
    List.length_singleton]
  omega

theorem rank_tail {rest : List Message} (hq : s.queue = m :: rest) :
    s.rank = CopyState.rank { s with queue := rest } + m.weight := by
  unfold CopyState.rank
  simp only [hq, List.map_cons, List.sum_cons]
  omega

theorem rank_handle {rest : List Message} {dirOk shows : Bool} (hq : s.queue = m :: rest)
    (hs : { s with queue := rest }.handle dirOk shows m = some s') : s'.rank < s.rank := by
  rw [rank_tail hq]
  cases m with
  | fileControl h arg1 =>
    have hcancel := rank_cancelRunning { s with queue := rest } h
    cases arg1 <;> cases hs <;> split_ifs
    · rw [rank_execute]
      simp only [Message.weight]
      omega
    · simp [Message.weight]
    · rw [rank_execute]
      simp only [Message.weight]
      omega
    · simp [Message.weight]
  | updateProgress =>
    cases hs
    unfold CopyState.updateProgress
    split <;> exact Nat.lt_succ_self _
  | searchStart h =>
    obtain ⟨d, -, hqueue, hnew, hlen, -, -, -, -, -, -, hser, hact, -⟩ := searchStart_cases hs
    have hsum : ((s'.queue.drop rest.length).map Message.weight).sum ≤ 1 := by
      have hdrop : (s'.queue.drop rest.length).length ≤ 1 := by
        rw [List.length_drop]
        simp only at hlen
        omega
      cases hnl : s'.queue.drop rest.length with
      | nil => simp
      | cons x xs =>
        rw [hnl] at hdrop hnew
        cases xs with
        | nil => simp [hnew x (by simp), Message.weight]
        | cons y ys => simp at hdrop
    unfold CopyState.rank
    rw [hqueue, List.map_append, List.sum_append, hser, hact]
    simp only [Message.weight]
    omega
  | changeText h =>
    obtain ⟨d, -, rfl⟩ := Option.map_eq_some_iff.1 hs
    exact Nat.lt_succ_self _
  | postResult t =>
    cases hs
    unfold CopyState.finish
    split_ifs
    · simp [CopyState.rank, Message.weight]
    · simp only [CopyState.rank, CopyState.post, weights_concat, Message.weight]
      omega

theorem rank_internal {a : CopyAction} (ha : a.Internal) (hs : s.step asset a = some s') :
    s'.rank < s.rank := by
  cases a with
  | handleMessage dirOk shows =>
    obtain ⟨m, rest, hq, hs⟩ := handleMessage_cases hs
    exact rank_handle hq hs
  | startTask =>
    obtain ⟨t, rest, hact, hser, rfl⟩ := startTask_cases hs
    have := activeRank_doInBackground t (s.task t).cmd
    unfold CopyState.rank
    simp only [hser, hact, List.length_cons, activeRank] at this ⊢
    omega
  | background c =>
    rcases background_cases hs with ⟨t, hact, rfl⟩ | ⟨t, text, rest, hact, rfl⟩ |
      ⟨t, a, rest, hact, -, rfl⟩ | ⟨t, a, rest, hact, rfl⟩
    · simp only [CopyState.rank, hact, weights_concat, Message.weight, activeRank, List.map_nil,
        List.sum_nil]
      omega
    · simp only [CopyState.rank, hact, weights_concat, Message.weight, activeRank, List.map_cons,
        List.sum_cons, Statement.weight]
      omega
    · simp only [CopyState.rank, hact, activeRank, List.map_cons, List.sum_cons, Statement.weight]
      omega
    · simp only [CopyState.rank, hact, activeRank, List.map_cons, List.sum_cons, Statement.weight]
      omega
  | onCreate => cases ha
  | onResume => cases ha
  | onDestroy n => cases ha
  | mkdirs => cases ha
  | setTouchEvent event => cases ha

/-- Nothing is queued, waits or runs. -/
def CopyState.Drained (s : CopyState) : Prop := s.queue = [] ∧ s.serial = [] ∧ s.active = none

/-- A looper and an executor that cannot go on have nothing to do. -/
theorem drained_of_stuck (hp : s.Placed)
    (hstuck : ∀ a : CopyAction, a.Internal → s.step asset a = none) : s.Drained := by
  have hactive : s.active = none := by
    cases hact : s.active with
    | none => rfl
    | some p =>
      obtain ⟨t, ops⟩ := p
      have hb := hstuck (.background ⟨.throws, .throws, [], .ok⟩) trivial
      simp only [CopyState.step, CopyState.background, hact] at hb
      cases ops with
      | nil => cases hb
      | cons op ops =>
        cases op with
        | setText text => cases hb
        | load a => cases hb
        | copy a => simp [txtFileRw] at hb
  refine ⟨?_, ?_, hactive⟩
  · cases hq : s.queue with
    | nil => rfl
    | cons m rest =>
      obtain ⟨d, hd⟩ := Option.ne_none_iff_exists'.1 (hp.dialog (attached_pos_of_queue hp hq))
      have hh := hstuck (.handleMessage true true) trivial
      simp only [CopyState.step, hq] at hh
      cases m with
      | fileControl h arg1 => cases arg1 <;> cases hh
      | updateProgress => cases hh
      | postResult t => cases hh
      | changeText h => simp [CopyState.handle, CopyState.changeText, hd] at hh
      | searchStart h =>
        cases h <;> simp [CopyState.handle, CopyState.searchStart, CopyState.runOnUiThread,
          CopyState.changeText, CopyState.post, hd] at hh
  · cases hser : s.serial with
    | nil => rfl
    | cons t rest =>
      have hst := hstuck .startTask trivial
      simp [CopyState.step, hactive, hser] at hst

/-- From every reachable state the looper and the executor take boundedly many steps of their own,
and they stop only where nothing is left to do, every task has ended and the dialog is closed. -/
theorem tasks_settle {files : Asset → Option (List UInt8)} {as bs : List CopyAction}
    {t : CopyState} (hs : runCopies asset files as = some s) (hbs : ∀ a ∈ bs, a.Internal)
    (ht : run (CopyState.step asset) s bs = some t) :
    bs.length ≤ s.rank ∧ ((∀ a : CopyAction, a.Internal → t.step asset a = none) →
      t.Drained ∧ (∀ k, k < t.tasks → (t.task k).running = false) ∧
        ∀ d, t.progressDialog = some d → t.showing d = false) := by
  refine ⟨?_, fun hstuck => ?_⟩
  · have := length_add_rank_le CopyState.rank CopyAction.Internal
      (fun _ _ _ ha h => rank_internal ha h) hbs ht
    omega
  · have hrun : runCopies asset files (as ++ bs) = some t := by
      unfold runCopies
      rw [run_append_some hs]
      exact ht
    obtain ⟨-, hp, hd⟩ := reachable_placed hrun
    obtain ⟨hq, hser, hact⟩ := drained_of_stuck hp hstuck
    have hended : ∀ k, k < t.tasks → (t.task k).running = false := by
      intro k hk
      by_contra hr
      rcases hp.found k hk (by simpa using hr) with hf | ⟨ops, hf⟩ | hf
      · rw [hser] at hf; cases hf
      · rw [hact] at hf; cases hf
      · rw [hq] at hf; cases hf
    refine ⟨⟨hq, hser, hact⟩, hended, fun d hdlg => ?_⟩
    by_contra hshown
    rcases hd.closes with ⟨k, hk, hr, -⟩ | ⟨-, ho⟩
    · exact absurd ((hended k hk).symm.trans hr) (by simp)
    · obtain ⟨h, hh⟩ := ho ⟨d, hdlg, by simpa using hshown⟩
      rw [hq] at hh
      cases hh

/-- The task of a touch, from its `execute` to the closing of the dialog. -/
theorem tasks_settle_touch : ∃ s t, runCopies (fun _ => []) (fun _ => none)
    [.onCreate, .onResume, .setTouchEvent 0, .handleMessage true true, .handleMessage true true] =
      some s ∧ s.showing 0 = true ∧
    run (CopyState.step fun _ => []) s [.startTask, .background undisturbed,
      .background undisturbed, .background undisturbed, .handleMessage true true,
      .handleMessage true true, .handleMessage true true, .handleMessage true true] = some t ∧
    t.showing 0 = false ∧
    8 ≤ s.rank ∧ ((∀ a : CopyAction, a.Internal → t.step (fun _ => []) a = none) →
      t.Drained ∧ (∀ k, k < t.tasks → (t.task k).running = false) ∧
        ∀ d, t.progressDialog = some d → t.showing d = false) := by
  obtain ⟨s, hs, h0⟩ := Option.map_eq_some_iff.1 (show (runCopies (fun _ => []) (fun _ => none)
    [.onCreate, .onResume, .setTouchEvent 0, .handleMessage true true,
      .handleMessage true true]).map (fun s => (s.showing 0,
        (run (CopyState.step fun _ => []) s [.startTask, .background undisturbed,
          .background undisturbed, .background undisturbed, .handleMessage true true,
          .handleMessage true true, .handleMessage true true, .handleMessage true true]).map
            fun t => t.showing 0)) = some (true, some false) by decide)
  simp only [Prod.mk.injEq] at h0
  obtain ⟨t, ht, h1⟩ := Option.map_eq_some_iff.1 h0.2
  exact ⟨s, t, hs, h0.1, ht, h1, tasks_settle hs (by simp [CopyAction.Internal]) ht⟩

end Controller
