import Controller.Lib.PartialRun

/-!
# Loading the OpenCV library

`onResume` tries the library inside the package (`StaticHelper`); when that fails it makes an
`AsyncServiceHelper`, which binds to the OpenCV Manager, asks the user to install what is missing and
reports a status to `onManagerConnected` of the app, at once or after a dialog.  Several helpers can
be under way at a time, and all of them share two static flags.

A status other than `SUCCESS` finishes the activity, at once or with the `OK` of a message.  An
activity can be destroyed at any time, and a finished one is not resumed.  With it its dialogs vanish
unanswered, and the system releases its connections; a new activity of the same process makes helpers
of its own.

What the world outside decides comes with the event: whether `bindService` and `startActivity`
succeed, what the engine answers (`none` is a `RemoteException`) and which libraries load.  A service
may die and come back while it is bound.  `unbindService` of a connection that is not bound and a
call of a null engine throw on the main thread, which ends the app: `died`.

The texts of the dialogs are left out.
-/

namespace Controller
namespace OpenCVLoader

open PartialRun

/-- The statuses of `LoaderCallbackInterface`. -/
inductive Status
  | success
  | marketError
  | installCanceled
  | incompatibleManagerVersion
  | initFailed
  deriving DecidableEq, Repr

/-- What a dialog of `onPackageInstall` is about: the OpenCV Manager or the library, to be installed
or already being installed. -/
inductive Query
  | installService
  | waitService
  | installLibrary
  | waitLibrary
  deriving DecidableEq, Repr

/-- The dialogs whose buttons call the engine. -/
def Query.library : Query → Bool
  | .installService | .waitService => false
  | .installLibrary | .waitLibrary => true

/-- The answers of the OpenCV Manager. -/
structure Engine where
  getEngineVersion : Option ℤ
  getLibPathByVersion : Option (Option (List Char))
  getLibraryList : Option (Option (List Char))

/-- `MINIMUM_ENGINE_VERSION`. -/
def minimumEngineVersion : ℤ := 2

/-- An `AsyncServiceHelper`: the activity that is its `mAppContext`, what its `initOpenCV` returned,
its connection as the system sees it, and whether `mEngineService` is set. -/
structure Helper where
  mAppContext : ℕ
  initOpenCV : Bool
  bound : Bool
  connected : Bool
  mEngineService : Bool
  deriving DecidableEq, Repr

/-- The loader: the static flags, the helpers ever made, the open dialogs with their helper, those that
went with their activity, the open messages, the calls of `onManagerConnected` (without a helper for
the package's own library), the libraries that are loaded, and the activities that are finished or
destroyed. -/
structure State where
  mServiceInstallationProgress : Bool
  mLibraryInstallationProgress : Bool
  helpers : List Helper
  dialogs : List (ℕ × Query)
  vanished : List (ℕ × Query)
  messages : List (ℕ × Status)
  reports : List (Option ℕ × Status)
  loaded : List (List Char)
  finished : List ℕ
  destroyed : List ℕ
  died : Bool

/-- What happens to the loader. -/
inductive Event
  | onResume (a : ℕ) (info : Option (Option (List Char))) (load : List Char → Bool)
      (bindService : Bool)
  | onServiceConnected (i : ℕ) (service : Option Engine) (load : List Char → Bool)
  | onServiceDisconnected (i : ℕ)
  | click (i : ℕ) (q : Query) (positive startActivity : Bool) (installVersion : Option Bool)
  | ok (i : ℕ) (status : Status)
  | onDestroy (a : ℕ)

/-! ### Libraries -/

/-- The tokens of a list separated by semicolons, or `library` when there is no list. -/
def libraryNames (library : List Char) : Option (List Char) → List (List Char)
  | some (c :: cs) => ((c :: cs).splitOn ';').filter (· ≠ [])
  | _ => [library]

/-- The loop `result &= loadLibrary(...)`: its result, and what it has loaded. -/
def loadLibraries (load : List Char → Bool) : List (List Char) → Bool × List (List Char)
  | [] => (true, [])
  | name :: rest =>
    let r := loadLibraries load rest
    if load name then (r.1, name :: r.2) else (false, r.2)

/-- The libraries of `initOpenCVLibs` of `AsyncServiceHelper`, by their paths. -/
def absLibraryPaths (path : List Char) (libs : Option (List Char)) : List (List Char) :=
  (libraryNames "libopencv_java4.so".toList libs).map fun name => path ++ '/' :: name

/-- The libraries of `initOpenCVLibs` of `StaticHelper`; the list is empty when `opencv_info` does
not load. -/
def packageLibraries (info : Option (Option (List Char))) : List (List Char) :=
  libraryNames "opencv_java4".toList (info.getD (some []))

namespace State

/-! ### Reports and dialogs -/

/-- A new process. -/
def init : State := ⟨false, false, [], [], [], [], [], [], [], [], false⟩

/-- The helper `i` is of the activity `a`. -/
def belongs (s : State) (a i : ℕ) : Bool := s.helpers[i]?.any (·.mAppContext = a)

/-- `finish` of `BaseLoaderCallback`. -/
def finish (s : State) (i : ℕ) : State :=
  { s with finished := (s.helpers[i]?.map (·.mAppContext)).toList ++ s.finished }

/-- `onManagerConnected` of the callback: `SUCCESS` starts the view, the others close the app. -/
def onManagerConnected (s : State) (i : ℕ) : Status → State
  | .success => s
  | .installCanceled => s.finish i
  | status => { s with messages := s.messages ++ [(i, status)] }

/-- A call of `onManagerConnected`, noted. -/
def report (s : State) (i : ℕ) (status : Status) : State :=
  { s with reports := s.reports ++ [(some i, status)] }.onManagerConnected i status

/-- `onPackageInstall`. -/
def ask (s : State) (i : ℕ) (q : Query) : State := { s with dialogs := s.dialogs ++ [(i, q)] }

/-- The connection of the helper `i` is bound. -/
def bound (s : State) (i : ℕ) : Bool := s.helpers[i]?.any (·.bound)

/-- `unbindService`. -/
def unbindService (s : State) (i : ℕ) : Option State :=
  if s.bound i then
    some { s with
      helpers := s.helpers.modify i fun h => { h with bound := false, connected := false } }
  else none

/-- `unbindService`, then `onManagerConnected`. -/
def conclude (s : State) (i : ℕ) (status : Status) : Option State :=
  (s.unbindService i).map (·.report i status)

/-- `InstallService`. -/
def installService (s : State) (i : ℕ) : State :=
  s.ask i (if s.mServiceInstallationProgress then .waitService else .installService)

/-! ### `ServiceConnection` -/

/-- The body of `onServiceConnected` with an engine. -/
def engineConnected (s : State) (i : ℕ) (engine : Engine) (load : List Char → Bool) :
    Option State :=
  let s := { s with mServiceInstallationProgress := false }
  match engine.getEngineVersion with
  | none => s.conclude i .initFailed
  | some version =>
    if version < minimumEngineVersion then s.conclude i .incompatibleManagerVersion
    else
      match engine.getLibPathByVersion with
      | none => s.conclude i .initFailed
      | some none | some (some []) =>
        some (s.ask i (if s.mLibraryInstallationProgress then .waitLibrary else .installLibrary))
      | some (some (c :: cs)) =>
        let s := { s with mLibraryInstallationProgress := false }
        match engine.getLibraryList with
        | none => s.conclude i .initFailed
        | some libs =>
          let r := loadLibraries load (absLibraryPaths (c :: cs) libs)
          let s := { s with loaded := s.loaded ++ r.2 }
          s.conclude i (if r.1 then .success else .initFailed)

/-- `onServiceConnected`. -/
def onServiceConnected (s : State) (i : ℕ) (service : Option Engine) (load : List Char → Bool) :
    Option State :=
  let s := { s with
    helpers := s.helpers.modify i fun h =>
      { h with connected := true, mEngineService := service.isSome } }
  match service with
  | none => some (s.installService i)
  | some engine => s.engineConnected i engine load

/-- `onServiceDisconnected`. -/
def onServiceDisconnected (s : State) (i : ℕ) : State :=
  { s with
    helpers := s.helpers.modify i fun h => { h with connected := false, mEngineService := false } }

/-! ### The buttons of the dialogs -/

/-- The engine of the helper `i`, asked to install a version, or a null pointer. -/
def installVersion (s : State) (i : ℕ) (answer : Option Bool) : Option (Option Bool) :=
  if s.helpers[i]?.any (·.mEngineService) then some answer else none

/-- `install`, `wait_install` and `cancel` of the four queries. -/
def click (s : State) (i : ℕ) (startActivity : Bool) (answer : Option Bool) :
    Query → Bool → Option State
  | .installService, true =>
    if startActivity then some { s with mServiceInstallationProgress := true }
    else some (s.report i .marketError)
  | .installService, false => some (s.report i .installCanceled)
  | .waitService, true => some s
  | .waitService, false =>
    some ({ s with mServiceInstallationProgress := false }.report i .installCanceled)
  | .installLibrary, true =>
    (s.installVersion i answer).bind fun
      | none => s.conclude i .initFailed
      | some true => { s with mLibraryInstallationProgress := true }.unbindService i
      | some false => s.conclude i .marketError
  | .installLibrary, false => s.conclude i .installCanceled
  | .waitLibrary, true =>
    (s.installVersion i answer).bind fun
      | none => s.conclude i .initFailed
      | some true => s.unbindService i
      | some false => (s.report i .marketError).unbindService i
  | .waitLibrary, false =>
    { s with mLibraryInstallationProgress := false }.conclude i .installCanceled

/-! ### The activity -/

/-- `initAsync`. -/
def initAsync (s : State) (a : ℕ) (bindService : Bool) : State :=
  let t := { s with helpers := s.helpers ++ [⟨a, bindService, bindService, false, false⟩] }
  if bindService then t else t.installService s.helpers.length

/-- `onResume`, once the permissions are there: `initDebug`, else `initAsync`. -/
def onResume (s : State) (a : ℕ) (info : Option (Option (List Char))) (load : List Char → Bool)
    (bindService : Bool) : State :=
  let r := loadLibraries load (packageLibraries info)
  let s := { s with loaded := s.loaded ++ r.2 }
  if r.1 then { s with reports := s.reports ++ [(none, .success)] } else s.initAsync a bindService

/-- `onDestroy`, with what the system does to the windows and connections of the activity. -/
def onDestroy (s : State) (a : ℕ) : State :=
  { s with
    helpers := s.helpers.map fun h =>
      if h.mAppContext = a then { h with bound := false, connected := false } else h
    dialogs := s.dialogs.filter fun d => !s.belongs a d.1
    vanished := s.vanished ++ s.dialogs.filter fun d => s.belongs a d.1
    messages := s.messages.filter fun m => !s.belongs a m.1
    destroyed := a :: s.destroyed }

/-- A callback that may throw. -/
def orDie (s : State) (r : Option State) : State := r.getD { s with died := true }

/-- The state after one event (`none` when it cannot happen). -/
def step (s : State) (e : Event) : Option State :=
  if s.died then none
  else
    match e with
    | .onResume a info load bindService =>
      if a ∉ s.finished ∧ a ∉ s.destroyed then some (s.onResume a info load bindService) else none
    | .onServiceConnected i service load =>
      if s.helpers[i]?.any fun h => h.bound && !h.connected then
        some (s.orDie (s.onServiceConnected i service load))
      else none
    | .onServiceDisconnected i =>
      if s.helpers[i]?.any fun h => h.bound && h.connected then some (s.onServiceDisconnected i)
      else none
    | .click i q positive startActivity answer =>
      if (i, q) ∈ s.dialogs then
        some (s.orDie
          ({ s with dialogs := s.dialogs.erase (i, q) }.click i startActivity answer q positive))
      else none
    | .ok i status =>
      if (i, status) ∈ s.messages then
        some ({ s with messages := s.messages.erase (i, status) }.finish i)
      else none
    | .onDestroy a => if a ∉ s.destroyed then some (s.onDestroy a) else none

end State

/-- The loader after some events, in a new process. -/
def runLoader (es : List Event) : Option State := run State.step State.init es

/-! ### What a callback does -/

/-- The callback of the helper `i` shows a dialog or not, reports or not, and releases its connection
or not; the flags and messages are left open, the activity may be finished, and more libraries may be
loaded. -/
structure Effect (s s' : State) (i : ℕ) (q : Option Query) (status : Option Status)
    (released : Bool) : Prop where
  dialogs : s'.dialogs = s.dialogs ++ (q.map fun q => (i, q)).toList
  reports : s'.reports = s.reports ++ (status.map fun status => (some i, status)).toList
  helpers : s'.helpers =
    if released then s.helpers.modify i fun h => { h with bound := false, connected := false }
    else s.helpers
  bound : released = true → s.bound i = true
  vanished : s'.vanished = s.vanished
  loaded : s.loaded ⊆ s'.loaded
  destroyed : s'.destroyed = s.destroyed
  died : s'.died = s.died

/-- The libraries that a manager of a sufficient version has named are loaded. -/
def Engine.Loaded (engine : Engine) (loaded : List (List Char)) : Prop :=
  ∃ version path libs, engine.getEngineVersion = some version ∧ minimumEngineVersion ≤ version ∧
    engine.getLibPathByVersion = some (some path) ∧ path ≠ [] ∧
    engine.getLibraryList = some libs ∧ ∀ name ∈ absLibraryPaths path libs, name ∈ loaded

theorem loadLibraries_all {load : List Char → Bool} {names : List (List Char)}
    (h : (loadLibraries load names).1 = true) : (loadLibraries load names).2 = names := by
  induction names with
  | nil => rfl
  | cons name rest ih =>
    simp only [loadLibraries] at h ⊢
    split_ifs at h ⊢
    rw [ih h]

section Effects

variable {s s' t : State} {i : ℕ}

/-- The flags do not matter, and libraries may have been loaded before. -/
theorem Effect.of_same {q : Option Query} {status : Option Status} {released : Bool}
    (h : Effect t s' i q status released) (hd : t.dialogs = s.dialogs) (hr : t.reports = s.reports)
    (hh : t.helpers = s.helpers) (hv : t.vanished = s.vanished) (hl : s.loaded ⊆ t.loaded)
    (hdes : t.destroyed = s.destroyed) (hdied : t.died = s.died) :
    Effect s s' i q status released := by
  refine ⟨hd ▸ h.dialogs, hr ▸ h.reports, hh ▸ h.helpers, fun hb => ?_, hv ▸ h.vanished,
    fun _ hn => h.loaded (hl hn), hdes ▸ h.destroyed, hdied ▸ h.died⟩
  have := h.bound hb
  unfold State.bound at this ⊢
  rwa [hh] at this

theorem Effect.of_flags {q : Option Query} {status : Option Status} {released service library : Bool}
    (h : Effect { s with
      mServiceInstallationProgress := service
      mLibraryInstallationProgress := library } s' i q status released) :
    Effect s s' i q status released :=
  h.of_same rfl rfl rfl rfl (fun _ hn => hn) rfl rfl

theorem effect_unbindService (h : s.unbindService i = some s') :
    Effect s s' i none none true := by
  unfold State.unbindService at h
  split_ifs at h with hb
  cases h
  exact ⟨by simp, by simp, rfl, fun _ => hb, rfl, fun _ hn => hn, rfl, rfl⟩

theorem effect_none (s : State) (i : ℕ) : Effect s s i none none false :=
  ⟨by simp, by simp, rfl, by simp, rfl, fun _ hn => hn, rfl, rfl⟩

theorem effect_onManagerConnected (s : State) (i : ℕ) (status : Status) :
    Effect s (s.onManagerConnected i status) i none none false := by
  have h := effect_none s i
  cases status <;>
    exact ⟨h.dialogs, h.reports, h.helpers, h.bound, h.vanished, h.loaded, h.destroyed, h.died⟩

/-- A report does nothing else that counts, whatever came before it. -/
theorem Effect.report {released : Bool} (h : Effect s t i none none released) (status : Status) :
    Effect s (t.report i status) i none (some status) released := by
  have he := effect_onManagerConnected { t with reports := t.reports ++ [(some i, status)] } i status
  exact ⟨he.dialogs.trans (by simpa using h.dialogs), he.reports.trans (by simp [h.reports]),
    he.helpers.trans h.helpers, h.bound, he.vanished.trans h.vanished,
    fun _ hn => he.loaded (h.loaded hn), he.destroyed.trans h.destroyed, he.died.trans h.died⟩

theorem effect_conclude {status : Status} (h : s.conclude i status = some s') :
    Effect s s' i none (some status) true := by
  obtain ⟨t, ht, rfl⟩ := Option.map_eq_some_iff.1 h
  exact (effect_unbindService ht).report status

theorem effect_report (status : Status) : Effect s (s.report i status) i none (some status) false :=
  (effect_none s i).report status

theorem effect_ask (q : Query) : Effect s (s.ask i q) i (some q) none false :=
  ⟨rfl, by simp [State.ask], rfl, by simp, rfl, fun _ hn => hn, rfl, rfl⟩

/-- The one place that reports before it unbinds. -/
theorem effect_report_unbindService {status : Status}
    (h : (s.report i status).unbindService i = some s') : Effect s s' i none (some status) true := by
  have hr : Effect s (s.report i status) i none (some status) false := effect_report status
  have he := effect_unbindService h
  refine ⟨he.dialogs.trans (by simp [hr.dialogs]), he.reports.trans (by simp [hr.reports]),
    he.helpers.trans (by rw [hr.helpers]; rfl), fun _ => ?_, he.vanished.trans hr.vanished,
    fun _ hn => he.loaded (hr.loaded hn), he.destroyed.trans hr.destroyed, he.died.trans hr.died⟩
  have hb := he.bound rfl
  unfold State.bound at hb ⊢
  rwa [hr.helpers] at hb

/-- With an engine there is a dialog about the library, or a report and an end of the binding; a
success is reported when all libraries are loaded. -/
theorem effect_engineConnected {engine : Engine} {load : List Char → Bool}
    (h : s.engineConnected i engine load = some s') :
    (∃ q, q.library = true ∧ Effect s s' i (some q) none false) ∨
      ∃ status, Effect s s' i none (some status) true ∧
        (status = .success → engine.Loaded s'.loaded) := by
  unfold State.engineConnected at h
  dsimp only at h
  split at h
  · exact .inr ⟨_, (effect_conclude h).of_flags, by simp⟩
  · rename_i version hv
    split at h
    · exact .inr ⟨_, (effect_conclude h).of_flags, by simp⟩
    · rename_i hmin
      have hasked : ∀ t, some (({ s with mServiceInstallationProgress := false } : State).ask i
          (if s.mLibraryInstallationProgress then .waitLibrary else .installLibrary)) = some t →
          ∃ q, q.library = true ∧ Effect s t i (some q) none false := by
        rintro t ⟨⟩
        refine ⟨_, ?_, (effect_ask _).of_flags⟩
        split_ifs <;> rfl
      split at h
      · exact .inr ⟨_, (effect_conclude h).of_flags, by simp⟩
      · exact .inl (hasked _ h)
      · exact .inl (hasked _ h)
      · rename_i c cs hpath
        split at h
        · exact .inr ⟨_, (effect_conclude h).of_flags, by simp⟩
        · rename_i libs hlibs
          refine .inr ⟨_, (effect_conclude h).of_same rfl rfl rfl rfl (by simp) rfl rfl, fun hs => ?_⟩
          have hok : (loadLibraries load (absLibraryPaths (c :: cs) libs)).1 = true := by
            by_contra hne
            simp [hne] at hs
          refine ⟨version, c :: cs, libs, hv, not_lt.1 hmin, hpath, by simp, hlibs,
            fun name hn => (effect_conclude h).loaded ?_⟩
          simp [loadLibraries_all hok, hn]

/-- The state of `onServiceConnected` once the connection is noted. -/
def State.noteConnection (s : State) (i : ℕ) (engine : Bool) : State :=
  { s with
    helpers := s.helpers.modify i fun h => { h with connected := true, mEngineService := engine } }

theorem effect_onServiceConnected {service : Option Engine} {load : List Char → Bool}
    (h : s.onServiceConnected i service load = some s') :
    (service = none ∧ ∃ q, q.library = false ∧
        Effect (s.noteConnection i false) s' i (some q) none false) ∨
      (service ≠ none ∧ ∃ q, q.library = true ∧
        Effect (s.noteConnection i true) s' i (some q) none false) ∨
      ∃ engine status, service = some engine ∧
        Effect (s.noteConnection i true) s' i none (some status) true ∧
        (status = .success → engine.Loaded s'.loaded) := by
  cases service with
  | none =>
    cases h
    refine .inl ⟨rfl, _, ?_, effect_ask _⟩
    split_ifs <;> rfl
  | some engine =>
    rcases effect_engineConnected h with ⟨q, hq, he⟩ | ⟨status, he, hloaded⟩
    · exact .inr (.inl ⟨by simp, q, hq, he⟩)
    · exact .inr (.inr ⟨engine, status, rfl, he, hloaded⟩)

/-- The loader with one more helper. -/
def State.newHelper (s : State) (a : ℕ) (bindService : Bool) : State :=
  { s with helpers := s.helpers ++ [⟨a, bindService, bindService, false, false⟩] }

/-- A helper that could not be bound asks about the OpenCV Manager. -/
theorem effect_initAsync (s : State) (a : ℕ) : ∃ q, q.library = false ∧
    Effect (s.newHelper a false) (s.initAsync a false) s.helpers.length (some q) none false := by
  refine ⟨_, ?_, effect_ask _⟩
  split_ifs <;> rfl

/-- The button of a dialog starts an installation without a report. -/
def silent (startActivity : Bool) (answer : Option Bool) : Query → Bool → Bool
  | .installService, true => startActivity
  | .waitService, true => true
  | .installLibrary, true | .waitLibrary, true => answer = some true
  | _, false => false

/-- A button reports something other than a success, or starts an installation; the library's
buttons also end the binding. -/
theorem effect_click {startActivity : Bool} {answer : Option Bool} {q : Query} {positive : Bool}
    (h : s.click i startActivity answer q positive = some s') :
    ∃ status, Effect s s' i none status q.library ∧ status ≠ some .success ∧
      (status = none ↔ silent startActivity answer q positive = true) := by
  have hengine : ∀ {f : Option Bool → Option State},
      (s.installVersion i answer).bind f = some s' → f answer = some s' := by
    intro f hf
    unfold State.installVersion at hf
    split_ifs at hf
    · exact hf
    · cases hf
  cases q with
  | installService =>
    cases positive with
    | true =>
      simp only [State.click] at h
      split_ifs at h with hs
      · cases h
        exact ⟨none, (effect_none _ _).of_flags, by simp, by simp [silent, hs]⟩
      · cases h
        exact ⟨some _, effect_report _, by simp, by simp [silent, hs]⟩
    | false =>
      cases h
      exact ⟨some _, effect_report _, by simp, by simp [silent]⟩
  | waitService =>
    cases positive with
    | true =>
      cases h
      exact ⟨none, effect_none _ _, by simp, by simp [silent]⟩
    | false =>
      cases h
      exact ⟨some _, (effect_report _).of_flags, by simp, by simp [silent]⟩
  | installLibrary =>
    cases positive with
    | true =>
      have h := hengine h
      match answer with
      | none => exact ⟨some _, effect_conclude h, by simp, by simp [silent]⟩
      | some true =>
        exact ⟨none, (effect_unbindService h).of_flags, by simp, by simp [silent]⟩
      | some false => exact ⟨some _, effect_conclude h, by simp, by simp [silent]⟩
    | false => exact ⟨some _, effect_conclude h, by simp, by simp [silent]⟩
  | waitLibrary =>
    cases positive with
    | true =>
      have h := hengine h
      match answer with
      | none => exact ⟨some _, effect_conclude h, by simp, by simp [silent]⟩
      | some true => exact ⟨none, effect_unbindService h, by simp, by simp [silent]⟩
      | some false => exact ⟨some _, effect_report_unbindService h, by simp, by simp [silent]⟩
    | false =>
      exact ⟨some _, (effect_conclude h).of_flags, by simp, by simp [silent]⟩

theorem orDie_alive {r : Option State} (h : s.orDie r = s') (hs' : s'.died = false) :
    r = some s' := by
  cases r with
  | none =>
    subst h
    exact absurd hs' (by simp [State.orDie])
  | some t => exact congrArg some h

/-- What one event does, also when the callback throws. -/
theorem step_inv {e : Event} (h : s.step e = some s') : s.died = false ∧
    ((∃ a info load bindService, e = .onResume a info load bindService ∧
        s' = s.onResume a info load bindService) ∨
      (∃ i service load, e = .onServiceConnected i service load ∧
        s.helpers[i]?.any (fun h => h.bound && !h.connected) = true ∧
        s' = s.orDie (s.onServiceConnected i service load)) ∨
      (∃ i, e = .onServiceDisconnected i ∧ s' = s.onServiceDisconnected i) ∨
      (∃ i q positive startActivity answer, e = .click i q positive startActivity answer ∧
        (i, q) ∈ s.dialogs ∧ s' = s.orDie ({ s with dialogs := s.dialogs.erase (i, q) }.click i
          startActivity answer q positive)) ∨
      (∃ i status, e = .ok i status ∧
        s' = { s with messages := s.messages.erase (i, status) }.finish i) ∨
      ∃ a, e = .onDestroy a ∧ s' = s.onDestroy a) := by
  unfold State.step at h
  split_ifs at h with hd
  refine ⟨by simpa using hd, ?_⟩
  cases e with
  | onResume a info load bindService =>
    simp only at h
    split_ifs at h
    cases h
    exact .inl ⟨_, _, _, _, rfl, rfl⟩
  | onServiceConnected i service load =>
    simp only at h
    split_ifs at h with hb
    cases h
    exact .inr (.inl ⟨_, _, _, rfl, hb, rfl⟩)
  | onServiceDisconnected i =>
    simp only at h
    split_ifs at h
    cases h
    exact .inr (.inr (.inl ⟨_, rfl, rfl⟩))
  | click i q positive startActivity answer =>
    simp only at h
    split_ifs at h with hq
    cases h
    exact .inr (.inr (.inr (.inl ⟨_, _, _, _, _, rfl, hq, rfl⟩)))
  | ok i status =>
    simp only at h
    split_ifs at h
    cases h
    exact .inr (.inr (.inr (.inr (.inl ⟨_, _, rfl, rfl⟩))))
  | onDestroy a =>
    simp only at h
    split_ifs at h
    cases h
    exact .inr (.inr (.inr (.inr (.inr ⟨_, rfl, rfl⟩))))

/-- The events that do not end the app. -/
theorem step_cases {e : Event} (h : s.step e = some s') (hs' : s'.died = false) :
    s.died = false ∧
    ((∃ a info load bindService, e = .onResume a info load bindService ∧
        s' = s.onResume a info load bindService) ∨
      (∃ i service load, e = .onServiceConnected i service load ∧
        s.helpers[i]?.any (fun h => h.bound && !h.connected) = true ∧
        s.onServiceConnected i service load = some s') ∨
      (∃ i, e = .onServiceDisconnected i ∧ s' = s.onServiceDisconnected i) ∨
      (∃ i q positive startActivity answer, e = .click i q positive startActivity answer ∧
        (i, q) ∈ s.dialogs ∧ { s with dialogs := s.dialogs.erase (i, q) }.click i startActivity answer
          q positive = some s') ∨
      (∃ i status, e = .ok i status ∧
        s' = { s with messages := s.messages.erase (i, status) }.finish i) ∨
      ∃ a, e = .onDestroy a ∧ s' = s.onDestroy a) := by
  obtain ⟨hd, hcases⟩ := step_inv h
  refine ⟨hd, ?_⟩
  rcases hcases with h | ⟨i, service, load, he, hb, hi⟩ | h |
    ⟨i, q, positive, startActivity, answer, he, hq, hi⟩ | h | h
  · exact .inl h
  · exact .inr (.inl ⟨i, service, load, he, hb, orDie_alive hi.symm hs'⟩)
  · exact .inr (.inr (.inl h))
  · exact .inr (.inr (.inr (.inl ⟨i, q, positive, startActivity, answer, he, hq,
      orDie_alive hi.symm hs'⟩)))
  · exact .inr (.inr (.inr (.inr (.inl h))))
  · exact .inr (.inr (.inr (.inr (.inr h))))

end Effects

/-! ### Counting reports and dialogs -/

/-- The reports of the helper `i`. -/
def reported (s : State) (i : ℕ) : ℕ := s.reports.countP fun r => r.1 = some i

/-- Its open dialogs about queries of one kind. -/
def asked (p : Query → Bool) (s : State) (i : ℕ) : ℕ := s.dialogs.countP fun d => d.1 = i && p d.2

section Counting

variable {s s' : State} {i : ℕ}

theorem any_modify {l : List Helper} {f : Helper → Helper} {p : Helper → Bool}
    (h : ∀ x, p (f x) = p x) (i j : ℕ) : (l.modify i f)[j]?.any p = l[j]?.any p := by
  rw [List.getElem?_modify]
  split_ifs
  · cases l[j]? with
    | none => rfl
    | some x => exact h x
  · simp

theorem any_concat (l : List Helper) (x : Helper) (p : Helper → Bool) (j : ℕ) :
    (l ++ [x])[j]?.any p = (l[j]?.any p || (decide (j = l.length) && p x)) := by
  rcases Nat.lt_trichotomy j l.length with h | rfl | h
  · rw [List.getElem?_append_left h]
    simp [h.ne]
  · simp
  · rw [List.getElem?_eq_none (by simp; omega), List.getElem?_eq_none h.le]
    simp [h.ne']

theorem onDestroy_helper (s : State) (a j : ℕ) : (s.onDestroy a).helpers[j]? =
    (s.helpers[j]?).map fun h =>
      if h.mAppContext = a then { h with bound := false, connected := false } else h :=
  List.getElem?_map

theorem Effect.reported {q : Option Query} {status : Option Status} {released : Bool}
    (h : Effect s s' i q status released) (j : ℕ) :
    reported s' j = reported s j + if i = j then status.isSome.toNat else 0 := by
  unfold OpenCVLoader.reported
  rw [h.reports, List.countP_append]
  cases status <;> by_cases hij : i = j <;> simp [hij]

theorem Effect.asked {q : Option Query} {status : Option Status} {released : Bool}
    (h : Effect s s' i q status released) (p : Query → Bool) (j : ℕ) :
    asked p s' j = asked p s j + if i = j then (q.any p).toNat else 0 := by
  unfold OpenCVLoader.asked
  rw [h.dialogs, List.countP_append]
  cases q with
  | none => simp
  | some q => cases hp : p q <;> by_cases hij : i = j <;> simp [hij, hp]

theorem asked_erase {q : Query} (h : (i, q) ∈ s.dialogs) (p : Query → Bool) (j : ℕ) :
    asked p { s with dialogs := s.dialogs.erase (i, q) } j + (if i = j ∧ p q then 1 else 0) =
      asked p s j := by
  have hp := (List.perm_cons_erase h).countP_eq fun d : ℕ × Query => decide (d.1 = j) && p d.2
  unfold asked
  rw [hp, List.countP_cons]
  by_cases hij : i = j <;> simp [hij]

end Counting

end OpenCVLoader
end Controller
