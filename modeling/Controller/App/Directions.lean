import Controller.App.ControllerRvec
import Controller.App.SensorSums
import Controller.Lib.PartialRun
import Mathlib.Analysis.SpecialFunctions.Trigonometric.Arctan

/-!
# The two view directions

`onSensorChanged` turns the readings of the own gyroscope into `mDirection`, and
`fromControllerRvec` turns the readings in the messages of a controller into `mGyroDir`.  Both add
tenths of the readings up, without their times, and take the direction of the two sums.

`directions_agree`: the two are one function of the readings.  After any stream of sensor events and
any run of messages that carry the same readings, in whatever order and with whatever acceleration
events and rejected messages in between, both directions are the same, and once there is a reading it
has length one.

The arithmetic is exact: the readings are finite and the sums are those of a field, where the two
methods add floats, so that a float result also depends on the order.
-/

namespace Controller

open Abort PartialRun

variable {K : Type} [Field K]

/-- A message, and the fields of the activity that other threads set, as it finds them. -/
structure Delivery where
  bDetectObj : ℤ
  gLView : Bool
  strYes : List Char

/-- `fromControllerRvec` returns. -/
def deliver (java : Java K) (g : GyroFields K) (d : Delivery) : Option (GyroFields K) :=
  match fromControllerRvec java d.bDetectObj d.gLView d.strYes g with
  | .ok g' => some g'
  | .error _ => none

/-- The fields after some messages that all return. -/
def receive (java : Java K) (ds : List Delivery) : Option (GyroFields K) :=
  run (deliver java) (.initial K) ds

/-- The readings around the first two axes that a stream of events brings. -/
def readings (es : List (SensorEvent K)) : List (K × K) :=
  es.filterMap fun e =>
    match e.type with
    | .gyroscope => some (e.values 0, e.values 1)
    | .linearAcceleration => none

/-- Those that some messages bring. -/
def heard (java : Java K) (ds : List Delivery) : List (K × K) :=
  ds.filterMap fun d =>
    if Accepted d.strYes then (java.rvec d.strYes).map fun rvec => (rvec 0, rvec 1) else none

/-- The direction for a horizontal and a vertical angle. -/
def direction (cos sin : K → K) (horizontal vertical : K) : Fin 3 → K :=
  ![cos vertical * sin horizontal, sin vertical, cos vertical * cos horizontal]

/-- The horizontal angle of some readings. -/
def horizontal (rs : List (K × K)) : K :=
  (rs.map fun r => r.2 * sensorResolutionRadianPerDegree K).sum

/-- The vertical angle of some readings. -/
def vertical (rs : List (K × K)) : K :=
  (rs.map fun r => r.1 * sensorResolutionRadianPerDegree K).sum

/-- The direction of some readings, at first the zero vector. -/
def directionOf (cos sin : K → K) (rs : List (K × K)) : Fin 3 → K :=
  if rs = [] then 0 else direction cos sin (horizontal rs) (vertical rs)

section Sums

theorem horizontal_concat (rs : List (K × K)) (r : K × K) :
    horizontal (rs ++ [r]) = horizontal rs + r.2 * sensorResolutionRadianPerDegree K := by
  simp [horizontal]

theorem vertical_concat (rs : List (K × K)) (r : K × K) :
    vertical (rs ++ [r]) = vertical rs + r.1 * sensorResolutionRadianPerDegree K := by
  simp [vertical]

theorem directionOf_concat (cos sin : K → K) (rs : List (K × K)) (r : K × K) :
    directionOf cos sin (rs ++ [r]) =
      direction cos sin (horizontal (rs ++ [r])) (vertical (rs ++ [r])) :=
  if_neg (by simp)

/-- The order of the readings does not matter. -/
theorem directionOf_perm (cos sin : K → K) {rs rs' : List (K × K)} (h : rs.Perm rs') :
    directionOf cos sin rs = directionOf cos sin rs' := by
  have hnil : rs = [] ↔ rs' = [] := by
    rw [← List.length_eq_zero_iff, h.length_eq, List.length_eq_zero_iff]
  have hh : horizontal rs = horizontal rs' := (h.map _).sum_eq
  have hv : vertical rs = vertical rs' := (h.map _).sum_eq
  simp only [directionOf, hnil, hh, hv]

/-- A direction has length one. -/
theorem directionOf_unit {cos sin : K → K} (hunit : ∀ x, cos x ^ 2 + sin x ^ 2 = 1)
    {rs : List (K × K)} (h : rs ≠ []) :
    directionOf cos sin rs 0 ^ 2 + directionOf cos sin rs 1 ^ 2 + directionOf cos sin rs 2 ^ 2 = 1 := by
  rw [directionOf, if_neg h]
  show (cos _ * sin _) ^ 2 + sin _ ^ 2 + (cos _ * cos _) ^ 2 = 1
  linear_combination cos (vertical rs) ^ 2 * hunit (horizontal rs) + hunit (vertical rs)

end Sums

/-- The fields of the receiver that belong to some readings. -/
structure GyroFields.Points (java : Java K) (rs : List (K × K)) (g : GyroFields K) : Prop where
  horizontal : g.mGARORadian = horizontal rs
  vertical : g.mSERORadian = vertical rs
  direction : g.mGyroDir = directionOf java.cos java.sin rs

/-- One accepted message brings one reading. -/
theorem deliver_points {java : Java K} {rs : List (K × K)} {g g' : GyroFields K} {d : Delivery}
    (h : g.Points java rs) (hg' : deliver java g d = some g') :
    g'.Points java (rs ++ heard java [d]) := by
  unfold deliver fromControllerRvec at hg'
  by_cases hacc : Accepted d.strYes
  · rw [if_pos hacc] at hg'
    cases hr : java.rvec d.strYes with
    | none => simp [hr] at hg'
    | some rvec =>
      have hheard : heard java [d] = [(rvec 0, rvec 1)] := by simp [heard, hacc, hr]
      have hturn : g' = g.turn java rvec := by
        simp only [hr] at hg'
        split_ifs at hg'
        exact (Option.some.inj hg').symm
      have hh : (g.turn java rvec).mGARORadian = horizontal (rs ++ [(rvec 0, rvec 1)]) := by
        rw [horizontal_concat, ← h.horizontal]
        rfl
      have hv : (g.turn java rvec).mSERORadian = vertical (rs ++ [(rvec 0, rvec 1)]) := by
        rw [vertical_concat, ← h.vertical]
        rfl
      rw [hturn, hheard]
      refine ⟨hh, hv, ?_⟩
      rw [directionOf_concat, ← hh, ← hv]
      rfl
  · rw [if_neg hacc] at hg'
    have hheard : heard java [d] = [] := by simp [heard, hacc]
    cases hg'
    rw [hheard, List.append_nil]
    exact h

/-- The received direction is that of the readings in the messages. -/
theorem receive_points {java : Java K} {ds : List Delivery} {g : GyroFields K}
    (hg : receive java ds = some g) : g.Points java (heard java ds) := by
  have h0 : (GyroFields.initial K).Points java (heard java []) := by
    refine ⟨rfl, rfl, ?_⟩
    funext i
    fin_cases i <;> rfl
  refine run_induction (C := fun _ _ => True) (fun ds g => g.Points java (heard java ds)) h0
    (fun ds g d g' _ ih _ hstep => ?_) (along_of_forall fun _ _ _ => trivial) hg
  rw [heard, List.filterMap_append]
  exact deliver_points ih hstep

/-- The state of the activity that belongs to some readings. -/
structure SensorState.Points (math : JavaMath K) (rs : List (K × K)) (s : SensorState K) : Prop where
  horizontal : s.mHorizontalRadian = horizontal rs
  vertical : s.mVerticalRadian = vertical rs
  direction : s.mDirection = directionOf math.cos math.sin rs

theorem direct_points {math : JavaMath K} {rs : List (K × K)} {s : SensorState K}
    (h : s.Points math rs) (e : SensorEvent K) :
    (s.direct math e).Points math (rs ++ [(e.values 0, e.values 1)]) := by
  have hh : (s.direct math e).mHorizontalRadian = horizontal (rs ++ [(e.values 0, e.values 1)]) := by
    rw [horizontal_concat, ← h.horizontal]
    rfl
  have hv : (s.direct math e).mVerticalRadian = vertical (rs ++ [(e.values 0, e.values 1)]) := by
    rw [vertical_concat, ← h.vertical]
    rfl
  refine ⟨hh, hv, ?_⟩
  rw [directionOf_concat, ← hh, ← hv]
  rfl

variable [LinearOrder K]

theorem turn_points {math : JavaMath K} {rs : List (K × K)} {s : SensorState K}
    (h : s.Points math rs) (e : SensorEvent K) : (s.turn e).Points math rs := by
  unfold SensorState.turn
  split_ifs
  · exact h
  · exact ⟨h.horizontal, h.vertical, h.direction⟩

/-- One event of the gyroscope brings one reading. -/
theorem onSensorChanged_points {math : JavaMath K} {rs : List (K × K)} {s : SensorState K}
    (h : s.Points math rs) (e : SensorEvent K) :
    (s.onSensorChanged math e).Points math (rs ++ readings [e]) := by
  -- the fields the direction does not depend on
  have hset : ∀ (m : MySensor K) (t d : K),
      ({ s with mMySensor := m, timestamp := t, dt := d } : SensorState K).Points math rs :=
    fun _ _ _ => ⟨h.horizontal, h.vertical, h.direction⟩
  unfold SensorState.onSensorChanged
  cases htype : e.type with
  | gyroscope =>
    have hd := direct_points (turn_points (hset
      (MySensor.setGyro (s.mMySensor.setDt ((e.timestamp - s.timestamp) * ns2s K)) e) e.timestamp
      ((e.timestamp - s.timestamp) * ns2s K)) e) e
    have hr : readings [e] = [(e.values 0, e.values 1)] := by simp [readings, htype]
    rw [hr]
    exact ⟨hd.horizontal, hd.vertical, hd.direction⟩
  | linearAcceleration =>
    have hr : readings [e] = [] := by simp [readings, htype]
    rw [hr, List.append_nil]
    exact ⟨h.horizontal, h.vertical, h.direction⟩

/-- The own direction is that of the readings so far. -/
theorem after_points (math : JavaMath K) (es : List (SensorEvent K)) :
    (SensorState.after math es).Points math (readings es) := by
  induction es using List.reverseRecOn with
  | nil => exact ⟨rfl, rfl, (if_pos rfl).symm⟩
  | append_singleton es e ih =>
    rw [SensorState.after_concat, readings, List.filterMap_append]
    exact onSensorChanged_points ih e

/-- **The two directions agree.**  In exact arithmetic: when a stream of sensor events and a run of
messages that all return bring the same readings, in any order, `mGyroDir` and `mDirection` are the
same vector, and its length is one as soon as there is a reading. -/
theorem directions_agree (math : JavaMath K) (java : Java K) (hcos : java.cos = math.cos)
    (hsin : java.sin = math.sin) (hunit : ∀ x, math.cos x ^ 2 + math.sin x ^ 2 = 1)
    (es : List (SensorEvent K)) (ds : List Delivery) (g : GyroFields K)
    (hg : receive java ds = some g) (hsame : (heard java ds).Perm (readings es)) :
    g.mGyroDir = (SensorState.after math es).mDirection ∧
      (readings es ≠ [] → g.mGyroDir 0 ^ 2 + g.mGyroDir 1 ^ 2 + g.mGyroDir 2 ^ 2 = 1) := by
  have hown := (after_points math es).direction
  have hgyro : g.mGyroDir = directionOf math.cos math.sin (readings es) := by
    rw [(receive_points hg).direction, hcos, hsin, directionOf_perm _ _ hsame]
  refine ⟨hgyro.trans hown.symm, fun hne => ?_⟩
  rw [hgyro]
  exact directionOf_unit hunit hne

/-- `Float.parseFloat` on a single digit. -/
def digit : List Char → Option ℝ
  | [c] => if c.isDigit then some ((c.toNat : ℝ) - 48) else none
  | _ => none

/-- A message of the controller with the reading `1`, `2`, `3`. -/
def digitMessage : List Char :=
  "xyz, 1, 2, 3, r/p/y, 0, 0, 0, dt, 0, q_w/x/y/z, 1, 0, 0, 0".toList

/-- A reading of the own gyroscope after an acceleration, and the same reading in a message after one
that is rejected. -/
theorem directions_agree_digits :
    let math : JavaMath ℝ := ⟨Real.sqrt, Real.arctan, Real.pi / 2, Real.cos, Real.sin⟩
    let java : Java ℝ := ⟨digit, Real.cos, Real.sin⟩
    let es : List (SensorEvent ℝ) :=
      [⟨.linearAcceleration, 1, ![0, 0, 0]⟩, ⟨.gyroscope, 2, ![1, 2, 3]⟩]
    ∃ g, receive java [⟨0, false, []⟩, ⟨0, true, digitMessage⟩] = some g ∧
      g.mGyroDir = (SensorState.after math es).mDirection ∧
      g.mGyroDir 0 ^ 2 + g.mGyroDir 1 ^ 2 + g.mGyroDir 2 ^ 2 = 1 := by
  intro math java es
  have hrejected : ¬ Accepted [] := by decide
  have hacc : Accepted digitMessage := by decide +kernel
  have hfields : ((split digitMessage).getD 1 [], (split digitMessage).getD 2 [],
      (split digitMessage).getD 3 []) = (['1'], ['2'], ['3']) := by decide +kernel
  obtain ⟨h1, h2, h3⟩ := by simpa only [Prod.mk.injEq] using hfields
  have hrvec : java.rvec digitMessage = some ![1, 2, 3] := by
    have hdigit : ∀ (c : Char) (n : ℕ), c.isDigit = true → c.toNat = n + 48 →
        digit [c] = some (n : ℝ) := fun c n hd hn => by simp [digit, hd, hn]
    simp only [Java.rvec, Java.number, h1, h2, h3, java, hdigit '1' 1 rfl rfl,
      hdigit '2' 2 rfl rfl, hdigit '3' 3 rfl rfl, Option.bind_eq_bind, Option.bind_some]
    norm_num
  have hheard : heard java [⟨0, false, []⟩, ⟨0, true, digitMessage⟩] = [(1, 2)] := by
    simp [heard, hrejected, hacc, hrvec]
  have hreadings : readings es = [(1, 2)] := by simp [readings, es]
  have hg : receive java [⟨0, false, []⟩, ⟨0, true, digitMessage⟩] =
      some ((GyroFields.initial ℝ).turn java ![1, 2, 3]) := by
    simp [receive, run_cons, deliver, fromControllerRvec, hrejected, hacc, hrvec]
  have h := directions_agree math java rfl rfl Real.cos_sq_add_sin_sq es _ _ hg
    (by rw [hheard, hreadings])
  exact ⟨_, hg, h.1, h.2 (by rw [hreadings]; simp)⟩

end Controller
