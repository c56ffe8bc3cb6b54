import Controller.App.MySensor
import Controller.Lib.SampleHold
import Mathlib.Data.List.TakeDrop
import Mathlib.Tactic

/-!
# What a stream of sensor events adds up to

`onSensorChanged` has one `timestamp` and `MySensor` one counter for both sensors.  From the initial
state, `roll`, `pitch`, `yaw`, `averGy` and `angleGy` after a stream are sums over its schedule,
which lists for every event whether it is one of the gyroscope, and its timestamp; they are linear
in the readings of the gyroscope (`after_orientation`, `after_averGy`, `after_angleGy`).  The sums
are those of `SampleHold`, axis by axis.
-/

namespace Controller

open SampleHold

variable {K : Type} [Field K] [LinearOrder K]

/-- Whether an event is one of the gyroscope, and its timestamp. -/
def SensorEvent.tick (e : SensorEvent K) : Bool × K := (decide (e.type = .gyroscope), e.timestamp)

namespace SensorState

/-- `roll`, `pitch` and `yaw`. -/
def orientation (s : SensorState K) : Fin 3 → K := ![s.roll, s.pitch, s.yaw]

/-- The state after a stream of events, from the initial state. -/
def after (math : JavaMath K) (es : List (SensorEvent K)) : SensorState K :=
  es.foldl (onSensorChanged math) (.initial K)

@[simp] theorem after_nil (math : JavaMath K) : after math [] = .initial K := rfl

theorem after_concat (math : JavaMath K) (es : List (SensorEvent K)) (e : SensorEvent K) :
    after math (es ++ [e]) = (after math es).onSensorChanged math e := by
  rw [after, List.foldl_append]
  rfl

/-- What a gyroscope event is integrated over, up to the unit: the time since the event before it,
or nothing if that event has timestamp `0`. -/
def gap (p t : K) : K := if p = 0 then 0 else t - p

/-- The `gap`s of the gyroscope events of a schedule. -/
def gaps (p : K) : List (Bool × K) → List K
  | [] => []
  | x :: xs => if x.1 then gap p x.2 :: gaps x.2 xs else gaps x.2 xs

/-- The gyroscope events are the readings `v` from number `n + 1` on. -/
def Reads (v : ℕ → Fin 3 → K) (n : ℕ) : List (SensorEvent K) → Prop
  | [] => True
  | e :: es => (e.type = .gyroscope → e.values = v (n + 1)) ∧ Reads v (next n e.tick) es

theorem ns2s_ne_zero [IsStrictOrderedRing K] : ns2s K ≠ 0 := by
  unfold ns2s; positivity

section Step

variable (math : JavaMath K) {s : SensorState K} {e : SensorEvent K} {v : ℕ → Fin 3 → K} {n : ℕ}

theorem calFixedAngle_gy (s : MySensor K) : (s.calFixedAngle math).gy = s.gy := by
  unfold MySensor.calFixedAngle MySensor.setInitValues
  split_ifs <;> rfl

/-- One of the first ten events. -/
theorem onSensorChanged_counting (h : s.mMySensor.gInitCnt < 10) :
    (s.onSensorChanged math e).mMySensor.gInitCnt = s.mMySensor.gInitCnt + 1 ∧
      (s.onSensorChanged math e).mMySensor.averGy =
        s.mMySensor.averGy + (s.onSensorChanged math e).mMySensor.gy ∧
      (s.onSensorChanged math e).mMySensor.angleGy = s.mMySensor.angleGy := by
  rw [onSensorChanged_mMySensor, MySensor.calFixedAngle_of_lt (by simpa [initDataNum] using h)]
  simp

/-- The eleventh event. -/
theorem onSensorChanged_average (h : s.mMySensor.gInitCnt = 10) (i : Fin 3) :
    (s.onSensorChanged math e).mMySensor.gInitCnt = 11 ∧
      (s.onSensorChanged math e).mMySensor.averGy i = s.mMySensor.averGy i / 10 ∧
      (s.onSensorChanged math e).mMySensor.angleGy i = s.mMySensor.angleGy i +
        ((s.onSensorChanged math e).mMySensor.gy i - s.mMySensor.averGy i / 10) *
          ((e.timestamp - s.timestamp) * ns2s K) := by
  rw [onSensorChanged_mMySensor, MySensor.calFixedAngle_of_eq (by simpa [initDataNum] using h)]
  simp [MySensor.fixAngle, initDataNum, h]

/-- A later event. -/
theorem onSensorChanged_running (h : s.mMySensor.gInitCnt = 11) (i : Fin 3) :
    (s.onSensorChanged math e).mMySensor.gInitCnt = 11 ∧
      (s.onSensorChanged math e).mMySensor.averGy i = s.mMySensor.averGy i ∧
      (s.onSensorChanged math e).mMySensor.angleGy i = s.mMySensor.angleGy i +
        ((s.onSensorChanged math e).mMySensor.gy i - s.mMySensor.averGy i) *
          ((e.timestamp - s.timestamp) * ns2s K) := by
  rw [onSensorChanged_mMySensor, MySensor.calFixedAngle_of_gt (by simp [initDataNum, h])]
  simp [MySensor.fixAngle, h]

/-- The reading held after an event. -/
theorem onSensorChanged_gy (hgy : s.mMySensor.gy = v n)
    (he : e.type = .gyroscope → e.values = v (n + 1)) :
    (s.onSensorChanged math e).mMySensor.gy = v (next n e.tick) := by
  rw [onSensorChanged_mMySensor, calFixedAngle_gy]
  unfold MySensor.set next SensorEvent.tick
  cases htype : e.type with
  | gyroscope => exact he htype
  | linearAcceleration => exact hgy

variable [IsStrictOrderedRing K]

/-- What an event adds to `roll`, `pitch` and `yaw`. -/
theorem onSensorChanged_orientation (i : Fin 3) : (s.onSensorChanged math e).orientation i =
    s.orientation i +
      if e.tick.1 then ns2s K * (e.values i * gap s.timestamp e.timestamp) else 0 := by
  unfold onSensorChanged SensorEvent.tick
  cases htype : e.type with
  | linearAcceleration => exact (add_zero _).symm
  | gyroscope =>
    rw [if_pos (decide_eq_true rfl)]
    show (turn _ e).orientation i = _
    -- the guard compares `dt` with the new timestamp: it is false exactly from the timestamp `0`
    have hguard : (e.timestamp - s.timestamp) * ns2s K - e.timestamp * ns2s K =
        -(s.timestamp * ns2s K) := by ring
    unfold turn gap
    simp only [hguard, neg_eq_zero, mul_eq_zero, ns2s_ne_zero, or_false]
    by_cases h0 : s.timestamp = 0
    · rw [if_pos h0, if_pos h0]
      show s.orientation i = _
      ring
    · rw [if_neg h0, if_neg h0]
      match i with
      | 0 => show s.roll + _ = s.roll + _; ring
      | 1 => show s.pitch + _ = s.pitch + _; ring
      | 2 => show s.yaw + _ = s.yaw + _; ring

end Step

/-! ### Whole streams -/

section Streams

variable (math : JavaMath K) {s : SensorState K} {es : List (SensorEvent K)}
  {v : ℕ → Fin 3 → K} {n : ℕ}

omit [Field K] [LinearOrder K] in
theorem Reads.append_iff {fs : List (SensorEvent K)} :
    Reads v n (es ++ fs) ↔ Reads v n es ∧ Reads v (total n (es.map (·.tick))) fs := by
  induction es generalizing n with
  | nil => simp [Reads, total]
  | cons e es ih => simp [Reads, total, ih, and_assoc]

theorem foldl_timestamp :
    (es.foldl (onSensorChanged math) s).timestamp = time s.timestamp (es.map (·.tick)) := by
  induction es generalizing s with
  | nil => rfl
  | cons e es ih =>
    rw [List.foldl_cons, ih, onSensorChanged_timestamp]
    rfl

theorem onSensorChanged_gInitCnt (e : SensorEvent K) (h : s.mMySensor.gInitCnt ≤ 11) :
    (s.onSensorChanged math e).mMySensor.gInitCnt = min (s.mMySensor.gInitCnt + 1) 11 := by
  rcases Nat.lt_trichotomy s.mMySensor.gInitCnt 10 with hlt | heq | hgt
  · rw [(onSensorChanged_counting math hlt).1]
    omega
  · rw [(onSensorChanged_average math heq 0).1]
    omega
  · rw [(onSensorChanged_running math (show s.mMySensor.gInitCnt = 11 by omega) 0).1]
    omega

/-- The counter counts the events up to the eleventh. -/
theorem after_gInitCnt (es : List (SensorEvent K)) :
    (after math es).mMySensor.gInitCnt = min es.length 11 := by
  induction es using List.reverseRecOn with
  | nil => rfl
  | append_singleton es e ih =>
    rw [after_concat, onSensorChanged_gInitCnt math e (by rw [ih]; omega), ih, List.length_append,
      List.length_singleton]
    omega

/-- While the averages are added up. -/
theorem foldl_counting (hcnt : s.mMySensor.gInitCnt + es.length ≤ 10)
    (hgy : s.mMySensor.gy = v n) (h : Reads v n es) (i : Fin 3) :
    (es.foldl (onSensorChanged math) s).mMySensor.gInitCnt = s.mMySensor.gInitCnt + es.length ∧
      (es.foldl (onSensorChanged math) s).mMySensor.gy = v (total n (es.map (·.tick))) ∧
      (es.foldl (onSensorChanged math) s).mMySensor.averGy i = s.mMySensor.averGy i +
        ((counts n (es.map (·.tick))).map fun k => v k i).sum ∧
      (es.foldl (onSensorChanged math) s).mMySensor.angleGy i = s.mMySensor.angleGy i := by
  induction es generalizing s n with
  | nil => simp [hgy, total, counts]
  | cons e es ih =>
    simp only [List.length_cons] at hcnt
    obtain ⟨hcnt', haver, hangle⟩ := onSensorChanged_counting math (s := s) (e := e) (by omega)
    have hgy' := onSensorChanged_gy math hgy h.1
    obtain ⟨ih1, ih2, ih3, ih4⟩ := ih (by omega) hgy' h.2
    refine ⟨?_, ih2, ?_, ?_⟩
    · rw [List.foldl_cons, ih1, hcnt', List.length_cons]
      omega
    · rw [List.foldl_cons, ih3, haver, hgy', List.map_cons, counts, List.map_cons, List.sum_cons,
        Pi.add_apply]
      ring
    · rw [List.foldl_cons, ih4, hangle]

/-- While the filter runs. -/
theorem foldl_running (hcnt : s.mMySensor.gInitCnt = 11) (hgy : s.mMySensor.gy = v n)
    (h : Reads v n es) (i : Fin 3) :
    (es.foldl (onSensorChanged math) s).mMySensor.averGy i = s.mMySensor.averGy i ∧
      (es.foldl (onSensorChanged math) s).mMySensor.angleGy i = s.mMySensor.angleGy i + ns2s K *
        (area (fun k => v k i) n s.timestamp (es.map (·.tick)) - s.mMySensor.averGy i *
          (time s.timestamp (es.map (·.tick)) - s.timestamp)) := by
  induction es generalizing s n with
  | nil => simp [area, time]
  | cons e es ih =>
    obtain ⟨hcnt', haver, hangle⟩ := onSensorChanged_running math (e := e) hcnt i
    have hgy' := onSensorChanged_gy math hgy h.1
    obtain ⟨ih1, ih2⟩ := ih hcnt' hgy' h.2
    refine ⟨by rw [List.foldl_cons, ih1, haver], ?_⟩
    rw [List.foldl_cons, ih2, hangle, haver, hgy', onSensorChanged_timestamp, List.map_cons, area,
      time]
    simp only [SensorEvent.tick]
    ring

variable [IsStrictOrderedRing K]

theorem foldl_orientation (h : Reads v n es) (i : Fin 3) :
    (es.foldl (onSensorChanged math) s).orientation i = s.orientation i +
      ns2s K * weighted (fun k => v k i) n (gaps s.timestamp (es.map (·.tick))) := by
  induction es generalizing s n with
  | nil => simp [gaps, weighted]
  | cons e es ih =>
    rw [List.foldl_cons, ih h.2, onSensorChanged_orientation, onSensorChanged_timestamp,
      List.map_cons, gaps]
    by_cases hg : e.tick.1 = true
    · have hv : e.values = v (n + 1) := h.1 (of_decide_eq_true hg)
      rw [if_pos hg, if_pos hg, weighted, next_reading hg, hv]
      simp only [SensorEvent.tick]
      ring
    · rw [if_neg hg, if_neg hg, next_other hg, add_zero]
      rfl

/-- From the eleventh event on. -/
theorem foldl_average (hcnt : s.mMySensor.gInitCnt = 10) (hgy : s.mMySensor.gy = v n)
    (h : Reads v n es) (hne : es ≠ []) (i : Fin 3) :
    (es.foldl (onSensorChanged math) s).mMySensor.averGy i = s.mMySensor.averGy i / 10 ∧
      (es.foldl (onSensorChanged math) s).mMySensor.angleGy i = s.mMySensor.angleGy i + ns2s K *
        (area (fun k => v k i) n s.timestamp (es.map (·.tick)) - s.mMySensor.averGy i / 10 *
          (time s.timestamp (es.map (·.tick)) - s.timestamp)) := by
  cases es with
  | nil => exact absurd rfl hne
  | cons e es =>
    obtain ⟨hcnt', haver, hangle⟩ := onSensorChanged_average math (e := e) hcnt i
    have hgy' := onSensorChanged_gy math hgy h.1
    obtain ⟨h1, h2⟩ := foldl_running math hcnt' hgy' h.2 i
    refine ⟨by rw [List.foldl_cons, h1, haver], ?_⟩
    rw [List.foldl_cons, h2, hangle, haver, hgy', onSensorChanged_timestamp, List.map_cons, area,
      time]
    simp only [SensorEvent.tick]
    ring

theorem after_orientation (h : Reads v 0 es) (i : Fin 3) : (after math es).orientation i =
    ns2s K * weighted (fun k => v k i) 0 (gaps 0 (es.map (·.tick))) := by
  rw [after, foldl_orientation math h]
  have h0 : (initial K).orientation i = 0 := by
    match i with
    | 0 => rfl
    | 1 => rfl
    | 2 => rfl
  rw [h0, zero_add]
  rfl

omit [IsStrictOrderedRing K] in
/-- A stream of at most ten events: nothing is divided and the filter has not run. -/
theorem after_short (hlen : es.length ≤ 10) (hv : v 0 = 0) (h : Reads v 0 es) (i : Fin 3) :
    (after math es).mMySensor.averGy i = ((counts 0 (es.map (·.tick))).map fun k => v k i).sum ∧
      (after math es).mMySensor.angleGy i = 0 := by
  have hcnt : (initial K).mMySensor.gInitCnt + es.length ≤ 10 := by
    show 0 + es.length ≤ 10
    omega
  obtain ⟨-, -, haver, hangle⟩ := foldl_counting math hcnt hv.symm h i
  exact ⟨haver.trans (zero_add _), hangle⟩

/-- The average of the readings held at the first ten events. -/
def bias (u : ℕ → K) (σ : List (Bool × K)) : K := ((counts 0 (σ.take 10)).map u).sum / 10

/-- The integral of the held readings from the tenth event on, less the bias. -/
def drift (u : ℕ → K) (σ : List (Bool × K)) : K :=
  area u (total 0 (σ.take 10)) (time 0 (σ.take 10)) (σ.drop 10) -
    bias u σ * (time 0 σ - time 0 (σ.take 10))

omit [IsStrictOrderedRing K] in
/-- The state after the first ten events of a longer stream. -/
theorem after_ten (hlen : 10 < es.length) (hv : v 0 = 0) (h : Reads v 0 (es.take 10)) (i : Fin 3) :
    (after math (es.take 10)).mMySensor.gInitCnt = 10 ∧
      (after math (es.take 10)).mMySensor.gy = v (total 0 ((es.take 10).map (·.tick))) ∧
      (after math (es.take 10)).mMySensor.averGy i / 10 =
        bias (fun k => v k i) (es.map (·.tick)) ∧
      (after math (es.take 10)).mMySensor.angleGy i = 0 := by
  have hten : (es.take 10).length = 10 := by
    rw [List.length_take]
    omega
  have hzero : (initial K).mMySensor.gInitCnt + (es.take 10).length ≤ 10 := by
    show 0 + _ ≤ 10
    omega
  obtain ⟨hcnt, hgy, haver, hangle⟩ := foldl_counting math hzero hv.symm h i
  refine ⟨hcnt.trans ?_, hgy, ?_, hangle⟩
  · show 0 + _ = 10
    omega
  · rw [bias, ← List.map_take]
    exact congrArg (· / 10) (haver.trans (zero_add _))

/-- A stream of more than ten events. -/
theorem after_long (hlen : 10 < es.length) (hv : v 0 = 0) (h : Reads v 0 es) (i : Fin 3) :
    (after math es).mMySensor.averGy i = bias (fun k => v k i) (es.map (·.tick)) ∧
      (after math es).mMySensor.angleGy i =
        ns2s K * drift (fun k => v k i) (es.map (·.tick)) := by
  -- the first ten events, and the rest
  have hsplit : after math es =
      (es.drop 10).foldl (onSensorChanged math) (after math (es.take 10)) := by
    unfold after
    rw [← List.foldl_append, List.take_append_drop]
  rw [← List.take_append_drop 10 es] at h
  obtain ⟨hfirst, hrest⟩ := Reads.append_iff.1 h
  obtain ⟨hcnt, hgy, hbias, hangle⟩ := after_ten math hlen hv hfirst i
  have htime : (after math (es.take 10)).timestamp = time 0 ((es.map (·.tick)).take 10) := by
    rw [← List.map_take]
    exact foldl_timestamp math
  have hne : es.drop 10 ≠ [] := fun hnil => by
    have := List.drop_eq_nil_iff.1 hnil
    omega
  have hend : time (time 0 ((es.map (·.tick)).take 10)) ((es.map (·.tick)).drop 10) =
      time 0 (es.map (·.tick)) := by
    rw [← time_append, List.take_append_drop]
  obtain ⟨h1, h2⟩ := foldl_average math hcnt hgy hrest hne i
  rw [hsplit]
  refine ⟨h1.trans hbias, ?_⟩
  rw [h2, hbias, htime, hangle, zero_add, List.map_drop, List.map_take, hend, drift]

/-- `averGy`, up to the axis. -/
def average (u : ℕ → K) (σ : List (Bool × K)) : K :=
  if σ.length ≤ 10 then ((counts 0 σ).map u).sum else bias u σ

/-- `angleGy`, up to the axis and the unit. -/
def turned (u : ℕ → K) (σ : List (Bool × K)) : K := if σ.length ≤ 10 then 0 else drift u σ

theorem after_averGy (hv : v 0 = 0) (h : Reads v 0 es) (i : Fin 3) :
    (after math es).mMySensor.averGy i = average (fun k => v k i) (es.map (·.tick)) := by
  unfold average
  rw [List.length_map]
  by_cases hlen : es.length ≤ 10
  · rw [if_pos hlen, (after_short math hlen hv h i).1]
  · rw [if_neg hlen, (after_long math (not_le.1 hlen) hv h i).1]

theorem after_angleGy (hv : v 0 = 0) (h : Reads v 0 es) (i : Fin 3) :
    (after math es).mMySensor.angleGy i =
      ns2s K * turned (fun k => v k i) (es.map (·.tick)) := by
  unfold turned
  rw [List.length_map]
  by_cases hlen : es.length ≤ 10
  · rw [if_pos hlen, (after_short math hlen hv h i).2, mul_zero]
  · rw [if_neg hlen, (after_long math (not_le.1 hlen) hv h i).2]

end Streams

end SensorState

end Controller
