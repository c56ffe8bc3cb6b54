import Controller.App.SensorSums

/-!
# The first timestamp is never integrated

Timestamps count nanoseconds since the device was started, and the field `timestamp` is zero before
the first event: the `dt` of the first event is the whole uptime.  Two guards keep it out.  `roll`,
`pitch` and `yaw` are left alone when the event before has timestamp `0`, which is only so before
the first event; and the first ten events do not reach the filter of `MySensor`.

`only_differences`: at every event of a stream, whatever its sensor, the angles of `MainActivity`
and those of `MySensor` are either left alone or moved over the time since the event before, and
every gyroscope event but a first one moves those of `MainActivity`.
-/

namespace Controller.SensorState

variable {K : Type} [Field K] [LinearOrder K]

/-- `roll`, `pitch` and `yaw` are left alone. -/
def KeepsOrientation (s s' : SensorState K) : Prop :=
  s'.roll = s.roll ∧ s'.pitch = s.pitch ∧ s'.yaw = s.yaw

/-- `roll`, `pitch` and `yaw` move with the rates of `e` over the time step `d`. -/
def TurnsBy (d : K) (e : SensorEvent K) (s s' : SensorState K) : Prop :=
  s'.roll = s.roll + e.values 0 * d ∧ s'.pitch = s.pitch + e.values 1 * d ∧
    s'.yaw = s.yaw + e.values 2 * d

/-- `angleGy` and `angleFi` are left alone. -/
def KeepsAngles (s s' : MySensor K) : Prop :=
  s'.angleGy = s.angleGy ∧ s'.angleFi = s.angleFi ∧ s'.angleFiZ = s.angleFiZ

/-- `angleGy` and `angleFi` move over the time step `d`. -/
structure FiltersBy (d : K) (s s' : MySensor K) : Prop where
  angleGy : ∀ i, s'.angleGy i = s.angleGy i + (s'.gy i - s'.averGy i) * d
  angleFi : ∀ i : Fin 2, s'.angleFi i = do
    let fi ← s.angleFi i
    let ac ← s'.angleAc i
    some (alpha K * (fi + s'.angleGy i.castSucc * d) + (1 - alpha K) * ac)
  angleFiZ : s'.angleFiZ = s'.angleGy 2

/-- The time between two events, in seconds. -/
def elapsed (p e : SensorEvent K) : K := (e.timestamp - p.timestamp) * ns2s K

/-- What the event `e` does after the events `pre`: the first event moves nothing; a later one moves
`roll`, `pitch` and `yaw` if it is of the gyroscope, and the filter if ten events came before it,
over the time since the event before. -/
def StepsOver (math : JavaMath K) (pre : List (SensorEvent K)) (e : SensorEvent K) : Prop :=
  match pre.getLast? with
  | none => KeepsOrientation (after math pre) (after math (pre ++ [e])) ∧
      KeepsAngles (after math pre).mMySensor (after math (pre ++ [e])).mMySensor
  | some p =>
    (e.type = .gyroscope → TurnsBy (elapsed p e) e (after math pre) (after math (pre ++ [e]))) ∧
      (e.type = .linearAcceleration →
        KeepsOrientation (after math pre) (after math (pre ++ [e]))) ∧
      (pre.length < 10 →
        KeepsAngles (after math pre).mMySensor (after math (pre ++ [e])).mMySensor) ∧
      (10 ≤ pre.length →
        FiltersBy (elapsed p e) (after math pre).mMySensor (after math (pre ++ [e])).mMySensor)

variable (math : JavaMath K) {s : SensorState K} {e p : SensorEvent K}
  {pre : List (SensorEvent K)}

/-! ### The angles of `MySensor` -/

theorem fixAngle_filters (s : MySensor K) : FiltersBy s.dt s (s.fixAngle math) where
  angleGy _ := rfl
  angleFi i := by
    unfold MySensor.fixAngle
    cases hfi : s.angleFi i <;> simp [hfi]
  angleFiZ := rfl

theorem calFixedAngle_filters {s : MySensor K} (h : 10 ≤ s.gInitCnt) :
    FiltersBy s.dt s (s.calFixedAngle math) := by
  rcases h.eq_or_lt with heq | hgt
  · -- the averages are divided, which the angles do not show
    rw [MySensor.calFixedAngle_of_eq heq.symm]
    exact ⟨(fixAngle_filters math _).angleGy, (fixAngle_filters math _).angleFi,
      (fixAngle_filters math _).angleFiZ⟩
  · rw [MySensor.calFixedAngle_of_gt hgt]
    exact fixAngle_filters math s

omit [LinearOrder K] in
/-- Only the angles of the state before matter. -/
theorem FiltersBy.congr {d : K} {s t s' : MySensor K} (h : FiltersBy d s s')
    (hgy : t.angleGy = s.angleGy) (hfi : t.angleFi = s.angleFi) : FiltersBy d t s' where
  angleGy i := by rw [hgy]; exact h.angleGy i
  angleFi i := by rw [hfi]; exact h.angleFi i
  angleFiZ := h.angleFiZ

theorem onSensorChanged_keepsAngles (h : s.mMySensor.gInitCnt < 10) :
    KeepsAngles s.mMySensor (s.onSensorChanged math e).mMySensor := by
  rw [onSensorChanged_mMySensor, MySensor.calFixedAngle_of_lt (by simpa [initDataNum] using h)]
  refine ⟨MySensor.set_angleGy, MySensor.set_angleFi, ?_⟩
  show (MySensor.set _ _ _).angleFiZ = _
  unfold MySensor.set
  cases e.type <;> rfl

theorem onSensorChanged_filters (h : 10 ≤ s.mMySensor.gInitCnt) :
    FiltersBy ((e.timestamp - s.timestamp) * ns2s K) s.mMySensor
      (s.onSensorChanged math e).mMySensor := by
  rw [onSensorChanged_mMySensor]
  have hset := calFixedAngle_filters math
    (s := s.mMySensor.set ((e.timestamp - s.timestamp) * ns2s K) e) (by simpa using h)
  rw [MySensor.set_dt] at hset
  exact hset.congr MySensor.set_angleGy.symm MySensor.set_angleFi.symm

theorem after_concat_timestamp : (after math (pre ++ [p])).timestamp = p.timestamp := by
  rw [after_concat, onSensorChanged_timestamp]

variable [IsStrictOrderedRing K]

/-! ### The angles of `MainActivity` -/

/-- An event of the accelerometer, or one after the timestamp `0`. -/
theorem onSensorChanged_keeps (h : e.type = .linearAcceleration ∨ s.timestamp = 0) :
    KeepsOrientation s (s.onSensorChanged math e) := by
  have hi : ∀ i, (s.onSensorChanged math e).orientation i = s.orientation i := by
    intro i
    rw [onSensorChanged_orientation]
    rcases h with h | h
    · simp [SensorEvent.tick, h]
    · simp [gap, h]
  exact ⟨hi 0, hi 1, hi 2⟩

/-- A gyroscope event after another event. -/
theorem onSensorChanged_turns (hg : e.type = .gyroscope) (h0 : s.timestamp ≠ 0) :
    TurnsBy ((e.timestamp - s.timestamp) * ns2s K) e s (s.onSensorChanged math e) := by
  have hi : ∀ i, (s.onSensorChanged math e).orientation i =
      s.orientation i + e.values i * ((e.timestamp - s.timestamp) * ns2s K) := by
    intro i
    have htick : e.tick.1 = true := decide_eq_true hg
    rw [onSensorChanged_orientation, if_pos htick, gap, if_neg h0]
    ring
  exact ⟨hi 0, hi 1, hi 2⟩

/-! ### Streams -/

/-- Of every stream with positive timestamps, from the initial state: the uptime in the first
timestamp moves no angle, and every later event moves the angles it moves over the time since the
event before it. -/
theorem only_differences {es : List (SensorEvent K)} (hpos : ∀ e ∈ es, 0 < e.timestamp) :
    ∀ pre e post, es = pre ++ e :: post → StepsOver math pre e := by
  rintro pre e post rfl
  unfold StepsOver
  rw [after_concat]
  rcases List.eq_nil_or_concat' pre with rfl | ⟨pre, p, rfl⟩
  · have hzero : (after math []).mMySensor.gInitCnt < 10 := show 0 < 10 by decide
    exact ⟨onSensorChanged_keeps math (Or.inr rfl), onSensorChanged_keepsAngles math hzero⟩
  · have htime : (after math (pre ++ [p])).timestamp = p.timestamp := after_concat_timestamp math
    have hp : p.timestamp ≠ 0 := (hpos p (by simp)).ne'
    have hcnt := after_gInitCnt math (pre ++ [p])
    rw [List.getLast?_concat]
    refine ⟨fun hg => ?_, fun ha => onSensorChanged_keeps math (Or.inl ha), fun hlt => ?_, fun hge => ?_⟩
    · have hturn := onSensorChanged_turns math hg (htime ▸ hp)
      rwa [htime] at hturn
    · exact onSensorChanged_keepsAngles math (by omega)
    · have hfilter := onSensorChanged_filters math (e := e) (s := after math (pre ++ [p]))
        (by omega)
      rwa [htime] at hfilter

/-- An accelerometer event comes first, a second later one of the gyroscope. -/
theorem only_differences_second : TurnsBy 1 ⟨.gyroscope, 3000000000, ![1, 2, 3]⟩
    (after levelMath [⟨.linearAcceleration, 2000000000, ![0, 0, 1]⟩])
    (after levelMath [⟨.linearAcceleration, 2000000000, ![0, 0, 1]⟩,
      ⟨.gyroscope, 3000000000, ![1, 2, 3]⟩]) := by
  have hpos : ∀ e ∈ [(⟨.linearAcceleration, 2000000000, ![0, 0, 1]⟩ : SensorEvent ℚ),
      ⟨.gyroscope, 3000000000, ![1, 2, 3]⟩], 0 < e.timestamp := by
    simp
  have hsteps := only_differences levelMath hpos
    [⟨.linearAcceleration, 2000000000, ![0, 0, 1]⟩] ⟨.gyroscope, 3000000000, ![1, 2, 3]⟩ [] rfl
  have hone : elapsed (⟨.linearAcceleration, 2000000000, ![0, 0, 1]⟩ : SensorEvent ℚ)
      ⟨.gyroscope, 3000000000, ![1, 2, 3]⟩ = 1 := by
    norm_num [elapsed, ns2s]
  exact hone ▸ hsteps.1 rfl

end Controller.SensorState
