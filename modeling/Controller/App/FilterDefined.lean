import Controller.App.SensorSums

/-!
# Is the filter always defined?

`calFixedAngle` divides by the length of two of the three accelerometer fields.  Both of its
quotients are `0 / 0` exactly when all three fields are zero: they have this value until the first
event of the accelerometer, and linear acceleration is zero whenever the device does not accelerate.
The first ten events only calibrate; from the eleventh on such a call makes `angleFi` undefined, and
an undefined angle stays undefined (`after_angleFi_none_iff`).

`staysDefined_iff`: the filter stays defined along a stream if and only if from the eleventh event
on the reading held is never zero.  `only_gyroscope` is a stream without accelerometer events.
-/

namespace Controller

variable {K : Type} [Field K] [LinearOrder K]

/-- What is used of `Math.sqrt`: it vanishes at zero only. -/
def JavaMath.SqrtZero (math : JavaMath K) : Prop := ∀ x, 0 ≤ x → (math.sqrt x = 0 ↔ x = 0)

namespace MySensor

/-- Called in the state `s`, `calFixedAngle` evaluates a quotient `0 / 0`. -/
def Indeterminate (math : JavaMath K) (s : MySensor K) : Prop :=
  s.setInitValues.2 = true ∧
    (Ratio.div (s.ac 1) (math.sqrt (s.ac 0 ^ 2 + s.ac 2 ^ 2)) = .undefined ∨
      Ratio.div (-s.ac 0) (math.sqrt (s.ac 1 ^ 2 + s.ac 2 ^ 2)) = .undefined)

end MySensor

namespace SensorState

/-- The accelerometer reading held after a stream: the last one, or zero. -/
def heldAccel (es : List (SensorEvent K)) : Fin 3 → K :=
  es.foldl (fun a e => if e.type = .linearAcceleration then e.values else a) 0

/-- The sensor when `calFixedAngle` is called for the event `e`. -/
def calling (s : SensorState K) (e : SensorEvent K) : MySensor K :=
  s.mMySensor.set ((e.timestamp - s.timestamp) * ns2s K) e

/-- At every event of the stream the quotients are determinate and the filter is defined. -/
def StaysDefined (math : JavaMath K) (es : List (SensorEvent K)) : Prop :=
  ∀ pre e post, es = pre ++ e :: post →
    ¬ ((after math pre).calling e).Indeterminate math ∧
      ∀ i, (after math (pre ++ [e])).mMySensor.angleFi i ≠ none

/-- From the eleventh event on, the accelerometer reading held is not zero. -/
def Accelerates (es : List (SensorEvent K)) : Prop :=
  ∀ pre e post, es = pre ++ e :: post → 10 ≤ pre.length → heldAccel (pre ++ [e]) ≠ 0

end SensorState

/-! ### One call -/

section Call

variable {math : JavaMath K} {s : MySensor K}

omit [LinearOrder K] in
theorem JavaMath.atanRatio_none_iff (math : JavaMath K) {q : Ratio K} :
    math.atanRatio q = none ↔ q = .undefined := by
  cases q with
  | finite q => simp [atanRatio]
  | infinite negative => cases negative <;> simp [atanRatio]
  | undefined => simp [atanRatio]

theorem Ratio.div_undefined_iff {a b : K} : Ratio.div a b = .undefined ↔ a = 0 ∧ b = 0 := by
  unfold Ratio.div
  by_cases hb : b = 0
  · rw [if_pos hb]
    rcases lt_trichotomy a 0 with ha | ha | ha
    · simp [not_lt.2 ha.le, ha, ha.ne]
    · simp [ha, hb]
    · simp [ha, ha.ne']
  · rw [if_neg hb]
    simp [hb]

variable [IsStrictOrderedRing K]

theorem sum_sq_eq_zero_iff {a b : K} : a ^ 2 + b ^ 2 = 0 ↔ a = 0 ∧ b = 0 := by
  rw [add_eq_zero_iff_of_nonneg (sq_nonneg a) (sq_nonneg b), sq_eq_zero_iff, sq_eq_zero_iff]

namespace MySensor

/-- The first quotient is indeterminate exactly when all fields are zero. -/
theorem first_undefined_iff (hsqrt : math.SqrtZero) :
    Ratio.div (s.ac 1) (math.sqrt (s.ac 0 ^ 2 + s.ac 2 ^ 2)) = .undefined ↔ s.ac = 0 := by
  rw [Ratio.div_undefined_iff, hsqrt _ (by positivity), sum_sq_eq_zero_iff, funext_iff,
    Fin.forall_fin_succ, Fin.forall_fin_two]
  exact ⟨fun h => ⟨h.2.1, h.1, h.2.2⟩, fun h => ⟨h.2.1, h.1, h.2.2⟩⟩

/-- So is the second. -/
theorem second_undefined_iff (hsqrt : math.SqrtZero) :
    Ratio.div (-s.ac 0) (math.sqrt (s.ac 1 ^ 2 + s.ac 2 ^ 2)) = .undefined ↔ s.ac = 0 := by
  rw [Ratio.div_undefined_iff, hsqrt _ (by positivity), sum_sq_eq_zero_iff, neg_eq_zero,
    funext_iff, Fin.forall_fin_succ, Fin.forall_fin_two]
  exact Iff.rfl

theorem accelAngle_none_iff (hsqrt : math.SqrtZero) (i : Fin 2) :
    s.accelAngle math i = none ↔ s.ac = 0 := by
  match i with
  | 0 =>
    rw [← first_undefined_iff hsqrt, ← math.atanRatio_none_iff]
    exact Option.map_eq_none_iff
  | 1 =>
    rw [← second_undefined_iff hsqrt, ← math.atanRatio_none_iff]
    exact Option.map_eq_none_iff

/-- An undefined angle comes from an undefined angle or from an indeterminate quotient. -/
theorem fixAngle_angleFi_none_iff (hsqrt : math.SqrtZero) (i : Fin 2) :
    (s.fixAngle math).angleFi i = none ↔ s.angleFi i = none ∨ s.ac = 0 := by
  rw [← accelAngle_none_iff hsqrt i]
  unfold fixAngle
  cases hfi : s.angleFi i with
  | none => simp [hfi]
  | some a => cases hac : s.accelAngle math i <;> simp [hfi, hac]

end MySensor

end Call

/-! ### Streams -/

namespace SensorState

variable {math : JavaMath K} {es : List (SensorEvent K)}
  {e : SensorEvent K}

omit [Field K] [LinearOrder K] in
theorem set_ac (s : MySensor K) (dt : K) (e : SensorEvent K) :
    (s.set dt e).ac = if e.type = .linearAcceleration then e.values else s.ac := by
  unfold MySensor.set
  cases e.type <;> rfl

omit [LinearOrder K] in
theorem heldAccel_concat : heldAccel (es ++ [e]) =
    if e.type = .linearAcceleration then e.values else heldAccel es := by
  rw [heldAccel, List.foldl_append]
  rfl

theorem calFixedAngle_ac (math : JavaMath K) (s : MySensor K) :
    (s.calFixedAngle math).ac = s.ac := by
  unfold MySensor.calFixedAngle MySensor.setInitValues
  split_ifs <;> rfl

/-- The fields `AcX`, `AcY`, `AcZ` are the reading held. -/
theorem after_ac (math : JavaMath K) (es : List (SensorEvent K)) :
    (after math es).mMySensor.ac = heldAccel es := by
  induction es using List.reverseRecOn with
  | nil => rfl
  | append_singleton es e ih =>
    rw [after_concat, onSensorChanged_mMySensor, calFixedAngle_ac, set_ac, heldAccel_concat, ih]

theorem calling_ac (math : JavaMath K) (es : List (SensorEvent K)) (e : SensorEvent K) :
    ((after math es).calling e).ac = heldAccel (es ++ [e]) := by
  rw [calling, set_ac, heldAccel_concat, after_ac]

theorem calling_gInitCnt (math : JavaMath K) (es : List (SensorEvent K)) (e : SensorEvent K) :
    ((after math es).calling e).gInitCnt = min es.length 11 := by
  rw [calling, MySensor.set_gInitCnt, after_gInitCnt]

/-- The filter runs from the eleventh event on. -/
theorem calling_ready_iff (math : JavaMath K) (es : List (SensorEvent K)) (e : SensorEvent K) :
    ((after math es).calling e).setInitValues.2 = true ↔ 10 ≤ es.length := by
  have hcnt := calling_gInitCnt math es e
  unfold MySensor.setInitValues
  rw [hcnt, initDataNum]
  by_cases hlen : es.length < 10
  · rw [if_pos (by omega)]
    simp [hlen]
  · rw [if_neg (by omega)]
    split_ifs <;> simp [not_lt.1 hlen]

variable [IsStrictOrderedRing K]

/-- An event evaluates `0 / 0` when the filter runs and the reading held is zero. -/
theorem indeterminate_iff (hsqrt : math.SqrtZero) :
    ((after math es).calling e).Indeterminate math ↔
      10 ≤ es.length ∧ heldAccel (es ++ [e]) = 0 := by
  rw [MySensor.Indeterminate, calling_ready_iff, MySensor.first_undefined_iff hsqrt,
    MySensor.second_undefined_iff hsqrt, or_self, calling_ac]

/-- What an event does to the definedness of the filter. -/
theorem after_concat_none_iff (hsqrt : math.SqrtZero) (i : Fin 2) :
    (after math (es ++ [e])).mMySensor.angleFi i = none ↔
      (after math es).mMySensor.angleFi i = none ∨
        10 ≤ es.length ∧ heldAccel (es ++ [e]) = 0 := by
  have hcnt := calling_gInitCnt math es e
  have hfi : ((after math es).calling e).angleFi = (after math es).mMySensor.angleFi :=
    MySensor.set_angleFi
  rw [after_concat, onSensorChanged_mMySensor]
  show (((after math es).calling e).calFixedAngle math).angleFi i = none ↔ _
  rcases Nat.lt_trichotomy es.length 10 with hlt | heq | hgt
  · -- the averages are added up
    rw [MySensor.calFixedAngle_of_lt (by rw [hcnt, initDataNum]; omega)]
    show ((after math es).calling e).angleFi i = none ↔ _
    rw [hfi]
    simp [hlt]
  · rw [MySensor.calFixedAngle_of_eq (by rw [hcnt, initDataNum]; omega),
      MySensor.fixAngle_angleFi_none_iff hsqrt]
    show ((after math es).calling e).angleFi i = none ∨ ((after math es).calling e).ac = 0 ↔ _
    rw [hfi, calling_ac]
    simp [heq]
  · rw [MySensor.calFixedAngle_of_gt (by rw [hcnt, initDataNum]; omega),
      MySensor.fixAngle_angleFi_none_iff hsqrt, hfi, calling_ac]
    simp [hgt.le]

/-- The filter is undefined after a stream exactly when some event, from the eleventh on, found the
reading zero. -/
theorem after_angleFi_none_iff (hsqrt : math.SqrtZero) (i : Fin 2) :
    (after math es).mMySensor.angleFi i = none ↔
      ∃ pre e post, es = pre ++ e :: post ∧ 10 ≤ pre.length ∧ heldAccel (pre ++ [e]) = 0 := by
  induction es using List.reverseRecOn with
  | nil => simp [initial, MySensor.new]
  | append_singleton es e ih =>
    rw [after_concat_none_iff hsqrt, ih]
    constructor
    · rintro (⟨pre, e', post, rfl, hlen, hzero⟩ | ⟨hlen, hzero⟩)
      · exact ⟨pre, e', post ++ [e], by simp, hlen, hzero⟩
      · exact ⟨es, e, [], rfl, hlen, hzero⟩
    · rintro ⟨pre, e', post, hes, hlen, hzero⟩
      rcases List.eq_nil_or_concat' post with rfl | ⟨post, e'', rfl⟩
      · obtain ⟨rfl, h⟩ := List.append_inj' hes rfl
        cases h
        exact Or.inr ⟨hlen, hzero⟩
      · rw [← List.cons_append, ← List.append_assoc] at hes
        obtain ⟨rfl, -⟩ := List.append_inj' hes rfl
        exact Or.inl ⟨pre, e', post, rfl, hlen, hzero⟩

/-- For every stream of events of the two sensors, in any order: no call evaluates `0 / 0` and the
filter is defined after every event, if and only if from the eleventh event on the accelerometer
reading held is never zero. -/
theorem staysDefined_iff (hsqrt : math.SqrtZero) (es : List (SensorEvent K)) :
    StaysDefined math es ↔ Accelerates es := by
  constructor
  · rintro h pre e post hes hlen hzero
    exact (h pre e post hes).1 ((indeterminate_iff hsqrt).2 ⟨hlen, hzero⟩)
  · rintro h pre e post hes
    refine ⟨fun hind => ?_, fun i hnone => ?_⟩
    · obtain ⟨hlen, hzero⟩ := (indeterminate_iff hsqrt).1 hind
      exact h pre e post hes hlen hzero
    · obtain ⟨pre', e', post', hpre, hlen, hzero⟩ := (after_angleFi_none_iff hsqrt i).1 hnone
      refine h pre' e' (post' ++ post) ?_ hlen hzero
      rw [hes, List.append_cons, hpre]
      simp

/-- The gyroscope reports no rotation, every nanosecond. -/
def gyroscopeAt (k : ℕ) : SensorEvent ℚ := ⟨.gyroscope, k + 1, 0⟩

theorem levelMath_sqrtZero : levelMath.SqrtZero := fun _ _ => Iff.rfl

/-- One accelerometer event, then eleven of the gyroscope. -/
theorem staysDefined_iff_level :
    StaysDefined levelMath (⟨.linearAcceleration, 1, ![0, 0, 1]⟩ ::
      (List.range' 1 11).map gyroscopeAt) := by
  refine (staysDefined_iff levelMath_sqrtZero _).2 fun pre e post hes hlen => ?_
  have htake : pre ++ [e] = (⟨.linearAcceleration, 1, ![0, 0, 1]⟩ ::
      (List.range' 1 11).map gyroscopeAt).take (pre.length + 1) := by
    rw [hes, List.append_cons pre e post, List.take_left' (by simp)]
  have hle : pre.length ≤ 11 := by
    have := congrArg List.length hes
    simp only [List.length_cons, List.length_map, List.length_range', List.length_append] at this
    omega
  rw [htake]
  obtain hk | hk : pre.length = 10 ∨ pre.length = 11 := by omega
  · rw [hk]
    decide +kernel
  · rw [hk]
    decide +kernel

/-- Eleven events of the gyroscope alone: both angles are undefined. -/
theorem only_gyroscope : (∀ i, (after levelMath ((List.range 11).map gyroscopeAt)).mMySensor.angleFi
      i = none) ∧ ¬ StaysDefined levelMath ((List.range 11).map gyroscopeAt) := by
  have hnone : ∀ i, (after levelMath ((List.range 11).map gyroscopeAt)).mMySensor.angleFi i =
      none := by
    decide +kernel
  exact ⟨hnone, fun h => (h ((List.range 10).map gyroscopeAt) (gyroscopeAt 10) [] rfl).2 0 (hnone 0)⟩

end SensorState

end Controller
