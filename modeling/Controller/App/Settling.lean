import Controller.App.MySensor
import Controller.Lib.PartialRun

/-!
# The complementary filter at rest

At rest the rate of the gyroscope is the average of the calibration and the accelerometer gives the
same two angles `A` at every event.  The filter then does

  `angleFi' - A = ALPHA (angleFi - A) + ALPHA angleGy dt`

where `angleGy` is not the rate but its integral since the calibration, which rest leaves as it is.
`settles_iff`: the error shrinks by `ALPHA` at every call exactly when the motion before left
nothing in `angleGy`, and the filter was defined.  `drifts_at_rest` is a device that was turned by
one unit after the calibration.
-/

namespace Controller

open PartialRun

namespace MySensor

variable {K : Type} [Field K] [LinearOrder K]

/-- One event: what `onSensorChanged` does to the sensor, with the `dt` it has measured. -/
def feed (math : JavaMath K) (s : MySensor K) (x : K × SensorEvent K) : MySensor K :=
  (s.set x.1 x.2).calFixedAngle math

/-- `feed` as a step that is always defined. -/
def feedStep (math : JavaMath K) (s : MySensor K) (x : K × SensorEvent K) : Option (MySensor K) :=
  some (s.feed math x)

/-- The event finds the device at rest, with the accelerometer angles `A`. -/
structure AtRest (math : JavaMath K) (A : Fin 2 → K) (s : MySensor K) (x : K × SensorEvent K) :
    Prop where
  dt_pos : 0 < x.1
  gyro : ∀ i : Fin 2, (s.set x.1 x.2).gy i.castSucc = s.averGy i.castSucc
  angle : ∀ i, (s.set x.1 x.2).accelAngle math i = some (A i)

/-- The call multiplies both errors by `ALPHA`. -/
def Contracts (math : JavaMath K) (A : Fin 2 → K) (s : MySensor K) (x : K × SensorEvent K) :
    Prop :=
  ∀ i, ∃ a a', s.angleFi i = some a ∧ (s.feed math x).angleFi i = some a' ∧
    a' - A i = alpha K * (a - A i)

/-- Every call of a run contracts; the errors never grow and are those of a geometric sequence. -/
structure Settles (math : JavaMath K) (A : Fin 2 → K) (s : MySensor K)
    (xs : List (K × SensorEvent K)) : Prop where
  contracts : Along (feedStep math) (Contracts math A) s xs
  shrinks : ∀ i a, s.angleFi i = some a → ∀ pre post t, xs = pre ++ post →
    run (feedStep math) s pre = some t →
    ∃ b, t.angleFi i = some b ∧ |b - A i| = alpha K ^ pre.length * |a - A i| ∧
      |b - A i| ≤ |a - A i|

/-- The filter is defined and the integrated rates are zero on the axes `X` and `Y`. -/
def Unturned (s : MySensor K) : Prop :=
  ∀ i : Fin 2, s.angleFi i ≠ none ∧ s.angleGy i.castSucc = 0

section Rest

variable {math : JavaMath K} {A : Fin 2 → K} {s t : MySensor K} {x : K × SensorEvent K}
  {xs : List (K × SensorEvent K)}

/-- After the calibration an event only runs the filter. -/
theorem feed_calibrated (hcal : s.gInitCnt = 11) :
    s.feed math x = (s.set x.1 x.2).fixAngle math := by
  refine calFixedAngle_of_gt ?_
  rw [set_gInitCnt, hcal]
  decide

theorem feed_gInitCnt (hcal : s.gInitCnt = 11) : (s.feed math x).gInitCnt = 11 := by
  rw [feed_calibrated hcal]
  exact set_gInitCnt.trans hcal

/-- Rest leaves the integrated rates as they are. -/
theorem feed_angleGy (hcal : s.gInitCnt = 11) (h : AtRest math A s x) (i : Fin 2) :
    (s.feed math x).angleGy i.castSucc = s.angleGy i.castSucc := by
  rw [feed_calibrated hcal]
  show (s.set x.1 x.2).angleGy i.castSucc +
    ((s.set x.1 x.2).gy i.castSucc - (s.set x.1 x.2).averGy i.castSucc) * (s.set x.1 x.2).dt = _
  rw [h.gyro i, set_averGy, set_angleGy, sub_self, zero_mul, add_zero]

/-- The filter at rest: the error is multiplied by `ALPHA` and moved by what is left in
`angleGy`. -/
theorem feed_angleFi (hcal : s.gInitCnt = 11) (h : AtRest math A s x) (i : Fin 2) :
    (s.feed math x).angleFi i = (s.angleFi i).map fun a =>
      A i + alpha K * (a - A i) + alpha K * (s.angleGy i.castSucc * x.1) := by
  have hgy := feed_angleGy hcal h i
  rw [feed_calibrated hcal] at hgy ⊢
  have hfi : ((s.set x.1 x.2).fixAngle math).angleFi i =
      (((s.set x.1 x.2).angleFi i).map
        (· + ((s.set x.1 x.2).fixAngle math).angleGy i.castSucc * (s.set x.1 x.2).dt)).bind
        fun tmp => ((s.set x.1 x.2).accelAngle math i).bind
          fun ac => some (alpha K * tmp + (1 - alpha K) * ac) := rfl
  rw [hfi, hgy, h.angle i, set_angleFi, set_dt]
  cases s.angleFi i with
  | none => rfl
  | some a =>
    show some _ = some _
    congr 1
    ring

theorem Unturned.feed (hcal : s.gInitCnt = 11) (h : AtRest math A s x) (hs : Unturned s) :
    Unturned (s.feed math x) := by
  intro i
  rw [feed_angleGy hcal h, feed_angleFi hcal h]
  refine ⟨?_, (hs i).2⟩
  simpa using (hs i).1

/-- A run at rest from an unturned state. -/
theorem Unturned.run (hcal : s.gInitCnt = 11) (hrest : Along (feedStep math) (AtRest math A) s xs)
    (hs : Unturned s) (ht : run (feedStep math) s xs = some t) :
    t.gInitCnt = 11 ∧ Unturned t ∧ ∀ i a, s.angleFi i = some a →
      t.angleFi i = some (A i + alpha K ^ xs.length * (a - A i)) := by
  -- induction from the end of the run: each event finds the state of the run before it
  refine run_induction
    (fun xs t => t.gInitCnt = 11 ∧ Unturned t ∧ ∀ i a, s.angleFi i = some a →
      t.angleFi i = some (A i + alpha K ^ xs.length * (a - A i)))
    ⟨hcal, hs, fun i a ha => by simpa using ha⟩ ?_ hrest ht
  rintro xs t x _ - ⟨hcal', ht, hfi⟩ hx ⟨⟩
  refine ⟨feed_gInitCnt hcal', ht.feed hcal' hx, fun i a ha => ?_⟩
  rw [feed_angleFi hcal' hx, hfi i a ha, (ht i).2, List.length_append, List.length_singleton]
  show some _ = some _
  congr 1
  ring

end Rest

section Contraction

variable [IsStrictOrderedRing K] {math : JavaMath K} {A : Fin 2 → K} {s t : MySensor K}
  {x : K × SensorEvent K} {xs : List (K × SensorEvent K)}

theorem alpha_pos : 0 < alpha K := by
  unfold alpha; positivity

theorem alpha_le_one : alpha K ≤ 1 := by
  unfold alpha
  rw [div_le_one (by positivity)]
  exact le_add_of_nonneg_right (by positivity)

/-- One call at rest contracts exactly from an unturned state. -/
theorem contracts_iff (hcal : s.gInitCnt = 11) (h : AtRest math A s x) :
    Contracts math A s x ↔ Unturned s := by
  refine forall_congr' fun i => ?_
  rw [feed_angleFi hcal h]
  cases s.angleFi i with
  | none => simp
  | some a =>
    have hα : alpha K ≠ 0 := alpha_pos.ne'
    have hdt : x.1 ≠ 0 := h.dt_pos.ne'
    constructor
    · rintro ⟨_, a', ⟨⟩, ⟨⟩, h'⟩
      have hprod : alpha K * (s.angleGy i.castSucc * x.1) = 0 := by linear_combination h'
      refine ⟨by simp, ?_⟩
      simpa [hα, hdt] using hprod
    · rintro ⟨-, h0⟩
      refine ⟨a, _, rfl, rfl, ?_⟩
      rw [h0]
      ring

/-- From an unturned state the filter settles. -/
theorem Unturned.settles (hcal : s.gInitCnt = 11)
    (hrest : Along (feedStep math) (AtRest math A) s xs) (hs : Unturned s) :
    Settles math A s xs where
  contracts := by
    rw [along_iff] at hrest ⊢
    rintro pre x post t rfl ht
    have hpre : Along (feedStep math) (AtRest math A) s pre := (along_iff.2 hrest).append_left
    obtain ⟨hcal', hunt, -⟩ := hs.run hcal hpre ht
    exact (contracts_iff hcal' (hrest pre x post t rfl ht)).2 hunt
  shrinks := by
    rintro i a ha pre post t rfl ht
    obtain ⟨-, -, hfi⟩ := hs.run hcal hrest.append_left ht
    have hpow : (0 : K) ≤ alpha K ^ pre.length := pow_nonneg alpha_pos.le _
    have habs : |A i + alpha K ^ pre.length * (a - A i) - A i| =
        alpha K ^ pre.length * |a - A i| := by
      rw [add_sub_cancel_left, abs_mul, abs_of_nonneg hpow]
    refine ⟨_, hfi i a ha, habs, ?_⟩
    rw [habs]
    exact mul_le_of_le_one_left (abs_nonneg _) (pow_le_one₀ alpha_pos.le alpha_le_one)

/-- After the calibration, whatever happened before: over any events that find the device at rest,
at any positive intervals, the filter settles if and only if it was defined and the rates had
integrated to zero. -/
theorem settles_iff (hcal : s.gInitCnt = 11)
    (hrest : Along (feedStep math) (AtRest math A) s xs) (hne : xs ≠ []) :
    Settles math A s xs ↔ Unturned s := by
  constructor
  · intro h
    cases xs with
    | nil => exact absurd rfl hne
    | cons x xs => exact (contracts_iff hcal hrest.1).1 h.contracts.1
  · exact Unturned.settles hcal hrest

end Contraction

section Level

/-- A gyroscope event. -/
def gyroEvent (rates : Fin 3 → ℚ) : SensorEvent ℚ := ⟨.gyroscope, 0, rates⟩

/-- The device lies level: ten events that calibrate it, one of them of the accelerometer. -/
def levelEvents : List (ℚ × SensorEvent ℚ) :=
  (1, ⟨.linearAcceleration, 0, ![0, 0, 1]⟩) :: List.replicate 9 (1, gyroEvent 0)

/-- The sensor after these events and one more. -/
def afterLevel (rates : Fin 3 → ℚ) : MySensor ℚ :=
  (levelEvents ++ [(1, gyroEvent rates)]).foldl (feed levelMath) (.new ℚ)

theorem afterLevel_atRest (rates : Fin 3 → ℚ) :
    AtRest levelMath 0 (afterLevel rates) (1, gyroEvent 0) where
  dt_pos := by decide
  gyro := by
    -- the last event is not part of the average
    show ∀ i : Fin 2, (0 : ℚ) = (afterLevel 0).averGy i.castSucc
    decide +kernel
  angle := by
    have h : accelAngle levelMath ((afterLevel rates).set 1 (gyroEvent 0)) =
        accelAngle levelMath ((afterLevel 0).set 1 (gyroEvent 0)) := rfl
    rw [h]
    decide +kernel

theorem settles_iff_level : (afterLevel 0).gInitCnt = 11 ∧ Unturned (afterLevel 0) ∧
    Settles levelMath 0 (afterLevel 0) [(1, gyroEvent 0)] := by
  have hunt : Unturned (afterLevel 0) := by
    intro i
    fin_cases i <;> decide +kernel
  have hrest : Along (feedStep levelMath) (AtRest levelMath 0) (afterLevel 0) [(1, gyroEvent 0)] :=
    ⟨afterLevel_atRest 0, fun _ _ => trivial⟩
  exact ⟨rfl, hunt, (settles_iff rfl hrest (by simp)).2 hunt⟩

/-- Turned by one unit after the calibration, then at rest: the error is not multiplied by
`ALPHA`. -/
theorem drifts_at_rest : run (feedStep levelMath) (.new ℚ)
      (levelEvents ++ [(1, gyroEvent ![1, 0, 0])]) = some (afterLevel ![1, 0, 0]) ∧
    (afterLevel ![1, 0, 0]).gInitCnt = 11 ∧
    Along (feedStep levelMath) (AtRest levelMath 0) (afterLevel ![1, 0, 0]) [(1, gyroEvent 0)] ∧
    ¬ Settles levelMath 0 (afterLevel ![1, 0, 0]) [(1, gyroEvent 0)] := by
  refine ⟨rfl, rfl, ⟨afterLevel_atRest _, fun _ _ => trivial⟩, fun h => ?_⟩
  have hunt := (contracts_iff rfl (afterLevel_atRest _)).1 h.contracts.1
  have hturned : (afterLevel ![1, 0, 0]).angleGy 0 = 1 := by decide +kernel
  exact one_ne_zero (hturned.symm.trans (hunt 0).2)

end Level

end MySensor

end Controller
