import Controller.App.ControllerRvec
import Mathlib.Algebra.Order.Field.Basic
import Mathlib.Algebra.Order.Field.Rat

/-!
# `MySensor.java` and `MainActivity.onSensorChanged`

The events of two sensors, gyroscope and linear acceleration, arrive in one callback.  It measures
`dt` from the event before, of either sensor, keeps `roll`, `pitch` and `yaw`, and passes the event
to `MySensor`, whose first ten calls of `calFixedAngle` only add up the averages and whose later
calls run the complementary filter.

Arithmetic is exact.  What the source keeps as `…X`, `…Y` and `…Z` is a function on `Fin 3`.  A
quotient of the accelerometer fields may be infinite or undefined; `none` is an undefined angle.
Left out: `angleAcZ`, `Tmp` and `DEG_PER_SEC`, which nothing reads, the quaternion, which is only
logged, and the copy of `mDirection` in the renderer, which must exist.
-/

namespace Controller

/-- What is taken from `Math`; `halfPi` is the arc tangent of an infinity. -/
structure JavaMath (K : Type) where
  sqrt : K → K
  atan : K → K
  halfPi : K
  cos : K → K
  sin : K → K

/-- What `Math` gives at a few rational points: the square roots of `0` and `1`, and the arc tangent,
the cosine and the sine of `0`. -/
def levelMath : JavaMath ℚ := ⟨id, id, 157 / 100, fun _ => 1, id⟩

/-- The two registered sensors. -/
inductive SensorType
  | gyroscope
  | linearAcceleration
  deriving DecidableEq

/-- `SensorEvent`. -/
structure SensorEvent (K : Type) where
  type : SensorType
  timestamp : K
  values : Fin 3 → K

/-- A quotient of two numbers, of which the second is not negative. -/
inductive Ratio (K : Type)
  | finite (q : K)
  | infinite (negative : Bool)
  | undefined
  deriving DecidableEq

/-- The fields of `MySensor`.  `angleAc` and the first part of `angleFi` have the axes `X` and `Y`
only. -/
structure MySensor (K : Type) where
  ac : Fin 3 → K
  gy : Fin 3 → K
  angleAc : Fin 2 → Option K
  angleGy : Fin 3 → K
  angleFi : Fin 2 → Option K
  angleFiZ : K
  averAc : Fin 3 → K
  averGy : Fin 3 → K
  dt : K
  gInitCnt : ℕ

/-- `INIT_DATA_NUM`. -/
def initDataNum : ℕ := 10

variable {K : Type} [Field K]

/-- `RADIAN_TO_DEGREE`. -/
def radianToDegree (K : Type) [Field K] : K := 180 / (314159 / 100000)

/-- `ALPHA`. -/
def alpha (K : Type) [Field K] : K := 1 / (1 + 4 / 100)

/-- `NS2S`. -/
def ns2s (K : Type) [Field K] : K := 1 / 1000000000

/-- A new `MySensor`: every field has Java's default. -/
def MySensor.new (K : Type) [Field K] : MySensor K where
  ac := 0
  gy := 0
  angleAc _ := some 0
  angleGy := 0
  angleFi _ := some 0
  angleFiZ := 0
  averAc := 0
  averGy := 0
  dt := 0
  gInitCnt := 0

/-- Division of doubles. -/
def Ratio.div [LinearOrder K] (a b : K) : Ratio K :=
  if b = 0 then
    if 0 < a then .infinite false else if a < 0 then .infinite true else .undefined
  else .finite (a / b)

/-- `Math.atan` of a quotient. -/
def JavaMath.atanRatio (math : JavaMath K) : Ratio K → Option K
  | .finite q => some (math.atan q)
  | .infinite false => some math.halfPi
  | .infinite true => some (-math.halfPi)
  | .undefined => none

namespace MySensor

/-- `setAccel`. -/
def setAccel (s : MySensor K) (event : SensorEvent K) : MySensor K :=
  { s with ac := event.values }

/-- `setGyro`. -/
def setGyro (s : MySensor K) (event : SensorEvent K) : MySensor K :=
  { s with gy := event.values }

/-- `setDt`. -/
def setDt (s : MySensor K) (timeDiff : K) : MySensor K :=
  { s with dt := timeDiff }

/-- `setInitValues`, with its answer. -/
def setInitValues (s : MySensor K) : MySensor K × Bool :=
  if s.gInitCnt < initDataNum then
    ({ s with
      averAc := s.averAc + s.ac
      averGy := s.averGy + s.gy
      gInitCnt := s.gInitCnt + 1 }, false)
  else if s.gInitCnt < initDataNum + 1 then
    ({ s with
      averAc := fun i => s.averAc i / initDataNum
      averGy := fun i => s.averGy i / initDataNum
      gInitCnt := s.gInitCnt + 1 }, true)
  else (s, true)

/-- The angles that `calFixedAngle` takes from the accelerometer, in degrees. -/
def accelAngle [LinearOrder K] (math : JavaMath K) (s : MySensor K) : Fin 2 → Option K :=
  ![(math.atanRatio (.div (s.ac 1) (math.sqrt (s.ac 0 ^ 2 + s.ac 2 ^ 2)))).map
      (· * radianToDegree K),
    (math.atanRatio (.div (-s.ac 0) (math.sqrt (s.ac 1 ^ 2 + s.ac 2 ^ 2)))).map
      (· * radianToDegree K)]

/-- The body of `calFixedAngle`, once `setInitValues` has answered `true`. -/
def fixAngle [LinearOrder K] (math : JavaMath K) (s : MySensor K) : MySensor K :=
  let angleAc := s.accelAngle math
  let angleGy := fun i => s.angleGy i + (s.gy i - s.averGy i) * s.dt
  let angleTmp := fun i : Fin 2 => (s.angleFi i).map (· + angleGy i.castSucc * s.dt)
  { s with
    angleAc := angleAc
    angleGy := angleGy
    angleFi := fun i => do
      let tmp ← angleTmp i
      let ac ← angleAc i
      some (alpha K * tmp + (1 - alpha K) * ac)
    angleFiZ := angleGy 2 }

/-- `calFixedAngle`. -/
def calFixedAngle [LinearOrder K] (math : JavaMath K) (s : MySensor K) : MySensor K :=
  let (s, ready) := s.setInitValues
  if ready then s.fixAngle math else s

/-- What `onSensorChanged` writes into the sensor before it calls `calFixedAngle`. -/
def set (s : MySensor K) (dt : K) (event : SensorEvent K) : MySensor K :=
  match event.type with
  | .gyroscope => (s.setDt dt).setGyro event
  | .linearAcceleration => (s.setDt dt).setAccel event

section Phases

variable [LinearOrder K] {math : JavaMath K} {s : MySensor K}

/-- One of the first ten calls. -/
theorem calFixedAngle_of_lt (h : s.gInitCnt < initDataNum) :
    s.calFixedAngle math =
      { s with
        averAc := s.averAc + s.ac
        averGy := s.averGy + s.gy
        gInitCnt := s.gInitCnt + 1 } := by
  unfold calFixedAngle setInitValues
  rw [if_pos h]
  rfl

/-- The eleventh call. -/
theorem calFixedAngle_of_eq (h : s.gInitCnt = initDataNum) :
    s.calFixedAngle math = fixAngle math
      { s with
        averAc := fun i => s.averAc i / initDataNum
        averGy := fun i => s.averGy i / initDataNum
        gInitCnt := s.gInitCnt + 1 } := by
  unfold calFixedAngle setInitValues
  rw [if_neg (by omega), if_pos (by omega)]
  rfl

/-- A later call. -/
theorem calFixedAngle_of_gt (h : initDataNum < s.gInitCnt) :
    s.calFixedAngle math = s.fixAngle math := by
  unfold calFixedAngle setInitValues
  rw [if_neg (by omega), if_neg (by omega)]
  rfl

end Phases

section Fields

omit [Field K]

variable {s : MySensor K} {dt : K} {event : SensorEvent K}

@[simp] theorem set_dt : (s.set dt event).dt = dt := by
  unfold set; cases event.type <;> rfl

@[simp] theorem set_angleGy : (s.set dt event).angleGy = s.angleGy := by
  unfold set; cases event.type <;> rfl

@[simp] theorem set_angleFi : (s.set dt event).angleFi = s.angleFi := by
  unfold set; cases event.type <;> rfl

@[simp] theorem set_averGy : (s.set dt event).averGy = s.averGy := by
  unfold set; cases event.type <;> rfl

@[simp] theorem set_gInitCnt : (s.set dt event).gInitCnt = s.gInitCnt := by
  unfold set; cases event.type <;> rfl

end Fields

end MySensor

/-- The fields of `MainActivity` that `onSensorChanged` uses. -/
structure SensorState (K : Type) where
  mMySensor : MySensor K
  timestamp : K
  dt : K
  roll : K
  pitch : K
  yaw : K
  mHorizontalRadian : K
  mVerticalRadian : K
  mDirection : Fin 3 → K

namespace SensorState

/-- A new activity with a new sensor. -/
def initial (K : Type) [Field K] : SensorState K where
  mMySensor := .new K
  timestamp := 0
  dt := 0
  roll := 0
  pitch := 0
  yaw := 0
  mHorizontalRadian := 0
  mVerticalRadian := 0
  mDirection := 0

/-- The angles of the activity are integrated, except from the timestamp `0`. -/
def turn [LinearOrder K] (s : SensorState K) (event : SensorEvent K) : SensorState K :=
  if s.dt - s.timestamp * ns2s K = 0 then s
  else
    { s with
      roll := s.roll + event.values 0 * s.dt
      pitch := s.pitch + event.values 1 * s.dt
      yaw := s.yaw + event.values 2 * s.dt }

/-- The view direction. -/
def direct (math : JavaMath K) (s : SensorState K) (event : SensorEvent K) : SensorState K :=
  let posXRadian := event.values 0 * sensorResolutionRadianPerDegree K
  let posYRadian := event.values 1 * sensorResolutionRadianPerDegree K
  let mHorizontalRadian := s.mHorizontalRadian + posYRadian
  let mVerticalRadian := s.mVerticalRadian + posXRadian
  { s with
    mHorizontalRadian := mHorizontalRadian
    mVerticalRadian := mVerticalRadian
    mDirection := ![math.cos mVerticalRadian * math.sin mHorizontalRadian,
      math.sin mVerticalRadian, math.cos mVerticalRadian * math.cos mHorizontalRadian] }

/-- `onSensorChanged`. -/
def onSensorChanged [LinearOrder K] (math : JavaMath K) (s : SensorState K)
    (event : SensorEvent K) : SensorState K :=
  let dt := (event.timestamp - s.timestamp) * ns2s K
  let s := { s with dt := dt, timestamp := event.timestamp, mMySensor := s.mMySensor.setDt dt }
  let s := match event.type with
    | .gyroscope =>
      ({ s with mMySensor := s.mMySensor.setGyro event }.turn event).direct math event
    | .linearAcceleration => { s with mMySensor := s.mMySensor.setAccel event }
  { s with mMySensor := s.mMySensor.calFixedAngle math }

section Fields

variable [LinearOrder K] {math : JavaMath K} {s : SensorState K} {event : SensorEvent K}

@[simp] theorem turn_mMySensor : (s.turn event).mMySensor = s.mMySensor := by
  unfold turn; split_ifs <;> rfl

@[simp] theorem turn_timestamp : (s.turn event).timestamp = s.timestamp := by
  unfold turn; split_ifs <;> rfl

@[simp] theorem onSensorChanged_timestamp :
    (s.onSensorChanged math event).timestamp = event.timestamp := by
  unfold onSensorChanged
  cases event.type with
  | gyroscope => exact turn_timestamp
  | linearAcceleration => rfl

/-- The sensor is driven with the time since the event before, whichever sensor that came from. -/
theorem onSensorChanged_mMySensor : (s.onSensorChanged math event).mMySensor =
    (s.mMySensor.set ((event.timestamp - s.timestamp) * ns2s K) event).calFixedAngle math := by
  unfold onSensorChanged MySensor.set
  cases event.type with
  | gyroscope => exact congrArg (MySensor.calFixedAngle math) turn_mMySensor
  | linearAcceleration => rfl

end Fields

end SensorState

end Controller
