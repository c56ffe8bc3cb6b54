import Controller.Lib.Abort
import Controller.Lib.Numerals
import Mathlib.Algebra.Field.Basic
import Mathlib.Data.Fin.VecNotation
import Mathlib.Data.List.DropRight

/-!
# `MainActivity.fromControllerRvec`

A message of the controller is a line of text with fifteen fields, of which the first three numbers
are read.  Java strings are lists of code points.  `Float.parseFloat` answers `none` when it throws,
and `cos` and `sin` are those of `Math`; arithmetic is exact.

The method throws when a field is not a number, before it has changed anything, or when the view
does not exist, after it has.  Left out: the matrix made from `mGyroDir`, which is only logged and
passed to `setRMatGyro`, whose body is empty.
-/

namespace Controller

open Abort

/-- What is taken from the Java library. -/
structure Java (K : Type) where
  parseFloat : List Char → Option K
  cos : K → K
  sin : K → K

/-- The fields of a text, separated by a comma and a blank. -/
def splitFields : List Char → List (List Char)
  | [] => [[]]
  | ',' :: ' ' :: cs => [] :: splitFields cs
  | c :: cs =>
    match splitFields cs with
    | [] => [[c]]
    | f :: fs => (c :: f) :: fs

/-- `split(", ")`: empty fields at the end are dropped, unless the text is a single field. -/
def split (str : List Char) : List (List Char) :=
  match splitFields str with
  | [f] => [f]
  | fs => fs.rdropWhile (·.isEmpty)

/-- `SENSOR_RESOLUTION_RADIAN_PER_DEGREE`. -/
def sensorResolutionRadianPerDegree (K : Type) [Field K] : K := 1 / 10

/-- The static fields `mGARORadian`, `mSERORadian` and `mGyroDir`. -/
structure GyroFields (K : Type) where
  mGARORadian : K
  mSERORadian : K
  mGyroDir : Fin 3 → K

/-- Their initial values. -/
def GyroFields.initial (K : Type) [Field K] : GyroFields K := ⟨0, 0, ![0, 0, 0]⟩

/-- The message has fifteen fields. -/
def Accepted (strYes : List Char) : Prop := (split strYes).length = 15

instance (strYes : List Char) : Decidable (Accepted strYes) :=
  inferInstanceAs (Decidable (_ = _))

variable {K : Type} [Field K]

/-- A field of the message, as a number. -/
def Java.number (java : Java K) (strYes : List Char) (n : ℕ) : Option K :=
  java.parseFloat ((split strYes).getD n [])

/-- `rvec`, without its constant last entry. -/
def Java.rvec (java : Java K) (strYes : List Char) : Option (Fin 3 → K) := do
  let x ← java.number strYes 1
  let y ← java.number strYes 2
  let z ← java.number strYes 3
  some ![x, y, z]

/-- The three assignments to the accumulators and the direction. -/
def GyroFields.turn (java : Java K) (rvec : Fin 3 → K) (g : GyroFields K) : GyroFields K :=
  let gyroXRadian := rvec 0 * sensorResolutionRadianPerDegree K
  let gyroYRadian := rvec 1 * sensorResolutionRadianPerDegree K
  let mGARORadian := g.mGARORadian + gyroYRadian
  let mSERORadian := g.mSERORadian + gyroXRadian
  { mGARORadian := mGARORadian
    mSERORadian := mSERORadian
    mGyroDir := ![java.cos mSERORadian * java.sin mGARORadian, java.sin mSERORadian,
      java.cos mSERORadian * java.cos mGARORadian] }

/-- `fromControllerRvec`; `gLView` says whether the view exists. -/
def fromControllerRvec (java : Java K) (bDetectObj : ℤ) (gLView : Bool) (strYes : List Char) :
    Prog (GyroFields K) := fun g =>
  if Accepted strYes then
    match java.rvec strYes with
    | none => .error g
    | some rvec =>
      -- `gLView.gMyRenderer` is evaluated only for a detected object
      if bDetectObj = 1 ∧ gLView = false then .error (g.turn java rvec) else .ok (g.turn java rvec)
  else .ok g

/-! ### What a message adds -/

/-- What the message adds to `mGARORadian` and to `mSERORadian`. -/
def Java.added (java : Java K) (strYes : List Char) : K × K :=
  if Accepted strYes then
    match java.rvec strYes with
    | none => (0, 0)
    | some rvec => (rvec 1 * sensorResolutionRadianPerDegree K,
        rvec 0 * sensorResolutionRadianPerDegree K)
  else (0, 0)

section Added

variable {java : Java K} {bDetectObj : ℤ} {gLView : Bool} {strYes : List Char} {g g' : GyroFields K}

/-- However the method ends, the accumulators have moved by what the message says. -/
theorem fromControllerRvec_added :
    (final (fromControllerRvec java bDetectObj gLView strYes g)).mGARORadian =
        g.mGARORadian + (java.added strYes).1 ∧
      (final (fromControllerRvec java bDetectObj gLView strYes g)).mSERORadian =
        g.mSERORadian + (java.added strYes).2 := by
  unfold fromControllerRvec Java.added
  by_cases hacc : Accepted strYes
  · simp only [if_pos hacc]
    cases java.rvec strYes with
    | none => simp
    | some rvec =>
      simp only
      split_ifs
      · exact ⟨rfl, rfl⟩
      · exact ⟨rfl, rfl⟩
  · simp [if_neg hacc]

/-- When the method returns, an accepted message had numbers in its fields. -/
theorem fromControllerRvec_ok (h : fromControllerRvec java bDetectObj gLView strYes g = .ok g')
    (hacc : Accepted strYes) : ∃ x y, java.number strYes 1 = some x ∧
      java.number strYes 2 = some y ∧ java.added strYes =
        (y * sensorResolutionRadianPerDegree K, x * sensorResolutionRadianPerDegree K) := by
  unfold fromControllerRvec at h
  rw [if_pos hacc] at h
  cases hr : java.rvec strYes with
  | none => simp [hr] at h
  | some rvec =>
    obtain ⟨x, hx, hr'⟩ := Option.bind_eq_some_iff.1 hr
    obtain ⟨y, hy, hr'⟩ := Option.bind_eq_some_iff.1 hr'
    obtain ⟨z, hz, hr'⟩ := Option.bind_eq_some_iff.1 hr'
    refine ⟨x, y, hx, hy, ?_⟩
    cases hr'
    simp [Java.added, if_pos hacc, hr]

theorem added_of_not_accepted (hacc : ¬ Accepted strYes) : java.added strYes = (0, 0) := by
  simp [Java.added, if_neg hacc]

end Added

end Controller
