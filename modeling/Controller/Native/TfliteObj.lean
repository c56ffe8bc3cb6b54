import Mathlib.Data.List.Basic
import Mathlib.Tactic

/-!
# `tflite_obj.cpp`: one inference

`tflite_model` copies the camera frame into the input tensor, invokes the interpreter and logs the
first float of its output.

Two things go wrong.  The number of bytes to copy is `rows * cols * depth() * sizeof(float)`, and
`depth()` is OpenCV's code for the element type, which is `0` for the eight-bit frames of the
camera: nothing is copied.  And `typed_output_tensor` wants a position in `outputs()`, but is given
the tensor index found at position `0`.  `inference_iff` says on which models and frames this makes
no difference.

A call with undefined behaviour (an `int` product that overflows, `memcpy` beyond one of its
buffers, `outputs()` indexed out of range) is `none`.  `size_t` has `w` bits, `w` being `32` or `64`
on the two platforms the library is built for.
-/

namespace Controller

variable {K : Type}

/-! ### `cv::Mat` -/

/-- `CV_MAT_DEPTH`: the code of the element type, `0` for `CV_8U`. -/
def matDepth (type : ℕ) : ℕ := type % 8

/-- `CV_MAT_CN`: the number of channels. -/
def matChannels (type : ℕ) : ℕ := type / 8 % 512 + 1

/-- `CV_ELEM_SIZE1`: the bytes of one channel. -/
def elemSize1 (type : ℕ) : ℕ :=
  match matDepth type with
  | 0 | 1 => 1
  | 2 | 3 | 7 => 2
  | 4 | 5 => 4
  | _ => 8

/-- `CV_8UC4`, the type of the frames of the camera. -/
def CV_8UC4 : ℕ := 24

/-- A continuous `cv::Mat` with the bytes `ptr()` points to. -/
structure CvMat where
  rows : ℕ
  cols : ℕ
  type : ℕ
  data : List UInt8
  data_length : data.length = rows * cols * (matChannels type * elemSize1 type)

/-- `depth()`. -/
def CvMat.depth (m : CvMat) : ℕ := matDepth m.type

/-! ### C arithmetic -/

/-- The product of two `int`s, undefined when it overflows. -/
def intMul (a b : ℤ) : Option ℤ :=
  if -2 ^ 31 ≤ a * b ∧ a * b < 2 ^ 31 then some (a * b) else none

/-- An `int` converted to `size_t`. -/
def toSize (w : ℕ) (a : ℤ) : ℕ := (a % 2 ^ w).toNat

/-- A `size_t` converted to `int`. -/
def toInt (n : ℕ) : ℤ := (n : ℤ).bmod (2 ^ 32)

/-- `int data_size = matInput.rows * matInput.cols * matInput.depth() * sizeof(float)`: the last
product is one of `size_t`s. -/
def CvMat.dataSize (w : ℕ) (matInput : CvMat) : Option ℤ := do
  let a ← intMul matInput.rows matInput.cols
  let b ← intMul a matInput.depth
  some (toInt (toSize w b * 4 % 2 ^ w))

/-- `memcpy`: the contents of `dst` afterwards. -/
def memcpy (dst src : List UInt8) (n : ℕ) : Option (List UInt8) :=
  if n ≤ dst.length ∧ n ≤ src.length then some (src.take n ++ dst.drop n) else none

/-! ### The interpreter -/

/-- `tflite::Interpreter`, as far as `tflite_model` sees it: the bytes of the first input tensor,
the tensor indices `outputs()`, and `Invoke`, which fails or leaves a first float in each tensor. -/
structure Interpreter (K : Type) where
  input : List UInt8
  outputs : List ℤ
  invoke : List UInt8 → Option (ℤ → K)

/-- `outputs()[i]`. -/
def Interpreter.outputAt (m : Interpreter K) (i : ℤ) : Option ℤ :=
  if 0 ≤ i then m.outputs[i.toNat]? else none

/-- What a call of `tflite_model` does: the bytes it copies, the input tensor when `Invoke` runs,
and the tensor and value it logs (none when `Invoke` fails, for then the process exits). -/
structure Inference (K : Type) where
  copied : ℕ
  input : List UInt8
  log : Option (ℤ × K)

/-- `tflite_obj::tflite_model`. -/
def tfliteModel (w : ℕ) (m : Interpreter K) (matInput : CvMat) : Option (Inference K) := do
  let dataSize ← matInput.dataSize w
  let n := toSize w dataSize
  let input ← memcpy m.input matInput.data n
  match m.invoke input with
  | none => some ⟨n, input, none⟩
  | some tensors =>
    let outputIdx ← m.outputAt 0
    let t ← m.outputAt outputIdx
    some ⟨n, input, some (t, tensors t)⟩

/-! ### What an inference should be -/

/-- The frame is in the input tensor when `Invoke` runs, all of it and nothing else, and the value
logged afterwards is that of the first output. -/
def ShowsFrame (w : ℕ) (m : Interpreter K) (f : CvMat) : Prop :=
  ∃ r, tfliteModel w m f = some r ∧
    r.copied = m.input.length ∧ r.copied ≤ f.data.length ∧
    r.input = f.data.take m.input.length ∧
    ∀ tensors, m.invoke r.input = some tensors →
      ∃ t, m.outputs[0]? = some t ∧ r.log = some (t, tensors t)

/-- Where the two slips make no difference: the number of pixels is an `int`, the input tensor is
empty, and the first output is a tensor whose index is also a position that leads back to it. -/
def NothingToShow (m : Interpreter K) (f : CvMat) : Prop :=
  f.rows * f.cols < 2 ^ 31 ∧ m.input = [] ∧
    ∀ tensors, m.invoke [] = some tensors →
      ∃ t, m.outputs[0]? = some t ∧ 0 ≤ t ∧ m.outputs[t.toNat]? = some t

variable {w : ℕ} {m : Interpreter K} {f : CvMat}

/-- The number of pixels, where it is an `int`. -/
theorem intMul_cast (a b : ℕ) :
    intMul a b = if a * b < 2 ^ 31 then some ((a : ℤ) * b) else none := by
  unfold intMul
  rw [← Nat.cast_mul]
  by_cases h : a * b < 2 ^ 31
  · rw [if_pos h, if_pos (by constructor <;> omega)]
  · rw [if_neg h, if_neg (by omega)]

theorem intMul_zero (a : ℤ) : intMul a 0 = some 0 := by
  unfold intMul
  rw [mul_zero, if_pos (by constructor <;> norm_num)]

theorem toSize_zero : toSize w 0 = 0 := by
  unfold toSize
  rw [Int.zero_emod]
  rfl

theorem toInt_zero : toInt 0 = 0 := by
  unfold toInt
  exact Int.zero_bmod

/-- For an eight-bit frame the product is zero, if it is defined at all. -/
theorem dataSize_rgba (hf : f.type = CV_8UC4) :
    f.dataSize w = if f.rows * f.cols < 2 ^ 31 then some 0 else none := by
  have hd : f.depth = 0 := by
    unfold CvMat.depth
    rw [hf]
    rfl
  unfold CvMat.dataSize
  rw [intMul_cast, hd]
  by_cases h : f.rows * f.cols < 2 ^ 31
  · rw [if_pos h, if_pos h]
    simp only [Option.bind_eq_bind, Option.bind_some, Nat.cast_zero, intMul_zero, toSize_zero,
      zero_mul, Nat.zero_mod, toInt_zero]
  · rw [if_neg h, if_neg h]
    rfl

@[simp] theorem memcpy_zero (dst src : List UInt8) : memcpy dst src 0 = some dst := by
  simp [memcpy]

/-- Nothing is copied, so `Invoke` sees whatever the input tensor held. -/
theorem tfliteModel_rgba (hf : f.type = CV_8UC4) (hfit : f.rows * f.cols < 2 ^ 31) :
    tfliteModel w m f =
      match m.invoke m.input with
      | none => some ⟨0, m.input, none⟩
      | some tensors =>
        (m.outputAt 0).bind fun outputIdx => (m.outputAt outputIdx).map fun t =>
          ⟨0, m.input, some (t, tensors t)⟩ := by
  unfold tfliteModel
  rw [dataSize_rgba hf, if_pos hfit]
  simp only [Option.bind_eq_bind, Option.bind_some, toSize_zero, memcpy_zero]
  cases m.invoke m.input with
  | none => rfl
  | some tensors =>
    cases m.outputAt 0 with
    | none => rfl
    | some i => exact Option.map_eq_bind.symm

theorem outputAt_zero : m.outputAt 0 = m.outputs[0]? := rfl

theorem outputAt_eq_some {i t : ℤ} :
    m.outputAt i = some t ↔ 0 ≤ i ∧ m.outputs[i.toNat]? = some t := by
  unfold Interpreter.outputAt
  by_cases h : 0 ≤ i
  · rw [if_pos h]
    simp [h]
  · rw [if_neg h]
    simp [h]

/-- A defined call copies nothing and shows the network an untouched tensor. -/
theorem tfliteModel_copied {r : Inference K} (hf : f.type = CV_8UC4)
    (hr : tfliteModel w m f = some r) :
    f.rows * f.cols < 2 ^ 31 ∧ r.copied = 0 ∧ r.input = m.input := by
  by_cases hfit : f.rows * f.cols < 2 ^ 31
  · refine ⟨hfit, ?_⟩
    rw [tfliteModel_rgba hf hfit] at hr
    cases hi : m.invoke m.input with
    | none =>
      rw [hi] at hr
      cases hr
      exact ⟨rfl, rfl⟩
    | some tensors =>
      rw [hi] at hr
      obtain ⟨i, -, hr⟩ := Option.bind_eq_some_iff.1 hr
      obtain ⟨t, -, rfl⟩ := Option.map_eq_some_iff.1 hr
      exact ⟨rfl, rfl⟩
  · unfold tfliteModel at hr
    rw [dataSize_rgba hf, if_neg hfit] at hr
    cases hr

/-- **An inference on a camera frame.**  The frame is shown to the network and its first output is
logged if and only if there is nothing to show: the copy has zero bytes, and the output is found
only where its index is its own position. -/
theorem inference_iff (w : ℕ) (m : Interpreter K) (f : CvMat) (hf : f.type = CV_8UC4) :
    ShowsFrame w m f ↔ NothingToShow m f := by
  constructor
  · rintro ⟨r, hr, hcopied, -, -, hlog⟩
    obtain ⟨hfit, h0, hinput⟩ := tfliteModel_copied hf hr
    have hnil : m.input = [] := by
      rw [h0] at hcopied
      exact List.length_eq_zero_iff.1 hcopied.symm
    refine ⟨hfit, hnil, fun tensors hinv => ?_⟩
    rw [hinput, hnil] at hlog
    obtain ⟨t, ht, hr'⟩ := hlog tensors hinv
    rw [tfliteModel_rgba hf hfit, hnil, hinv] at hr
    obtain ⟨i, hi, hr⟩ := Option.bind_eq_some_iff.1 hr
    obtain ⟨t', ht', rfl⟩ := Option.map_eq_some_iff.1 hr
    rw [outputAt_zero, ht] at hi
    cases hi
    cases hr'
    exact ⟨t, ht, outputAt_eq_some.1 ht'⟩
  · rintro ⟨hfit, hnil, hout⟩
    have hcall := tfliteModel_rgba (w := w) (m := m) hf hfit
    unfold ShowsFrame
    rw [hcall, hnil]
    cases hinv : m.invoke [] with
    | none => exact ⟨_, rfl, rfl, Nat.zero_le _, rfl, fun tensors h => by rw [hinv] at h; cases h⟩
    | some tensors =>
      obtain ⟨t, ht, hself⟩ := hout tensors hinv
      have hself' : m.outputAt t = some t := outputAt_eq_some.2 hself
      refine ⟨⟨0, [], some (t, tensors t)⟩, ?_, rfl, Nat.zero_le _, rfl, fun tensors' h => ?_⟩
      · rw [outputAt_zero, ht]
        simp only [Option.bind_some, hself', Option.map_some]
      · rw [hinv] at h
        cases h
        exact ⟨t, ht, rfl⟩

/-- A frame of the camera, `720 × 1600` and black. -/
def blackFrame : CvMat where
  rows := 720
  cols := 1600
  type := CV_8UC4
  data := List.replicate (720 * 1600 * 4) 0
  data_length := List.length_replicate

/-- A network that always succeeds and whose tensor `i` starts with `i`. -/
def network (inputBytes : ℕ) (outputs : List ℤ) : Interpreter ℤ where
  input := List.replicate inputBytes 0
  outputs := outputs
  invoke _ := some id

/-- A network without input, whose first output is tensor `0`. -/
theorem inference_iff_empty : ShowsFrame 64 (network 0 [0]) blackFrame :=
  (inference_iff 64 (network 0 [0]) blackFrame rfl).2
    ⟨by decide, rfl, fun _ _ => ⟨0, rfl, le_rfl, rfl⟩⟩

/-- A network for images of `224 × 224` pixels with three floats each: its input is not filled.
And one whose output is a later tensor: `outputs()` is read out of range. -/
theorem inference_fails :
    ¬ ShowsFrame 64 (network 602112 [0]) blackFrame ∧
      tfliteModel 64 (network 602112 [7]) blackFrame = none := by
  constructor
  · rintro ⟨r, hr, hcopied, -⟩
    obtain ⟨-, h0, -⟩ := tfliteModel_copied rfl hr
    rw [h0] at hcopied
    have hlen : (network 602112 [0]).input.length = 602112 := List.length_replicate
    omega
  · rw [tfliteModel_rgba rfl (by decide)]
    rfl

end Controller
