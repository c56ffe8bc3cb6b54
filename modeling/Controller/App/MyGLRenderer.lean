import Controller.Native.NativeLib

/-!
# `MyGLRenderer.java`

The renderer keeps its matrices as arrays of sixteen floats, which OpenGL reads column by column
(`colMajor`).  The functions of `android.opengl.Matrix` it calls are the fields of `AndroidMatrix`;
`multiplyMM` also gets the old contents of its result array, because `onDrawFrame` passes one array
as result and as operand.

`mCube` and the three `mLine_*` are one flag: they are created together, and `onDrawFrame` is
undefined (a null pointer) without them.
-/

namespace Controller

variable {K : Type} [Field K]

/-- The matrix that OpenGL sees in an array of sixteen floats. -/
def colMajor (a : Fin 16 → K) : Matrix (Fin 4) (Fin 4) K :=
  fun i j => a ⟨4 * j + i, by omega⟩

/-- The upper left `3 × 3` block. -/
def rotationBlock (M : Matrix (Fin 4) (Fin 4) K) : Mat33 K :=
  M.submatrix Fin.castSucc Fin.castSucc

/-- `android.opengl.Matrix`. -/
structure AndroidMatrix (K : Type) where
  setLookAtM : (eye center up : Vec3 K) → Fin 16 → K
  perspectiveM : (fovy aspect zNear zFar : K) → Fin 16 → K
  multiplyMM : (result lhs rhs : Fin 16 → K) → Fin 16 → K

/-- `multiplyMM` computes the product, whatever the result array held. -/
def AndroidMatrix.Multiplies (gl : AndroidMatrix K) : Prop :=
  ∀ result lhs rhs, colMajor (gl.multiplyMM result lhs rhs) = colMajor lhs * colMajor rhs

/-- What `onDrawFrame` draws. -/
inductive Shape
  | mLineLX
  | mLineLY
  | mLineLZ
  | mCube
  deriving DecidableEq

/-- `MyGLRenderer`. -/
structure MyGLRenderer (K : Type) where
  shapes : Bool
  gRotationMatrixL : Fin 16 → K
  projectionMatrix : Fin 16 → K
  viewMatrix : Fin 16 → K
  vPMatrixL : Fin 16 → K

/-- `new MyGLRenderer()`. -/
def MyGLRenderer.new : MyGLRenderer K where
  shapes := false
  gRotationMatrixL := ![1, 0, 0, 0, 0, 1, 0, 0, 0, 0, 1, 0, 0, 0, 0, 1]
  projectionMatrix := 0
  viewMatrix := 0
  vPMatrixL := 0

/-- `onSurfaceCreated`. -/
def MyGLRenderer.onSurfaceCreated (r : MyGLRenderer K) : MyGLRenderer K := { r with shapes := true }

/-- `onSurfaceChanged`. -/
def MyGLRenderer.onSurfaceChanged (gl : AndroidMatrix K) (r : MyGLRenderer K) (width height : ℤ) :
    MyGLRenderer K :=
  { r with projectionMatrix := gl.perspectiveM 60 ((width : K) / (height : K)) 1 30 }

/-- `setRMatCameraOne`: the first sixteen floats of the array. -/
def MyGLRenderer.setRMatCameraOne (r : MyGLRenderer K) (R : Fin 32 → K) : MyGLRenderer K :=
  { r with gRotationMatrixL := fun i => R (i.castLE (by omega)) }

/-- `onDrawFrame`, with the matrix each shape is drawn with. -/
def MyGLRenderer.onDrawFrame (gl : AndroidMatrix K) (r : MyGLRenderer K) :
    Option (MyGLRenderer K × List (Shape × (Fin 16 → K))) :=
  if r.shapes then
    let viewMatrix := gl.setLookAtM ![0, 0, -10] ![0, 0, 0] ![0, 1, 0]
    let vPMatrixL := gl.multiplyMM r.vPMatrixL viewMatrix r.gRotationMatrixL
    let vPMatrixL := gl.multiplyMM vPMatrixL r.projectionMatrix vPMatrixL
    let mMVPMatrix := gl.multiplyMM 0 r.projectionMatrix viewMatrix
    let scratch := gl.multiplyMM 0 mMVPMatrix r.gRotationMatrixL
    some ({ r with viewMatrix := viewMatrix, vPMatrixL := vPMatrixL },
      [(.mLineLX, vPMatrixL), (.mLineLY, vPMatrixL), (.mLineLZ, vPMatrixL), (.mCube, scratch)])
  else none

/-! ### What is drawn -/

/-- The exported rotation is read transposed. -/
theorem rotationBlock_modelMatrix (R : Mat33 K) (t : Vec3 K) :
    rotationBlock (colMajor (modelMatrix R t)) = R.transpose := by
  ext i j
  fin_cases i <;> fin_cases j <;> rfl

theorem MyGLRenderer.new_rotation :
    (MyGLRenderer.new : MyGLRenderer K).gRotationMatrixL = modelMatrix 1 0 := by
  funext i
  fin_cases i <;> simp [MyGLRenderer.new, modelMatrix]

/-- Lines and cube are drawn with the same matrix, though it is associated differently. -/
theorem onDrawFrame_matrices {gl : AndroidMatrix K} (hgl : gl.Multiplies) {r r' : MyGLRenderer K}
    {draws : List (Shape × (Fin 16 → K))} (h : r.onDrawFrame gl = some (r', draws)) :
    draws.map Prod.fst = [.mLineLX, .mLineLY, .mLineLZ, .mCube] ∧
      ∀ d ∈ draws, colMajor d.2 =
        colMajor r'.projectionMatrix * colMajor r'.viewMatrix * colMajor r.gRotationMatrixL := by
  unfold MyGLRenderer.onDrawFrame at h
  split_ifs at h
  cases h
  refine ⟨rfl, fun d hd => ?_⟩
  simp only [List.mem_cons, List.not_mem_nil, or_false] at hd
  rcases hd with rfl | rfl | rfl | rfl <;> simp only [hgl _ _ _, Matrix.mul_assoc]

theorem onDrawFrame_defined (gl : AndroidMatrix K) {r : MyGLRenderer K} (h : r.shapes = true) :
    ∃ d, r.onDrawFrame gl = some d :=
  ⟨_, if_pos h⟩

theorem onDrawFrame_shapes {gl : AndroidMatrix K} {r r' : MyGLRenderer K}
    {draws : List (Shape × (Fin 16 → K))} (h : r.onDrawFrame gl = some (r', draws)) :
    r'.shapes = r.shapes := by
  unfold MyGLRenderer.onDrawFrame at h
  split_ifs at h
  cases h
  rfl

theorem onDrawFrame_rotation {gl : AndroidMatrix K} {r r' : MyGLRenderer K}
    {draws : List (Shape × (Fin 16 → K))} (h : r.onDrawFrame gl = some (r', draws)) :
    r'.gRotationMatrixL = r.gRotationMatrixL := by
  unfold MyGLRenderer.onDrawFrame at h
  split_ifs at h
  cases h
  rfl

end Controller
