import Controller.App.ExportedPose
import Controller.App.MainActivity
import Controller.Lib.Triangles
import Mathlib.LinearAlgebra.CrossProduct

/-!
# `Cube.java` and `Line.java`

What the renderer draws, as OpenGL receives it: every shape is a list of triangles or lines, every
corner goes through the vertex shader, and a primitive covers the points between its corners, in
clip coordinates (before the division by `w`).

* `drawn_rigid`: in every run of the activity, what a frame covers of the cube is exactly the
  surface of the unit cube, turned and moved by the pose of `objLeft`, and of the three lines the
  segments of length five on its axes.
* `cube_depth_iff`: with a viewing transformation and a projection as the documentation of
  `android.opengl.Matrix` has them, the cube is cut off neither in front nor behind exactly when
  the pose keeps its centre from the depths `-9` and `20` by its extent along the view.

The arithmetic is exact, where the renderer and the shader compute with single precision.  The two
`draw` methods set the same uniforms and attributes on every call, so they depend on the matrix
alone.
-/

namespace Controller

open PartialRun Triangles

variable {K : Type} [Field K]

/-- A corner as the vertex shader returns it. -/
structure Corner (K : Type) where
  glPosition : Fin 4 → K
  vColor : Fin 4 → K

/-- The position `i` in a buffer of three coordinates for each vertex; the fourth is one. -/
def vPosition (buffer : List K) (i : ℕ) : Option (Fin 4 → K) := do
  let x ← buffer[3 * i]?
  let y ← buffer[3 * i + 1]?
  let z ← buffer[3 * i + 2]?
  some ![x, y, z, 1]

/-- The colour `i` in a buffer of four numbers for each vertex. -/
def vColor (buffer : List K) (i : ℕ) : Option (Fin 4 → K) := do
  let r ← buffer[4 * i]?
  let g ← buffer[4 * i + 1]?
  let b ← buffer[4 * i + 2]?
  let a ← buffer[4 * i + 3]?
  some ![r, g, b, a]

/-- The vertex shader: `gl_Position = uMVPMatrix * vPosition`. -/
def shade (mvpMatrix : Fin 16 → K) (position color : Fin 4 → K) : Corner K :=
  ⟨(colMajor mvpMatrix).mulVec position, color⟩

/-- `GL_TRIANGLES`: the vertices in threes. -/
def glTriangles : List ℕ → List (List ℕ)
  | i :: j :: k :: rest => [i, j, k] :: glTriangles rest
  | _ => []

/-- `GL_LINES`: the vertices in twos. -/
def glLines : List ℕ → List (List ℕ)
  | i :: j :: rest => [i, j] :: glLines rest
  | _ => []

/-- The corners of some primitives (`none` when a vertex is beyond its buffer). -/
def primitives (corner : ℕ → Option (Corner K)) (ps : List (List ℕ)) :
    Option (List (List (Corner K))) :=
  ps.mapM fun p => p.mapM corner

/-! ### `Cube` -/

namespace Cube

/-- `colors`. -/
def colors : List K :=
  [0, 1, 1, 1,
   1, 0, 0, 1,
   1, 1, 0, 1,
   0, 1, 0, 1,
   0, 0, 1, 1,
   1, 0, 1, 1,
   1, 1, 1, 1,
   0, 1, 1, 1]

/-- `vertices`. -/
def vertices : List K :=
  [-(1 / 2), -(1 / 2), -(1 / 2),
   1 / 2, -(1 / 2), -(1 / 2),
   1 / 2, 1 / 2, -(1 / 2),
   -(1 / 2), 1 / 2, -(1 / 2),
   -(1 / 2), -(1 / 2), 1 / 2,
   1 / 2, -(1 / 2), 1 / 2,
   1 / 2, 1 / 2, 1 / 2,
   -(1 / 2), 1 / 2, 1 / 2]

/-- `indices`. -/
def indices : List ℕ :=
  [0, 1, 3, 3, 1, 2,
   0, 1, 4, 4, 5, 1,
   1, 2, 5, 5, 6, 2,
   2, 3, 6, 6, 7, 3,
   3, 7, 4, 4, 3, 0,
   4, 5, 7, 7, 6, 5]

/-- `draw`. -/
def draw (mvpMatrix : Fin 16 → K) : Option (List (List (Corner K))) :=
  primitives
    (fun i => (vPosition vertices i).bind fun p => (vColor colors i).map (shade mvpMatrix p))
    (glTriangles indices)

end Cube

/-! ### `Line` -/

/-- `Line`. -/
structure Line (K : Type) where
  vertexBuffer : List K
  vertexCount : ℕ
  color : Fin 4 → K

/-- `new Line(LineCoords, color)`. -/
def Line.new (lineCoords : List K) (color : Fin 4 → K) : Line K :=
  ⟨lineCoords, lineCoords.length / 3, color⟩

/-- `draw`. -/
def Line.draw (l : Line K) (mvpMatrix : Fin 16 → K) : Option (List (List (Corner K))) :=
  primitives (fun i => (vPosition l.vertexBuffer i).map fun p => shade mvpMatrix p l.color)
    (glLines (List.range l.vertexCount))

/-- The shapes that `onSurfaceCreated` makes. -/
def Shape.draw : Shape → (Fin 16 → K) → Option (List (List (Corner K)))
  | .mLineLX => (Line.new [0, 0, 0, 5, 0, 0] ![1, 0, 0, 1]).draw
  | .mLineLY => (Line.new [0, 0, 0, 0, 5, 0] ![0, 1, 0, 1]).draw
  | .mLineLZ => (Line.new [0, 0, 0, 0, 0, 5] ![0, 0, 1, 1]).draw
  | .mCube => Cube.draw

/-! ### What primitives cover -/

section Covered

/-- A point of space, as the shader sees it. -/
def homogeneous (p : Vec3 K) : Fin 4 → K := ![p 0, p 1, p 2, 1]

/-- Where the shader puts the points of space. -/
def place (M : Matrix (Fin 4) (Fin 4) K) : Vec3 K →ᵃ[K] (Fin 4 → K) :=
  M.mulVecLin.toAffineMap.comp
    ⟨homogeneous, { toFun := fun p => ![p 0, p 1, p 2, 0]
                    map_add' := fun p q => by funext i; fin_cases i <;> simp
                    map_smul' := fun c p => by funext i; fin_cases i <;> simp },
      fun p v => by funext i; fin_cases i <;> simp [homogeneous]⟩

/-- What `place` does, in the words of the shader. -/
theorem place_mul (A M : Matrix (Fin 4) (Fin 4) K) (p : Vec3 K) :
    place (A * M) p = A.mulVec (transform M p) :=
  (Matrix.mulVec_mulVec (homogeneous p) A M).symm

variable [LinearOrder K]

/-- The points between the corners of some primitives. -/
def covered (ps : List (List (Corner K))) : Set (Fin 4 → K) :=
  {q | ∃ p ∈ ps, q ∈ convexHull K {x | ∃ c ∈ p, c.glPosition = x}}

/-- The same for corners in space, given by number. -/
def between (v : ℕ → Vec3 K) (ts : List (List ℕ)) : Set (Vec3 K) :=
  {q | ∃ t ∈ ts, q ∈ convexHull K {x | ∃ i ∈ t, v i = x}}

/-- The shader takes what is between the corners to what is between their positions. -/
theorem covered_map {corner : ℕ → Corner K} {v : ℕ → Vec3 K} {g : Vec3 K →ᵃ[K] (Fin 4 → K)}
    (h : ∀ i, (corner i).glPosition = g (v i)) (ts : List (List ℕ)) :
    covered (ts.map fun t => t.map corner) = g '' between v ts := by
  have himage : ∀ t : List ℕ, {x | ∃ c ∈ t.map corner, c.glPosition = x} =
      g '' {x | ∃ i ∈ t, v i = x} := by
    intro t
    ext x
    simp [h]
  ext q
  constructor
  · rintro ⟨p, hp, hq⟩
    obtain ⟨t, ht, rfl⟩ := List.mem_map.1 hp
    rw [himage, ← AffineMap.image_convexHull] at hq
    obtain ⟨x, hx, rfl⟩ := hq
    exact ⟨x, ⟨t, ht, hx⟩, rfl⟩
  · rintro ⟨x, ⟨t, ht, hx⟩, rfl⟩
    refine ⟨t.map corner, List.mem_map_of_mem ht, ?_⟩
    rw [himage, ← AffineMap.image_convexHull]
    exact ⟨x, hx, rfl⟩

theorem between_append (v : ℕ → Vec3 K) (ts us : List (List ℕ)) :
    between v (ts ++ us) = between v ts ∪ between v us := by
  ext q
  simp [between, or_and_right, exists_or]

/-! ### The surface of the cube -/

variable [IsStrictOrderedRing K]

/-- The corner `n` of the cube is on the positive side of the axis `l`. -/
def Cube.positive (n : ℕ) : Fin 3 → Bool :=
  ![[1, 2, 5, 6].contains n, [2, 3, 6, 7].contains n, [4, 5, 6, 7].contains n]

/-- The corner `n` of the cube. -/
def Cube.vertex (n : ℕ) : Vec3 K := fun l => if Cube.positive n l then 1 / 2 else -(1 / 2)

/-- The surface of the cube with side one around the origin. -/
def surface (K : Type) [Field K] [LinearOrder K] : Set (Vec3 K) :=
  {p | (∀ i, |p i| ≤ 1 / 2) ∧ ∃ i, |p i| = 1 / 2}

/-- The face on which the coordinate `k` is `x`. -/
def face (k : Fin 3) (x : K) : Set (Vec3 K) := {p | p k = x ∧ ∀ i, |p i| ≤ 1 / 2}

theorem surface_eq_faces : surface K =
    face 2 (-(1 / 2)) ∪ face 1 (-(1 / 2)) ∪ face 0 (1 / 2) ∪ face 1 (1 / 2) ∪
      face 0 (-(1 / 2)) ∪ face 2 (1 / 2) := by
  ext p
  have habs : ∀ x : K, |x| = 1 / 2 ↔ x = 1 / 2 ∨ x = -(1 / 2) := fun x => abs_eq (by norm_num)
  simp only [surface, face, Set.mem_ofPred_eq, Set.mem_union, Fin.exists_fin_succ, Fin.exists_fin_zero,
    habs]
  tauto

/-- Corners that differ in one coordinate each span a face. -/
theorem parallelogram_face {a b c : Vec3 K} {i j k : Fin 3}
    (hijk : ∀ l, l = i ∨ l = j ∨ l = k) (hi : |a i| = 1 / 2) (hj : |a j| = 1 / 2)
    (hk : |a k| = 1 / 2) (hbi : b i = -a i) (hbj : b j = a j) (hbk : b k = a k)
    (hci : c i = a i) (hcj : c j = -a j) (hck : c k = a k) :
    parallelogram K a b c = face k (a k) := by
  have hsq : ∀ x : K, |x| = 1 / 2 → x * x = 1 / 4 := by
    intro x hx
    rw [← abs_mul_abs_self, hx]
    norm_num
  have hcoord : ∀ {x u : K}, |x| = 1 / 2 → 0 ≤ u → u ≤ 1 → |x - 2 * u * x| ≤ 1 / 2 := by
    intro x u hx h0 h1
    rw [show x - 2 * u * x = (1 - 2 * u) * x by ring, abs_mul, hx]
    have hle : |1 - 2 * u| ≤ 1 := abs_le.2 ⟨by linarith, by linarith⟩
    linarith
  ext p
  constructor
  · rintro ⟨u, v, ⟨hu, hu1⟩, ⟨hv, hv1⟩, rfl⟩
    refine ⟨by simp [hbk, hck], fun l => ?_⟩
    rcases hijk l with rfl | rfl | rfl
    · have h : (a + u • (b - a) + v • (c - a)) l = a l - 2 * u * a l := by
        simp [hbi, hci]; ring
      rw [h]
      exact hcoord hi hu hu1
    · have h : (a + u • (b - a) + v • (c - a)) l = a l - 2 * v * a l := by
        simp [hbj, hcj]; ring
      rw [h]
      exact hcoord hj hv hv1
    · simp [hbk, hck, hk]
  · rintro ⟨hpk, hp⟩
    -- the coordinate along an edge from `a` is read off by multiplying with `a`
    have hunit : ∀ l, |a l| = 1 / 2 → 0 ≤ (1 - 4 * a l * p l) / 2 ∧
        (1 - 4 * a l * p l) / 2 ≤ 1 := by
      intro l hl
      have hle : |a l * p l| ≤ 1 / 4 := by
        rw [abs_mul, hl]
        linarith [hp l]
      obtain ⟨h1, h2⟩ := abs_le.1 hle
      constructor <;> linarith
    refine ⟨(1 - 4 * a i * p i) / 2, (1 - 4 * a j * p j) / 2, hunit i hi, hunit j hj, ?_⟩
    funext l
    rcases hijk l with rfl | rfl | rfl
    · simp only [Pi.add_apply, Pi.smul_apply, Pi.sub_apply, smul_eq_mul, hbi, hci]
      linear_combination (-4 * p l) * hsq _ hi
    · simp only [Pi.add_apply, Pi.smul_apply, Pi.sub_apply, smul_eq_mul, hbj, hcj]
      linear_combination (-4 * p l) * hsq _ hj
    · simp only [Pi.add_apply, Pi.smul_apply, Pi.sub_apply, smul_eq_mul, hbk, hck, hpk]
      ring

theorem Cube.abs_vertex (n : ℕ) (l : Fin 3) : |(Cube.vertex n : Vec3 K) l| = 1 / 2 := by
  unfold Cube.vertex
  split_ifs
  · exact abs_of_pos (by norm_num)
  · rw [abs_neg]
    exact abs_of_pos (by norm_num)

/-- From the corner `a` the corner `b` is across the axis `i`, `c` across `j`, and `d` across
both. -/
def Cube.Square (a b c d : ℕ) (i j k : Fin 3) : Prop :=
  ∀ l, (l = i ∧ l ≠ j ∧ l ≠ k ∨ l = j ∧ l ≠ i ∧ l ≠ k ∨ l = k ∧ l ≠ i ∧ l ≠ j) ∧
    Cube.positive b l = (Cube.positive a l ^^ decide (l = i)) ∧
    Cube.positive c l = (Cube.positive a l ^^ decide (l = j)) ∧
    Cube.positive d l = (Cube.positive a l ^^ decide (l ≠ k))

instance (a b c d : ℕ) (i j k : Fin 3) : Decidable (Cube.Square a b c d i j k) :=
  inferInstanceAs (Decidable (∀ _, _))

/-- The triangles `t` and `u`, with the diagonal from `b` to `c`, fill a face. -/
theorem between_face {a b c d : ℕ} {t u : List ℕ} {i j k : Fin 3} (ht : t.Perm [a, b, c])
    (hu : u.Perm [d, b, c]) (h : Cube.Square a b c d i j k) :
    between (Cube.vertex : ℕ → Vec3 K) [t, u] = face k (Cube.vertex a k) := by
  have hflip : ∀ {m : ℕ} {l : Fin 3} {p : Prop} [Decidable p],
      Cube.positive m l = (Cube.positive a l ^^ decide p) →
      (Cube.vertex m : Vec3 K) l = if p then -Cube.vertex a l else Cube.vertex a l := by
    intro m l p _ hm
    unfold Cube.vertex
    rw [hm]
    cases Cube.positive a l <;> by_cases hp : p <;> simp [hp]
  have hb := fun l => hflip (h l).2.1
  have hc := fun l => hflip (h l).2.2.1
  have hd := fun l => hflip (h l).2.2.2
  have hij : i ≠ j := by have := (h i).1; tauto
  have hik : i ≠ k := by have := (h i).1; tauto
  have hjk : j ≠ k := by have := (h j).1; tauto
  have hface : parallelogram K (Cube.vertex a) (Cube.vertex b) (Cube.vertex c) =
      face k (Cube.vertex a k) :=
    parallelogram_face (fun l => by have := (h l).1; tauto) (Cube.abs_vertex a i)
      (Cube.abs_vertex a j) (Cube.abs_vertex a k) (by simp [hb]) (by simp [hb, hij.symm])
      (by simp [hb, hik.symm]) (by simp [hc, hij]) (by simp [hc]) (by simp [hc, hjk.symm])
  have hopp : (Cube.vertex d : Vec3 K) = Cube.vertex b + Cube.vertex c - Cube.vertex a := by
    funext l
    rcases (h l).1 with ⟨rfl, h1, h2⟩ | ⟨rfl, h1, h2⟩ | ⟨rfl, h1, h2⟩ <;>
      simp [hb, hc, hd, h1, h2]
  rw [← hface, parallelogram_eq hopp]
  have hcorners : ∀ {s : List ℕ} {x y z : ℕ}, s.Perm [x, y, z] →
      {p : Vec3 K | ∃ l ∈ s, Cube.vertex l = p} = {Cube.vertex x, Cube.vertex y, Cube.vertex z} := by
    intro s x y z hs
    ext p
    simp [hs.mem_iff, eq_comm]
  ext q
  simp [between, hcorners ht, hcorners hu]

/-- The six faces of `indices` are the surface of the cube. -/
theorem between_indices : between (Cube.vertex : ℕ → Vec3 K) (glTriangles Cube.indices) =
    surface K := by
  have hsplit : glTriangles Cube.indices =
      [[0, 1, 3], [3, 1, 2]] ++ [[0, 1, 4], [4, 5, 1]] ++ [[1, 2, 5], [5, 6, 2]] ++
        [[2, 3, 6], [6, 7, 3]] ++ [[3, 7, 4], [4, 3, 0]] ++ [[4, 5, 7], [7, 6, 5]] := rfl
  have front : between (Cube.vertex : ℕ → Vec3 K) [[0, 1, 3], [3, 1, 2]] = face 2 (-(1 / 2)) :=
    between_face (a := 0) (b := 1) (c := 3) (d := 2) (i := 0) (j := 1) (by decide) (by decide)
      (by decide)
  have bottom : between (Cube.vertex : ℕ → Vec3 K) [[0, 1, 4], [4, 5, 1]] = face 1 (-(1 / 2)) :=
    between_face (a := 0) (b := 1) (c := 4) (d := 5) (i := 0) (j := 2) (by decide) (by decide)
      (by decide)
  have right : between (Cube.vertex : ℕ → Vec3 K) [[1, 2, 5], [5, 6, 2]] = face 0 (1 / 2) :=
    between_face (a := 1) (b := 2) (c := 5) (d := 6) (i := 1) (j := 2) (by decide) (by decide)
      (by decide)
  have top : between (Cube.vertex : ℕ → Vec3 K) [[2, 3, 6], [6, 7, 3]] = face 1 (1 / 2) :=
    between_face (a := 2) (b := 3) (c := 6) (d := 7) (i := 0) (j := 2) (by decide) (by decide)
      (by decide)
  have left : between (Cube.vertex : ℕ → Vec3 K) [[3, 7, 4], [4, 3, 0]] = face 0 (-(1 / 2)) :=
    between_face (a := 7) (b := 3) (c := 4) (d := 0) (i := 2) (j := 1) (by decide) (by decide)
      (by decide)
  have rear : between (Cube.vertex : ℕ → Vec3 K) [[4, 5, 7], [7, 6, 5]] = face 2 (1 / 2) :=
    between_face (a := 4) (b := 5) (c := 7) (d := 6) (i := 0) (j := 1) (by decide) (by decide)
      (by decide)
  rw [hsplit, surface_eq_faces]
  simp only [between_append, front, bottom, right, top, left, rear]

/-! ### The shapes of a frame -/

/-- The points of a shape, before its matrix. -/
def Shape.points (K : Type) [Field K] [LinearOrder K] : Shape → Set (Vec3 K)
  | .mLineLX => {p | ∃ x, 0 ≤ x ∧ x ≤ 5 ∧ p = ![x, 0, 0]}
  | .mLineLY => {p | ∃ x, 0 ≤ x ∧ x ≤ 5 ∧ p = ![0, x, 0]}
  | .mLineLZ => {p | ∃ x, 0 ≤ x ∧ x ≤ 5 ∧ p = ![0, 0, x]}
  | .mCube => surface K

/-- The corner `n` of the cube in the colour of the list. -/
def Cube.corner (mvpMatrix : Fin 16 → K) (n : ℕ) : Corner K :=
  shade mvpMatrix (homogeneous (Cube.vertex n)) ((vColor Cube.colors n).getD 0)

omit [LinearOrder K] [IsStrictOrderedRing K] in
theorem Cube.draw_eq (mvpMatrix : Fin 16 → K) :
    Cube.draw mvpMatrix =
      some ((glTriangles Cube.indices).map fun t => t.map (Cube.corner mvpMatrix)) := by
  rfl

theorem Cube.draw_covered (mvpMatrix : Fin 16 → K) :
    ∃ ps, Cube.draw mvpMatrix = some ps ∧ covered ps = place (colMajor mvpMatrix) '' surface K := by
  refine ⟨_, Cube.draw_eq mvpMatrix, ?_⟩
  rw [← between_indices]
  exact covered_map (fun _ => rfl) _

/-- A line from the origin to `e`. -/
theorem Line.draw_covered {color : Fin 4 → K} {e : Vec3 K} (mvpMatrix : Fin 16 → K) :
    ∃ ps, (Line.new [0, 0, 0, e 0, e 1, e 2] color).draw mvpMatrix = some ps ∧
      covered ps = place (colMajor mvpMatrix) '' {p | ∃ x : K, 0 ≤ x ∧ x ≤ 1 ∧ p = x • e} := by
  have hdraw : (Line.new [0, 0, 0, e 0, e 1, e 2] color).draw mvpMatrix =
      some ([[0, 1]].map fun t => t.map
        fun n => shade mvpMatrix (homogeneous (if n = 0 then 0 else e)) color) := by
    have hcount : [0, 0, 0, e 0, e 1, e 2].length / 3 = 2 := by simp
    have hlines : glLines (List.range 2) = [[0, 1]] := by decide
    simp only [Line.draw, Line.new, hcount, hlines]
    simp [primitives, vPosition, homogeneous]
  refine ⟨_, hdraw, ?_⟩
  rw [covered_map (v := fun n => if n = 0 then 0 else e) (g := place (colMajor mvpMatrix))
    (fun _ => rfl)]
  congr 1
  ext p
  have hcorners : {x : Vec3 K | ∃ i ∈ [0, 1], (if i = 0 then 0 else e) = x} = {0, e} := by
    ext x
    simp [eq_comm]
  simp only [between, List.mem_singleton, exists_eq_left, hcorners, convexHull_pair,
    segment_eq_image]
  simp [eq_comm, and_assoc]

/-- Every shape covers its points, moved by its matrix. -/
theorem Shape.draw_covered (shape : Shape) (mvpMatrix : Fin 16 → K) :
    ∃ ps, shape.draw mvpMatrix = some ps ∧
      covered ps = place (colMajor mvpMatrix) '' shape.points K := by
  have hscale : ∀ e : K → Vec3 K, (∀ x y, e (x * y) = x • e y) →
      {p | ∃ x : K, 0 ≤ x ∧ x ≤ 1 ∧ p = x • e 5} = {p | ∃ x, 0 ≤ x ∧ x ≤ 5 ∧ p = e x} := by
    intro e he
    ext p
    constructor
    · rintro ⟨x, h0, h1, rfl⟩
      exact ⟨x * 5, by positivity, by linarith, (he x 5).symm⟩
    · rintro ⟨x, h0, h1, rfl⟩
      refine ⟨x / 5, by positivity, by linarith, ?_⟩
      rw [← he, div_mul_cancel₀ x (by norm_num)]
  cases shape with
  | mLineLX =>
    rw [Shape.points, ← hscale (fun x => ![x, 0, 0]) (fun x y => by simp)]
    exact Line.draw_covered (e := ![5, 0, 0]) mvpMatrix
  | mLineLY =>
    rw [Shape.points, ← hscale (fun x => ![0, x, 0]) (fun x y => by simp)]
    exact Line.draw_covered (e := ![0, 5, 0]) mvpMatrix
  | mLineLZ =>
    rw [Shape.points, ← hscale (fun x => ![0, 0, x]) (fun x y => by simp)]
    exact Line.draw_covered (e := ![0, 0, 5]) mvpMatrix
  | mCube => exact Cube.draw_covered mvpMatrix

/-- Where a pose puts a point of a shape: OpenGL reads the rows of the rotation as columns. -/
def posed (R : Mat33 K) (t p : Vec3 K) : Vec3 K := R.transpose.mulVec p + t

/-- A shape drawn with the pose `R`, `t` and the matrix `A` after it. -/
theorem draw_covered_posed {A : Matrix (Fin 4) (Fin 4) K} {mvpMatrix : Fin 16 → K} {R : Mat33 K}
    {t : Vec3 K} (h : colMajor mvpMatrix = A * colMajor (modelMatrix R t)) (shape : Shape) :
    ∃ ps, shape.draw mvpMatrix = some ps ∧
      covered ps = (fun p => A.mulVec (homogeneous (posed R t p))) '' shape.points K := by
  obtain ⟨ps, hps, hcov⟩ := shape.draw_covered mvpMatrix
  refine ⟨ps, hps, hcov.trans (Set.image_congr fun p _ => ?_)⟩
  rw [h, place_mul, transform_modelMatrix]
  rfl

end Covered

/-! ### On concrete numbers -/

/-- A frame, then the first callbacks of the surface. -/
noncomputable def firstFrames : List (UiStep ℝ) :=
  [.onCameraFrame (sampleFrame 1 halfTurn), .onSurfaceCreated, .onSurfaceChanged 1600 720]

/-- After these steps a frame can be drawn. -/
theorem firstFrames_draws : ∃ s r d, runUi realCv realMatrix (.initMainUi :: firstFrames) = some s ∧
    s.gLView = some r ∧ r.onDrawFrame realMatrix = some d := by
  have h0 : Shows (MainActivity.load ℝ).initMainUi ⟨[], .initial⟩ :=
    initMainUi_shows load_layout rfl rfl rfl rfl rfl
  have hRod : ∀ v, Orthogonal (realCv.Rodrigues v) := Rotation.rodrigues_orthogonal
  obtain ⟨t, ht, hsh⟩ := onCameraFrame_shows hRod h0 (sampleFrame 1 halfTurn)
  obtain ⟨r, hr, -⟩ := hsh.renderer
  let r' := MyGLRenderer.onSurfaceChanged realMatrix r.onSurfaceCreated 1600 720
  refine ⟨{ t with gLView := some r' }, r', _, ?_, rfl, if_pos rfl⟩
  have hframe : uiStep realCv realMatrix (MainActivity.load ℝ).initMainUi
      (.onCameraFrame (sampleFrame 1 halfTurn)) = some t := ht
  simp only [runUi, firstFrames, run_cons, uiStep, Option.bind_some, run_nil] at hframe ⊢
  rw [hframe]
  simp only [Option.bind_some, MainActivity.withRenderer, hr, Option.map_some]
  rfl

section Covered

variable [LinearOrder K] [IsStrictOrderedRing K]

/-! ### The depth of the cube -/

/-- How far a cube turned by `R` reaches along the view from its centre. -/
def extent (R : Mat33 K) : K := (|R 0 2| + |R 1 2| + |R 2 2|) / 2

omit [LinearOrder K] [IsStrictOrderedRing K] in
theorem posed_depth (R : Mat33 K) (t p : Vec3 K) :
    posed R t p 2 = R 0 2 * p 0 + R 1 2 * p 1 + R 2 2 * p 2 + t 2 := by
  simp [posed, Matrix.mulVec, dotProduct, Fin.sum_univ_three]

/-- The corner of the cube that is farthest along the view. -/
def farthest (R : Mat33 K) : Vec3 K := fun i => if 0 ≤ R i 2 then 1 / 2 else -(1 / 2)

theorem mul_farthest (R : Mat33 K) (i : Fin 3) : R i 2 * farthest R i = |R i 2| / 2 := by
  unfold farthest
  split_ifs with h
  · rw [abs_of_nonneg h]
    ring
  · rw [abs_of_neg (not_le.1 h)]
    ring

omit [IsStrictOrderedRing K] in
theorem mem_surface_of_abs {p : Vec3 K} (h : ∀ i, |p i| = 1 / 2) : p ∈ surface K :=
  ⟨fun i => (h i).le, 0, h 0⟩

theorem abs_farthest (R : Mat33 K) (i : Fin 3) : |farthest R i| = 1 / 2 := by
  unfold farthest
  split_ifs
  · exact abs_of_pos (by norm_num)
  · rw [abs_neg]
    exact abs_of_pos (by norm_num)

/-- The depths of the points of a cube. -/
theorem surface_depth_iff (R : Mat33 K) (t : Vec3 K) (near far : K) :
    (∀ p ∈ surface K, near ≤ posed R t p 2 ∧ posed R t p 2 ≤ far) ↔
      near + extent R ≤ t 2 ∧ t 2 ≤ far - extent R := by
  constructor
  · intro h
    have hfar := (h (farthest R) (mem_surface_of_abs (abs_farthest R))).2
    have hnear := (h (-farthest R) (mem_surface_of_abs fun i => by
      rw [Pi.neg_apply, abs_neg, abs_farthest])).1
    rw [posed_depth] at hfar hnear
    simp only [Pi.neg_apply, mul_neg, mul_farthest] at hfar hnear
    unfold extent
    constructor <;> linarith
  · rintro ⟨hnear, hfar⟩ p ⟨hp, -⟩
    have hterm : ∀ i, |R i 2 * p i| ≤ |R i 2| / 2 := by
      intro i
      rw [abs_mul]
      nlinarith [hp i, abs_nonneg (R i 2)]
    have h0 := abs_le.1 (hterm 0)
    have h1 := abs_le.1 (hterm 1)
    have h2 := abs_le.1 (hterm 2)
    unfold extent at hnear hfar
    rw [posed_depth]
    constructor <;> linarith [h0.1, h0.2, h1.1, h1.2, h2.1, h2.2]

end Covered

/-! ### The view and the projection -/

section Depth

variable [LinearOrder K] [IsStrictOrderedRing K]

/-- `setLookAtM` gives a viewing transformation: the third coordinate of a point is its distance
from `eye` against the direction of `center`. -/
def AndroidMatrix.LooksAt (gl : AndroidMatrix K) : Prop :=
  ∀ (eye center up : Vec3 K) (d : K), crossProduct (center - eye) up ≠ 0 → 0 < d →
    d * d = (center - eye) ⬝ᵥ (center - eye) → ∀ p,
      let q := (colMajor (gl.setLookAtM eye center up)).mulVec (homogeneous p)
      q 2 = -((center - eye) ⬝ᵥ (p - eye) / d) ∧ q 3 = 1

/-- `perspectiveM` gives a projection: `w` is the distance in front of the eye, the depth is a
function of this distance alone, and the clip planes are at `zNear` and `zFar`. -/
def AndroidMatrix.Clips (gl : AndroidMatrix K) : Prop :=
  ∀ fovy aspect zNear zFar : K, 0 < fovy → fovy < 180 → 0 < aspect → 0 < zNear → zNear < zFar →
    ∃ a b, colMajor (gl.perspectiveM fovy aspect zNear zFar) 2 = ![0, 0, a, b] ∧
      colMajor (gl.perspectiveM fovy aspect zNear zFar) 3 = ![0, 0, -1, 0] ∧
      b - a * zNear = -zNear ∧ b - a * zFar = zFar

/-- The depth of a point in clip coordinates is inside the view volume. -/
def InDepth (q : Fin 4 → K) : Prop := -q 3 ≤ q 2 ∧ q 2 ≤ q 3

/-- The view of `onDrawFrame`: from ten steps behind the origin along the third axis. -/
theorem LooksAt.depth {gl : AndroidMatrix K} (h : gl.LooksAt) (p : Vec3 K) :
    (colMajor (gl.setLookAtM ![0, 0, -10] ![0, 0, 0] ![0, 1, 0])).mulVec (homogeneous p) 2 =
        -(p 2 + 10) ∧
      (colMajor (gl.setLookAtM ![0, 0, -10] ![0, 0, 0] ![0, 1, 0])).mulVec (homogeneous p) 3 =
        1 := by
  have hup : crossProduct (![0, 0, 0] - ![0, 0, -10] : Vec3 K) ![0, 1, 0] ≠ 0 := by
    intro h0
    have := congrFun h0 0
    simp [cross_apply] at this
  obtain ⟨h2, h3⟩ := h _ _ _ 10 hup (by norm_num) (by simp [dotProduct, Fin.sum_univ_three]) p
  refine ⟨h2.trans ?_, h3⟩
  simp [dotProduct, Fin.sum_univ_three]

/-- Depths from `1` to `30` in front of the eye are inside the view volume. -/
theorem inDepth_iff {gl : AndroidMatrix K} (hlook : gl.LooksAt) (hclip : gl.Clips) {ratio : K}
    (hratio : 0 < ratio) (p : Vec3 K) :
    InDepth ((colMajor (gl.perspectiveM 60 ratio 1 30) *
      colMajor (gl.setLookAtM ![0, 0, -10] ![0, 0, 0] ![0, 1, 0])).mulVec (homogeneous p)) ↔
        -9 ≤ p 2 ∧ p 2 ≤ 20 := by
  obtain ⟨a, b, hrow2, hrow3, hnear, hfar⟩ :=
    hclip 60 ratio 1 30 (by norm_num) (by norm_num) hratio (by norm_num) (by norm_num)
  obtain ⟨hz, hw⟩ := LooksAt.depth hlook p
  rw [← Matrix.mulVec_mulVec]
  set q := (colMajor (gl.setLookAtM ![0, 0, -10] ![0, 0, 0] ![0, 1, 0])).mulVec (homogeneous p)
  have h2 : (colMajor (gl.perspectiveM 60 ratio 1 30)).mulVec q 2 = b - a * (p 2 + 10) := by
    simp [Matrix.mulVec, hrow2, dotProduct, Fin.sum_univ_four, hz, hw]
    ring
  have h3 : (colMajor (gl.perspectiveM 60 ratio 1 30)).mulVec q 3 = p 2 + 10 := by
    simp [Matrix.mulVec, hrow3, dotProduct, Fin.sum_univ_four, hz]
  have ha : a = -(31 / 29) := by linarith
  have hb : b = -(60 / 29) := by linarith
  rw [InDepth, h2, h3, ha, hb]
  constructor
  · rintro ⟨h1, h2⟩
    constructor <;> linarith
  · rintro ⟨h1, h2⟩
    constructor <;> linarith

/-! ### The projection along a run -/

/-- The renderer has the projection of `onSurfaceChanged` for a display with this ratio. -/
def Projects (gl : AndroidMatrix K) (ratio : K) (s : MainActivity K) : Prop :=
  ∃ r, s.gLView = some r ∧ r.projectionMatrix = gl.perspectiveM 60 ratio 1 30

/-- The steps that neither make a new view nor give it a size. -/
def KeepsSize : UiStep K → Prop
  | .initMainUi | .onSurfaceChanged _ _ => False
  | .onCameraFrame _ | .onSurfaceCreated | .onDrawFrame => True

omit [IsStrictOrderedRing K] in
theorem uiStep_projects {cv : OpenCv K} {gl : AndroidMatrix K} {ratio : K} {s s' : MainActivity K}
    {e : UiStep K} (h : Projects gl ratio s) (he : KeepsSize e)
    (hstep : uiStep cv gl s e = some s') : Projects gl ratio s' := by
  obtain ⟨r, hr, hproj⟩ := h
  cases e with
  | initMainUi => exact he.elim
  | onSurfaceChanged width height => exact he.elim
  | onCameraFrame f =>
    simp only [uiStep, MainActivity.onCameraFrame, Option.bind_eq_bind,
      Option.bind_eq_some_iff] at hstep
    obtain ⟨⟨native, out⟩, -, info, -, hstep⟩ := hstep
    split_ifs at hstep with hret
    · obtain ⟨r', hr', hstep⟩ := Option.bind_eq_some_iff.1 hstep
      rw [hr] at hr'
      cases hr'
      cases hstep
      exact ⟨_, rfl, hproj⟩
    · cases hstep
      exact ⟨r, hr, hproj⟩
  | onSurfaceCreated =>
    simp only [uiStep, MainActivity.withRenderer, hr, Option.map_some, Option.some.injEq] at hstep
    subst hstep
    exact ⟨_, rfl, hproj⟩
  | onDrawFrame =>
    simp only [uiStep, hr, Option.bind_eq_bind, Option.bind_some, Option.bind_eq_some_iff,
      Option.some.injEq] at hstep
    obtain ⟨d, hd, rfl⟩ := hstep
    unfold MyGLRenderer.onDrawFrame at hd
    split_ifs at hd
    cases hd
    exact ⟨_, rfl, hproj⟩

/-- The last view has been given its size, and the last size it was given is positive. -/
def Sized (es : List (UiStep K)) : Prop :=
  ∃ pre width height post, es = pre ++ .onSurfaceChanged width height :: post ∧
    0 < width ∧ 0 < height ∧ ∀ e ∈ post, KeepsSize e

theorem runUi_projects {cv : OpenCv K} {gl : AndroidMatrix K} {es : List (UiStep K)}
    {s : MainActivity K} (h : Sized es) (hs : runUi cv gl es = some s) :
    ∃ ratio, 0 < ratio ∧ Projects gl ratio s := by
  obtain ⟨pre, width, height, post, rfl, hwidth, hheight, hpost⟩ := h
  refine ⟨(width : K) / (height : K), div_pos (by exact_mod_cast hwidth)
    (by exact_mod_cast hheight), ?_⟩
  unfold runUi at hs
  rw [run_append] at hs
  obtain ⟨t, -, ht⟩ := Option.bind_eq_some_iff.1 hs
  rw [run_cons] at ht
  obtain ⟨u, hu, ht⟩ := Option.bind_eq_some_iff.1 ht
  have h0 : Projects gl ((width : K) / (height : K)) u := by
    obtain ⟨r, -, rfl⟩ := Option.map_eq_some_iff.1 hu
    exact ⟨_, rfl, rfl⟩
  exact run_induction (C := fun _ e => KeepsSize e) (fun _ s => Projects gl _ s) h0
    (fun _ _ _ _ _ h he hstep => uiStep_projects h he hstep)
    (along_of_forall fun _ e he => hpost e he) ht

/-- **When the cube is not cut off in depth.**  In exact arithmetic, and for functions of
`android.opengl.Matrix` that do what their documentation says: in every run in which the last view
has been given its size, the cube that `onDrawFrame` draws is inside the view volume in depth
exactly when the translation of `objLeft` keeps it from the planes `-9` and `20` by its extent
along the view; and `onDrawFrame` does draw it once the surface has been created. -/
theorem cube_depth_iff (cv : OpenCv K) (gl : AndroidMatrix K)
    (hRod : ∀ r, Orthogonal (cv.Rodrigues r)) (hgl : gl.Multiplies) (hlook : gl.LooksAt)
    (hclip : gl.Clips) (es : List (UiStep K)) (s : MainActivity K)
    (hs : runUi cv gl (.initMainUi :: es) = some s) (hsize : Sized es) :
    ∃ r R t, s.gLView = some r ∧ s.native.mem.mats.read s.native.objLeft.gR = some R ∧
      s.native.mem.vecs.read s.native.objLeft.gt = some t ∧
      (surfaceCreated es = true → ∃ r' draws mvpMatrix, r.onDrawFrame gl = some (r', draws) ∧
        (.mCube, mvpMatrix) ∈ draws) ∧
      ∀ r' draws mvpMatrix, r.onDrawFrame gl = some (r', draws) →
        (.mCube, mvpMatrix) ∈ draws → ∃ ps, Cube.draw mvpMatrix = some ps ∧
          ((∀ q ∈ covered ps, InDepth q) ↔
            -9 + extent R ≤ t 2 ∧ t 2 ≤ 20 - extent R) := by
  have hsized : Sized (.initMainUi :: es) := by
    obtain ⟨pre, width, height, post, rfl, hpost⟩ := hsize
    exact ⟨.initMainUi :: pre, width, height, post, rfl, hpost⟩
  obtain ⟨ratio, hratio, r, hr, hproj⟩ := runUi_projects hsized hs
  obtain ⟨a, h⟩ := runUi_shows hRod hs
  obtain ⟨r₀, hr₀, hrmat⟩ := h.renderer
  rw [hr] at hr₀
  cases hr₀
  refine ⟨r, a.pose.R, a.pose.t, hr, h.native.gR, h.native.gt, fun hcreated => ?_,
    fun r' draws m hd hmem => ?_⟩
  · obtain ⟨⟨r', draws⟩, hd⟩ := onDrawFrame_defined gl ((runUi_shapes hs r hr).trans hcreated)
    have hmem : Shape.mCube ∈ draws.map Prod.fst := by
      rw [(onDrawFrame_matrices hgl hd).1]
      simp
    obtain ⟨⟨-, m⟩, hm, rfl⟩ := List.mem_map.1 hmem
    exact ⟨r', draws, m, hd, hm⟩
  have hmat := (onDrawFrame_matrices hgl hd).2 _ hmem
  have hview : r'.viewMatrix = gl.setLookAtM ![0, 0, -10] ![0, 0, 0] ![0, 1, 0] ∧
      r'.projectionMatrix = r.projectionMatrix := by
    unfold MyGLRenderer.onDrawFrame at hd
    split_ifs at hd
    cases hd
    exact ⟨rfl, rfl⟩
  rw [hview.1, hview.2, hproj, hrmat] at hmat
  obtain ⟨ps, hps, hcov⟩ := draw_covered_posed hmat .mCube
  refine ⟨ps, hps, ?_⟩
  rw [hcov, ← surface_depth_iff]
  simp only [Set.forall_mem_image, inDepth_iff hlook hclip hratio]
  rfl

end Depth

theorem realMatrix_looksAt : realMatrix.LooksAt := by
  intro eye center up d _ hd hlen p
  have hsqrt : Real.sqrt ((center 0 - eye 0) ^ 2 + (center 1 - eye 1) ^ 2 +
      (center 2 - eye 2) ^ 2) = d := by
    rw [← Real.sqrt_mul_self hd.le, hlen]
    simp [dotProduct, Fin.sum_univ_three, sq]
  simp only [realMatrix, colMajor_toArray]
  constructor
  · simp [lookAt, hsqrt, homogeneous, Matrix.mulVec, dotProduct, Fin.sum_univ_four,
      Fin.sum_univ_three]
    ring
  · simp [lookAt, homogeneous, Matrix.mulVec, dotProduct, Fin.sum_univ_four]

theorem realMatrix_clips : realMatrix.Clips := by
  intro fovy aspect zNear zFar _ _ _ _ hfar
  have hne : zNear - zFar ≠ 0 := (sub_neg.2 hfar).ne
  refine ⟨(zFar + zNear) / (zNear - zFar), 2 * zFar * zNear / (zNear - zFar), ?_, ?_, ?_, ?_⟩
  · rw [realMatrix, colMajor_toArray]
    rfl
  · rw [realMatrix, colMajor_toArray]
    rfl
  · field_simp
    ring
  · field_simp
    ring

/-- The same frames: the view has been given its size. -/
theorem cube_depth_iff_firstFrames : ∃ s r R t r' draws,
    runUi realCv realMatrix (.initMainUi :: firstFrames) = some s ∧ Sized firstFrames ∧
      (∀ v, Orthogonal (realCv.Rodrigues v)) ∧ realMatrix.Multiplies ∧ realMatrix.LooksAt ∧
      realMatrix.Clips ∧ s.gLView = some r ∧
      s.native.mem.mats.read s.native.objLeft.gR = some R ∧
      s.native.mem.vecs.read s.native.objLeft.gt = some t ∧
      r.onDrawFrame realMatrix = some (r', draws) ∧
      ∀ mvpMatrix, (.mCube, mvpMatrix) ∈ draws → ∃ ps, Cube.draw mvpMatrix = some ps ∧
        ((∀ q ∈ covered ps, InDepth q) ↔ -9 + extent R ≤ t 2 ∧ t 2 ≤ 20 - extent R) := by
  have hRod : ∀ v, Orthogonal (realCv.Rodrigues v) := Rotation.rodrigues_orthogonal
  have hgl : realMatrix.Multiplies := fun _ _ _ => colMajor_toArray _
  have hsize : Sized firstFrames :=
    ⟨[_, _], 1600, 720, [], rfl, by norm_num, by norm_num, by simp⟩
  obtain ⟨s, r, ⟨r', draws⟩, hrun, hr, hd⟩ := firstFrames_draws
  obtain ⟨r₁, R, t, hr₁, hR, ht, -, hdepth⟩ :=
    cube_depth_iff realCv realMatrix hRod hgl realMatrix_looksAt realMatrix_clips _ s hrun hsize
  rw [hr] at hr₁
  cases hr₁
  exact ⟨s, r, R, t, r', draws, hrun, hsize, hRod, hgl, realMatrix_looksAt, realMatrix_clips, hr,
    hR, ht, hd, fun m hm => hdepth r' draws m hd hm⟩

end Controller
