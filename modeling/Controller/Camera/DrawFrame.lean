import Controller.Camera.FrameSize
import Controller.Lib.Binary32

/-!
# Where a frame is drawn

`initializeCamera` computes `mScale` for a view that fills its parent, and `deliverAndDrawFrame`
draws the picture in the middle of the canvas, scaled in single precision, or in its own size.

`picture_placed`: for every list of supported sizes and every surface, the picture is in the middle
up to a pixel.  Scaled, it never leaves the canvas, it fills one direction exactly in spite of the
rounded quotient, and the other one belongs to its aspect ratio; in its own size it stays on the
canvas whenever one of the sizes fits.
-/

namespace Controller.Camera

open Binary32

/-- `mScale`, set by `initializeCamera`. -/
def mScale (matchParent : Bool) (surface frame : Size) : ℚ :=
  if matchParent then
    min (round32 (round32 surface.height / round32 frame.height))
      (round32 (round32 surface.width / round32 frame.width))
  else 0

/-- One direction of the scaled picture, its first and its last edge. -/
def scaledEdges (scale : ℚ) (canvas bitmap : ℤ) : ℤ × ℤ :=
  let size := round32 (scale * round32 bitmap)
  let first := round32 (round32 (round32 canvas - size) / 2)
  (toInt first, toInt (round32 (first + size)))

/-- One direction of the picture in its own size. -/
def plainEdges (canvas bitmap : ℤ) : ℤ × ℤ :=
  let first := (canvas - bitmap).tdiv 2
  (first, first + bitmap)

/-- An `android.graphics.Rect`. -/
structure Rect where
  left : ℤ
  top : ℤ
  right : ℤ
  bottom : ℤ
  deriving DecidableEq, Repr

/-- `deliverAndDrawFrame`, where it draws `mCacheBitmap` on the canvas. -/
def deliverAndDrawFrame (scale : ℚ) (canvas bitmap : Size) : Rect :=
  let edges := if scale ≠ 0 then scaledEdges scale else plainEdges
  let horizontal := edges canvas.width bitmap.width
  let vertical := edges canvas.height bitmap.height
  ⟨horizontal.1, vertical.1, horizontal.2, vertical.2⟩

/-- The sizes of real surfaces and pictures. -/
def Moderate (n : ℤ) : Prop := 0 < n ∧ n < 2 ^ 20

instance (n : ℤ) : Decidable (Moderate n) := inferInstanceAs (Decidable (_ ∧ _))

section Edges

variable {c f k : ℤ} {p d : ℚ}

theorem Moderate.cast (h : Moderate c) : (1 : ℚ) ≤ c ∧ (c : ℚ) < 2 ^ 20 :=
  ⟨by exact_mod_cast h.1, by exact_mod_cast h.2⟩

theorem Moderate.round32_cast (h : Moderate c) : round32 c = c := by
  obtain ⟨h1, h2⟩ := h.cast
  exact round32_intCast (by rw [abs_of_pos (by linarith)]; linarith)

/-- In the range of the sizes the error is small. -/
theorem abs_round32_sub_le_small (h : |d| < 2 ^ 21) : |round32 d - d| ≤ 1 / 16 := by
  rcases eq_or_ne d 0 with rfl | h0
  · simp
  · have he := exponent_le (e := -3) h0 (h.trans_le (by norm_num)) (by norm_num)
    calc |round32 d - d| ≤ 2 ^ exponent d / 2 := abs_round32_sub_le d
      _ ≤ 2 ^ (-3 : ℤ) / 2 := by
        have := zpow_le_zpow_right₀ (by norm_num : (1 : ℚ) ≤ 2) he
        gcongr
      _ = 1 / 16 := by norm_num

/-- The rounded size of the picture in one direction. -/
theorem size_bounds (hc : Moderate c) (hp : 0 ≤ p) (hpc : p ≤ c + 1 / 16) :
    0 ≤ round32 p ∧ |round32 p - p| ≤ 1 / 16 ∧ |c - round32 p| < 2 ^ 20 + 1 := by
  obtain ⟨h1, h2⟩ := hc.cast
  have hlt : |p| < 2 ^ 21 := by
    rw [abs_of_nonneg hp]
    linarith
  have hzero : ((0 : ℤ) : ℚ) ≤ round32 p :=
    intCast_le_round32 (hlt.trans (by norm_num)) (by simpa using hp)
  have herr := abs_round32_sub_le_small hlt
  refine ⟨by simpa using hzero, herr, ?_⟩
  rw [abs_le] at herr
  rw [abs_lt]
  push_cast at hzero
  constructor <;> linarith

/-- The empty space is nothing or not very small. -/
theorem gap_large (hc : Moderate c) (hp : 0 ≤ p) (hpc : p ≤ c + 1 / 16) :
    c - round32 p = 0 ∨ 2 ^ (-125 : ℤ) ≤ |c - round32 p| := by
  obtain ⟨-, herr, -⟩ := size_bounds hc hp hpc
  obtain ⟨h1, -⟩ := hc.cast
  rcases lt_or_ge p (1 / 2) with hlt | hge
  · right
    rw [abs_le] at herr
    rw [abs_of_pos (by linarith)]
    have hsmall : (2 : ℚ) ^ (-125 : ℤ) ≤ 1 / 4 := by norm_num
    exact hsmall.trans (by linarith)
  · have hexp : -24 ≤ exponent p := by
      refine le_exponent ?_
      rw [abs_of_nonneg hp]
      exact hge.trans' (by norm_num)
    have hgrid : OnGrid (-24) (c - round32 p) :=
      (onGrid_intCast c (by norm_num)).sub ((onGrid_round32 p).of_le hexp)
    rcases eq_or_ne (c - round32 p) 0 with h0 | h0
    · exact .inl h0
    · exact .inr ((hgrid.le_abs h0).trans' (by norm_num))

/-- Halving it is exact. -/
theorem scaledEdges_eq {s : ℚ} (hc : Moderate c) (hf : Moderate f) (hp : 0 ≤ s * f)
    (hpc : s * f ≤ c + 1 / 16) :
    scaledEdges s c f = (toInt (round32 (c - round32 (s * f)) / 2),
      toInt (round32 (round32 (c - round32 (s * f)) / 2 + round32 (s * f)))) := by
  have hhalf : round32 (round32 (c - round32 (s * f)) / 2) = round32 (c - round32 (s * f)) / 2 := by
    rcases gap_large hc hp hpc with h | h
    · simp [h]
    · exact round32_half h
  simp only [scaledEdges, hc.round32_cast, hf.round32_cast, hhalf]

/-- Numbers between the first edge and the last. -/
theorem last_bounds (hc : Moderate c) (hp : 0 ≤ p) (hpc : p ≤ c + 1 / 16) :
    -(3 / 16) ≤ round32 (c - round32 p) / 2 ∧
      |round32 (c - round32 p) / 2 + round32 p| < 2 ^ 21 := by
  obtain ⟨hsize, herr, hgap⟩ := size_bounds hc hp hpc
  obtain ⟨h1, h2⟩ := hc.cast
  have hgap' := abs_round32_sub_le_small (hgap.trans (by norm_num))
  rw [abs_le] at herr hgap'
  refine ⟨by linarith, ?_⟩
  rw [abs_lt]
  constructor <;> linarith

/-- The empty space after the picture is at most that before it and a pixel. -/
theorem le_last (hc : Moderate c) (hp : 0 ≤ p) (hpc : p ≤ c + 1 / 16)
    (hk : round32 (c - round32 p) / 2 < k) :
    ((c - k : ℤ) : ℚ) ≤ round32 (round32 (c - round32 p) / 2 + round32 p) := by
  obtain ⟨-, -, hgap⟩ := size_bounds hc hp hpc
  obtain ⟨d, hd⟩ : ∃ d, d = c - round32 p := ⟨_, rfl⟩
  have hd21 : |d| < 2 ^ 24 := hd ▸ hgap.trans (by norm_num)
  have hlt : d < (2 * k : ℤ) := by
    by_contra! hge
    have := intCast_le_round32 hd21 hge
    rw [← hd] at hk
    push_cast at this
    linarith
  -- the space is rounded to a number that is at least as near as the even integer above it
  have hnear := abs_round32_sub_le_intCast hd21 (2 * k)
  rw [abs_of_pos (sub_pos.2 hlt), abs_le] at hnear
  push_cast at hnear
  refine intCast_le_round32 ((last_bounds hc hp hpc).2.trans (by norm_num)) ?_
  rw [← hd]
  push_cast
  linarith

/-- And it is not less. -/
theorem last_lt (hc : Moderate c) (hp : 0 ≤ p) (hpc : p ≤ c + 1 / 16)
    (hk : (k : ℚ) - 3 / 16 ≤ round32 (c - round32 p) / 2) :
    round32 (round32 (c - round32 p) / 2 + round32 p) < c - k + 1 := by
  obtain ⟨-, -, hgap⟩ := size_bounds hc hp hpc
  have hgap' := abs_round32_sub_le_small (hgap.trans (by norm_num))
  have hlast := abs_round32_sub_le_small (last_bounds hc hp hpc).2
  rw [abs_le] at hgap' hlast
  linarith

/-- A picture of the given size is in the middle of one direction of the canvas. -/
structure Placed (c : ℤ) (p : ℚ) (edges : ℤ × ℤ) : Prop where
  nonneg : 0 ≤ edges.1
  ordered : edges.1 ≤ edges.2
  within : edges.2 ≤ c
  centred : |c - edges.1 - edges.2| ≤ 1
  size : |((edges.2 - edges.1 : ℤ) : ℚ) - p| < 3 / 2

/-- The first edge, of which the cast drops the fraction. -/
theorem toInt_bounds {x : ℚ} (h : -(3 / 16) ≤ x) :
    0 ≤ toInt x ∧ x < toInt x + 1 ∧ (toInt x : ℚ) - 3 / 16 ≤ x := by
  rcases lt_or_ge x 0 with hneg | hpos
  · rw [toInt_of_neg (by linarith) hneg]
    refine ⟨le_rfl, ?_, ?_⟩ <;> push_cast <;> linarith
  · rw [toInt_of_nonneg hpos]
    exact ⟨Int.floor_nonneg.2 hpos, Int.lt_floor_add_one x, by linarith [Int.floor_le x]⟩

theorem scaledEdges_placed {s : ℚ} (hc : Moderate c) (hf : Moderate f) (hp : 0 ≤ s * f)
    (hpc : s * f ≤ c + 1 / 16) : Placed c (s * f) (scaledEdges s c f) := by
  obtain ⟨hsize, herr, -⟩ := size_bounds hc hp hpc
  obtain ⟨hlo, habs⟩ := last_bounds hc hp hpc
  obtain ⟨first, hfirst⟩ : ∃ x, x = round32 (c - round32 (s * f)) / 2 := ⟨_, rfl⟩
  obtain ⟨last, hlast⟩ : ∃ x, x = round32 (first + round32 (s * f)) := ⟨_, rfl⟩
  have hedges : scaledEdges s c f = (toInt first, toInt last) := by
    rw [scaledEdges_eq hc hf hp hpc, hlast, hfirst]
  have hge : ∀ k : ℤ, first < k → ((c - k : ℤ) : ℚ) ≤ last := by
    intro k hk
    rw [hlast, hfirst]
    exact le_last hc hp hpc (hfirst ▸ hk)
  have hlt : ∀ k : ℤ, (k : ℚ) - 3 / 16 ≤ first → last < c - k + 1 := by
    intro k hk
    rw [hlast, hfirst]
    exact last_lt hc hp hpc (hfirst ▸ hk)
  rw [← hfirst] at hlo habs
  obtain ⟨hl0, hl1, hl2⟩ := toInt_bounds hlo
  have hround := abs_round32_sub_le_small habs
  rw [← hlast, abs_le] at hround
  rw [abs_le] at herr
  have hordered : ((toInt first : ℤ) : ℚ) ≤ last := by
    rcases lt_or_ge first 0 with hneg | hpos
    · have := hge 0 (by exact_mod_cast hneg)
      rw [toInt_of_neg (by linarith) hneg]
      push_cast at this ⊢
      linarith [hc.cast.1]
    · rw [hlast]
      refine intCast_le_round32 (habs.trans (by norm_num)) ?_
      rw [toInt_of_nonneg hpos]
      linarith [Int.floor_le first]
  have hl0' : (0 : ℚ) ≤ toInt first := by exact_mod_cast hl0
  have hfloor := toInt_of_nonneg (hl0'.trans hordered)
  have hr1 := Int.floor_le last
  have hr2 := Int.lt_floor_add_one last
  have hsum : toInt first + ⌊last⌋ ≤ c := by
    have : ((toInt first + ⌊last⌋ : ℤ) : ℚ) < (c + 1 : ℤ) := by
      push_cast
      linarith [hlt _ hl2]
    exact Int.lt_add_one_iff.1 (by exact_mod_cast this)
  have hsum' : c - (toInt first + 1) ≤ ⌊last⌋ := Int.le_floor.2 (hge _ (by push_cast; exact hl1))
  rw [hedges, hfloor]
  refine ⟨hl0, Int.le_floor.2 hordered, by omega, by rw [abs_le]; omega, ?_⟩
  rw [abs_lt]
  push_cast
  constructor <;> linarith

/-- The rounded quotient, multiplied again. -/
theorem quotient_near (hc : Moderate c) (hf : Moderate f) :
    |round32 (c / f) * f - c| ≤ c / 2 ^ 24 := by
  obtain ⟨hc1, -⟩ := hc.cast
  obtain ⟨hf1, hf2⟩ := hf.cast
  have hfpos : (0 : ℚ) < f := by linarith
  have hq : (0 : ℚ) < c / f := div_pos (by linarith) hfpos
  have hnormal : (2 : ℚ) ^ (-126 : ℤ) ≤ |(c / f : ℚ)| := by
    rw [abs_of_pos hq, le_div_iff₀ hfpos]
    have : (2 : ℚ) ^ (-126 : ℤ) * f ≤ 2 ^ (-126 : ℤ) * 2 ^ 20 := by gcongr
    exact this.trans (hc1.trans' (by norm_num))
  have hstep := two_zpow_exponent_le hnormal
  rw [abs_of_pos hq] at hstep
  have hexact : round32 (c / f) * f - c = (round32 (c / f) - c / f) * f := by
    field_simp
  calc |round32 (c / f) * f - c| = |round32 (c / f) - c / f| * f := by
        rw [hexact, abs_mul, abs_of_pos hfpos]
    _ ≤ 2 ^ (-23 : ℤ) * (c / f) / 2 * f := by
        have := abs_round32_sub_le (c / f)
        gcongr
        linarith
    _ = c / 2 ^ 24 := by
        rw [show (2 : ℚ) ^ (-23 : ℤ) = 1 / 2 ^ 23 by norm_num]
        field_simp

/-- A size just below that of the canvas is one step below it at most, and the middle of the two is
rounded to the canvas, which is even. -/
theorem middle_rounds (hc : Moderate c) (hpc : p < c) (hnear : c - p ≤ c / 2 ^ 24) :
    round32 (c - (c - round32 p) / 2) = c := by
  obtain ⟨hc1, hc2⟩ := hc.cast
  have hsmall : c - p ≤ 1 / 16 := by linarith
  obtain ⟨-, herr, -⟩ := size_bounds hc (by linarith) (p := p) (by linarith)
  have hplt : |p| < 2 ^ 24 := by
    rw [abs_of_pos (by linarith)]
    linarith
  have hle : round32 p ≤ c := round32_le_intCast hplt hpc.le
  rw [abs_le] at herr
  obtain ⟨x, hx⟩ : ∃ x, x = c - (c - round32 p) / 2 := ⟨_, rfl⟩
  have hx0 : 0 < x := by linarith
  have hexp : exponent x ≤ -4 :=
    exponent_le hx0.ne' (by rw [abs_of_pos hx0]; norm_num; linarith) (by norm_num)
  have hexp' : -24 ≤ exponent x := le_exponent (by rw [abs_of_pos hx0]; norm_num; linarith)
  -- the next power of two after `x` is an integer
  have htop : (c : ℚ) ≤ 2 ^ (24 + exponent x) := by
    obtain ⟨n, hn⟩ := Int.le.dest hexp'
    have hxlt := abs_lt_exponent x
    rw [abs_of_pos hx0, ← hn, ← add_assoc] at hxlt
    rw [← hn, ← add_assoc]
    norm_num at hxlt ⊢
    have : (c : ℚ) < ((2 ^ n + 1 : ℤ) : ℚ) := by
      push_cast
      linarith
    have : c ≤ 2 ^ n := Int.lt_add_one_iff.1 (by exact_mod_cast this)
    exact_mod_cast this
  have hstep : c - p ≤ 2 ^ exponent x := by
    have hpow : (2 : ℚ) ^ (24 + exponent x) = 2 ^ 24 * 2 ^ exponent x := by
      rw [zpow_add₀ (by norm_num)]
      norm_num
    rw [hpow] at htop
    linarith
  have hgrid : OnGrid (exponent p) (c - 2 ^ exponent x) := by
    have hle : exponent p ≤ exponent x :=
      exponent_le (by linarith) (by rw [abs_of_pos (by linarith)]; linarith) (by omega)
    exact ((onGrid_intCast c (by omega)).sub ⟨1, by simp⟩).of_le hle
  have hsize := le_round32 hgrid (by linarith)
  rw [← hx]
  refine round32_eq_even (onGrid_intCast c (by omega)) ?_
  rw [hx, abs_of_nonpos (by linarith)]
  rw [← hx]
  linarith

/-- The space that a size just below that of the canvas leaves needs no rounding. -/
theorem gap_exact (hc : Moderate c) (hpc : p < c) (hnear : c - p ≤ c / 2 ^ 24) :
    round32 (c - round32 p) = c - round32 p := by
  obtain ⟨hc1, hc2⟩ := hc.cast
  have hsmall : c - p ≤ 1 / 16 := by linarith
  obtain ⟨-, herr, -⟩ := size_bounds hc (by linarith) (p := p) (by linarith)
  rcases eq_or_ne (c - round32 p) 0 with h0 | h0
  · rw [h0, round32_zero]
  have hp : |p| = p := abs_of_pos (by linarith)
  have hexp : exponent p ≤ 0 :=
    exponent_le (by linarith) (by rw [hp]; norm_num; linarith) (by norm_num)
  have hgrid : OnGrid (exponent p) (c - round32 p) := (onGrid_intCast c hexp).sub (onGrid_round32 p)
  have hlt : |c - round32 p| < 2 ^ (24 + exponent p) := by
    refine lt_of_lt_of_le ?_ (abs_lt_exponent p).le
    rw [hp]
    rw [abs_le] at herr
    rw [abs_lt]
    constructor <;> linarith
  exact round32_eq_self (hgrid.of_le (exponent_le h0 hlt (exponent_ge p)))

/-- **One direction is filled**, although the scale is a rounded quotient. -/
theorem scaledEdges_full (hc : Moderate c) (hf : Moderate f) :
    scaledEdges (round32 (c / f)) c f = (0, c) := by
  obtain ⟨p, hp⟩ : ∃ p, p = round32 (c / f) * f := ⟨_, rfl⟩
  obtain ⟨hc1, hc2⟩ := hc.cast
  have hnear := quotient_near hc hf
  rw [← hp, abs_le] at hnear
  have hp0 : 0 ≤ p := by linarith
  have hpc : p ≤ c + 1 / 16 := by linarith
  rw [scaledEdges_eq hc hf (hp ▸ hp0) (hp ▸ hpc), ← hp]
  rcases lt_or_ge p c with hlt | hge
  · have hle : round32 p ≤ c := round32_le_intCast (by rw [abs_of_nonneg hp0]; linarith) hlt.le
    obtain ⟨-, herr, -⟩ := size_bounds hc hp0 hpc
    rw [abs_le] at herr
    have hmiddle : (c - round32 p) / 2 + round32 p = c - (c - round32 p) / 2 := by ring
    rw [gap_exact hc hlt (by linarith), hmiddle, middle_rounds hc hlt (by linarith),
      toInt_of_nonneg (by linarith), toInt_of_nonneg (by linarith), Int.floor_intCast,
      Int.floor_eq_zero_iff.2 ⟨by linarith, by linarith⟩]
  · have hle : (c : ℚ) ≤ round32 p := intCast_le_round32 (by rw [abs_of_nonneg hp0]; linarith) hge
    obtain ⟨-, -, hgap⟩ := size_bounds hc hp0 hpc
    obtain ⟨hlo, habs⟩ := last_bounds hc hp0 hpc
    have hfirst : round32 (c - round32 p) ≤ (0 : ℤ) :=
      round32_le_intCast (hgap.trans (by norm_num)) (by push_cast; linarith)
    have hzero := abs_round32_sub_le_intCast (hgap.trans (by norm_num)) 0
    push_cast at hfirst hzero
    rw [abs_of_nonneg (by linarith : (0 : ℚ) ≤ 0 - (c - round32 p)), abs_le] at hzero
    have hlast : (c : ℚ) ≤ round32 (round32 (c - round32 p) / 2 + round32 p) :=
      intCast_le_round32 (habs.trans (by norm_num)) (by linarith)
    have hlast' := last_lt hc hp0 hpc (k := 0) (by push_cast; linarith)
    obtain ⟨h0, -, h1⟩ := toInt_bounds hlo
    have h1' : ((toInt (round32 (c - round32 p) / 2) : ℤ) : ℚ) < (1 : ℤ) := by
      push_cast
      linarith
    have hleft : toInt (round32 (c - round32 p) / 2) < 1 := by exact_mod_cast h1'
    rw [toInt_of_nonneg (hc1.trans' zero_le_one |>.trans hlast),
      Int.floor_eq_iff.2 ⟨hlast, by simpa using hlast'⟩, Prod.mk.injEq]
    exact ⟨by omega, rfl⟩

end Edges

section Picture

variable {w h : ℤ} {canvas frame : Size}

/-- The rectangle is on the canvas. -/
def Rect.Within (canvas : Size) (r : Rect) : Prop :=
  (0 ≤ r.left ∧ r.left ≤ r.right ∧ r.right ≤ canvas.width) ∧
    0 ≤ r.top ∧ r.top ≤ r.bottom ∧ r.bottom ≤ canvas.height

/-- The empty spaces on both sides differ by a pixel at most. -/
def Rect.Centred (canvas : Size) (r : Rect) : Prop :=
  |canvas.width - r.left - r.right| ≤ 1 ∧ |canvas.height - r.top - r.bottom| ≤ 1

/-- One direction of the canvas is full, the other has the picture's share of it, up to two
pixels. -/
def Rect.Fills (canvas frame : Size) (r : Rect) : Prop :=
  (r.left = 0 ∧ r.right = canvas.width ∧
      |(r.bottom - r.top) * frame.width - canvas.width * frame.height| < 2 * frame.width) ∨
    (r.top = 0 ∧ r.bottom = canvas.height ∧
      |(r.right - r.left) * frame.height - canvas.height * frame.width| < 2 * frame.height)

/-- Both sides of a size are moderate. -/
def Size.Ordinary (s : Size) : Prop := Moderate s.width ∧ Moderate s.height

/-- The share of a direction that is not full. -/
theorem share_of_placed {c f c' f' : ℤ} {edges : ℤ × ℤ} (hc : Moderate c) (hf : Moderate f)
    (hc' : Moderate c') (hf' : Moderate f') (hle : round32 (c / f) * f' ≤ c' + 1 / 16)
    (h : Placed c' (round32 (c / f) * f') edges) :
    |(edges.2 - edges.1) * f - c * f'| < 2 * f := by
  obtain ⟨s, hs⟩ : ∃ s, s = round32 (c / f) := ⟨_, rfl⟩
  have hnear := quotient_near hc hf
  have hsize := h.size
  rw [← hs] at hnear hsize hle
  rw [abs_le] at hnear
  rw [abs_lt] at hsize
  obtain ⟨hf1, -⟩ := hf.cast
  obtain ⟨hf1', -⟩ := hf'.cast
  obtain ⟨-, hc2⟩ := hc'.cast
  have hf0 : (0 : ℚ) < f := by linarith
  have hf0' : (0 : ℚ) ≤ f' := by linarith
  -- the error of the quotient, in the other direction
  have hlo := mul_le_mul_of_nonneg_right hnear.1 hf0'
  have hhi := mul_le_mul_of_nonneg_right hnear.2 hf0'
  have hbound := mul_le_mul_of_nonneg_right hle hf0.le
  have hcf : (c : ℚ) * f' / 2 ^ 24 ≤ f / 2 := by
    have : (c' : ℚ) * f ≤ 2 ^ 20 * f := mul_le_mul_of_nonneg_right hc2.le hf0.le
    linarith
  have h1 := mul_lt_mul_of_pos_right hsize.1 hf0
  have h2 := mul_lt_mul_of_pos_right hsize.2 hf0
  have hcast : |(((edges.2 - edges.1) * f - c * f' : ℤ) : ℚ)| < ((2 * f : ℤ) : ℚ) := by
    push_cast at h1 h2 ⊢
    rw [abs_lt]
    constructor <;> linarith
  exact_mod_cast hcast

/-- A scale of one direction that is not above that of the other. -/
theorem scale_bounds {c f : ℤ} {s : ℚ} (hc : Moderate c) (hf : Moderate f) (hs : 0 ≤ s)
    (hle : s ≤ round32 (c / f)) : 0 ≤ s * f ∧ s * f ≤ c + 1 / 16 := by
  have hnear := quotient_near hc hf
  rw [abs_le] at hnear
  obtain ⟨-, hc2⟩ := hc.cast
  obtain ⟨hf1, -⟩ := hf.cast
  have := mul_le_mul_of_nonneg_right hle (by linarith : (0 : ℚ) ≤ f)
  exact ⟨mul_nonneg hs (by linarith), by linarith⟩

theorem quotient_pos {c f : ℤ} (hc : Moderate c) (hf : Moderate f) : 0 < round32 (c / f) := by
  have hnear := quotient_near hc hf
  rw [abs_le] at hnear
  obtain ⟨hc1, -⟩ := hc.cast
  obtain ⟨hf1, -⟩ := hf.cast
  exact pos_of_mul_pos_left (b := (f : ℚ)) (by linarith) (by linarith)

/-- The scaled picture. -/
theorem scaled_placed (hcanvas : canvas.Ordinary) (hframe : frame.Ordinary) :
    let r := deliverAndDrawFrame (mScale true canvas frame) canvas frame
    r.Within canvas ∧ r.Centred canvas ∧ r.Fills canvas frame := by
  obtain ⟨hw, hh⟩ := hcanvas
  obtain ⟨hfw, hfh⟩ := hframe
  obtain ⟨s, hs⟩ : ∃ s, s = min (round32 (canvas.height / frame.height))
      (round32 (canvas.width / frame.width)) := ⟨_, rfl⟩
  have hscale : mScale true canvas frame = s := by
    rw [hs, mScale, if_pos rfl, hw.round32_cast, hh.round32_cast, hfw.round32_cast, hfh.round32_cast]
  have hpos : 0 < s := by
    rw [hs]
    exact lt_min (quotient_pos hh hfh) (quotient_pos hw hfw)
  have hr : deliverAndDrawFrame s canvas frame =
      ⟨(scaledEdges s canvas.width frame.width).1, (scaledEdges s canvas.height frame.height).1,
        (scaledEdges s canvas.width frame.width).2, (scaledEdges s canvas.height frame.height).2⟩ := by
    simp only [deliverAndDrawFrame, if_pos hpos.ne']
  obtain ⟨hx0, hx1⟩ := scale_bounds hw hfw hpos.le (hs ▸ min_le_right _ _)
  obtain ⟨hy0, hy1⟩ := scale_bounds hh hfh hpos.le (hs ▸ min_le_left _ _)
  have hx := scaledEdges_placed hw hfw hx0 hx1
  have hy := scaledEdges_placed hh hfh hy0 hy1
  simp only [hscale, hr]
  refine ⟨⟨⟨hx.nonneg, hx.ordered, hx.within⟩, hy.nonneg, hy.ordered, hy.within⟩,
    ⟨hx.centred, hy.centred⟩, ?_⟩
  rcases min_choice (round32 (canvas.height / frame.height))
    (round32 (canvas.width / frame.width)) with hmin | hmin <;> rw [← hs] at hmin
  · have hfull : scaledEdges s canvas.height frame.height = (0, canvas.height) :=
      hmin ▸ scaledEdges_full hh hfh
    right
    refine ⟨by rw [hfull], by rw [hfull], ?_⟩
    rw [hmin] at hx hx1 ⊢
    exact share_of_placed hh hfh hw hfw hx1 hx
  · have hfull : scaledEdges s canvas.width frame.width = (0, canvas.width) :=
      hmin ▸ scaledEdges_full hw hfw
    left
    refine ⟨by rw [hfull], by rw [hfull], ?_⟩
    rw [hmin] at hy hy1 ⊢
    exact share_of_placed hw hfw hh hfh hy1 hy

/-- Half of a number, rounded towards zero. -/
theorem tdiv_two_bounds (n : ℤ) :
    |n - 2 * n.tdiv 2| ≤ 1 ∧ (0 ≤ n → 0 ≤ n.tdiv 2 ∧ 2 * n.tdiv 2 ≤ n) := by
  rcases le_total 0 n with h | h
  · rw [Int.tdiv_eq_ediv_of_nonneg h, abs_le]
    omega
  · rw [← neg_neg n, Int.neg_tdiv, Int.tdiv_eq_ediv_of_nonneg (by omega), abs_le]
    omega

/-- The picture in its own size. -/
theorem plain_placed (canvas : Size) (hframe : frame.Ordinary) :
    let r := deliverAndDrawFrame 0 canvas frame
    r.Centred canvas ∧ (r.right - r.left = frame.width ∧ r.bottom - r.top = frame.height) ∧
      (frame ≤ canvas → r.Within canvas) := by
  obtain ⟨hx, hx'⟩ := tdiv_two_bounds (canvas.width - frame.width)
  obtain ⟨hy, hy'⟩ := tdiv_two_bounds (canvas.height - frame.height)
  obtain ⟨⟨hw, -⟩, hh, -⟩ := hframe
  simp only [deliverAndDrawFrame, ne_eq, not_true_eq_false, if_false, plainEdges, Rect.Centred,
    Rect.Within]
  rw [abs_le] at hx hy
  refine ⟨⟨?_, ?_⟩, ⟨by ring, by ring⟩, fun ⟨h1, h2⟩ => ?_⟩
  · rw [abs_le]
    omega
  · rw [abs_le]
    omega
  · have := hx' (by omega)
    have := hy' (by omega)
    omega

/-- **The picture is placed.**  The frame is the preview size that `calculateCameraFrameSize` picks
for the surface.  The picture is in the middle up to a pixel; in a view that fills its parent it is on
the canvas, fills one direction and has its share of the other; in another view it has its own size,
and is on the canvas if any supported size fits. -/
theorem picture_placed (matchParent : Bool) (max surface : Size) {supportedSizes : List Size}
    (hsizes : ∀ s ∈ supportedSizes, s.Ordinary) (hne : supportedSizes ≠ [])
    (hsurface : surface.Ordinary) :
    let frame := calculateCameraFrameSize max supportedSizes surface.width surface.height
    let r := deliverAndDrawFrame (mScale matchParent surface frame) surface frame
    r.Centred surface ∧
      (matchParent = true → r.Within surface ∧ r.Fills surface frame) ∧
      (matchParent = false →
        (r.right - r.left = frame.width ∧ r.bottom - r.top = frame.height) ∧
        ((∃ s ∈ supportedSizes, s.width ≤ maxAllowed max.width surface.width ∧
          s.height ≤ maxAllowed max.height surface.height) → r.Within surface)) := by
  intro frame r
  have hpos : ∀ s ∈ supportedSizes, 0 < s.width ∧ 0 < s.height :=
    fun s hs => ⟨(hsizes s hs).1.1, (hsizes s hs).2.1⟩
  have hframe : frame.Ordinary := hsizes _ (calculateCameraFrameSize_mem max _ _ hpos hne)
  cases matchParent with
  | true =>
    obtain ⟨hwithin, hcentred, hfills⟩ := scaled_placed hsurface hframe
    exact ⟨hcentred, fun _ => ⟨hwithin, hfills⟩, nofun⟩
  | false =>
    obtain ⟨hcentred, hsize, hwithin⟩ := plain_placed surface hframe
    refine ⟨hcentred, nofun, fun _ => ⟨hsize, ?_⟩⟩
    rintro ⟨s, hs, hfits⟩
    obtain ⟨hr, -, hfit⟩ := calculateCameraFrameSize_of_fits max rfl hpos hs hfits
    refine hwithin (Size.le_trans (hr ▸ hfit) ⟨?_, ?_⟩)
    · exact maxAllowed_le _ _
    · exact maxAllowed_le _ _

end Picture

/-- The screen of the example in `onCameraFrame` and a camera whose only size is scaled by two
thirds, rounded. -/
theorem picture_placed_screen :
    let sizes : List Size := [⟨1440, 1080⟩]
    let r := deliverAndDrawFrame (mScale true ⟨1600, 720⟩ ⟨1440, 1080⟩) ⟨1600, 720⟩ ⟨1440, 1080⟩
    calculateCameraFrameSize ⟨-1, -1⟩ sizes 1600 720 = ⟨1440, 1080⟩ ∧ r = ⟨320, 0, 1280, 720⟩ ∧
      r.Centred ⟨1600, 720⟩ ∧ r.Fills ⟨1600, 720⟩ ⟨1440, 1080⟩ := by
  intro sizes r
  have hframe : calculateCameraFrameSize ⟨-1, -1⟩ sizes 1600 720 = ⟨1440, 1080⟩ := by decide
  have hsizes : ∀ s ∈ sizes, s.Ordinary := by
    simp only [sizes, List.mem_singleton, forall_eq]
    exact ⟨by decide, by decide⟩
  have h := picture_placed true ⟨-1, -1⟩ ⟨1600, 720⟩ hsizes (by simp [sizes]) ⟨by decide, by decide⟩
  simp only [hframe] at h
  exact ⟨hframe, by decide +kernel, h.1, (h.2.1 trivial).2⟩

end Controller.Camera
