import Mathlib.Data.Int.Log
import Mathlib.Data.Rat.Floor
import Mathlib.Tactic

/-!
# Single precision

The finite numbers of the 32-bit format are rationals; every operation rounds the exact result to
the nearest of them, to the one with an even significand between two.  Around `x` they are the
multiples of `2 ^ exponent x`, down to the subnormal ones.  Overflow is left out: the numbers stay
below `2 ^ 24`, where all integers are on the grid.

* `le_round32`, `round32_le`: rounding does not pass a number on the grid.
* `abs_round32_sub_le_abs`: no number on the grid is nearer.
* `round32_eq_even`: the tie.
-/

namespace Binary32

/-- The nearest integer, the even one between two. -/
def nearestEven (x : ℚ) : ℤ :=
  if x - ⌊x⌋ < 1 / 2 ∨ (x - ⌊x⌋ = 1 / 2 ∧ Even ⌊x⌋) then ⌊x⌋ else ⌊x⌋ + 1

/-- The exponent of the last place of `x`. -/
def exponent (x : ℚ) : ℤ := max (Int.log 2 |x|) (-126) - 23

/-- Rounding to the nearest number of the format. -/
def round32 (x : ℚ) : ℚ := nearestEven (x / 2 ^ exponent x) * 2 ^ exponent x

/-- A cast to an integer drops the fraction. -/
def toInt (x : ℚ) : ℤ := if 0 ≤ x then ⌊x⌋ else ⌈x⌉

/-- The multiples of a power of two. -/
def OnGrid (e : ℤ) (y : ℚ) : Prop := ∃ m : ℤ, y = m * 2 ^ e

variable {x y z : ℚ} {e e' n : ℤ}

section Integers

theorem nearestEven_le (h : x ≤ n) : nearestEven x ≤ n := by
  unfold nearestEven
  split_ifs with hx
  · exact_mod_cast (Int.floor_le x).trans h
  · rcases h.lt_or_eq with hlt | rfl
    · have : ⌊x⌋ < n := by exact_mod_cast (Int.floor_le x).trans_lt hlt
      omega
    · exact absurd (.inl (by simp)) hx

theorem le_nearestEven (h : (n : ℚ) ≤ x) : n ≤ nearestEven x := by
  have := Int.le_floor.2 h
  unfold nearestEven
  split_ifs <;> omega

theorem abs_nearestEven_sub_le (x : ℚ) : |(nearestEven x : ℚ) - x| ≤ 1 / 2 := by
  have hlo := Int.floor_le x
  have hhi := Int.lt_floor_add_one x
  unfold nearestEven
  split_ifs with h
  · rw [abs_le]
    rcases h with h | ⟨h, -⟩ <;> constructor <;> linarith
  · rw [not_or] at h
    push_cast
    rw [abs_le]
    constructor <;> linarith [not_lt.1 h.1]

/-- No integer is nearer. -/
theorem abs_nearestEven_sub_le_abs (x : ℚ) (n : ℤ) : |(nearestEven x : ℚ) - x| ≤ |n - x| := by
  by_contra! hlt
  have hhalf := abs_nearestEven_sub_le x
  have hnear : |((nearestEven x - n : ℤ) : ℚ)| < 1 := by
    rw [show ((nearestEven x - n : ℤ) : ℚ) = (nearestEven x - x) - (n - x) by push_cast; ring]
    exact (abs_sub _ _).trans_lt (by linarith)
  have hn : nearestEven x - n = 0 := Int.abs_lt_one_iff.1 (by exact_mod_cast hnear)
  rw [show nearestEven x = n by omega] at hlt
  exact lt_irrefl _ hlt

/-- An even integer wins the tie. -/
theorem nearestEven_eq_even (hn : Even n) (h : |x - n| ≤ 1 / 2) : nearestEven x = n := by
  obtain ⟨h1, h2⟩ := abs_le.1 h
  by_cases hle : (n : ℚ) ≤ x
  · have hfloor : ⌊x⌋ = n := Int.floor_eq_iff.2 ⟨hle, by linarith⟩
    unfold nearestEven
    rw [hfloor, if_pos]
    rcases h2.lt_or_eq with h2 | h2
    · exact .inl h2
    · exact .inr ⟨h2, hn⟩
  · have hfloor : ⌊x⌋ = n - 1 := Int.floor_eq_iff.2 ⟨by push_cast; linarith, by push_cast; linarith⟩
    have hodd : ¬ Even (n - 1) := fun h => by
      obtain ⟨a, ha⟩ := hn
      obtain ⟨b, hb⟩ := h
      omega
    unfold nearestEven
    rw [hfloor, if_neg]
    · ring
    · rintro (h | ⟨-, h⟩)
      · push_cast at h
        linarith
      · exact hodd h

end Integers

section Grid

theorem two_zpow_pos (e : ℤ) : (0 : ℚ) < 2 ^ e := zpow_pos (by norm_num) e

/-- A finer grid has all numbers of a coarser one. -/
theorem OnGrid.of_le (h : OnGrid e y) (hle : e' ≤ e) : OnGrid e' y := by
  obtain ⟨m, rfl⟩ := h
  obtain ⟨k, rfl⟩ := Int.le.dest hle
  refine ⟨m * 2 ^ k, ?_⟩
  rw [zpow_add₀ (by norm_num : (2 : ℚ) ≠ 0)]
  push_cast
  rw [zpow_natCast]
  ring

theorem onGrid_intCast (n : ℤ) (he : e ≤ 0) : OnGrid e n :=
  OnGrid.of_le (e := 0) ⟨n, by simp⟩ he

theorem OnGrid.sub (hy : OnGrid e y) (hz : OnGrid e z) : OnGrid e (y - z) := by
  obtain ⟨m, rfl⟩ := hy
  obtain ⟨k, rfl⟩ := hz
  exact ⟨m - k, by push_cast; ring⟩

theorem OnGrid.half (hy : OnGrid e y) : OnGrid (e - 1) (y / 2) := by
  obtain ⟨m, rfl⟩ := hy
  refine ⟨m, ?_⟩
  rw [zpow_sub_one₀ (by norm_num : (2 : ℚ) ≠ 0)]
  ring

/-- Numbers of a grid are apart by its step. -/
theorem OnGrid.le_abs (hy : OnGrid e y) (h : y ≠ 0) : 2 ^ e ≤ |y| := by
  obtain ⟨m, rfl⟩ := hy
  have hm : m ≠ 0 := by
    rintro rfl
    simp at h
  have hone : (1 : ℚ) ≤ |(m : ℚ)| := by exact_mod_cast Int.one_le_abs hm
  rw [abs_mul, abs_of_pos (two_zpow_pos e)]
  exact le_mul_of_one_le_left (two_zpow_pos e).le hone

end Grid

section Exponent

theorem exponent_ge (x : ℚ) : -149 ≤ exponent x := by
  unfold exponent
  omega

/-- Below `2 ^ (24 + e)` the grid is at least as fine as that of `e`. -/
theorem exponent_le (hx : x ≠ 0) (h : |x| < 2 ^ (24 + e)) (he : -149 ≤ e) : exponent x ≤ e := by
  have hlog : Int.log 2 |x| < 24 + e := by
    rw [← Int.lt_zpow_iff_log_lt (by norm_num) (abs_pos.2 hx)]
    exact_mod_cast h
  unfold exponent
  omega

theorem le_exponent (h : 2 ^ (23 + e) ≤ |x|) : e ≤ exponent x := by
  have hlog : 23 + e ≤ Int.log 2 |x| := by
    rw [← Int.zpow_le_iff_le_log (by norm_num) ((two_zpow_pos _).trans_le h)]
    exact_mod_cast h
  unfold exponent
  omega

theorem abs_lt_exponent (x : ℚ) : |x| < 2 ^ (24 + exponent x) := by
  have hlog : |x| < 2 ^ (Int.log 2 |x| + 1) := by
    exact_mod_cast Int.lt_zpow_succ_log_self (b := 2) (by norm_num) |x|
  refine hlog.trans_le (zpow_le_zpow_right₀ (by norm_num) ?_)
  unfold exponent
  omega

/-- For normal numbers the step is small against the number. -/
theorem two_zpow_exponent_le (h : 2 ^ (-126 : ℤ) ≤ |x|) :
    (2 : ℚ) ^ exponent x ≤ 2 ^ (-23 : ℤ) * |x| := by
  have hpos : 0 < |x| := (two_zpow_pos _).trans_le h
  have hlog : -126 ≤ Int.log 2 |x| := by
    rw [← Int.zpow_le_iff_le_log (by norm_num) hpos]
    exact_mod_cast h
  have hle : (2 : ℚ) ^ Int.log 2 |x| ≤ |x| := by exact_mod_cast Int.zpow_log_le_self (by norm_num) hpos
  have hexp : exponent x = -23 + Int.log 2 |x| := by
    unfold exponent
    omega
  rw [hexp, zpow_add₀ (by norm_num)]
  exact mul_le_mul_of_nonneg_left hle (two_zpow_pos _).le

end Exponent

section Round

theorem onGrid_round32 (x : ℚ) : OnGrid (exponent x) (round32 x) := ⟨_, rfl⟩

theorem le_round32 (hy : OnGrid (exponent x) y) (h : y ≤ x) : y ≤ round32 x := by
  obtain ⟨m, rfl⟩ := hy
  have hm := le_nearestEven ((le_div_iff₀ (two_zpow_pos _)).2 h)
  exact mul_le_mul_of_nonneg_right (by exact_mod_cast hm) (two_zpow_pos _).le

theorem round32_le (hy : OnGrid (exponent x) y) (h : x ≤ y) : round32 x ≤ y := by
  obtain ⟨m, rfl⟩ := hy
  have hm := nearestEven_le ((div_le_iff₀ (two_zpow_pos _)).2 h)
  exact mul_le_mul_of_nonneg_right (by exact_mod_cast hm) (two_zpow_pos _).le

/-- A number of the format stays. -/
theorem round32_eq_self (hy : OnGrid (exponent y) y) : round32 y = y :=
  (round32_le hy le_rfl).antisymm (le_round32 hy le_rfl)

/-- The error, in steps of the grid. -/
theorem abs_sub_mul_exponent (x : ℚ) (n : ℤ) :
    |n * 2 ^ exponent x - x| = |n - x / 2 ^ exponent x| * 2 ^ exponent x := by
  have hg := two_zpow_pos (exponent x)
  rw [← abs_of_pos hg, ← abs_mul, abs_of_pos hg]
  congr 1
  field_simp

theorem abs_round32_sub_le (x : ℚ) : |round32 x - x| ≤ 2 ^ exponent x / 2 := by
  have hg := two_zpow_pos (exponent x)
  have herr := mul_le_mul_of_nonneg_right (abs_nearestEven_sub_le (x / 2 ^ exponent x)) hg.le
  rw [← abs_sub_mul_exponent] at herr
  exact herr.trans_eq (by ring)

/-- Nothing on the grid is nearer. -/
theorem abs_round32_sub_le_abs (hy : OnGrid (exponent x) y) : |round32 x - x| ≤ |y - x| := by
  obtain ⟨m, rfl⟩ := hy
  rw [round32, abs_sub_mul_exponent, abs_sub_mul_exponent]
  exact mul_le_mul_of_nonneg_right (abs_nearestEven_sub_le_abs _ m) (two_zpow_pos _).le

@[simp] theorem round32_zero : round32 0 = 0 :=
  round32_eq_self ⟨0, by simp⟩

/-- Below `2 ^ 24` all integers are on the grid. -/
theorem onGrid_of_abs_lt (h : |x| < 2 ^ 24) (n : ℤ) : OnGrid (exponent x) n ∨ x = 0 := by
  rcases eq_or_ne x 0 with h0 | h0
  · exact .inr h0
  · exact .inl (onGrid_intCast n (exponent_le h0 (by simpa using h) (by norm_num)))

theorem intCast_le_round32 (h : |x| < 2 ^ 24) (hn : (n : ℚ) ≤ x) : (n : ℚ) ≤ round32 x := by
  rcases onGrid_of_abs_lt h n with hg | rfl
  · exact le_round32 hg hn
  · rwa [round32_zero]

theorem round32_le_intCast (h : |x| < 2 ^ 24) (hn : x ≤ n) : round32 x ≤ n := by
  rcases onGrid_of_abs_lt h n with hg | rfl
  · exact round32_le hg hn
  · rwa [round32_zero]

theorem abs_round32_sub_le_intCast (h : |x| < 2 ^ 24) (n : ℤ) : |round32 x - x| ≤ |n - x| := by
  rcases onGrid_of_abs_lt h n with hg | rfl
  · exact abs_round32_sub_le_abs hg
  · simp

/-- Integers stay. -/
theorem round32_intCast (h : |(n : ℚ)| < 2 ^ 24) : round32 n = n :=
  (round32_le_intCast h le_rfl).antisymm (intCast_le_round32 h le_rfl)

/-- Rounding may reach the next power of two, but not pass it. -/
theorem abs_round32_le (x : ℚ) : |round32 x| ≤ 2 ^ (24 + exponent x) := by
  obtain ⟨hlo, hhi⟩ := abs_lt.1 (abs_lt_exponent x)
  have htop : ((2 ^ 24 : ℤ) : ℚ) * 2 ^ exponent x = 2 ^ (24 + exponent x) := by
    rw [zpow_add₀ (by norm_num)]
    norm_num
  rw [abs_le]
  exact ⟨le_round32 ⟨-2 ^ 24, by rw [← htop]; push_cast; ring⟩ hlo.le,
    round32_le ⟨2 ^ 24, htop.symm⟩ hhi.le⟩

/-- Halving is exact above the smallest numbers. -/
theorem round32_half (h : 2 ^ (-125 : ℤ) ≤ |x|) : round32 (round32 x / 2) = round32 x / 2 := by
  have hlo : -148 ≤ exponent x := le_exponent (h.trans' (by norm_num))
  rcases eq_or_ne (round32 x) 0 with h0 | h0
  · simp [h0]
  have h0' : round32 x / 2 ≠ 0 := by simpa using h0
  have habs : |round32 x / 2| = |round32 x| / 2 := by rw [abs_div, abs_two]
  have hpow : (2 : ℚ) ^ (24 + (exponent x - 1)) = 2 ^ (24 + exponent x) / 2 := by
    rw [← add_sub_assoc, zpow_sub_one₀ (by norm_num)]
    ring
  have hpos := two_zpow_pos (24 + exponent x)
  rcases (abs_round32_le x).lt_or_eq with hlt | heq
  · exact round32_eq_self ((onGrid_round32 x).half.of_le
      (exponent_le h0' (by rw [habs, hpow]; linarith) (by omega)))
  · -- a power of two
    have hgrid : OnGrid (24 + (exponent x - 1)) (round32 x / 2) := by
      rcases eq_or_eq_neg_of_abs_eq heq with h | h <;> rw [h]
      · exact ⟨1, by rw [hpow]; simp⟩
      · exact ⟨-1, by rw [hpow]; push_cast; ring⟩
    have hexp := exponent_le (e := exponent x) h0' (by rw [habs, heq]; linarith) (by omega)
    exact round32_eq_self (hgrid.of_le (by omega))

/-- Half way between two numbers the even one is taken. -/
theorem round32_eq_even (hy : OnGrid (exponent x + 1) y) (h : |x - y| ≤ 2 ^ exponent x / 2) :
    round32 x = y := by
  obtain ⟨m, rfl⟩ := hy
  have hg := two_zpow_pos (exponent x)
  have hm : (m : ℚ) * 2 ^ (exponent x + 1) = (2 * m : ℤ) * 2 ^ exponent x := by
    rw [zpow_add_one₀ (by norm_num : (2 : ℚ) ≠ 0)]
    push_cast
    ring
  rw [hm, abs_sub_comm, abs_sub_mul_exponent] at h
  have htie : |x / 2 ^ exponent x - (2 * m : ℤ)| ≤ 1 / 2 := by
    rw [abs_sub_comm]
    exact le_of_mul_le_mul_right (h.trans_eq (by ring)) hg
  rw [hm, round32, nearestEven_eq_even (even_two_mul m) htie]

end Round

section Cast

theorem toInt_of_nonneg (h : 0 ≤ x) : toInt x = ⌊x⌋ := if_pos h

theorem toInt_of_neg (hlo : -1 < x) (h : x < 0) : toInt x = 0 := by
  rw [toInt, if_neg (not_le.2 h), Int.ceil_eq_zero_iff]
  exact ⟨hlo, h.le⟩

end Cast

end Binary32
