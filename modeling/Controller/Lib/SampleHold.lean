import Mathlib.Algebra.BigOperators.Group.List.Basic
import Mathlib.Algebra.CharZero.Defs
import Mathlib.Data.List.Count
import Mathlib.Data.List.Induction
import Mathlib.Data.List.Sort
import Mathlib.Tactic.LinearCombination
import Mathlib.Tactic.Ring

/-!
# A signal held between its readings

A schedule lists the times at which something happens and says of each whether it is a reading of
the signal.  Readings are numbered from `1`; the value of reading `k` is `v k`, and it is held until
the next one.

* `counts` gives the number of the reading held at each time;
* `area` is the integral of the held signal.  `area_eq` sums it by parts: apart from the two ends
  it depends on the times just before the readings and on nothing else;
* `weighted_inj`, `jumps_inj` and `sum_map_inj` recover a list from sums that are linear in the
  readings, when they are known for all values of the later readings.
-/

namespace SampleHold

variable {K : Type*}

/-- The number of the reading held after an entry, when `n` was held before. -/
def next (n : ℕ) (x : Bool × K) : ℕ := if x.1 then n + 1 else n

/-- The number of the reading held at each time. -/
def counts (n : ℕ) : List (Bool × K) → List ℕ
  | [] => []
  | x :: xs => next n x :: counts (next n x) xs

/-- The number of the reading held at the end. -/
def total (n : ℕ) : List (Bool × K) → ℕ
  | [] => n
  | x :: xs => total (next n x) xs

/-- The last time. -/
def time (p : K) : List (Bool × K) → K
  | [] => p
  | x :: xs => time x.2 xs

/-- The time before each reading. -/
def before (p : K) : List (Bool × K) → List K
  | [] => []
  | x :: xs => if x.1 then p :: before x.2 xs else before x.2 xs

section Schedules

variable {n : ℕ} {p : K} {x : Bool × K} {xs ys : List (Bool × K)}

theorem next_reading (hx : x.1 = true) : next n x = n + 1 := if_pos hx

theorem next_other (hx : ¬ x.1 = true) : next n x = n := if_neg hx

theorem le_next : n ≤ next n x := by
  unfold next; split_ifs <;> omega

@[simp] theorem length_counts : (counts n xs).length = xs.length := by
  induction xs generalizing n with
  | nil => rfl
  | cons x xs ih => simp [counts, ih]

theorem time_append : time p (xs ++ ys) = time (time p xs) ys := by
  induction xs generalizing p with
  | nil => rfl
  | cons x xs ih => exact ih

theorem total_append : total n (xs ++ ys) = total (total n xs) ys := by
  induction xs generalizing n with
  | nil => rfl
  | cons x xs ih => exact ih

theorem counts_take (k : ℕ) : (counts n xs).take k = counts n (xs.take k) := by
  induction xs generalizing n k with
  | nil => simp [counts]
  | cons x xs ih =>
    cases k with
    | zero => rfl
    | succ k => simp [counts, ih]

theorem total_eq : total n xs = n + (xs.filter Prod.fst).length := by
  induction xs generalizing n with
  | nil => rfl
  | cons x xs ih =>
    rw [total, ih]
    by_cases hx : x.1 = true
    · rw [next_reading hx, List.filter_cons_of_pos hx, List.length_cons]
      omega
    · rw [next_other hx, List.filter_cons_of_neg hx]

theorem length_before : (before p xs).length = (xs.filter Prod.fst).length := by
  induction xs generalizing p with
  | nil => rfl
  | cons x xs ih => by_cases hx : x.1 = true <;> simp [before, hx, ih]

/-- The numbers held lie between the first and the last. -/
theorem counts_mem {k : ℕ} (hk : k ∈ counts n xs) : n ≤ k ∧ k ≤ total n xs := by
  induction xs generalizing n with
  | nil => simp [counts] at hk
  | cons x xs ih =>
    have hn : n ≤ next n x := le_next
    have hle : next n x ≤ total (next n x) xs := by rw [total_eq]; omega
    rcases List.mem_cons.1 hk with rfl | hk
    · exact ⟨hn, hle⟩
    · exact ⟨hn.trans (ih hk).1, (ih hk).2⟩

theorem counts_sorted : (counts n xs).Pairwise (· ≤ ·) := by
  induction xs generalizing n with
  | nil => exact .nil
  | cons x xs ih => exact .cons (fun k hk => (counts_mem hk).1) ih

/-- The numbers held determine the last one. -/
theorem total_congr (h : counts n xs = counts n ys) : total n xs = total n ys := by
  induction xs generalizing n ys with
  | nil =>
    cases ys with
    | nil => rfl
    | cons y ys => simp [counts] at h
  | cons x xs ih =>
    cases ys with
    | nil => simp [counts] at h
    | cons y ys =>
      obtain ⟨hhead, htail⟩ := List.cons.inj h
      rw [hhead] at htail
      rw [total, total, hhead]
      exact ih htail

theorem total_mem_counts (h : xs ≠ []) : total n xs ∈ counts n xs := by
  induction xs generalizing n with
  | nil => exact absurd rfl h
  | cons x xs ih =>
    cases xs with
    | nil => exact List.mem_cons_self
    | cons y ys => exact List.mem_cons_of_mem _ (ih (by simp))

/-- A schedule that ends with a reading ends when its readings end. -/
theorem time_filter (h : ∀ x ∈ xs.getLast?, x.1 = true) : time p (xs.filter Prod.fst) = time p xs := by
  induction xs using List.reverseRecOn with
  | nil => rfl
  | append_singleton xs x _ =>
    have hx : x.1 = true := h x (by simp)
    rw [List.filter_append, time_append, time_append]
    simp [hx, time]

/-- A schedule that begins with a reading holds reading `1` or a later one at every time. -/
theorem counts_pos (hx : x.1 = true) {k : ℕ} (hk : k ∈ counts 0 (x :: xs)) : 1 ≤ k := by
  rw [counts, next_reading hx] at hk
  rcases List.mem_cons.1 hk with rfl | hk
  · exact le_refl 1
  · exact (counts_mem hk).1

end Schedules

/-! ### Sums over the readings -/

section Sums

variable [CommRing K]

/-- The integral of the held signal from the time `p` on. -/
def area (v : ℕ → K) (n : ℕ) (p : K) : List (Bool × K) → K
  | [] => 0
  | x :: xs => v (next n x) * (x.2 - p) + area v (next n x) x.2 xs

/-- The readings after number `n`, each with its weight. -/
def weighted (v : ℕ → K) (n : ℕ) : List K → K
  | [] => 0
  | c :: cs => v (n + 1) * c + weighted v (n + 1) cs

/-- The changes of the signal after reading `n`, each with its weight. -/
def jumps (v : ℕ → K) (n : ℕ) : List K → K
  | [] => 0
  | c :: cs => (v (n + 1) - v n) * c + jumps v (n + 1) cs

/-- Reading `a` is one, all others are zero. -/
def only (a k : ℕ) : K := if k = a then 1 else 0

variable {v : ℕ → K} {n : ℕ} {p : K} {xs : List (Bool × K)} {cs ds : List K}

/-- Summation by parts. -/
theorem area_eq : area v n p xs =
    v (total n xs) * time p xs - v n * p - jumps v n (before p xs) := by
  induction xs generalizing n p with
  | nil => simp [area, total, time, before, jumps]
  | cons x xs ih =>
    rw [area, ih, total, time, before]
    by_cases hx : x.1 = true
    · rw [if_pos hx, jumps, next_reading hx]
      ring
    · rw [if_neg hx, next_other hx]
      ring

theorem weighted_zero (h : ∀ k, n < k → v k = 0) : weighted v n cs = 0 := by
  induction cs generalizing n with
  | nil => rfl
  | cons c cs ih =>
    rw [weighted, h (n + 1) (by omega), ih fun k hk => h k (by omega)]
    ring

theorem jumps_const (h : ∀ k, n ≤ k → v k = v n) : jumps v n cs = 0 := by
  induction cs generalizing n with
  | nil => rfl
  | cons c cs ih =>
    have hn : v (n + 1) = v n := h (n + 1) (by omega)
    rw [jumps, hn, ih fun k hk => (h k (by omega)).trans hn.symm]
    ring

/-- Weights are determined by the sums for all values of the readings after `n`. -/
theorem weighted_inj (hlen : cs.length = ds.length)
    (h : ∀ v : ℕ → K, (∀ k ≤ n, v k = 0) → weighted v n cs = weighted v n ds) : cs = ds := by
  induction cs generalizing n ds with
  | nil => exact (List.length_eq_zero_iff.1 hlen.symm).symm
  | cons c cs ih =>
    cases ds with
    | nil => simp at hlen
    | cons d ds =>
      -- the reading `n + 1` alone
      have hhead : c = d := by
        have hone := h (only (n + 1)) fun k hk => if_neg (by omega)
        have hz : ∀ k, n + 1 < k → (only (n + 1) k : K) = 0 := fun k hk => if_neg (by omega)
        simpa [weighted, weighted_zero hz, only] using hone
      subst hhead
      refine congrArg (c :: ·) (ih (n := n + 1) (by simpa using hlen) fun v hv => ?_)
      have htail := h v fun k hk => hv k (by omega)
      exact add_left_cancel htail

/-- The same for the changes of the signal. -/
theorem jumps_inj (hlen : cs.length = ds.length)
    (h : ∀ v : ℕ → K, (∀ k ≤ n, v k = 0) → jumps v n cs = jumps v n ds) : cs = ds := by
  induction cs generalizing n ds with
  | nil => exact (List.length_eq_zero_iff.1 hlen.symm).symm
  | cons c cs ih =>
    cases ds with
    | nil => simp at hlen
    | cons d ds =>
      -- a signal that changes at reading `n + 1` only
      have hhead : c = d := by
        have hone := h (fun k => if k ≤ n then 0 else 1) fun k hk => if_pos hk
        have hc : ∀ k, n + 1 ≤ k → (fun k => if k ≤ n then (0 : K) else 1) k =
            (fun k => if k ≤ n then (0 : K) else 1) (n + 1) := by
          intro k hk
          simp only [if_neg (show ¬ k ≤ n by omega), if_neg (show ¬ n + 1 ≤ n by omega)]
        simpa [jumps, jumps_const hc] using hone
      subst hhead
      refine congrArg (c :: ·) (ih (n := n + 1) (by simpa using hlen) fun v hv => ?_)
      have htail := h v fun k hk => hv k (by omega)
      exact add_left_cancel htail

theorem sum_map_only {a : ℕ} {l : List ℕ} : (l.map (only a : ℕ → K)).sum = (l.count a : K) := by
  induction l with
  | nil => simp
  | cons b l ih =>
    rw [List.map_cons, List.sum_cons, ih, List.count_cons, only]
    by_cases hb : b = a
    · simp [hb, add_comm]
    · simp [hb]

/-- A sorted list of reading numbers is determined by the sums of the readings. -/
theorem sum_map_inj [CharZero K] {l m : List ℕ} (hl : l.Pairwise (· ≤ ·)) (hm : m.Pairwise (· ≤ ·))
    (hl0 : ∀ k ∈ l, n < k) (hm0 : ∀ k ∈ m, n < k)
    (h : ∀ v : ℕ → K, (∀ k ≤ n, v k = 0) → (l.map v).sum = (m.map v).sum) : l = m := by
  refine (List.perm_iff_count.2 fun a => ?_).eq_of_pairwise (fun _ _ _ _ => le_antisymm) hl hm
  by_cases ha : n < a
  · have hsum := h (only a) fun k hk => if_neg (by omega)
    rw [sum_map_only, sum_map_only] at hsum
    exact_mod_cast hsum
  · rw [List.count_eq_zero_of_not_mem fun hmem => ha (hl0 a hmem),
      List.count_eq_zero_of_not_mem fun hmem => ha (hm0 a hmem)]

end Sums

end SampleHold
