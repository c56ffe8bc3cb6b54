import Controller.App.SensorSums

/-!
# Gyroscope and accelerometer share one clock

Events of the accelerometer change what the gyroscope events are integrated over, and how many of
them are in the average.  `unaffected_iff` compares two streams with the same gyroscope events, all
other events lying between the first and the last of them: whatever the values, both end with the
same `roll`, `pitch`, `yaw`, `averGy` and `angleGy` if and only if their schedules meet
`SameTiming`.  `traffic_changes_roll` is one accelerometer event between two gyroscope events.

One direction compares the sums; the other recovers the schedule from them, with readings that are
zero except for one, or up to some number.
-/

namespace Controller

open SampleHold

namespace SensorState

variable {K : Type} [Field K]

/-- Whatever the values: streams with these schedules and the same gyroscope events end with the
same orientation, bias and integrated rates. -/
def Unaffected [LinearOrder K] (math : JavaMath K) (σ σ' : List (Bool × K)) : Prop :=
  ∀ es es' : List (SensorEvent K), es.map (·.tick) = σ → es'.map (·.tick) = σ' →
    es.filter (·.tick.1) = es'.filter (·.tick.1) →
      (after math es).orientation = (after math es').orientation ∧
      (after math es).mMySensor.averGy = (after math es').mMySensor.averGy ∧
      (after math es).mMySensor.angleGy = (after math es').mMySensor.angleGy

/-- All sums agree, for every choice of the readings. -/
def SameSums [LinearOrder K] (σ σ' : List (Bool × K)) : Prop :=
  ∀ u : ℕ → K, u 0 = 0 → weighted u 0 (gaps 0 σ) = weighted u 0 (gaps 0 σ') ∧
    average u σ = average u σ' ∧ turned u σ = turned u σ'

/-- The gyroscope has the first and the last event. -/
structure Enclosed (σ : List (Bool × K)) : Prop where
  first : ∀ x ∈ σ.head?, x.1 = true
  last : ∀ x ∈ σ.getLast?, x.1 = true

/-- The schedules agree in all that the gyroscope fields depend on: every gyroscope event comes as
long after the event before it; the same readings are held at the first ten events; both streams
end before the calibration, or neither; and if they go beyond it, then after the tenth event every
gyroscope event follows an event of the same time, and the tenth events have the same time, unless
reading `1` is the only one so far. -/
structure SameTiming [LinearOrder K] (σ σ' : List (Bool × K)) : Prop where
  gaps : gaps 0 σ = gaps 0 σ'
  held : (counts 0 σ).take 10 = (counts 0 σ').take 10
  calibrated : σ.length ≤ 10 ↔ σ'.length ≤ 10
  before : 10 < σ.length → before (time 0 (σ.take 10)) (σ.drop 10) =
    before (time 0 (σ'.take 10)) (σ'.drop 10)
  tenth : 10 < σ.length → time 0 (σ.take 10) = time 0 (σ'.take 10) ∨
    ∀ k ∈ (counts 0 σ).take 10, k = 1

section Values

variable {v : ℕ → Fin 3 → K} {n : ℕ} {es : List (SensorEvent K)} {σ σ' : List (Bool × K)}

/-- The stream with a given schedule and given readings; the accelerometer reads zero. -/
def fill (v : ℕ → Fin 3 → K) (n : ℕ) : List (Bool × K) → List (SensorEvent K)
  | [] => []
  | x :: xs => ⟨if x.1 then .gyroscope else .linearAcceleration, x.2,
      if x.1 then v (n + 1) else 0⟩ :: fill v (next n x) xs

theorem fill_tick : (fill v n σ).map (·.tick) = σ := by
  induction σ generalizing n with
  | nil => rfl
  | cons x σ ih =>
    obtain ⟨b, t⟩ := x
    rw [fill, List.map_cons, ih]
    cases b <;> rfl

theorem fill_reads : Reads v n (fill v n σ) := by
  induction σ generalizing n with
  | nil => trivial
  | cons x σ ih =>
    obtain ⟨b, t⟩ := x
    cases b with
    | false => exact ⟨nofun, ih⟩
    | true => exact ⟨fun _ => rfl, ih⟩

theorem fill_filter : (fill v n σ).filter (·.tick.1) = fill v n (σ.filter Prod.fst) := by
  induction σ generalizing n with
  | nil => rfl
  | cons x σ ih =>
    obtain ⟨b, t⟩ := x
    cases b with
    | false => exact ih
    | true => exact congrArg (_ :: ·) ih

/-- The readings of a stream, put after the `n + 1` values `l`. -/
theorem reads_getD {l : List (Fin 3 → K)} (hl : l.length = n + 1) :
    Reads (fun k => (l ++ (es.filter (·.tick.1)).map (·.values)).getD k 0) n es := by
  induction es generalizing n l with
  | nil => trivial
  | cons e es ih =>
    by_cases he : e.tick.1 = true
    · rw [List.filter_cons_of_pos (by exact he), List.map_cons]
      refine ⟨fun _ => ?_, ?_⟩
      · simp [← hl]
      · rw [next_reading he]
        have htail := ih (l := l ++ [e.values]) (n := n + 1) (by simp [hl])
        simpa using htail
    · rw [List.filter_cons_of_neg (by exact he)]
      refine ⟨fun hg => absurd (decide_eq_true hg) he, ?_⟩
      rw [next_other he]
      exact ih hl

/-- Streams with the same gyroscope events have the same readings. -/
theorem exists_reads {es' : List (SensorEvent K)}
    (h : es.filter (·.tick.1) = es'.filter (·.tick.1)) :
    ∃ v : ℕ → Fin 3 → K, v 0 = 0 ∧ Reads v 0 es ∧ Reads v 0 es' := by
  have hes : Reads _ 0 es := reads_getD (l := [0]) rfl
  have hes' : Reads _ 0 es' := reads_getD (l := [0]) rfl
  rw [← h] at hes'
  exact ⟨_, rfl, hes, hes'⟩

variable [LinearOrder K] [IsStrictOrderedRing K]

/-- The comparison as one of sums over the schedules. -/
theorem unaffected_iff_sums {math : JavaMath K} (h : σ.filter Prod.fst = σ'.filter Prod.fst) :
    Unaffected math σ σ' ↔ SameSums σ σ' := by
  constructor
  · intro hun u hu
    have hv : (fun k (_ : Fin 3) => u k) 0 = 0 := funext fun _ => hu
    obtain ⟨h1, h2, h3⟩ := hun (fill (fun k _ => u k) 0 σ) (fill (fun k _ => u k) 0 σ') fill_tick
      fill_tick (by rw [fill_filter, fill_filter, h])
    replace h1 := congrFun h1 0
    replace h2 := congrFun h2 0
    replace h3 := congrFun h3 0
    rw [after_orientation math fill_reads, after_orientation math fill_reads, fill_tick,
      fill_tick] at h1
    rw [after_averGy math hv fill_reads, after_averGy math hv fill_reads, fill_tick,
      fill_tick] at h2
    rw [after_angleGy math hv fill_reads, after_angleGy math hv fill_reads, fill_tick,
      fill_tick] at h3
    exact ⟨mul_left_cancel₀ ns2s_ne_zero h1, h2, mul_left_cancel₀ ns2s_ne_zero h3⟩
  · rintro hsum es es' rfl rfl hes
    obtain ⟨v, hv, hr, hr'⟩ := exists_reads hes
    have hi := fun i => hsum (fun k => v k i) (congrFun hv i)
    refine ⟨funext fun i => ?_, funext fun i => ?_, funext fun i => ?_⟩
    · rw [after_orientation math hr, after_orientation math hr', (hi i).1]
    · rw [after_averGy math hv hr, after_averGy math hv hr', (hi i).2.1]
    · rw [after_angleGy math hv hr, after_angleGy math hv hr', (hi i).2.2]

end Values

/-! ### Schedules -/

section Schedules

omit [Field K]

variable {σ σ' : List (Bool × K)}

theorem Enclosed.counts_pos (h : Enclosed σ) {k : ℕ} (hk : k ∈ counts 0 σ) : 1 ≤ k := by
  cases σ with
  | nil => simp [counts] at hk
  | cons x σ => exact SampleHold.counts_pos (h.first x rfl) hk

/-- Between the first and the last gyroscope event there is a second one. -/
theorem Enclosed.two_le (h : Enclosed σ) (hlen : 2 ≤ σ.length) : 2 ≤ (σ.filter Prod.fst).length := by
  cases σ with
  | nil => simp at hlen
  | cons x σ =>
    rcases List.eq_nil_or_concat' σ with rfl | ⟨ys, z, rfl⟩
    · simp at hlen
    · have hx : x.1 = true := h.first x rfl
      have hz : z.1 = true := by
        refine h.last z ?_
        rw [← List.cons_append, List.getLast?_concat]
        rfl
      simp [hx, hz]

/-- The reading held at the tenth event. -/
theorem total_take_congr (h : (counts 0 σ).take 10 = (counts 0 σ').take 10) :
    total 0 (σ.take 10) = total 0 (σ'.take 10) := by
  rw [counts_take, counts_take] at h
  exact total_congr h

theorem total_take_mem (hlen : 10 < σ.length) :
    total 0 (σ.take 10) ∈ (counts 0 σ).take 10 := by
  rw [counts_take]
  refine total_mem_counts fun hnil => ?_
  have hzero : (σ.take 10).length = 0 := by rw [hnil]; rfl
  rw [List.length_take] at hzero
  omega

theorem Enclosed.one_mem (h : Enclosed σ) (hlen : 10 < σ.length) : 1 ∈ (counts 0 σ).take 10 := by
  cases σ with
  | nil => simp at hlen
  | cons x σ =>
    rw [counts, next_reading (h.first x rfl)]
    exact List.mem_cons_self

end Schedules

/-! ### Sums -/

section Sums

variable {σ σ' : List (Bool × K)} {u : ℕ → K} {p : K}

/-- `average` by the readings held at the first ten events. -/
theorem average_eq : average u σ = if σ.length ≤ 10 then (((counts 0 σ).take 10).map u).sum
    else (((counts 0 σ).take 10).map u).sum / 10 := by
  unfold average bias
  by_cases hlen : σ.length ≤ 10
  · rw [if_pos hlen, if_pos hlen, List.take_of_length_le (by simpa using hlen)]
  · rw [if_neg hlen, if_neg hlen, counts_take]

theorem bias_eq : bias u σ = (((counts 0 σ).take 10).map u).sum / 10 := by
  rw [bias, counts_take]

/-- `drift` after summation by parts. -/
theorem drift_eq : drift u σ = u (total 0 σ) * time 0 σ -
    u (total 0 (σ.take 10)) * time 0 (σ.take 10) -
    jumps u (total 0 (σ.take 10)) (before (time 0 (σ.take 10)) (σ.drop 10)) -
    bias u σ * (time 0 σ - time 0 (σ.take 10)) := by
  rw [drift, area_eq, ← total_append, ← time_append, List.take_append_drop]

/-- Readings that are zero up to the tenth event leave no bias. -/
theorem bias_zero (hu : ∀ k ≤ total 0 (σ.take 10), u k = 0) : bias u σ = 0 := by
  have hall : ∀ c ∈ ((counts 0 σ).take 10).map u, c = 0 := by
    intro c hc
    obtain ⟨k, hk, rfl⟩ := List.mem_map.1 hc
    rw [counts_take] at hk
    exact hu k (counts_mem hk).2
  rw [bias_eq, List.sum_eq_zero hall, zero_div]

/-- The schedules end with the same reading, at the same time. -/
theorem Enclosed.end_eq (h : σ.filter Prod.fst = σ'.filter Prod.fst) (henc : Enclosed σ)
    (henc' : Enclosed σ') : total 0 σ = total 0 σ' ∧ time 0 σ = time 0 σ' := by
  refine ⟨by rw [total_eq, total_eq, h], ?_⟩
  rw [← time_filter henc.last, ← time_filter henc'.last, h]

variable [LinearOrder K]

theorem length_gaps : (gaps p σ).length = (σ.filter Prod.fst).length := by
  induction σ generalizing p with
  | nil => rfl
  | cons x σ ih => by_cases hx : x.1 = true <;> simp [gaps, hx, ih]

theorem SameSums.drift (hs : SameSums σ σ') (hcal : σ.length ≤ 10 ↔ σ'.length ≤ 10)
    (hlen : 10 < σ.length) (hu : u 0 = 0) : drift u σ = drift u σ' := by
  have hturned := (hs u hu).2.2
  have hlong : ¬ σ.length ≤ 10 := not_le.2 hlen
  unfold turned at hturned
  rwa [if_neg hlong, if_neg (mt hcal.2 hlong)] at hturned

theorem SameSums.gaps (h : σ.filter Prod.fst = σ'.filter Prod.fst) (hs : SameSums σ σ') :
    gaps 0 σ = gaps 0 σ' := by
  refine weighted_inj (n := 0) (by rw [length_gaps, length_gaps, h]) fun u hu => ?_
  exact (hs u (hu 0 le_rfl)).1

variable [IsStrictOrderedRing K]

/-- If reading `1` is the only one at the first ten events, the bias is that reading. -/
theorem bias_of_all_one (hlen : 10 < σ.length) (h : ∀ k ∈ (counts 0 σ).take 10, k = 1) :
    bias u σ = u (total 0 (σ.take 10)) := by
  have hten : ((counts 0 σ).take 10).length = 10 := by
    rw [List.length_take, length_counts]
    omega
  have hrep : (counts 0 σ).take 10 = List.replicate 10 1 :=
    List.eq_replicate_iff.2 ⟨hten, h⟩
  have hone : total 0 (σ.take 10) = 1 := h _ (total_take_mem hlen)
  rw [bias_eq, hrep, hone, List.map_replicate, List.sum_replicate, nsmul_eq_mul]
  push_cast
  rw [mul_div_cancel_left₀ _ (by norm_num)]

/-- Equal timing makes equal sums. -/
theorem SameTiming.sums (h : σ.filter Prod.fst = σ'.filter Prod.fst) (henc : Enclosed σ)
    (henc' : Enclosed σ') (ht : SameTiming σ σ') : SameSums σ σ' := by
  intro u _
  have haver : average u σ = average u σ' := by
    rw [average_eq, average_eq, ht.held]
    simp only [ht.calibrated]
  refine ⟨by rw [ht.gaps], haver, ?_⟩
  unfold turned
  by_cases hlen : σ.length ≤ 10
  · rw [if_pos hlen, if_pos (ht.calibrated.1 hlen)]
  · have hlen' : ¬ σ'.length ≤ 10 := mt ht.calibrated.2 hlen
    rw [if_neg hlen, if_neg hlen']
    have hbias : bias u σ = bias u σ' := by rw [bias_eq, bias_eq, ht.held]
    obtain ⟨htotal, htime⟩ := henc.end_eq h henc'
    rw [drift_eq, drift_eq, ← hbias, ← htotal, ← htime, ← total_take_congr ht.held,
      ← ht.before (not_le.1 hlen)]
    rcases ht.tenth (not_le.1 hlen) with heq | hall
    · rw [heq]
    · rw [bias_of_all_one (not_le.1 hlen) hall]
      ring

/-- Readings that are all one. -/
def ones (k : ℕ) : K := if k = 0 then 0 else 1

theorem Enclosed.average_ones (h : Enclosed σ) :
    average ones σ = if σ.length ≤ 10 then (σ.length : K) else 1 := by
  have hsum : (((counts 0 σ).take 10).map (ones : ℕ → K)).sum = ((min 10 σ.length : ℕ) : K) := by
    have hall : ∀ c ∈ ((counts 0 σ).take 10).map (ones : ℕ → K), c = 1 := by
      intro c hc
      obtain ⟨k, hk, rfl⟩ := List.mem_map.1 hc
      have hpos : 1 ≤ k := h.counts_pos (List.mem_of_mem_take hk)
      exact if_neg (by omega)
    rw [List.eq_replicate_of_mem hall, List.sum_replicate, nsmul_eq_mul, mul_one]
    simp
  rw [average_eq, hsum]
  by_cases hlen : σ.length ≤ 10
  · rw [if_pos hlen, if_pos hlen, min_eq_right hlen]
  · rw [if_neg hlen, if_neg hlen, min_eq_left (by omega)]
    norm_num

/-- The number of gyroscope events tells a stream of one event from one of more than ten. -/
theorem Enclosed.not_long (h : σ.filter Prod.fst = σ'.filter Prod.fst) (henc' : Enclosed σ')
    (haver : (σ.length : K) = 1) : σ'.length ≤ 10 := by
  by_contra hlen
  have hone : σ.length = 1 := by exact_mod_cast haver
  have htwo := henc'.two_le (by omega)
  rw [← h] at htwo
  have := List.length_filter_le Prod.fst σ
  omega

/-- The sums tell whether the calibration is complete. -/
theorem SameSums.calibrated (h : σ.filter Prod.fst = σ'.filter Prod.fst) (henc : Enclosed σ)
    (henc' : Enclosed σ') (hs : SameSums σ σ') : σ.length ≤ 10 ↔ σ'.length ≤ 10 := by
  have haver := (hs ones (if_pos rfl)).2.1
  rw [henc.average_ones, henc'.average_ones] at haver
  constructor
  · intro hlen
    by_contra hlen'
    rw [if_pos hlen, if_neg hlen'] at haver
    exact hlen' (henc'.not_long h haver)
  · intro hlen'
    by_contra hlen
    rw [if_neg hlen, if_pos hlen'] at haver
    exact hlen (henc.not_long h.symm haver.symm)

/-- The average gives the readings held at the first ten events. -/
theorem SameSums.held (henc : Enclosed σ) (henc' : Enclosed σ') (hs : SameSums σ σ')
    (hcal : σ.length ≤ 10 ↔ σ'.length ≤ 10) :
    (counts 0 σ).take 10 = (counts 0 σ').take 10 := by
  have hsorted : ∀ τ : List (Bool × K), ((counts 0 τ).take 10).Pairwise (· ≤ ·) := by
    intro τ
    rw [counts_take]
    exact counts_sorted
  refine sum_map_inj (K := K) (n := 0) (hsorted σ) (hsorted σ')
    (fun k hk => henc.counts_pos (List.mem_of_mem_take hk))
    (fun k hk => henc'.counts_pos (List.mem_of_mem_take hk)) fun u hu => ?_
  have haver := (hs u (hu 0 le_rfl)).2.1
  rw [average_eq, average_eq] at haver
  by_cases hlen : σ.length ≤ 10
  · rwa [if_pos hlen, if_pos (hcal.1 hlen)] at haver
  · rw [if_neg hlen, if_neg (mt hcal.2 hlen)] at haver
    exact (div_left_inj' (by norm_num)).1 haver

/-- The integrated rates give the times before the later gyroscope events. -/
theorem SameSums.before (h : σ.filter Prod.fst = σ'.filter Prod.fst) (henc : Enclosed σ)
    (henc' : Enclosed σ') (hs : SameSums σ σ') (hcal : σ.length ≤ 10 ↔ σ'.length ≤ 10)
    (hheld : (counts 0 σ).take 10 = (counts 0 σ').take 10) (hlen : 10 < σ.length) :
    before (time 0 (σ.take 10)) (σ.drop 10) = before (time 0 (σ'.take 10)) (σ'.drop 10) := by
  have hm := total_take_congr hheld
  obtain ⟨htotal, htime⟩ := henc.end_eq h henc'
  have hrest : ∀ τ : List (Bool × K),
      total 0 τ = total 0 (τ.take 10) + ((τ.drop 10).filter Prod.fst).length := by
    intro τ
    rw [← total_eq, ← total_append, List.take_append_drop]
  refine jumps_inj (n := total 0 (σ.take 10)) ?_ fun u hu => ?_
  · have h1 := hrest σ
    have h2 := hrest σ'
    rw [length_before, length_before]
    omega
  · have hdrift := hs.drift hcal hlen (hu 0 (Nat.zero_le _))
    have hbias : bias u σ = 0 := bias_zero hu
    have hbias' : bias u σ' = 0 := bias_zero (hm ▸ hu)
    rw [drift_eq, drift_eq, ← hm, ← htotal, ← htime, hbias, hbias', hu _ le_rfl] at hdrift
    linear_combination -hdrift

/-- They give the time of the tenth event, if that matters. -/
theorem SameSums.tenth (h : σ.filter Prod.fst = σ'.filter Prod.fst) (henc : Enclosed σ)
    (henc' : Enclosed σ') (hs : SameSums σ σ') (hcal : σ.length ≤ 10 ↔ σ'.length ≤ 10)
    (hheld : (counts 0 σ).take 10 = (counts 0 σ').take 10) (hlen : 10 < σ.length) :
    time 0 (σ.take 10) = time 0 (σ'.take 10) ∨ ∀ k ∈ (counts 0 σ).take 10, k = 1 := by
  have hbefore := hs.before h henc henc' hcal hheld hlen
  have hm := total_take_congr hheld
  obtain ⟨htotal, htime⟩ := henc.end_eq h henc'
  have hpos : 1 ≤ total 0 (σ.take 10) :=
    henc.counts_pos (List.mem_of_mem_take (total_take_mem hlen))
  -- the reading held at the tenth event, alone
  have hu : (only (total 0 (σ.take 10)) 0 : K) = 0 := if_neg (by omega)
  have hm1 : (only (total 0 (σ.take 10)) (total 0 (σ.take 10)) : K) = 1 := if_pos rfl
  have hdrift := hs.drift hcal hlen hu
  have hbias : bias (only (total 0 (σ.take 10)) : ℕ → K) σ =
      bias (only (total 0 (σ.take 10))) σ' := by
    rw [bias_eq, bias_eq, hheld]
  rw [drift_eq, drift_eq, ← hbias, ← hm, ← htotal, ← htime, ← hbefore, hm1] at hdrift
  have hprod : (bias (only (total 0 (σ.take 10)) : ℕ → K) σ - 1) *
      (time 0 (σ.take 10) - time 0 (σ'.take 10)) = 0 := by linear_combination hdrift
  rcases mul_eq_zero.1 hprod with hone | heq
  · -- the average of ten readings is that of the tenth: all are that reading, hence reading `1`
    right
    rw [bias_eq, sum_map_only, sub_eq_zero, div_eq_one_iff_eq (by norm_num)] at hone
    have hcount : ((counts 0 σ).take 10).count (total 0 (σ.take 10)) =
        ((counts 0 σ).take 10).length := by
      rw [List.length_take, length_counts, min_eq_left hlen.le]
      exact_mod_cast hone
    have hall := List.count_eq_length.1 hcount
    have hfirst := hall 1 (henc.one_mem hlen)
    exact fun k hk => ((hall k hk).symm.trans hfirst)
  · left
    exact sub_eq_zero.1 heq

/-- The sums agree exactly when the timing does. -/
theorem sums_iff_timing (h : σ.filter Prod.fst = σ'.filter Prod.fst) (henc : Enclosed σ)
    (henc' : Enclosed σ') : SameSums σ σ' ↔ SameTiming σ σ' := by
  constructor
  · intro hs
    have hcal := hs.calibrated h henc henc'
    have hheld := hs.held henc henc' hcal
    exact ⟨hs.gaps h, hheld, hcal, hs.before h henc henc' hcal hheld,
      hs.tenth h henc henc' hcal hheld⟩
  · exact SameTiming.sums h henc henc'

end Sums

variable [LinearOrder K] [IsStrictOrderedRing K]

/-- For any two interleavings of the same gyroscope events with other events, none before the first
or after the last gyroscope event: the gyroscope fields end the same, whatever the values, if and
only if the timing is the same. -/
theorem unaffected_iff {math : JavaMath K} {σ σ' : List (Bool × K)}
    (h : σ.filter Prod.fst = σ'.filter Prod.fst) (henc : Enclosed σ) (henc' : Enclosed σ') :
    Unaffected math σ σ' ↔ SameTiming σ σ' :=
  (unaffected_iff_sums h).trans (sums_iff_timing h henc henc')

/-- Two accelerometer events between two gyroscope events, the first of them at the time `t`. -/
def between (t : ℚ) : List (Bool × ℚ) := [(true, 1), (false, t), (false, 4), (true, 5)]

/-- The first accelerometer event may move. -/
theorem unaffected_iff_between : Unaffected levelMath (between 2) (between 3) := by
  have hgyro : (between 2).filter Prod.fst = (between 3).filter Prod.fst := rfl
  have henc : ∀ t, Enclosed (between t) := fun t => ⟨by simp [between], by simp [between]⟩
  refine (unaffected_iff hgyro (henc 2) (henc 3)).2 ?_
  exact
    { gaps := by decide +kernel
      held := rfl
      calibrated := by decide
      before := fun h => absurd h (by decide)
      tenth := fun h => absurd h (by decide) }

/-- The device turns at a constant rate between two gyroscope events. -/
def quiet : List (SensorEvent ℚ) := [⟨.gyroscope, 1, 1⟩, ⟨.gyroscope, 3, 1⟩]

/-- The same with an accelerometer event between them. -/
def noisy : List (SensorEvent ℚ) :=
  [⟨.gyroscope, 1, 1⟩, ⟨.linearAcceleration, 2, 0⟩, ⟨.gyroscope, 3, 1⟩]

/-- The accelerometer event halves the turn. -/
theorem traffic_changes_roll : quiet.filter (·.tick.1) = noisy.filter (·.tick.1) ∧
    Enclosed (quiet.map (·.tick)) ∧ Enclosed (noisy.map (·.tick)) ∧
    (noisy.map (·.timestamp)).Pairwise (· < ·) ∧
    (after levelMath quiet).roll = 2 / 1000000000 ∧
    (after levelMath noisy).roll = 1 / 1000000000 ∧
    ¬ Unaffected levelMath (quiet.map (·.tick)) (noisy.map (·.tick)) := by
  have hquiet : (after levelMath quiet).roll = 2 / 1000000000 := by decide +kernel
  have hnoisy : (after levelMath noisy).roll = 1 / 1000000000 := by decide +kernel
  refine ⟨rfl, ⟨by simp [quiet, SensorEvent.tick], by simp [quiet, SensorEvent.tick]⟩,
    ⟨by simp [noisy, SensorEvent.tick], by simp [noisy, SensorEvent.tick]⟩, by decide, hquiet,
    hnoisy, fun h => ?_⟩
  have hroll := congrFun (h quiet noisy rfl rfl rfl).1 0
  replace hroll : (after levelMath quiet).roll = (after levelMath noisy).roll := hroll
  rw [hquiet, hnoisy] at hroll
  norm_num at hroll

end SensorState

end Controller
