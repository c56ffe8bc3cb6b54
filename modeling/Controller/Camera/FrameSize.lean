import Mathlib.Data.List.Induction
import Mathlib.Tactic

/-!
# `calculateCameraFrameSize`

The preview size is chosen in one pass over the supported sizes: a size that fits replaces the
choice when it is at least as large in both directions.  Sizes are not linearly ordered, so there
need not be a largest one and the choice may depend on the order of the list.

`calculateCameraFrameSize_maximal`: the choice fits and no supported size that fits is larger in
both directions; when one of them is at least as large as all others, that is the choice; only when
none fits is it the first of the list.
-/

namespace Controller.Camera

/-- A supported preview size. -/
structure Size where
  width : ℤ
  height : ℤ
  deriving DecidableEq, Repr

/-- At least as large in both directions. -/
instance : LE Size := ⟨fun a b => a.width ≤ b.width ∧ a.height ≤ b.height⟩

instance (a b : Size) : Decidable (a ≤ b) :=
  inferInstanceAs (Decidable (a.width ≤ b.width ∧ a.height ≤ b.height))

/-- `MAX_UNSPECIFIED`. -/
def maxUnspecified : ℤ := -1

/-- `maxAllowedWidth` and `maxAllowedHeight`. -/
def maxAllowed (max surface : ℤ) : ℤ :=
  if max ≠ maxUnspecified ∧ max < surface then max else surface

/-- The body of the loop. -/
def tryingSize (allowed chosen size : Size) : Size :=
  if size ≤ allowed then if chosen ≤ size then size else chosen else chosen

/-- The choice of the loop. -/
def largestFitting (allowed : Size) (sizes : List Size) : Size :=
  sizes.foldl (tryingSize allowed) ⟨0, 0⟩

/-- `calculateCameraFrameSize`. -/
def calculateCameraFrameSize (max : Size) (supportedSizes : List Size)
    (surfaceWidth surfaceHeight : ℤ) : Size :=
  let allowed := ⟨maxAllowed max.width surfaceWidth, maxAllowed max.height surfaceHeight⟩
  let chosen := largestFitting allowed supportedSizes
  if chosen.width = 0 ∨ chosen.height = 0 then supportedSizes.head?.getD chosen else chosen

variable {allowed a b c : Size} {sizes : List Size}

theorem maxAllowed_le (max surface : ℤ) : maxAllowed max surface ≤ surface := by
  unfold maxAllowed
  split_ifs with h
  · exact h.2.le
  · exact le_rfl

theorem Size.le_refl (a : Size) : a ≤ a := ⟨Int.le_refl _, Int.le_refl _⟩

theorem Size.le_trans (hab : a ≤ b) (hbc : b ≤ c) : a ≤ c :=
  ⟨Int.le_trans hab.1 hbc.1, Int.le_trans hab.2 hbc.2⟩

theorem Size.le_antisymm (hab : a ≤ b) (hba : b ≤ a) : a = b := by
  cases a
  cases b
  exact Size.mk.injEq .. ▸ ⟨Int.le_antisymm hab.1 hba.1, Int.le_antisymm hab.2 hba.2⟩

/-- The choice only grows. -/
theorem le_tryingSize (allowed chosen size : Size) : chosen ≤ tryingSize allowed chosen size := by
  unfold tryingSize
  split_ifs with h1 h2
  · exact h2
  · exact Size.le_refl _
  · exact Size.le_refl _

theorem le_foldl_tryingSize (allowed chosen : Size) (sizes : List Size) :
    chosen ≤ sizes.foldl (tryingSize allowed) chosen := by
  induction sizes generalizing chosen with
  | nil => exact Size.le_refl _
  | cons s sizes ih => exact Size.le_trans (le_tryingSize allowed chosen s) (ih _)

/-- A choice is one of the sizes that fit. -/
theorem foldl_tryingSize_mem (allowed chosen : Size) (sizes : List Size) :
    sizes.foldl (tryingSize allowed) chosen = chosen ∨
      (sizes.foldl (tryingSize allowed) chosen ∈ sizes ∧
        sizes.foldl (tryingSize allowed) chosen ≤ allowed) := by
  induction sizes generalizing chosen with
  | nil => exact .inl rfl
  | cons s sizes ih =>
    rw [List.foldl_cons]
    rcases ih (tryingSize allowed chosen s) with h | ⟨hm, hf⟩
    · rw [h]
      unfold tryingSize
      split_ifs with h1 h2
      · exact .inr ⟨by simp, h1⟩
      · exact .inl rfl
      · exact .inl rfl
    · exact .inr ⟨List.mem_cons_of_mem _ hm, hf⟩

/-- A size that fits and is as large as the final choice has been chosen when its turn came. -/
theorem foldl_tryingSize_maximal (allowed chosen : Size) {sizes : List Size} (hb : b ∈ sizes)
    (hfit : b ≤ allowed) (hle : sizes.foldl (tryingSize allowed) chosen ≤ b) :
    b = sizes.foldl (tryingSize allowed) chosen := by
  induction sizes generalizing chosen with
  | nil => cases hb
  | cons s sizes ih =>
    rw [List.foldl_cons] at hle ⊢
    rcases List.mem_cons.1 hb with rfl | hb
    · have hfinal := le_foldl_tryingSize allowed (tryingSize allowed chosen b) sizes
      have hcalc := Size.le_trans (le_tryingSize allowed chosen b) (Size.le_trans hfinal hle)
      have hturn : tryingSize allowed chosen b = b := by
        unfold tryingSize
        rw [if_pos hfit, if_pos hcalc]
      rw [hturn] at hfinal hle ⊢
      exact Size.le_antisymm hfinal hle
    · exact ih _ hb hle

/-- Once some size fits, the choice has positive sides. -/
theorem largestFitting_pos (hpos : ∀ s ∈ sizes, 0 < s.width ∧ 0 < s.height) (hb : b ∈ sizes)
    (hfit : b ≤ allowed) :
    0 < (largestFitting allowed sizes).width ∧ 0 < (largestFitting allowed sizes).height := by
  rcases foldl_tryingSize_mem allowed ⟨0, 0⟩ sizes with h | ⟨hm, -⟩
  · -- the loop chose nothing, so it would have chosen `b`
    have hzero : sizes.foldl (tryingSize allowed) ⟨0, 0⟩ ≤ b := by
      rw [h]
      exact ⟨(hpos b hb).1.le, (hpos b hb).2.le⟩
    have := foldl_tryingSize_maximal allowed ⟨0, 0⟩ hb hfit hzero
    unfold largestFitting
    rw [← this]
    exact hpos b hb
  · exact hpos _ hm

/-- Where some size fits, the choice of the loop is used, and it fits. -/
theorem calculateCameraFrameSize_of_fits (max : Size) {surfaceWidth surfaceHeight : ℤ}
    (hallowed : allowed = ⟨maxAllowed max.width surfaceWidth, maxAllowed max.height surfaceHeight⟩)
    (hpos : ∀ s ∈ sizes, 0 < s.width ∧ 0 < s.height) (hb : b ∈ sizes) (hfit : b ≤ allowed) :
    calculateCameraFrameSize max sizes surfaceWidth surfaceHeight = largestFitting allowed sizes ∧
      largestFitting allowed sizes ∈ sizes ∧ largestFitting allowed sizes ≤ allowed := by
  have hp := largestFitting_pos hpos hb hfit
  refine ⟨?_, ?_⟩
  · subst hallowed
    exact if_neg (by omega)
  · rcases foldl_tryingSize_mem allowed ⟨0, 0⟩ sizes with h | h
    · rw [show largestFitting allowed sizes = ⟨0, 0⟩ from h] at hp
      exact absurd hp.1 (by simp)
    · exact h

/-- Where none fits, the first size is used. -/
theorem calculateCameraFrameSize_of_not_fits (max : Size) {surfaceWidth surfaceHeight : ℤ}
    (hallowed : allowed = ⟨maxAllowed max.width surfaceWidth, maxAllowed max.height surfaceHeight⟩)
    (hne : sizes ≠ []) (hnone : ¬ ∃ s ∈ sizes, s ≤ allowed) :
    some (calculateCameraFrameSize max sizes surfaceWidth surfaceHeight) = sizes.head? := by
  have hzero : largestFitting allowed sizes = ⟨0, 0⟩ := by
    rcases foldl_tryingSize_mem allowed ⟨0, 0⟩ sizes with h | ⟨hm, hf⟩
    · exact h
    · exact absurd ⟨_, hm, hf⟩ hnone
  have hr : calculateCameraFrameSize max sizes surfaceWidth surfaceHeight =
      sizes.head?.getD (largestFitting allowed sizes) := by
    subst hallowed
    exact if_pos (.inl (by rw [hzero]))
  cases hsizes : sizes with
  | nil => exact absurd hsizes hne
  | cons s rest =>
    rw [← hsizes, hr, hsizes]
    rfl

/-- In both cases it is one of the list. -/
theorem calculateCameraFrameSize_mem (max : Size) (surfaceWidth surfaceHeight : ℤ)
    (hpos : ∀ s ∈ sizes, 0 < s.width ∧ 0 < s.height) (hne : sizes ≠ []) :
    calculateCameraFrameSize max sizes surfaceWidth surfaceHeight ∈ sizes := by
  by_cases hex : ∃ s ∈ sizes, s ≤
      ⟨maxAllowed max.width surfaceWidth, maxAllowed max.height surfaceHeight⟩
  · obtain ⟨s, hs, hf⟩ := hex
    obtain ⟨hr, hmem, -⟩ := calculateCameraFrameSize_of_fits max rfl hpos hs hf
    rw [hr]
    exact hmem
  · exact List.mem_of_head? (calculateCameraFrameSize_of_not_fits max rfl hne hex).symm

/-- The preview size is a supported size.  If any supported size fits into the surface and the
limits, the chosen one does and none that fits is larger in both directions, and it is the largest
one where there is a largest; otherwise it is the first. -/
theorem calculateCameraFrameSize_maximal (max : Size) {supportedSizes : List Size}
    (surfaceWidth surfaceHeight : ℤ)
    (hpos : ∀ s ∈ supportedSizes, 0 < s.width ∧ 0 < s.height) (hne : supportedSizes ≠ []) :
    let fits : Size → Prop := fun s => s.width ≤ maxAllowed max.width surfaceWidth ∧
      s.height ≤ maxAllowed max.height surfaceHeight
    let r := calculateCameraFrameSize max supportedSizes surfaceWidth surfaceHeight
    r ∈ supportedSizes ∧
      ((∃ s ∈ supportedSizes, fits s) → fits r ∧
        (∀ s ∈ supportedSizes, fits s → r ≤ s → s = r) ∧
        ∀ s ∈ supportedSizes, fits s → (∀ t ∈ supportedSizes, fits t → t ≤ s) → r = s) ∧
      ((¬ ∃ s ∈ supportedSizes, fits s) → some r = supportedSizes.head?) := by
  intro fits r
  refine ⟨calculateCameraFrameSize_mem max surfaceWidth surfaceHeight hpos hne, ?_,
    calculateCameraFrameSize_of_not_fits max rfl hne⟩
  rintro ⟨s, hs, hfs⟩
  obtain ⟨hr, hmem, hfit⟩ := calculateCameraFrameSize_of_fits max rfl hpos hs hfs
  have hmax : ∀ s ∈ supportedSizes, fits s → r ≤ s → s = r := by
    intro s hs hf hle
    rw [show r = _ from hr] at hle ⊢
    exact foldl_tryingSize_maximal _ ⟨0, 0⟩ hs hf hle
  rw [← hr] at hmem hfit
  refine ⟨hfit, hmax, fun s hs hf hall => ?_⟩
  exact (hmax s hs hf (hall r hmem hfit)).symm

/-- The example of `setMaxFrameSize`, with a third size that is larger in one direction only. -/
theorem calculateCameraFrameSize_limited :
    calculateCameraFrameSize ⟨200, 200⟩ [⟨176, 152⟩, ⟨320, 240⟩, ⟨160, 200⟩] 1600 720 = ⟨176, 152⟩ ∧
    (⟨176, 152⟩ : Size) ∈ [⟨176, 152⟩, ⟨320, 240⟩, (⟨160, 200⟩ : Size)] :=
  ⟨by decide, (calculateCameraFrameSize_maximal ⟨200, 200⟩ 1600 720 (by decide) (by decide)).1⟩

end Controller.Camera
