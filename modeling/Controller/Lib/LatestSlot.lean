import Mathlib.Data.List.Induction
import Mathlib.Tactic

/-!
# A slot that keeps the latest value

A producer puts values into a slot, each overwriting the one before; a consumer takes what the slot
holds, works on it and gives it out; both may be cleared.  `sublist_puts`: what is given out, followed by
what the consumer holds and what the slot holds, is a subsequence of what was put.
`fresh_eq_last`: the slot holds the last value put, or nothing.
-/

namespace LatestSlot

/-- The slot, the consumer's hand, and what has been given out. -/
@[ext]
structure Slot (α : Type*) where
  fresh : Option α
  held : Option α
  out : List α

/-- What producer and consumer do. -/
inductive Op (α : Type*)
  | put (x : α)
  | take
  | give
  | clear

variable {α : Type*}

/-- Nothing put yet. -/
def Slot.init : Slot α := ⟨none, none, []⟩

/-- One operation. -/
def Slot.step (s : Slot α) : Op α → Slot α
  | .put x => { s with fresh := some x }
  | .take => { s with fresh := none, held := s.fresh }
  | .give => { s with held := none, out := s.out ++ s.held.toList }
  | .clear => { s with fresh := none, held := none }

/-- The slot after some operations. -/
def after (ops : List (Op α)) : Slot α := ops.foldl Slot.step .init

/-- The values put, in order. -/
def puts (ops : List (Op α)) : List α :=
  ops.filterMap fun
    | .put x => some x
    | _ => none

@[simp] theorem after_concat (ops : List (Op α)) (op : Op α) :
    after (ops ++ [op]) = (after ops).step op := by
  unfold after
  rw [List.foldl_append]
  rfl

@[simp] theorem puts_concat_put (ops : List (Op α)) (x : α) :
    puts (ops ++ [.put x]) = puts ops ++ [x] := by
  simp [puts]

theorem puts_concat_of_ne (ops : List (Op α)) {op : Op α} (h : ∀ x, op ≠ .put x) :
    puts (ops ++ [op]) = puts ops := by
  cases op with
  | put x => exact absurd rfl (h x)
  | _ => simp [puts]

/-- Values come out in the order they were put, none twice, and so do those still inside. -/
theorem sublist_puts (ops : List (Op α)) :
    ((after ops).out ++ (after ops).held.toList ++ (after ops).fresh.toList).Sublist
      (puts ops) := by
  induction ops using List.reverseRecOn with
  | nil => exact List.Sublist.refl _
  | append_singleton ops op ih =>
    have hout : ((after ops).out ++ (after ops).held.toList).Sublist (puts ops) :=
      (List.sublist_append_left _ _).trans ih
    have hfresh : ((after ops).out ++ (after ops).fresh.toList).Sublist (puts ops) := by
      refine List.Sublist.trans ?_ ih
      exact (List.sublist_append_left _ _).append_right _
    cases op with
    | put x =>
      rw [after_concat, puts_concat_put]
      exact hout.append (List.Sublist.refl [x])
    | take =>
      rw [after_concat, puts_concat_of_ne _ (by simp)]
      simpa [Slot.step] using hfresh
    | give =>
      rw [after_concat, puts_concat_of_ne _ (by simp)]
      simpa [Slot.step] using ih
    | clear =>
      rw [after_concat, puts_concat_of_ne _ (by simp)]
      simpa [Slot.step] using (List.sublist_append_left _ _).trans hout

/-- The slot holds the last value put, or nothing. -/
theorem fresh_eq_last (ops : List (Op α)) {x : α} (h : (after ops).fresh = some x) :
    (puts ops).getLast? = some x := by
  induction ops using List.reverseRecOn with
  | nil => cases h
  | append_singleton ops op ih =>
    rw [after_concat] at h
    cases op with
    | put y =>
      rw [puts_concat_put, List.getLast?_concat]
      exact h
    | take => cases h
    | clear => cases h
    | give =>
      rw [puts_concat_of_ne _ (by simp)]
      exact ih h

end LatestSlot
