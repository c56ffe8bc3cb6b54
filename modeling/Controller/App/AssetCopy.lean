import Mathlib.Data.List.Basic
import Mathlib.Tactic

/-!
# `txt_file_rw`: copying an asset

The branch `ASSETS_COPY` of `txt_file_rw` copies an asset to a file unless the file exists.  The
file exists from the moment the stream is opened, before its first byte is written; a call that is
cut short after that leaves a part of the asset behind, and every later call takes the part for
the whole.

`copies_iff`: over any sequence of calls to one destination, every call that returns without an I/O
error leaves the whole asset there, if and only if no call gets as far as `exists()` after the call
that created the file was cut short of the last byte.

What the platform does to a call is part of the call: each operation succeeds, throws (the catch
block then ends the call) or is where the process dies; a read delivers between one byte and the
64 KiB of the buffer, and a write that does not succeed may have written some of them.  The stream
is not buffered, so what was written is in the file.
-/

namespace Controller

/-- How an operation ends. -/
inductive Fate
  | ok
  | throws
  | dies
  deriving DecidableEq

/-- One iteration of the copy loop.  `read` delivers `size + 1` bytes, or what is left; a `write`
that does not succeed has written `part` of them. -/
structure Iteration where
  read : Fate
  size : Fin (64 * 1024)
  write : Fate
  part : ℕ

/-- The bytes a read asks for. -/
def Iteration.count (i : Iteration) : ℕ := i.size.val + 1

/-- One call: `am.open`, the constructor of `FileOutputStream`, the loop, and the closing of both
streams. -/
structure CopyCall where
  amOpen : Fate
  create : Fate
  loop : List Iteration
  close : Fate

/-- How a call ends: it returns `"exist"`, it returns after copying, it returns because an
exception was swallowed, or it does not return. -/
inductive Returned
  | exist
  | copied
  | swallowed
  | died
  deriving DecidableEq

/-- The call returned, and no I/O error occurred in it. -/
def Returned.Clean (r : Returned) : Prop := r = .exist ∨ r = .copied

instance (r : Returned) : Decidable r.Clean := inferInstanceAs (Decidable (_ ∨ _))

/-- What becomes of the call after an operation, if it would have ended in `r`. -/
def Fate.returned : Fate → Returned → Returned
  | .ok, r => r
  | .throws, _ => .swallowed
  | .dies, _ => .died

/-- The loop, with the bytes not yet read and the bytes written so far: the contents of the file
and how the loop ends.  At the end of the asset `read` returns `-1`. -/
def copyLoop (rest written : List UInt8) : List Iteration → List UInt8 × Fate
  | [] => (written, .dies)
  | i :: loop =>
    match i.read with
    | .throws => (written, .throws)
    | .dies => (written, .dies)
    | .ok =>
      if rest = [] then (written, .ok)
      else
        let buffer := rest.take i.count
        match i.write with
        | .ok => copyLoop (rest.drop i.count) (written ++ buffer) loop
        | .throws => (written ++ buffer.take i.part, .throws)
        | .dies => (written ++ buffer.take i.part, .dies)

/-- `txt_file_rw(path, ASSETS_COPY, data, data_1, mode)`: the destination after the call (`none`
when it does not exist) and how the call ends. -/
def txtFileRw (asset : List UInt8) (file : Option (List UInt8)) (c : CopyCall) :
    Option (List UInt8) × Returned :=
  match c.amOpen with
  | .throws => (file, .swallowed)
  | .dies => (file, .died)
  | .ok =>
    if file.isSome then (file, .exist)
    else
      match c.create with
      | .throws => (file, .swallowed)
      | .dies => (file, .died)
      | .ok =>
        let l := copyLoop asset [] c.loop
        (some l.1, l.2.returned (c.close.returned .copied))

/-- The destination after a sequence of calls, when it did not exist before. -/
def afterCalls (asset : List UInt8) (cs : List CopyCall) : Option (List UInt8) :=
  cs.foldl (fun file c => (txtFileRw asset file c).1) none

/-! ### The loop -/

/-- How many of `n` bytes the iterations let through. -/
def bytesWritten (n : ℕ) : List Iteration → ℕ
  | [] => 0
  | i :: loop =>
    if i.read = .ok ∧ n ≠ 0 then
      if i.write = .ok then min i.count n + bytesWritten (n - i.count) loop
      else min i.part (min i.count n)
    else 0

/-- The file holds the bytes that were let through, from the start of the asset. -/
theorem copyLoop_written (rest written : List UInt8) (loop : List Iteration) :
    (copyLoop rest written loop).1 = written ++ rest.take (bytesWritten rest.length loop) := by
  induction loop generalizing rest written with
  | nil => simp [copyLoop, bytesWritten]
  | cons i loop ih =>
    unfold copyLoop bytesWritten
    cases hr : i.read with
    | throws => simp
    | dies => simp
    | ok =>
      by_cases hn : rest = []
      · simp [hn]
      · have hlen : rest.length ≠ 0 := mt List.length_eq_zero_iff.1 hn
        cases hw : i.write with
        | ok =>
          simp only [hn, hlen, if_false, ne_eq, not_false_eq_true, and_self, if_true]
          rw [ih, List.length_drop, List.append_assoc]
          congr 1
          rcases Nat.le_total i.count rest.length with hle | hle
          · rw [min_eq_left hle, List.take_add]
          · rw [min_eq_right hle, List.take_of_length_le hle, List.drop_of_length_le hle,
              List.take_nil, List.append_nil, List.take_of_length_le (Nat.le_add_right _ _)]
        | throws => simp [hn, hlen, List.take_take, min_comm, min_left_comm]
        | dies => simp [hn, hlen, List.take_take, min_comm, min_left_comm]

/-- A loop that ends by itself has copied everything. -/
theorem copyLoop_ok {rest written : List UInt8} {loop : List Iteration}
    (h : (copyLoop rest written loop).2 = .ok) : (copyLoop rest written loop).1 = written ++ rest := by
  induction loop generalizing rest written with
  | nil => cases h
  | cons i loop ih =>
    unfold copyLoop at h ⊢
    cases hr : i.read with
    | throws => rw [hr] at h; cases h
    | dies => rw [hr] at h; cases h
    | ok =>
      rw [hr] at h
      by_cases hn : rest = []
      · simp [hn]
      · simp only [hn, if_false] at h ⊢
        cases hw : i.write with
        | ok =>
          rw [hw] at h
          rw [ih h, List.append_assoc, List.take_append_drop]
        | throws => rw [hw] at h; cases h
        | dies => rw [hw] at h; cases h

/-! ### One call -/

theorem not_clean_swallowed : ¬ Returned.swallowed.Clean := by decide

theorem not_clean_died : ¬ Returned.died.Clean := by decide

/-- The call gets as far as creating the file, if there is none. -/
def CopyCall.Creates (c : CopyCall) : Prop := c.amOpen = .ok ∧ c.create = .ok

section Calls

variable {asset written : List UInt8} {c : CopyCall} {cs pre mid : List CopyCall}

/-- Once the file exists, no call changes it. -/
theorem txtFileRw_some (asset written : List UInt8) (c : CopyCall) :
    (txtFileRw asset (some written) c).1 = some written := by
  unfold txtFileRw
  cases c.amOpen <;> rfl

/-- And a call that gets to `exists()` returns without an error. -/
theorem clean_some_iff :
    (txtFileRw asset (some written) c).2.Clean ↔ c.amOpen = .ok := by
  unfold txtFileRw
  cases c.amOpen <;> simp [Returned.Clean]

theorem txtFileRw_of_not_creates (hc : ¬ c.Creates) : (txtFileRw asset none c).1 = none := by
  unfold txtFileRw
  cases ho : c.amOpen with
  | throws => rfl
  | dies => rfl
  | ok =>
    cases hk : c.create with
    | throws => rfl
    | dies => rfl
    | ok => exact absurd ⟨ho, hk⟩ hc

theorem txtFileRw_of_creates (hc : c.Creates) :
    txtFileRw asset none c = (some (copyLoop asset [] c.loop).1,
      (copyLoop asset [] c.loop).2.returned (c.close.returned .copied)) := by
  unfold txtFileRw
  rw [hc.1, hc.2]
  rfl

/-- A call that copies without an error copies everything. -/
theorem clean_none (h : (txtFileRw asset none c).2.Clean) :
    (txtFileRw asset none c).1 = some asset := by
  have hc : c.Creates := by
    unfold txtFileRw at h
    cases ho : c.amOpen with
    | throws => rw [ho] at h; exact absurd h not_clean_swallowed
    | dies => rw [ho] at h; exact absurd h not_clean_died
    | ok =>
      cases hk : c.create with
      | throws => rw [ho, hk] at h; exact absurd h not_clean_swallowed
      | dies => rw [ho, hk] at h; exact absurd h not_clean_died
      | ok => exact ⟨ho, hk⟩
  rw [txtFileRw_of_creates hc] at h ⊢
  have hok : (copyLoop asset [] c.loop).2 = .ok := by
    cases hl : (copyLoop asset [] c.loop).2 with
    | ok => rfl
    | throws => rw [hl] at h; exact absurd h not_clean_swallowed
    | dies => rw [hl] at h; exact absurd h not_clean_died
  rw [copyLoop_ok hok]
  rfl

/-! ### Sequences of calls -/

theorem afterCalls_append (asset : List UInt8) (pre mid : List CopyCall) :
    afterCalls asset (pre ++ mid) =
      mid.foldl (fun file c => (txtFileRw asset file c).1) (afterCalls asset pre) :=
  List.foldl_append

theorem afterCalls_none (h : ∀ b ∈ pre, ¬ b.Creates) : afterCalls asset pre = none := by
  induction pre using List.reverseRecOn with
  | nil => rfl
  | append_singleton pre b ih =>
    rw [afterCalls_append, ih fun b hb => h b (List.mem_append_left _ hb)]
    exact txtFileRw_of_not_creates (h b (by simp))

/-- The call that created the file decides what is in it. -/
theorem afterCalls_created (h : ∀ b ∈ pre, ¬ b.Creates) (hc : c.Creates) :
    afterCalls asset (pre ++ c :: mid) =
      some (asset.take (bytesWritten asset.length c.loop)) := by
  rw [afterCalls_append, afterCalls_none h, List.foldl_cons, txtFileRw_of_creates hc,
    copyLoop_written, List.nil_append]
  generalize asset.take (bytesWritten asset.length c.loop) = written
  induction mid with
  | nil => rfl
  | cons d mid ih =>
    rw [List.foldl_cons]
    show List.foldl _ (txtFileRw asset (some written) d).1 mid = _
    rw [txtFileRw_some, ih]

/-- Either no call creates the file, or there is a first one that does. -/
theorem first_creates (cs : List CopyCall) : (∀ b ∈ cs, ¬ b.Creates) ∨
    ∃ pre c mid, cs = pre ++ c :: mid ∧ (∀ b ∈ pre, ¬ b.Creates) ∧ c.Creates := by
  induction cs with
  | nil => exact Or.inl fun b hb => absurd hb List.not_mem_nil
  | cons b cs ih =>
    by_cases hb : b.Creates
    · exact Or.inr ⟨[], b, cs, rfl, fun _ h => absurd h List.not_mem_nil, hb⟩
    · rcases ih with h | ⟨pre, c, mid, rfl, hpre, hc⟩
      · exact Or.inl (List.forall_mem_cons.2 ⟨hb, h⟩)
      · exact Or.inr ⟨b :: pre, c, mid, rfl, List.forall_mem_cons.2 ⟨hb, hpre⟩, hc⟩

/-- No call gets to `exists()` after the call that created the file was cut short of the last of
the `n` bytes. -/
def NoneAfterTorn (n : ℕ) (cs : List CopyCall) : Prop :=
  ∀ pre c mid d post, cs = pre ++ c :: (mid ++ d :: post) → (∀ b ∈ pre, ¬ b.Creates) →
    c.Creates → bytesWritten n c.loop < n → d.amOpen ≠ .ok

/-- **Copying across retries.**  Every call that returns without an I/O error leaves the whole asset
at the destination, if and only if none comes after a torn copy. -/
theorem copies_iff (asset : List UInt8) (cs : List CopyCall) :
    (∀ pre c post, cs = pre ++ c :: post →
      (txtFileRw asset (afterCalls asset pre) c).2.Clean →
      (txtFileRw asset (afterCalls asset pre) c).1 = some asset) ↔
    NoneAfterTorn asset.length cs := by
  constructor
  · rintro h pre c mid d post rfl hpre hc htorn hopen
    have hfile : afterCalls asset (pre ++ c :: mid) = _ := afterCalls_created hpre hc
    have hd := h (pre ++ c :: mid) d post (by simp)
    rw [hfile, txtFileRw_some, clean_some_iff] at hd
    have hall := congrArg List.length (Option.some.inj (hd hopen))
    rw [List.length_take] at hall
    omega
  · rintro h pre c post rfl hclean
    rcases first_creates pre with hpre | ⟨pre', c', mid, rfl, hpre', hc'⟩
    · rw [afterCalls_none hpre] at hclean ⊢
      exact clean_none hclean
    · rw [afterCalls_created hpre' hc'] at hclean ⊢
      rw [txtFileRw_some]
      rw [clean_some_iff] at hclean
      have hfull : asset.length ≤ bytesWritten asset.length c'.loop := by
        by_contra htorn
        exact h pre' c' mid c post (by simp) hpre' hc' (not_le.1 htorn) hclean
      rw [List.take_of_length_le hfull]

end Calls

/-- The process dies in the first write, after one byte. -/
def killed : CopyCall := ⟨.ok, .ok, [⟨.ok, 2, .dies, 1⟩], .ok⟩

/-- Nothing goes wrong. -/
def undisturbed : CopyCall := ⟨.ok, .ok, [⟨.ok, 2, .ok, 0⟩, ⟨.ok, 2, .ok, 0⟩], .ok⟩

/-- The retry finds the file and is content with its one byte. -/
theorem copy_torn :
    txtFileRw [1, 2, 3] (afterCalls [1, 2, 3] [killed]) undisturbed = (some [1], .exist) ∧
      Returned.exist.Clean ∧ some [1] ≠ some ([1, 2, 3] : List UInt8) := by
  decide

end Controller
