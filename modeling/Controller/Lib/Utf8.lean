import Mathlib.Data.List.Basic
import Mathlib.Tactic.Common

/-!
# Decoding UTF-8 with replacement

A decoder that never fails: every ill-formed piece of the input becomes one `U+FFFD`.  It reads
byte by byte and keeps the sequence it is in the middle of (`Pending`): how many continuation bytes
are missing, the bounds for the next one and the bits so far.  A byte out of bounds ends the
sequence and is then read again as a first byte; what is pending at the end is ill-formed too.

`decode_append_eq_iff` says when bytes appended to a text do not show: only when they are swallowed
by the sequence that the text breaks off in.
-/

namespace Utf8

/-- The sequence the decoder is in the middle of. -/
structure Pending where
  need : ℕ
  lower : UInt8
  upper : UInt8
  value : ℕ
  deriving DecidableEq

/-- `U+FFFD`. -/
def replacement : Char := Char.ofNat 0xFFFD

/-- A first byte: the characters it gives at once, and the sequence it begins. -/
def first (b : UInt8) : List Char × Option Pending :=
  if b < 0x80 then ([Char.ofNat b.toNat], none)
  else if 0xC2 ≤ b ∧ b ≤ 0xDF then ([], some ⟨1, 0x80, 0xBF, b.toNat % 32⟩)
  else if b = 0xE0 then ([], some ⟨2, 0xA0, 0xBF, b.toNat % 16⟩)
  else if b = 0xED then ([], some ⟨2, 0x80, 0x9F, b.toNat % 16⟩)
  else if 0xE1 ≤ b ∧ b ≤ 0xEF then ([], some ⟨2, 0x80, 0xBF, b.toNat % 16⟩)
  else if b = 0xF0 then ([], some ⟨3, 0x90, 0xBF, b.toNat % 8⟩)
  else if b = 0xF4 then ([], some ⟨3, 0x80, 0x8F, b.toNat % 8⟩)
  else if 0xF1 ≤ b ∧ b ≤ 0xF3 then ([], some ⟨3, 0x80, 0xBF, b.toNat % 8⟩)
  else ([replacement], none)

/-- The byte may follow in the sequence. -/
def Pending.Fits (p : Pending) (b : UInt8) : Prop := p.lower ≤ b ∧ b ≤ p.upper

instance (p : Pending) (b : UInt8) : Decidable (p.Fits b) :=
  inferInstanceAs (Decidable (_ ∧ _))

/-- A byte that fits: the last one completes the character. -/
def Pending.next (p : Pending) (b : UInt8) : Char ⊕ Pending :=
  if p.need ≤ 1 then .inl (Char.ofNat (p.value * 64 + b.toNat % 64))
  else .inr ⟨p.need - 1, 0x80, 0xBF, p.value * 64 + b.toNat % 64⟩

/-- Feed the decoder one byte. -/
def feed : Option Pending → UInt8 → List Char × Option Pending
  | none, b => first b
  | some p, b =>
    if p.Fits b then
      match p.next b with
      | .inl c => ([c], none)
      | .inr q => ([], some q)
    else (replacement :: (first b).1, (first b).2)

/-- What is left at the end of the input. -/
def flush : Option Pending → List Char
  | none => []
  | some _ => [replacement]

/-- Decode the rest of the input. -/
def decodeFrom : Option Pending → List UInt8 → List Char
  | p, [] => flush p
  | p, b :: bs => (feed p b).1 ++ decodeFrom (feed p b).2 bs

/-- Decode a text. -/
def decode (bs : List UInt8) : List Char := decodeFrom none bs

/-- The characters that are complete after `bs`. -/
def emitted : Option Pending → List UInt8 → List Char
  | _, [] => []
  | p, b :: bs => (feed p b).1 ++ emitted (feed p b).2 bs

/-- The sequence that is pending after `bs`. -/
def residue : Option Pending → List UInt8 → Option Pending
  | p, [] => p
  | p, b :: bs => residue (feed p b).2 bs

/-- The bytes only continue the pending sequence: they leave it incomplete, or complete it to
`U+FFFD` itself. -/
def Pending.Absorbs (p : Pending) : List UInt8 → Prop
  | [] => True
  | b :: bs => p.Fits b ∧
    match p.next b with
    | .inl c => c = replacement ∧ bs = []
    | .inr q => q.Absorbs bs

theorem decodeFrom_append (p : Option Pending) (xs ys : List UInt8) :
    decodeFrom p (xs ++ ys) = emitted p xs ++ decodeFrom (residue p xs) ys := by
  induction xs generalizing p with
  | nil => rfl
  | cons b xs ih =>
    simp only [List.cons_append, decodeFrom, emitted, residue, List.append_assoc]
    rw [ih]

theorem decodeFrom_eq (p : Option Pending) (xs : List UInt8) :
    decodeFrom p xs = emitted p xs ++ flush (residue p xs) := by
  have h := decodeFrom_append p xs []
  rw [List.append_nil] at h
  exact h

/-- The byte shows at once, or begins a sequence. -/
def ShowsOrBegins (r : List Char × Option Pending) : Prop :=
  (∃ c, r = ([c], none)) ∨ ∃ p, r = ([], some p)

theorem showsOrBegins_first (b : UInt8) : ShowsOrBegins (first b) := by
  unfold first
  -- one branch after the other: splitting all conditions at once compares them with each other
  refine iteInduction (motive := ShowsOrBegins) (fun _ => Or.inl ⟨_, rfl⟩) fun _ => ?_
  iterate 7 refine iteInduction (motive := ShowsOrBegins) (fun _ => Or.inr ⟨_, rfl⟩) fun _ => ?_
  exact Or.inl ⟨_, rfl⟩

theorem first_ne (b : UInt8) (h : (first b).1 = []) : (first b).2 ≠ none := by
  rcases showsOrBegins_first b with ⟨c, hc⟩ | ⟨p, hp⟩
  · rw [hc] at h
    cases h
  · rw [hp]
    exact Option.some_ne_none p

/-- What is pending shows at the end, whatever follows. -/
theorem decodeFrom_some_ne (p : Pending) (bs : List UInt8) : decodeFrom (some p) bs ≠ [] := by
  induction bs generalizing p with
  | nil => simp [decodeFrom, flush]
  | cons b bs ih =>
    simp only [decodeFrom, feed]
    split_ifs
    · cases p.next b with
      | inl c => simp
      | inr q => simpa using ih q
    · simp

theorem decodeFrom_none_eq_nil (bs : List UInt8) : decodeFrom none bs = [] ↔ bs = [] := by
  constructor
  · cases bs with
    | nil => intro _; rfl
    | cons b bs =>
      intro h
      simp only [decodeFrom, feed, List.append_eq_nil_iff] at h
      obtain ⟨p, hp⟩ := Option.ne_none_iff_exists'.1 (first_ne b h.1)
      rw [hp] at h
      exact absurd h.2 (decodeFrom_some_ne p bs)
  · rintro rfl
    rfl

theorem Pending.absorbs_iff (p : Pending) (bs : List UInt8) :
    decodeFrom (some p) bs = [replacement] ↔ p.Absorbs bs := by
  induction bs generalizing p with
  | nil => exact iff_of_true rfl trivial
  | cons b bs ih =>
    by_cases hb : p.Fits b
    · simp only [decodeFrom, feed, Absorbs, hb, true_and]
      cases p.next b with
      | inl c => simp [decodeFrom_none_eq_nil]
      | inr q => simpa using ih q
    · -- the byte is read again, and shows
      have hne : decodeFrom none (b :: bs) ≠ [] := by simp [decodeFrom_none_eq_nil]
      refine iff_of_false (fun h => hne ?_) fun h => hb h.1
      simp only [decodeFrom, feed, if_neg hb, List.cons_append, List.cons.injEq, true_and] at h
      exact h

/-- **Appended bytes do not show exactly when the broken sequence before them absorbs them.** -/
theorem decode_append_eq_iff (xs ys : List UInt8) :
    decode (xs ++ ys) = decode xs ↔
      ys = [] ∨ ∃ p, residue none xs = some p ∧ p.Absorbs ys := by
  unfold decode
  rw [decodeFrom_append, decodeFrom_eq none xs, List.append_cancel_left_eq]
  cases hr : residue none xs with
  | none => simp [flush, decodeFrom_none_eq_nil]
  | some p =>
    simp only [flush, p.absorbs_iff, Option.some.injEq, exists_eq_left']
    constructor
    · exact Or.inr
    · rintro (rfl | h)
      · trivial
      · exact h

/-- Nothing is pending after plain ASCII. -/
theorem residue_ascii {xs : List UInt8} (h : ∀ b ∈ xs, b < 0x80) : residue none xs = none := by
  induction xs with
  | nil => rfl
  | cons b xs ih =>
    have hb : b < 0x80 := h b (by simp)
    simp only [residue, feed, first, if_pos hb]
    exact ih fun c hc => h c (by simp [hc])

end Utf8
