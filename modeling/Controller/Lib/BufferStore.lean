import Mathlib.Tactic

/-!
# Buffers and headers

Values that are passed around as headers onto reference-counted buffers.  A `Header` is `none`
(no buffer) or the address of a buffer in a `Store`; copying a header shares the buffer.

* `assign st h b` overwrites the buffer behind `h` in place when there is one and allocates one
  otherwise;
* `clone st h` copies the contents behind `h` into a fresh buffer.

`Sep st hs` says that the headers of the list `hs` are live and do not share buffers.  An overwrite
through one of them keeps it (`Sep.assign`) and is not seen through the others
(`Sep.read_assign`); a fresh buffer changes none of them (`Sep.read_alloc`) and may take the place
of any (`Sep.fresh`).  Addresses are not reused.
-/

/-- The address of a buffer, or no buffer. -/
abbrev Header := Option ℕ

/-- The contents of all buffers, and the address of the next one. -/
structure BufferStore (β : Type) where
  cell : ℕ → Option β
  next : ℕ

namespace BufferStore

variable {β : Type} {st : BufferStore β} {h h' : Header} {hs l m : List Header} {b : β} {a a' : ℕ}

/-- No buffers. -/
def empty : BufferStore β := ⟨fun _ => none, 0⟩

/-- The contents behind a header. -/
def read (st : BufferStore β) (h : Header) : Option β := h.bind st.cell

/-- Overwrite the buffer at an address. -/
def write (st : BufferStore β) (a : ℕ) (b : β) : BufferStore β :=
  { st with cell := fun a' => if a' = a then some b else st.cell a' }

/-- A fresh buffer holding `b`. -/
def alloc (st : BufferStore β) (b : β) : BufferStore β × Header :=
  (⟨fun a' => if a' = st.next then some b else st.cell a', st.next + 1⟩, some st.next)

/-- Store `b` behind `h`, in place when `h` has a buffer. -/
def assign (st : BufferStore β) (h : Header) (b : β) : BufferStore β × Header :=
  match h with
  | some a => (st.write a b, some a)
  | none => st.alloc b

/-- A header onto a fresh copy of the contents behind `h`. -/
def clone (st : BufferStore β) (h : Header) : BufferStore β × Header :=
  match st.read h with
  | some b => st.alloc b
  | none => (st, none)

/-- Headers that are live and pairwise do not share a buffer. -/
structure Sep (st : BufferStore β) (hs : List Header) : Prop where
  live : ∀ a, some a ∈ hs → a < st.next
  apart : hs.Pairwise fun h h' => ∀ a, h = some a → h' ≠ some a

theorem sep_nil : Sep st [] := ⟨fun _ h => absurd h List.not_mem_nil, List.Pairwise.nil⟩

/-- Only a header with a buffer can share it. -/
theorem Sep.cons_none (H : Sep st hs) : Sep st (none :: hs) := by
  refine ⟨fun a ha => H.live a (by simpa using ha), List.pairwise_cons.2 ⟨?_, H.apart⟩⟩
  intro h _ a ha
  cases ha

/-- A live header does not point at the next fresh buffer. -/
theorem Sep.ne_next (H : Sep st hs) : some st.next ∉ hs := fun hm => absurd (H.live _ hm) (lt_irrefl _)

/-- A header shares its buffer with none of the others. -/
theorem Sep.ne_of_mem (H : Sep st (l ++ some a :: m)) (hm : some a' ∈ l ++ m) : a' ≠ a := by
  obtain ⟨_, h2, h12⟩ := List.pairwise_append.1 H.apart
  rintro rfl
  rcases List.mem_append.1 hm with h | h
  · exact h12 _ h _ List.mem_cons_self a' rfl rfl
  · exact (List.pairwise_cons.1 h2).1 _ h a' rfl rfl

/-! ### A fresh buffer -/

@[simp] theorem read_none : st.read none = none := rfl

@[simp] theorem read_alloc : (st.alloc b).1.read (st.alloc b).2 = some b := by
  simp [alloc, read]

theorem alloc_ne_none : (st.alloc b).2 ≠ none := by simp [alloc]

theorem Sep.alloc (H : Sep st hs) (b : β) : Sep (st.alloc b).1 hs :=
  ⟨fun a ha => Nat.lt_succ_of_lt (H.live a ha), H.apart⟩

theorem Sep.read_alloc (H : Sep st hs) (hm : h ∈ hs) (b : β) :
    (st.alloc b).1.read h = st.read h := by
  cases h with
  | none => rfl
  | some a =>
    have : a ≠ st.next := ne_of_lt (H.live a hm)
    simp [BufferStore.alloc, BufferStore.read, this]

/-- Replacing one of the headers by one onto a fresh buffer. -/
theorem Sep.fresh (H : Sep st (l ++ h :: m)) (b : β) :
    Sep (st.alloc b).1 (l ++ (st.alloc b).2 :: m) := by
  have hnext : some st.next ∉ l ++ m := fun hm =>
    H.ne_next (by simp only [List.mem_append, List.mem_cons] at hm ⊢; tauto)
  simp only [List.mem_append, not_or] at hnext
  obtain ⟨h1, h2, h12⟩ := List.pairwise_append.1 H.apart
  refine ⟨fun a ha => ?_, List.pairwise_append.2 ⟨h1, List.pairwise_cons.2
    ⟨?_, (List.pairwise_cons.1 h2).2⟩, ?_⟩⟩
  · rcases List.mem_append.1 ha with ha | ha
    · exact Nat.lt_succ_of_lt (H.live a (List.mem_append_left _ ha))
    · rcases List.mem_cons.1 ha with ha | ha
      · cases ha; exact Nat.lt_succ_self _
      · exact Nat.lt_succ_of_lt (H.live a (List.mem_append_right _ (List.mem_cons_of_mem _ ha)))
  · rintro g hg a ha rfl
    cases ha
    exact hnext.2 hg
  · rintro g hg g' hg' a rfl rfl
    rcases List.mem_cons.1 hg' with hg' | hg'
    · cases hg'; exact hnext.1 hg
    · exact h12 _ hg _ (List.mem_cons_of_mem _ hg') a rfl rfl

/-! ### Assignment -/

@[simp] theorem read_assign : (st.assign h b).1.read (st.assign h b).2 = some b := by
  cases h with
  | none => exact BufferStore.read_alloc
  | some a => simp [assign, write, read]

theorem assign_ne_none : (st.assign h b).2 ≠ none := by
  cases h with
  | none => exact alloc_ne_none
  | some a => exact Option.some_ne_none a

theorem assign_header (hn : h ≠ none) : (st.assign h b).2 = h := by
  cases h with
  | none => exact absurd rfl hn
  | some a => rfl

theorem Sep.assign (H : Sep st (l ++ h :: m)) (b : β) :
    Sep (st.assign h b).1 (l ++ (st.assign h b).2 :: m) := by
  cases h with
  | none => exact H.fresh b
  | some a => exact ⟨H.live, H.apart⟩

theorem Sep.read_assign (H : Sep st (l ++ h :: m)) (hm : h' ∈ l ++ m) (b : β) :
    (st.assign h b).1.read h' = st.read h' := by
  cases h with
  | none =>
    exact H.read_alloc (by simp only [List.mem_append, List.mem_cons] at hm ⊢; tauto) b
  | some a =>
    cases h' with
    | none => rfl
    | some a' =>
      have : a' ≠ a := H.ne_of_mem hm
      simp [BufferStore.assign, write, BufferStore.read, this]

/-! ### Cloning -/

theorem clone_of_read (hb : st.read h = some b) : st.clone h = st.alloc b := by
  simp [clone, hb]

end BufferStore
