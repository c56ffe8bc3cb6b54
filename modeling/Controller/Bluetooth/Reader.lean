import Controller.App.ControllerRvec
import Controller.Lib.PartialRun
import Controller.Lib.Utf8

/-!
# The reading loop of `ConnectedThread.run`

Every `read(buffer)` puts a chunk of bytes at the front of one buffer, and the whole buffer is then
decoded and given to `fromControllerRvec`; how many bytes were read is not looked at.  What an
earlier, longer chunk has left in the buffer is part of every later message.

`Separate` is what one would like of two runs of the loop: every message is the decoding of its own
chunk, equal chunks do the same in both runs, and the accumulators add up the accepted chunks.
`separate_iff`: this holds exactly when every chunk fills the buffer, or breaks off in the middle of
a UTF-8 sequence that swallows all the rest of the buffer (`Fills`).

A step of the loop is undefined when `fromControllerRvec` throws, because nobody catches it.
`read` throws at the end of the stream (`Service` has that step).
-/

namespace Controller.Bluetooth

open Abort PartialRun

/-- `buffer`. -/
abbrev Buffer := {b : List UInt8 // b.length = 1024}

/-- `new byte[1024]`. -/
def Buffer.new : Buffer := ⟨List.replicate 1024 0, List.length_replicate⟩

/-- What one `read(buffer)` delivers. -/
structure Chunk where
  bytes : List UInt8
  pos : 0 < bytes.length
  le : bytes.length ≤ 1024

/-- `read(buffer)`. -/
def Buffer.read (b : Buffer) (c : Chunk) : Buffer :=
  ⟨c.bytes ++ b.1.drop c.bytes.length, by
    have hb := b.2
    have hc := c.le
    rw [List.length_append, List.length_drop]
    omega⟩

/-- A chunk, with the static fields of the activity at that moment. -/
structure Reading where
  chunk : Chunk
  bDetectObj : ℤ
  gLView : Bool

/-- The buffer of the loop and the fields it works on. -/
structure Reader (K : Type) where
  buffer : Buffer
  gyro : GyroFields K

variable {K : Type} [Field K]

/-- `strYes`: the string that is made of the whole buffer after the chunk was read. -/
def Reader.strYes (s : Reader K) (c : Chunk) : List Char := Utf8.decode (s.buffer.read c).1

/-- The body of the loop. -/
def loopBody (java : Java K) (r : Reading) : Prog (Reader K) := fun s =>
  match fromControllerRvec java r.bDetectObj r.gLView (s.strYes r.chunk) s.gyro with
  | .ok g => .ok ⟨s.buffer.read r.chunk, g⟩
  | .error g => .error ⟨s.buffer.read r.chunk, g⟩

/-- One round of the loop. -/
def loopStep (java : Java K) (s : Reader K) (r : Reading) : Option (Reader K) :=
  match loopBody java r s with
  | .ok s' => some s'
  | .error _ => none

/-- The loop of a new thread, with the fields as it finds them. -/
def runLoop (java : Java K) (g : GyroFields K) (rs : List Reading) : Option (Reader K) :=
  run (loopStep java) ⟨.new, g⟩ rs

/-! ### Chunks on their own -/

/-- The chunk, decoded on its own. -/
def Chunk.text (c : Chunk) : List Char := Utf8.decode c.bytes

/-- The sum of a tenth of the `n`-th field over the accepted chunks. -/
def accumulated (java : Java K) (n : ℕ) (rs : List Reading) : K :=
  ((rs.filter fun r => Accepted r.chunk.text).map fun r =>
    1 / 10 * (java.number r.chunk.text n).getD 0).sum

/-- Every chunk of the run is interpreted on its own, and the accumulators add up. -/
structure Interprets (java : Java K) (g : GyroFields K) (rs : List Reading) : Prop where
  text : ∀ pre r post s, rs = pre ++ r :: post → runLoop java g pre = some s →
    s.strYes r.chunk = r.chunk.text
  sums : ∀ pre post s, rs = pre ++ post → runLoop java g pre = some s →
    s.gyro.mGARORadian = g.mGARORadian + accumulated java 2 pre ∧
      s.gyro.mSERORadian = g.mSERORadian + accumulated java 1 pre

/-- What one would like of two runs. -/
structure Separate (java : Java K) (g g' : GyroFields K) (rs rs' : List Reading) : Prop where
  left : Interprets java g rs
  right : Interprets java g' rs'
  same : ∀ pre r post s pre' r' post' s', rs = pre ++ r :: post → rs' = pre' ++ r' :: post' →
    runLoop java g pre = some s → runLoop java g' pre' = some s' → r.chunk = r'.chunk →
    (Accepted (s.strYes r.chunk) ↔ Accepted (s'.strYes r'.chunk)) ∧
    (final (loopBody java r s)).gyro.mGARORadian - s.gyro.mGARORadian =
      (final (loopBody java r' s')).gyro.mGARORadian - s'.gyro.mGARORadian ∧
    (final (loopBody java r s)).gyro.mSERORadian - s.gyro.mSERORadian =
      (final (loopBody java r' s')).gyro.mSERORadian - s'.gyro.mSERORadian

/-- The chunk fills the buffer, or what is left of the buffer disappears in the sequence that the
chunk breaks off in. -/
def Fills (s : Reader K) (r : Reading) : Prop :=
  r.chunk.bytes.length = 1024 ∨ ∃ p, Utf8.residue none r.chunk.bytes = some p ∧
    p.Absorbs (s.buffer.1.drop r.chunk.bytes.length)

section Step

variable {java : Java K} {s s' : Reader K} {r : Reading}

omit [Field K] in
theorem strYes_eq_iff (s : Reader K) (r : Reading) :
    s.strYes r.chunk = r.chunk.text ↔ Fills s r := by
  have hdrop : s.buffer.1.drop r.chunk.bytes.length = [] ↔ r.chunk.bytes.length = 1024 := by
    have hle := r.chunk.le
    rw [List.drop_eq_nil_iff, s.buffer.2]
    omega
  unfold Reader.strYes Chunk.text Fills Buffer.read
  rw [Utf8.decode_append_eq_iff, hdrop]

omit [Field K] in
/-- For plain ASCII nothing but the length counts. -/
theorem fills_ascii_iff (s : Reader K) {r : Reading} (h : ∀ b ∈ r.chunk.bytes, b < 0x80) :
    Fills s r ↔ r.chunk.bytes.length = 1024 := by
  unfold Fills
  rw [Utf8.residue_ascii h]
  simp

/-- A round moves the accumulators by what its message says. -/
theorem loopBody_added (java : Java K) (r : Reading) (s : Reader K) :
    (final (loopBody java r s)).gyro.mGARORadian =
        s.gyro.mGARORadian + (java.added (s.strYes r.chunk)).1 ∧
      (final (loopBody java r s)).gyro.mSERORadian =
        s.gyro.mSERORadian + (java.added (s.strYes r.chunk)).2 := by
  have h : (final (loopBody java r s)).gyro =
      final (fromControllerRvec java r.bDetectObj r.gLView (s.strYes r.chunk) s.gyro) := by
    unfold loopBody
    cases fromControllerRvec java r.bDetectObj r.gLView (s.strYes r.chunk) s.gyro <;> rfl
  rw [h]
  exact fromControllerRvec_added

theorem loopStep_some (h : loopStep java s r = some s') :
    s' = final (loopBody java r s) ∧ ∃ g, fromControllerRvec java r.bDetectObj r.gLView
      (s.strYes r.chunk) s.gyro = .ok g := by
  unfold loopStep at h
  cases hb : loopBody java r s with
  | error t =>
    rw [hb] at h
    cases h
  | ok t =>
    rw [hb] at h
    cases h
    refine ⟨rfl, ?_⟩
    unfold loopBody at hb
    cases hf : fromControllerRvec java r.bDetectObj r.gLView (s.strYes r.chunk) s.gyro with
    | ok g => exact ⟨g, rfl⟩
    | error g => simp [hf] at hb

theorem accumulated_concat (java : Java K) (n : ℕ) (rs : List Reading) (r : Reading) :
    accumulated java n (rs ++ [r]) = accumulated java n rs +
      if Accepted r.chunk.text then 1 / 10 * (java.number r.chunk.text n).getD 0 else 0 := by
  unfold accumulated
  by_cases h : Accepted r.chunk.text <;> simp [List.filter_append, h]

/-- The sums after one more round whose chunk fills the buffer. -/
theorem loopStep_accumulated {g : GyroFields K} {rs : List Reading} (hf : Fills s r)
    (hs : s.gyro.mGARORadian = g.mGARORadian + accumulated java 2 rs ∧
      s.gyro.mSERORadian = g.mSERORadian + accumulated java 1 rs)
    (hstep : loopStep java s r = some s') :
    s'.gyro.mGARORadian = g.mGARORadian + accumulated java 2 (rs ++ [r]) ∧
      s'.gyro.mSERORadian = g.mSERORadian + accumulated java 1 (rs ++ [r]) := by
  obtain ⟨rfl, g', hg'⟩ := loopStep_some hstep
  have hadd := loopBody_added java r s
  rw [(strYes_eq_iff s r).2 hf] at hadd hg'
  rw [hadd.1, hadd.2, hs.1, hs.2, accumulated_concat, accumulated_concat]
  by_cases hacc : Accepted r.chunk.text
  · obtain ⟨x, y, hx, hy, hxy⟩ := fromControllerRvec_ok hg' hacc
    rw [hxy, if_pos hacc, if_pos hacc, hx, hy]
    simp only [sensorResolutionRadianPerDegree, Option.getD_some]
    constructor <;> ring
  · rw [added_of_not_accepted hacc, if_neg hacc, if_neg hacc]
    constructor <;> ring

end Step

section Runs

variable {java : Java K} {g g' : GyroFields K} {rs rs' : List Reading}

theorem interprets_of_fills (h : Along (loopStep java) Fills ⟨.new, g⟩ rs) :
    Interprets java g rs := by
  refine ⟨?_, ?_⟩
  · rintro pre r post s rfl hs
    exact (strYes_eq_iff s r).2 (h.at_step hs)
  · rintro pre post s rfl hs
    refine run_induction (fun rs s =>
      s.gyro.mGARORadian = g.mGARORadian + accumulated java 2 rs ∧
        s.gyro.mSERORadian = g.mSERORadian + accumulated java 1 rs) ?_ ?_ h.append_left hs
    · simp [accumulated]
    · intro rs s r s' _ hsum hf hstep
      exact loopStep_accumulated hf hsum hstep

theorem fills_of_interprets (h : Interprets java g rs) :
    Along (loopStep java) Fills ⟨.new, g⟩ rs := by
  refine along_iff.2 ?_
  intro pre r post s hrs hs
  exact (strYes_eq_iff s r).1 (h.text pre r post s hrs hs)

/-- **Every chunk is interpreted on its own exactly when every chunk fills the buffer**, or breaks
off in a sequence that swallows the rest of it. -/
theorem separate_iff (java : Java K) (g g' : GyroFields K) (rs rs' : List Reading) :
    Separate java g g' rs rs' ↔
      Along (loopStep java) Fills ⟨.new, g⟩ rs ∧ Along (loopStep java) Fills ⟨.new, g'⟩ rs' := by
  constructor
  · intro h
    exact ⟨fills_of_interprets h.left, fills_of_interprets h.right⟩
  · rintro ⟨h, h'⟩
    have hl := interprets_of_fills h
    have hr := interprets_of_fills h'
    refine ⟨hl, hr, ?_⟩
    intro pre r post s pre' r' post' s' hrs hrs' hs hs' hc
    -- both rounds see the text of their chunk, whatever came before
    have hadd := loopBody_added java r s
    have hadd' := loopBody_added java r' s'
    rw [hl.text pre r post s hrs hs] at hadd ⊢
    rw [hr.text pre' r' post' s' hrs' hs', ← hc] at hadd'
    rw [hr.text pre' r' post' s' hrs' hs', ← hc]
    refine ⟨Iff.rfl, ?_, ?_⟩
    · rw [hadd.1, hadd'.1]
      ring
    · rw [hadd.2, hadd'.2]
      ring

end Runs

/-! ### Two messages -/

/-- `Float.parseFloat` on decimal numbers, exactly. -/
def decimal (str : List Char) : Option ℚ :=
  let str := (str.dropWhile (· = ' ')).rdropWhile (· = ' ')
  let sign : ℚ := if str.head? = some '-' then -1 else 1
  let str := if str.head? = some '-' then str.tail else str
  let whole := str.takeWhile Char.isDigit
  let frac := (str.dropWhile Char.isDigit).tail
  let value := (whole ++ frac).foldl (fun n c => 10 * n + (c.toNat - '0'.toNat)) 0
  if whole = [] ∨ frac.all Char.isDigit = false ∨ (str.dropWhile Char.isDigit).head?.getD '.' ≠ '.'
    then none
  else some (sign * value / 10 ^ frac.length)

/-- The bytes of an ASCII text. -/
def asciiBytes (str : String) : List UInt8 := str.toList.map fun c => UInt8.ofNat c.toNat

/-- The message of the comment in front of `fromControllerRvec`. -/
def sampleMessage : List UInt8 :=
  (asciiBytes ", ").intercalate (["xyz", "  0.133", " -0.104", "  0.065", "r/p/y", "  0.009",
    " -0.007", "  0.004", "dt", "  0.067", "q_w/x/y/z", "  1.000", "  0.004", " -0.003",
    "  0.002"].map asciiBytes)

/-- The message as one chunk. -/
def sampleReading : Reading := ⟨⟨sampleMessage, by decide +kernel, by decide +kernel⟩, 0, true⟩

/-- The message with blanks up to the end of the buffer. -/
def paddedReading : Reading :=
  ⟨⟨sampleMessage ++ List.replicate (1024 - sampleMessage.length) 32, by decide +kernel,
    by decide +kernel⟩, 0, true⟩

/-- The first bytes of another message. -/
def fragmentReading : Reading := ⟨⟨asciiBytes "xyz,   9", by decide, by decide⟩, 0, true⟩

/-- A round is defined when the message has its numbers and no object was detected. -/
theorem loopStep_defined {java : Java K} {s : Reader K} {r : Reading} {x y z : K}
    (hr : r.bDetectObj ≠ 1) (hx : java.number (s.strYes r.chunk) 1 = some x)
    (hy : java.number (s.strYes r.chunk) 2 = some y)
    (hz : java.number (s.strYes r.chunk) 3 = some z) :
    ∃ s', loopStep java s r = some s' ∧ s'.buffer = s.buffer.read r.chunk := by
  have hrvec : java.rvec (s.strYes r.chunk) = some ![x, y, z] := by simp [Java.rvec, hx, hy, hz]
  unfold loopStep loopBody fromControllerRvec
  by_cases hacc : Accepted (s.strYes r.chunk)
  · simp [if_pos hacc, hrvec, hr]
  · simp [if_neg hacc]

/-- The three numbers of a message. -/
def decimals (str : List Char) : List (Option ℚ) :=
  [1, 2, 3].map fun n => decimal ((split str).getD n [])

theorem numbers_of_decimals {str : List Char} {x y z : ℚ} (cos sin : ℚ → ℚ)
    (h : decimals str = [some x, some y, some z]) :
    Java.number ⟨decimal, cos, sin⟩ str 1 = some x ∧
      Java.number ⟨decimal, cos, sin⟩ str 2 = some y ∧
      Java.number ⟨decimal, cos, sin⟩ str 3 = some z := by
  simpa [decimals, Java.number] using h

theorem padded_decimals :
    decimals paddedReading.chunk.text = [some (133 / 1000), some (-104 / 1000), some (65 / 1000)] := by
  decide +kernel

theorem sample_decimals : decimals (Utf8.decode (Buffer.new.read sampleReading.chunk).1) =
    [some (133 / 1000), some (-104 / 1000), some (65 / 1000)] := by
  decide +kernel

/-- The padded message, read twice, counts twice. -/
theorem separate_iff_padded :
    paddedReading.chunk.bytes.length = 1024 ∧ ∀ cos sin : ℚ → ℚ,
      Separate ⟨decimal, cos, sin⟩ (.initial ℚ) (.initial ℚ) [paddedReading]
        [paddedReading, paddedReading] ∧
      ∃ s, runLoop ⟨decimal, cos, sin⟩ (.initial ℚ) [paddedReading, paddedReading] = some s ∧
        s.gyro.mGARORadian = -208 / 10000 ∧ s.gyro.mSERORadian = 266 / 10000 := by
  have hfull : paddedReading.chunk.bytes.length = 1024 := by decide +kernel
  refine ⟨hfull, fun cos sin => ?_⟩
  let java : Java ℚ := ⟨decimal, cos, sin⟩
  have hsep := (separate_iff java (.initial ℚ) (.initial ℚ) [paddedReading]
    [paddedReading, paddedReading]).2
      ⟨along_of_forall (by simp [Fills, hfull]), along_of_forall (by simp [Fills, hfull])⟩
  have htext : ∀ s : Reader ℚ, s.strYes paddedReading.chunk = paddedReading.chunk.text :=
    fun s => (strYes_eq_iff s paddedReading).2 (Or.inl hfull)
  have hacc : Accepted paddedReading.chunk.text := by decide +kernel
  have accumulated_padded : ∀ n, accumulated java n [paddedReading, paddedReading] =
      1 / 10 * (java.number paddedReading.chunk.text n).getD 0 +
        1 / 10 * (java.number paddedReading.chunk.text n).getD 0 := by
    intro n
    simp only [accumulated, List.filter_cons, hacc, decide_true, if_true, List.filter_nil,
      List.map_cons, List.map_nil, List.sum_cons, List.sum_nil, add_zero]
  obtain ⟨hx, hy, hz⟩ := numbers_of_decimals cos sin padded_decimals
  have hdef : ∀ s : Reader ℚ, ∃ s', loopStep java s paddedReading = some s' := by
    intro s
    obtain ⟨s', hs', -⟩ := loopStep_defined (s := s) (r := paddedReading) (by decide)
      (by rw [htext]; exact hx) (by rw [htext]; exact hy) (by rw [htext]; exact hz)
    exact ⟨s', hs'⟩
  obtain ⟨s, hs⟩ := hdef ⟨.new, .initial ℚ⟩
  obtain ⟨t, ht⟩ := hdef s
  have hrun : runLoop java (.initial ℚ) [paddedReading, paddedReading] = some t := by
    simp [runLoop, run_cons, hs, ht]
  have hsums := hsep.right.sums _ [] t (by simp) hrun
  refine ⟨hsep, t, hrun, ?_, ?_⟩
  · rw [hsums.1, accumulated_padded, hy]
    norm_num [GyroFields.initial]
  · rw [hsums.2, accumulated_padded, hx]
    norm_num [GyroFields.initial]

/-- A fragment is rejected by a new reader, and accepted, with the fields of the message before it,
when such a message was read. -/
theorem separate_fragment :
    ¬ Accepted (Reader.strYes ⟨.new, GyroFields.initial ℚ⟩ fragmentReading.chunk) ∧
    ∀ cos sin : ℚ → ℚ,
      (∃ s, runLoop ⟨decimal, cos, sin⟩ (.initial ℚ) [sampleReading] = some s ∧
        Accepted (s.strYes fragmentReading.chunk)) ∧
      ¬ Separate ⟨decimal, cos, sin⟩ (.initial ℚ) (.initial ℚ) [sampleReading, fragmentReading]
        [fragmentReading] := by
  have hno : ¬ Accepted (Reader.strYes ⟨.new, GyroFields.initial ℚ⟩ fragmentReading.chunk) := by
    decide +kernel
  refine ⟨hno, fun cos sin => ?_⟩
  let java : Java ℚ := ⟨decimal, cos, sin⟩
  obtain ⟨hx, hy, hz⟩ := numbers_of_decimals cos sin sample_decimals
  obtain ⟨s, hs, hbuffer⟩ := loopStep_defined (s := ⟨.new, .initial ℚ⟩) (r := sampleReading)
    (by decide) hx hy hz
  have hrun : runLoop java (.initial ℚ) [sampleReading] = some s := by
    rw [runLoop, run_singleton]
    exact hs
  have hyes : Accepted (s.strYes fragmentReading.chunk) := by
    unfold Reader.strYes
    rw [hbuffer]
    decide +kernel
  refine ⟨⟨s, hrun, hyes⟩, fun h => hno ?_⟩
  exact (h.same [sampleReading] fragmentReading [] s [] fragmentReading [] _ rfl rfl hrun rfl
    rfl).1.1 hyes

end Controller.Bluetooth
