import Mathlib.Tactic.Ring

/-!
# Java strings

A Java string is a list of UTF-16 code units, with no condition on surrogates.

* `substring` throws on an index outside the string; `substring_last` reads back what a string ends
  in, by counting from its end;
* `getBytes` encodes in UTF-8; a surrogate without its partner becomes a question mark.
-/

/-- A Java string. -/
abbrev JavaString := List UInt16

namespace JavaString

/-- A literal in ASCII. -/
def ofAscii (s : String) : JavaString := s.toList.map fun c => UInt16.ofNat c.toNat

/-- `String.substring(beginIndex)`; `none` is a `StringIndexOutOfBoundsException`. -/
def substring (s : JavaString) (beginIndex : ℤ) : Option JavaString :=
  if 0 ≤ beginIndex ∧ beginIndex ≤ s.length then some (s.drop beginIndex.toNat) else none

/-- The last `n` code units of a string that ends in a string of length `n`. -/
theorem substring_last (s t : JavaString) {n : ℕ} (h : t.length = n) :
    substring (s ++ t) ((s ++ t).length - n) = some t := by
  have hlen : ((s ++ t).length : ℤ) - n = s.length := by
    rw [List.length_append, h]
    push_cast
    ring
  rw [hlen, substring, if_pos ⟨by omega, by rw [List.length_append]; omega⟩, Int.toNat_natCast,
    List.drop_left]

/-- The code unit begins a pair. -/
def isHighSurrogate (u : UInt16) : Bool := 0xD800 ≤ u && u ≤ 0xDBFF

/-- The code unit ends a pair. -/
def isLowSurrogate (u : UInt16) : Bool := 0xDC00 ≤ u && u ≤ 0xDFFF

/-- The bytes of a code unit that is not in a pair. -/
def unitBytes (u : UInt16) : List UInt8 :=
  let n := u.toNat
  if n < 0x80 then [UInt8.ofNat n]
  else if n < 0x800 then [UInt8.ofNat (0xC0 + n / 64), UInt8.ofNat (0x80 + n % 64)]
  else if isHighSurrogate u || isLowSurrogate u then [0x3F]
  else [UInt8.ofNat (0xE0 + n / 4096), UInt8.ofNat (0x80 + n / 64 % 64), UInt8.ofNat (0x80 + n % 64)]

/-- The bytes of a pair. -/
def pairBytes (high low : UInt16) : List UInt8 :=
  let n := 0x10000 + (high.toNat - 0xD800) * 1024 + (low.toNat - 0xDC00)
  [UInt8.ofNat (0xF0 + n / 262144), UInt8.ofNat (0x80 + n / 4096 % 64),
    UInt8.ofNat (0x80 + n / 64 % 64), UInt8.ofNat (0x80 + n % 64)]

/-- `String.getBytes()` with the default charset UTF-8. -/
def getBytes : JavaString → List UInt8
  | [] => []
  | [u] => unitBytes u
  | u :: v :: s =>
    if isHighSurrogate u && isLowSurrogate v then pairBytes u v ++ getBytes s
    else unitBytes u ++ getBytes (v :: s)

example : getBytes [0x31, 0xAC00, 0xD83D, 0xDE00, 0xD83D] =
    [0x31, 0xEA, 0xB0, 0x80, 0xF0, 0x9F, 0x98, 0x80, 0x3F] := by decide

end JavaString
