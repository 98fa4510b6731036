/-!
# Reading bytes as text

Text arrives as UTF-8. Bytes that are not UTF-8 are read all the same: wherever a character
breaks off, the longest stretch of bytes that could still begin one is replaced by one U+FFFD,
and reading goes on with the byte that broke it off. Overlong forms, surrogates and values
above U+10FFFF break off at the first byte that gives them away.

The reader is a machine that takes one byte at a time. Between characters nothing is pending;
inside a character the state says how many bytes are still owed and which values the next one
may have.
-/

namespace Typeahead.Text

/-- A character that has begun but is not complete. -/
structure Pending where
  /-- The least value the next byte may have. -/
  low : Nat
  /-- The greatest value the next byte may have. -/
  high : Nat
  /-- How many bytes are owed after the next one. -/
  owed : Nat
  /-- The code point bits read so far. -/
  bits : Nat

/-- What stands for bytes that are no character. -/
def replacement : Char := Char.ofNat 0xFFFD

/-- Takes a byte between characters: the characters it completes and what is pending after it. -/
def startWith (b : Nat) : List Char × Option Pending :=
  if b ≤ 0x7F then ([Char.ofNat b], none)
  else if 0xC2 ≤ b ∧ b ≤ 0xDF then ([], some ⟨0x80, 0xBF, 0, b - 0xC0⟩)
  else if b = 0xE0 then ([], some ⟨0xA0, 0xBF, 1, 0⟩)
  else if b = 0xED then ([], some ⟨0x80, 0x9F, 1, 0xD⟩)
  else if 0xE1 ≤ b ∧ b ≤ 0xEF then ([], some ⟨0x80, 0xBF, 1, b - 0xE0⟩)
  else if b = 0xF0 then ([], some ⟨0x90, 0xBF, 2, 0⟩)
  else if 0xF1 ≤ b ∧ b ≤ 0xF3 then ([], some ⟨0x80, 0xBF, 2, b - 0xF0⟩)
  else if b = 0xF4 then ([], some ⟨0x80, 0x8F, 2, 4⟩)
  else ([replacement], none)

/-- Takes a byte inside a character. A byte that cannot go on with it ends it as a
replacement character, and is taken again between characters. -/
def continueWith (p : Pending) (b : Nat) : List Char × Option Pending :=
  if p.low ≤ b ∧ b ≤ p.high then
    let bits := p.bits * 64 + (b - 0x80)
    match p.owed with
    | 0 => ([Char.ofNat bits], none)
    | owed + 1 => ([], some ⟨0x80, 0xBF, owed, bits⟩)
  else
    let (out, next) := startWith b
    (replacement :: out, next)

/-- Reads the bytes that follow what is pending. -/
def decodeFrom (pending : Option Pending) : List UInt8 → List Char
  | [] => if pending.isSome then [replacement] else []
  | b :: bs =>
    let (out, next) := match pending with
      | none => startWith b.toNat
      | some p => continueWith p b.toNat
    out ++ decodeFrom next bs

/-- Reads bytes as text, with a replacement character wherever a character breaks off. -/
def decodeLossy (bytes : List UInt8) : String := String.ofList (decodeFrom none bytes)

example : decodeFrom none [0x61, 0xC3, 0xA9] = ['a', 'é'] := by decide

example : decodeFrom none [0xE2, 0x82, 0x61, 0xFF] = [replacement, 'a', replacement] := by decide

end Typeahead.Text
