import Typeahead.CharClass
import Typeahead.Needle

/-!
# Haystacks

A haystack is a text made ready to be searched. Only its first 1024 characters are looked at,
and of those only the ones from a given offset on. The character before the offset still
decides what begins at the offset, so that a text cut in the middle of a path scores like the
path's remainder and not like a text of its own.

Whether a needle occurs in a haystack at all does not depend on any weights: its folded
characters have to occur there in order.
-/

namespace Typeahead

/-- A character of a haystack. -/
structure Cell where
  /-- The character as it stands. -/
  char : Char
  /-- The character folded. -/
  folded : Char
  /-- The bonus for a match here. -/
  bonus : Int
  deriving DecidableEq

namespace Haystack

/-- How many characters of a text are looked at. -/
def longest : Nat := 1024

/-- The characters that are looked at: from `offset` on, within the first 1024. -/
def visible (text : List Char) (offset : Nat) : List Char := (text.take longest).drop offset

/-- Adds the cells of a text to a buffer, from `offset` on. The text's first character stands at
`position`, after the character `before`. -/
def addCells (w : Weights) (offset : Nat) : List Char → Nat → Option Char → Array Cell → Array Cell
  | [], _, _, buffer => buffer
  | c :: rest, position, before, buffer =>
    let buffer :=
      if offset ≤ position then
        buffer.push ⟨c, Text.foldCase c, w.bonus (Boundary.between before c)⟩
      else buffer
    addCells w offset rest (position + 1) (some c) buffer

/-- Writes the cells of a text from `offset` on into a buffer, whatever it held. -/
def fill (buffer : Array Cell) (w : Weights) (text : List Char) (offset : Nat) : Array Cell :=
  addCells w offset (text.take longest) 0 none (buffer.shrink 0)

/-- The cells of a text from `offset` on. -/
def prepare (w : Weights) (text : List Char) (offset : Nat) : Array Cell := fill #[] w text offset

/-- Whether the folded characters of a needle occur in a text in order. Each is looked for from
where the one before it was found, which finds all of them if any way of choosing does. -/
def occursIn : List Letter → List Char → Bool
  | [], _ => true
  | _ :: _, [] => false
  | letter :: letters, c :: rest =>
    if Text.foldCase c = letter.folded then occursIn letters rest
    else occursIn (letter :: letters) rest

/-- Whether a needle occurs in a text from `offset` on. -/
def occursFrom (letters : List Letter) (text : List Char) (offset : Nat) : Bool :=
  occursIn letters (visible text offset)

end Haystack

end Typeahead
