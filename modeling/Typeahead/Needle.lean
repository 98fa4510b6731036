import Typeahead.Text.Blank
import Typeahead.Text.Fold
import Typeahead.Text.Utf8

/-!
# Needles

A needle is a query made ready for matching: its characters beside their folded forms, and a
second variant without the blanks, so that `my doc` also finds `my_document`. Of a long query
only the first 512 characters are kept, and the variants are made from those.
-/

namespace Typeahead

/-- A character of a needle, as typed and folded. -/
structure Letter where
  /-- The character as typed. -/
  char : Char
  /-- The character folded, which is what it is compared by. -/
  folded : Char
  deriving DecidableEq

/-- A character made ready for comparison. -/
def Letter.of (c : Char) : Letter := ⟨c, Text.foldCase c⟩

/-- A prepared query. -/
structure Needle where
  /-- The query's characters. -/
  primary : List Letter
  /-- The query's characters without the blanks, if it has both blanks and others. -/
  spaceless : Option (List Letter)
  /-- Whether the query had more characters than are kept. -/
  truncated : Bool
  deriving DecidableEq

namespace Needle

/-- How many characters of a query are kept. -/
def longest : Nat := 512

/-- The variant without blanks of some characters. It exists when there are both blanks and
other characters. -/
def spacelessOf (chars : List Char) : Option (List Letter) :=
  let solid := chars.filter (fun c => !Text.isBlank c)
  if chars.any Text.isBlank ∧ solid ≠ [] then some (solid.map Letter.of) else none

/-- Prepares the characters of a query. -/
def ofChars (query : List Char) : Needle :=
  let kept := query.take longest
  { primary := kept.map Letter.of
    spaceless := spacelessOf kept
    truncated := longest < (query.take (longest + 1)).length }

/-- Prepares a query. -/
def prepare (query : String) : Needle := ofChars query.toList

/-- Prepares a query given as bytes, replacing what is not UTF-8. -/
def prepareBytes (query : List UInt8) : Needle := prepare (Text.decodeLossy query)

/-- The text of a variant, as typed. -/
def textOf (letters : List Letter) : String := String.ofList (letters.map Letter.char)

/-- The text of a variant, folded. -/
def foldedOf (letters : List Letter) : String := String.ofList (letters.map Letter.folded)

/-- The part of the query that is kept. -/
def query (n : Needle) : String := textOf n.primary

/-- How many characters the needle has. -/
def size (n : Needle) : Nat := n.primary.length

end Needle

end Typeahead
