import Typeahead.Text.Blank
import Typeahead.Text.Numeric
import Typeahead.Text.Cased
import Typeahead.Text.Alphabetic
import Typeahead.Weights

/-!
# Character classes and boundaries

A match is worth more where a part of the text begins. Whether one begins at a character
depends on its class and on the class of the character before it: after a path separator, after
a word separator, where lower case rises to upper case, and where a number follows a letter.
-/

namespace Typeahead

/-- The classes of characters that decide where parts begin. -/
inductive CharClass where
  /-- Lower-case letters, and letters without case. -/
  | lower
  /-- Upper-case letters. -/
  | upper
  /-- Digits and other numbers. -/
  | digit
  /-- A slash or a backslash. -/
  | pathSeparator
  /-- A space, a common mark between words, or another blank. -/
  | wordSeparator
  /-- Anything else. -/
  | other
  deriving DecidableEq

/-- The class of a character. The properties are tried in this order: separators, numbers, upper
case, lower case, other letters. -/
def CharClass.of (c : Char) : CharClass :=
  if c = '/' ∨ c = '\\' then .pathSeparator
  else if c = ' ' ∨ c = '_' ∨ c = '-' ∨ c = '.' ∨ c = ':' then .wordSeparator
  else if Text.isBlank c then .wordSeparator
  else if Text.isNumeric c then .digit
  else if Text.isUpper c then .upper
  else if Text.isLower c then .lower
  else if Text.isAlphabetic c then .lower
  else .other

/-- The place of a class in a set of flags. -/
def CharClass.flag : CharClass → Nat
  | .lower => 1
  | .upper => 2
  | .digit => 4
  | .pathSeparator => 8
  | .wordSeparator => 16
  | .other => 0

/-- What begins at a position of a text. -/
inductive Boundary where
  /-- The text itself. -/
  | start
  /-- A part of a path. -/
  | path
  /-- A word. -/
  | word
  /-- A word inside a compound, marked by its case or its number. -/
  | camel
  /-- Nothing. -/
  | inner
  deriving DecidableEq

/-- What begins at a character, given the character before it. -/
def Boundary.between : Option Char → Char → Boundary
  | none, _ => .start
  | some before, c =>
    match CharClass.of before with
    | .pathSeparator => .path
    | .wordSeparator => .word
    | .lower =>
      match CharClass.of c with
      | .upper | .digit => .camel
      | _ => .inner
    | .upper => if CharClass.of c = .digit then .camel else .inner
    | .digit | .other => .inner

/-- The bonus for a match where the boundary lies. -/
def Weights.bonus (w : Weights) : Boundary → Int
  | .start => w.start
  | .path => w.pathBoundary
  | .word => w.wordBoundary
  | .camel => w.camelBoundary
  | .inner => 0

end Typeahead
