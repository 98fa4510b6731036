/-!
# The tokens of a JSON document

The lexer is a machine that takes one character at a time. It knows the strict grammar only:
numbers without a plus sign, a leading zero or a bare point, the three names `null`, `true` and
`false`, texts without raw control characters, and the four blanks between tokens.

Of a number the lexer keeps what a whole number needs: its sign, its digits, and whether it is
written without fraction and exponent. Of a text it keeps the characters, if the text has any:
an escape may name half of a surrogate pair, and a text in which one half stands alone is well
formed but is no text.
-/

namespace Typeahead.Json

/-- A number as it is written. -/
structure Literal where
  /-- Whether it begins with a minus sign. -/
  negative : Bool
  /-- The value of the digits in front of any point or exponent. -/
  whole : Nat
  /-- Whether it has neither fraction nor exponent. -/
  integral : Bool
  deriving DecidableEq

/-- A token. -/
inductive Token where
  /-- The beginning of an object. -/
  | openObject
  /-- The end of an object. -/
  | closeObject
  /-- The beginning of a list. -/
  | openList
  /-- The end of a list. -/
  | closeList
  /-- What stands between two items or members. -/
  | comma
  /-- What stands between a key and its value. -/
  | colon
  /-- The name `null`. -/
  | null
  /-- The name `true` or `false`. -/
  | bool (b : Bool)
  /-- A number. -/
  | number (n : Literal)
  /-- A text, if its escapes make one. -/
  | text (s : Option String)
  deriving DecidableEq

/-! ### Texts -/

/-- Whether a code unit is the first half of a surrogate pair. -/
def isHighHalf (unit : Nat) : Bool := 0xD800 ≤ unit ∧ unit ≤ 0xDBFF

/-- Whether a code unit is the second half of a surrogate pair. -/
def isLowHalf (unit : Nat) : Bool := 0xDC00 ≤ unit ∧ unit ≤ 0xDFFF

/-- The character of a surrogate pair. -/
def pairChar (high low : Nat) : Char :=
  Char.ofNat (0x10000 + (high - 0xD800) * 0x400 + (low - 0xDC00))

/-- The characters that some code units stand for, in front of the characters found already. The
units come last first: a second half needs the first half right after it, and a first half that
no second half has claimed stands alone. -/
def charsOfUnits (found : List Char) : List Nat → Option (List Char)
  | [] => some found
  | low :: high :: rest =>
    if isLowHalf low then
      if isHighHalf high then charsOfUnits (pairChar high low :: found) rest else none
    else if isHighHalf low then none
    else charsOfUnits (Char.ofNat low :: found) (high :: rest)
  | [unit] => if isLowHalf unit ∨ isHighHalf unit then none else some (Char.ofNat unit :: found)

/-- The text token of the units read so far, which are kept in reverse. -/
def textToken (units : List Nat) : Token := .text ((charsOfUnits [] units).map String.ofList)

/-- The unit that a backslash and one more character stand for. -/
def escapeUnit? (c : Char) : Option Nat :=
  if c = '"' ∨ c = '\\' ∨ c = '/' then some c.toNat
  else if c = 'b' then some 8
  else if c = 'f' then some 12
  else if c = 'n' then some 10
  else if c = 'r' then some 13
  else if c = 't' then some 9
  else none

/-- The value of a hexadecimal digit. -/
def hexDigit? (c : Char) : Option Nat :=
  if '0' ≤ c ∧ c ≤ '9' then some (c.toNat - 48)
  else if 'a' ≤ c ∧ c ≤ 'f' then some (c.toNat - 87)
  else if 'A' ≤ c ∧ c ≤ 'F' then some (c.toNat - 55)
  else none

/-! ### The machine -/

/-- How far a number has been read. -/
inductive NumberPart where
  /-- After the sign: a digit has to come. -/
  | sign
  /-- After a leading zero: no further digit may come. -/
  | zero
  /-- Among the whole digits. -/
  | whole
  /-- After the point: a digit has to come. -/
  | point
  /-- Among the digits of the fraction. -/
  | fraction
  /-- After the exponent mark: a sign or a digit has to come. -/
  | mark
  /-- After the exponent's sign: a digit has to come. -/
  | markSign
  /-- Among the digits of the exponent. -/
  | exponent
  deriving DecidableEq

/-- Where the lexer stands. -/
inductive Mode where
  /-- Between tokens. -/
  | between
  /-- In a name, whose letters are kept in reverse. -/
  | name (letters : List Char)
  /-- In a number. -/
  | number (part : NumberPart) (negative : Bool) (whole : Nat)
  /-- In a text, whose units are kept in reverse. -/
  | text (units : List Nat)
  /-- In a text, after a backslash. -/
  | escape (units : List Nat)
  /-- In a text, in the hexadecimal digits of an escape, with so many still to come. -/
  | hex (units : List Nat) (digits value : Nat)

/-- The token of a name. -/
def nameToken? (letters : List Char) : Option Token :=
  if letters = ['l', 'l', 'u', 'n'] then some .null
  else if letters = ['e', 'u', 'r', 't'] then some (.bool true)
  else if letters = ['e', 's', 'l', 'a', 'f'] then some (.bool false)
  else none

/-- The token of a number that ends in some part, if it may end there. -/
def numberToken? (part : NumberPart) (negative : Bool) (whole : Nat) : Option Token :=
  match part with
  | .zero | .whole => some (.number ⟨negative, whole, true⟩)
  | .fraction | .exponent => some (.number ⟨negative, whole, false⟩)
  | .sign | .point | .mark | .markSign => none

/-- How a number goes on with a character, if it does. -/
def continueNumber? (part : NumberPart) (negative : Bool) (whole : Nat) (c : Char) :
    Option Mode :=
  match part with
  | .sign =>
    if c = '0' then some (.number .zero negative 0)
    else if c.isDigit then some (.number .whole negative (c.toNat - 48)) else none
  | .zero =>
    if c = '.' then some (.number .point negative whole)
    else if c = 'e' ∨ c = 'E' then some (.number .mark negative whole) else none
  | .whole =>
    if c.isDigit then some (.number .whole negative (10 * whole + (c.toNat - 48)))
    else if c = '.' then some (.number .point negative whole)
    else if c = 'e' ∨ c = 'E' then some (.number .mark negative whole) else none
  | .point => if c.isDigit then some (.number .fraction negative whole) else none
  | .fraction =>
    if c.isDigit then some (.number .fraction negative whole)
    else if c = 'e' ∨ c = 'E' then some (.number .mark negative whole) else none
  | .mark =>
    if c = '+' ∨ c = '-' then some (.number .markSign negative whole)
    else if c.isDigit then some (.number .exponent negative whole) else none
  | .markSign | .exponent =>
    if c.isDigit then some (.number .exponent negative whole) else none

/-- Takes a character between tokens: the token it makes on its own, if any, and where the lexer
stands after it. -/
def takeBetween (c : Char) : Option (List Token × Mode) :=
  if c = ' ' ∨ c = '\t' ∨ c = '\n' ∨ c = '\r' then some ([], .between)
  else if c = '\x7b' then some ([.openObject], .between)
  else if c = '\x7d' then some ([.closeObject], .between)
  else if c = '[' then some ([.openList], .between)
  else if c = ']' then some ([.closeList], .between)
  else if c = ',' then some ([.comma], .between)
  else if c = ':' then some ([.colon], .between)
  else if c = '"' then some ([], .text [])
  else if c = '-' then some ([], .number .sign true 0)
  else if c = '0' then some ([], .number .zero false 0)
  else if c.isDigit then some ([], .number .whole false (c.toNat - 48))
  else if c.isLower then some ([], .name [c])
  else none

/-- Ends a token that is followed by a character which does not belong to it. -/
def endWith (token : Option Token) (c : Char) : Option (List Token × Mode) := do
  let token ← token
  let (tokens, mode) ← takeBetween c
  return (token :: tokens, mode)

/-- Takes a character: the tokens it completes, and where the lexer stands after it. -/
def Mode.take (mode : Mode) (c : Char) : Option (List Token × Mode) :=
  match mode with
  | .between => takeBetween c
  | .name letters =>
    if c.isLower then some ([], .name (c :: letters)) else endWith (nameToken? letters) c
  | .number part negative whole =>
    match continueNumber? part negative whole c with
    | some mode => some ([], mode)
    | none => endWith (numberToken? part negative whole) c
  | .text units =>
    if c = '"' then some ([textToken units], .between)
    else if c = '\\' then some ([], .escape units)
    else if c.toNat < 0x20 then none
    else some ([], .text (c.toNat :: units))
  | .escape units =>
    if c = 'u' then some ([], .hex units 4 0)
    else (escapeUnit? c).map fun unit => ([], .text (unit :: units))
  | .hex units digits value => do
    let digit ← hexDigit? c
    let value := 16 * value + digit
    return ([], if digits ≤ 1 then .text (value :: units) else .hex units (digits - 1) value)

/-- The token that the end of the document completes, if it may end there. -/
def Mode.finish : Mode → Option (List Token)
  | .between => some []
  | .name letters => (nameToken? letters).map ([·])
  | .number part negative whole => (numberToken? part negative whole).map ([·])
  | .text _ | .escape _ | .hex _ _ _ => none

/-- The tokens of the rest of a document, after the ones found already, which are kept in
reverse. -/
def tokensFrom : Mode → List Token → List Char → Option (List Token)
  | mode, found, [] => mode.finish.map fun last => found.reverse ++ last
  | mode, found, c :: rest =>
    match mode.take c with
    | some (tokens, mode) => tokensFrom mode (tokens.reverse ++ found) rest
    | none => none

/-- The tokens of a document. -/
def tokens? (document : List Char) : Option (List Token) := tokensFrom .between [] document

end Typeahead.Json
