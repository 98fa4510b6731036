import Typeahead.Text.Hidden

/-!
# Quoted text

Text that is shown for inspection stands between double quotes on one line. A quote and a
backslash are written after a backslash, the common controls by their letters, and every other
character that would leave no mark of its own by its number in hexadecimal.
-/

namespace Typeahead.Text

/-- How one character is written between quotes. -/
def escape (c : Char) : List Char :=
  if c = '"' ∨ c = '\\' then ['\\', c]
  else if c = '\x00' then ['\\', '0']
  else if c = '\t' then ['\\', 't']
  else if c = '\r' then ['\\', 'r']
  else if c = '\n' then ['\\', 'n']
  else if isHidden c then ['\\', 'u', '\x7b'] ++ Nat.toDigits 16 c.toNat ++ ['\x7d']
  else [c]

/-- A text between quotes. -/
def quote (s : String) : String :=
  String.ofList ('"' :: s.toList.flatMap escape ++ ['"'])

example : escape '\x07' = ['\\', 'u', '\x7b', '7', '\x7d'] := by decide +kernel

end Typeahead.Text
