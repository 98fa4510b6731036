import Typeahead.Text.CharSet

/-!
# Blank characters

The Unicode property `White_Space` (Unicode 17): spaces, tabs, line and paragraph
separators. A query loses these characters in its spaceless variant, and a match right
after one of them starts a word.
-/

namespace Typeahead.Text

/-- The characters with the property `White_Space`. -/
def blank : CharSet where
  bounds := #[
    9, 14, 32, 33, 133, 134, 160, 161, 5760, 5761, 8192, 8203, 8232, 8234, 8239, 8240, 8287, 8288,
    12288, 12289]

/-- Whether a character is blank. -/
def isBlank (c : Char) : Bool := blank.contains c

example : isBlank ' ' = true ∧ isBlank '\t' = true ∧ isBlank 'a' = false := by decide +kernel

example : isBlank (Char.ofNat 0x3000) = true ∧ isBlank (Char.ofNat 0x200B) = false := by
  decide +kernel

end Typeahead.Text
