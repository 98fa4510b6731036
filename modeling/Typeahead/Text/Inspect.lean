import Typeahead.Text.Quoted

/-!
# Inspection text

Objects can be shown on one line for inspection: a record as its name and its fields in
braces, an optional value as `Some(..)` or `None`, a text in quotes.
-/

namespace Typeahead.Text

/-- A record on one line: its name, then each field's name and value. -/
def inspectRecord (name : String) (fields : List (String × String)) : String :=
  let written := fields.map fun (field, value) => field ++ ": " ++ value
  name ++ " \x7b " ++ ", ".intercalate written ++ " \x7d"

/-- An optional value, given how it is shown when it is there. -/
def inspectOption : Option String → String
  | none => "None"
  | some value => "Some(" ++ value ++ ")"

end Typeahead.Text
