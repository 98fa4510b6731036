import Typeahead.Json.Value

/-!
# Records in JSON

A record with a default for every field is read from an object that names the fields it sets, or
from a list that gives the fields in order and may stop early. Keys that name no field are
skipped, whatever their value. A field may be named once only, and a key has to be a text.
-/

namespace Typeahead.Json

/-- A field of a record: its name, and how a value sets it. -/
structure RecordField (α : Type) where
  /-- The key that names the field. -/
  name : String
  /-- Sets the field to a value, if the value fits. -/
  set : Value → α → Option α

namespace RecordField

variable {α : Type}

/-- Sets the fields that the members name, given the names that have been used. -/
def setMembers (fields : List (RecordField α)) :
    List String → List (Option String × Value) → α → Option α
  | _, [], record => some record
  | used, (key, value) :: rest, record => do
    let name ← key
    match fields.find? (fun field => field.name = name) with
    | none => setMembers fields used rest record
    | some field =>
      if used.contains name then none
      else setMembers fields (name :: used) rest (← field.set value record)

/-- Sets the fields in order, as far as there are values, and no further value may be left. -/
def setItems : List (RecordField α) → List Value → α → Option α
  | _, [], record => some record
  | [], _ :: _, _ => none
  | field :: fields, value :: rest, record => do setItems fields rest (← field.set value record)

/-- Reads a record, given its fields in order and the record of their defaults. -/
def readRecord (fields : List (RecordField α)) (default : α) : Value → Option α
  | .object members => setMembers fields [] members default
  | .list items => setItems fields items default
  | _ => none

end RecordField

/-- A whole number between two bounds. It has to be written without fraction and exponent, and
zero without a sign. -/
def Value.int? (least greatest : Int) : Value → Option Int
  | .number ⟨negative, whole, true⟩ =>
    if negative ∧ whole = 0 then none
    else
      let value : Int := if negative then -whole else whole
      if least ≤ value ∧ value ≤ greatest then some value else none
  | _ => none

/-- A whole number from zero up to a bound. -/
def Value.nat? (greatest : Nat) (v : Value) : Option Nat := (v.int? 0 greatest).map Int.toNat

/-- A text, or `null` for none. -/
def Value.optionalText? : Value → Option (Option String)
  | .null => some none
  | .text s => s.map some
  | _ => none

end Typeahead.Json
