import Typeahead.Json.Token

/-!
# The value of a JSON document

The tokens of a document are put together by a machine that takes one token at a time. It keeps
the lists and objects that have begun and not ended, innermost first, and what may come next.
A document is one value and nothing after it.

An object keeps its members in the order in which they are written, each key as often as it
occurs.
-/

namespace Typeahead.Json

/-- A value. -/
inductive Value where
  /-- The name `null`. -/
  | null
  /-- A truth value. -/
  | bool (b : Bool)
  /-- A number. -/
  | number (n : Literal)
  /-- A text, if its escapes make one. -/
  | text (s : Option String)
  /-- A list of values. -/
  | list (items : List Value)
  /-- The members of an object in order, each a key and its value. -/
  | object (members : List (Option String × Value))

instance : Inhabited Value := ⟨.null⟩

/-- A list or an object that has begun. What it holds so far is kept in reverse. -/
inductive Frame where
  /-- A list. -/
  | list (items : List Value)
  /-- An object between its members. -/
  | object (members : List (Option String × Value))
  /-- An object that waits for the value of a key. -/
  | member (members : List (Option String × Value)) (key : Option String)

/-- What may come next. -/
inductive Awaited where
  /-- A value. -/
  | value
  /-- The first item of a list, or its end. -/
  | itemOrEnd
  /-- The first key of an object, or its end. -/
  | keyOrEnd
  /-- A key. -/
  | key
  /-- The colon after a key. -/
  | colon
  /-- A comma, or the end of the innermost list or object. -/
  | separator
  /-- Nothing: the document is this value. -/
  | nothing (v : Value)

/-- Completes a value inside the frames that have begun. -/
def complete (v : Value) : List Frame → Option (List Frame × Awaited)
  | [] => some ([], .nothing v)
  | .list items :: frames => some (.list (v :: items) :: frames, .separator)
  | .member members key :: frames => some (.object ((key, v) :: members) :: frames, .separator)
  | .object _ :: _ => none

/-- Takes the first token of a value. -/
def takeValue (frames : List Frame) : Token → Option (List Frame × Awaited)
  | .null => complete .null frames
  | .bool b => complete (.bool b) frames
  | .number n => complete (.number n) frames
  | .text s => complete (.text s) frames
  | .openList => some (.list [] :: frames, .itemOrEnd)
  | .openObject => some (.object [] :: frames, .keyOrEnd)
  | .closeList | .closeObject | .comma | .colon => none

/-- Takes a key. -/
def takeKey : List Frame → Token → Option (List Frame × Awaited)
  | .object members :: frames, .text key => some (.member members key :: frames, .colon)
  | _, _ => none

/-- Takes the end of the innermost list or object. -/
def takeEnd : List Frame → Token → Option (List Frame × Awaited)
  | .list items :: frames, .closeList => complete (.list items.reverse) frames
  | .object members :: frames, .closeObject => complete (.object members.reverse) frames
  | _, _ => none

/-- Takes a token. -/
def takeToken (frames : List Frame) (awaited : Awaited) (token : Token) :
    Option (List Frame × Awaited) :=
  match awaited with
  | .value => takeValue frames token
  | .itemOrEnd => if token = .closeList then takeEnd frames token else takeValue frames token
  | .keyOrEnd => if token = .closeObject then takeEnd frames token else takeKey frames token
  | .key => takeKey frames token
  | .colon => if token = .colon then some (frames, .value) else none
  | .separator =>
    match frames, token with
    | .list _ :: _, .comma => some (frames, .value)
    | .object _ :: _, .comma => some (frames, .key)
    | _, _ => takeEnd frames token
  | .nothing _ => none

/-- The value that the rest of the tokens completes. -/
def valueFrom : List Frame → Awaited → List Token → Option Value
  | _, .nothing v, [] => some v
  | _, _, [] => none
  | frames, awaited, token :: rest =>
    match takeToken frames awaited token with
    | some (frames, awaited) => valueFrom frames awaited rest
    | none => none

/-- Reads a document. -/
def parse? (document : List Char) : Option Value := do
  valueFrom [] .value (← tokens? document)

end Typeahead.Json
