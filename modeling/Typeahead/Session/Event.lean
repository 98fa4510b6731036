import Typeahead.Desk

/-!
# Events

Calls become events when they are made: a factory builds a text, a release callback takes a
payload back, a payload is dropped. What a factory builds depends on the payload alone, or on
the path that the payload refers to, if that is still indexed; where it is not, the root path is
shown instead. Dropping a path reference goes unnoticed.
-/

namespace Typeahead

/-- Something that can be noticed from outside. -/
inductive Event where
  /-- A factory built from a payload. -/
  | built (factory tag : String)
  /-- A factory showed a path. -/
  | shown (label path : String)
  /-- A release callback took a payload back. -/
  | released (callback tag : String)
  /-- A payload was dropped. -/
  | dropped (tag : String)
  /-- A producer began to run. -/
  | ran (producer : String)
  deriving DecidableEq

/-- How an event is written. -/
def Event.text : Event → String
  | .built factory tag => "build:" ++ factory ++ ":" ++ tag
  | .shown label path => "show:" ++ label ++ ":" ++ path
  | .released callback tag => "release:" ++ callback ++ ":" ++ tag
  | .dropped tag => "drop:" ++ tag
  | .ran producer => "run:" ++ producer

/-- The path that is shown when there is none to show. -/
def rootPath : String := "/"

/-- The tag of a payload; a path reference has none. -/
def Payload.tag? : Payload → Option String
  | .tagged tag => some tag
  | .path _ => none

/-- What a factory builds, with the event of doing so. `resolve` finds the path of a reference in
an index. -/
def Callback.build (resolve : IndexId → PathRef → Option String) (c : Callback)
    (payload : Payload) : Option (Event × String) :=
  match c.action with
  | .label name =>
    let tag := payload.tag?.getD ""
    some (.built name tag, name ++ ":" ++ tag)
  | .showPath index label =>
    let found := match payload with
      | .path ref => resolve index ref
      | .tagged _ => none
    let path := found.getD rootPath
    some (.shown label path, label ++ ":" ++ path)
  | .swallow _ _ => none

/-- Makes a call: the event it is noticed by, and the text that it builds. -/
def Call.make (resolve : IndexId → PathRef → Option String) :
    Call Payload → Option Event × Option String
  | .build factory payload =>
    match factory.build resolve payload with
    | some (event, text) => (some event, some text)
    | none => (none, none)
  | .release ⟨_, .swallow name _⟩ payload => (payload.tag?.map (.released name ·), none)
  | .release _ _ => (none, none)
  | .discard payload => (payload.tag?.map .dropped, none)

/-- The event of an occurrence. -/
def Occurrence.event? (resolve : IndexId → PathRef → Option String) : Occurrence → Option Event
  | .called call => (call.make resolve).1
  | .ran producer => some (.ran producer)

end Typeahead
