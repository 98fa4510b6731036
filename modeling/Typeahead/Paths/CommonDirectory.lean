import Typeahead.Paths.Arena

/-!
# The common directory

Most paths of an index lie under one directory, usually the home directory. An index that knows
it stores of such a path only the rest, from the slash after the directory on. A path that does
not lie under the directory is stored whole, and a flag says so.

Whether a stored path begins with a pattern is decided without putting the path together: the
pattern is compared with the directory as far as that goes, and with the stored rest after it.
-/

namespace Typeahead

/-- Whether the bytes `b` begin with the bytes `p`. -/
def beginsWith (b p : ByteArray) : Bool := p.size ≤ b.size && b.extract 0 p.size == p

/-- A text without the slashes at its end. -/
def trimSlashes (s : String) : String :=
  String.ofList (s.toList.reverse.dropWhile (· == '/')).reverse

/-- The directory that most paths lie under. It is not empty and does not end with a slash. -/
structure CommonDirectory where
  /-- The path of the directory. -/
  path : String

namespace CommonDirectory

/-- The directory of a configured text, if it names one. -/
def ofText? (text : String) : Option CommonDirectory :=
  let path := trimSlashes text
  if path.isEmpty then none else some ⟨path⟩

/-- How many characters the directory's path has. -/
def length (d : CommonDirectory) : Nat := d.path.length

/-- What follows a list of characters at the beginning of another, if it is there. -/
def rest? : List Char → List Char → Option (List Char)
  | [], text => some text
  | _ :: _, [] => none
  | c :: start, d :: text => if c = d then rest? start text else none

/-- The rest of a path under the directory, from the slash after the directory on. -/
def strip? (d : CommonDirectory) (path : String) : Option String :=
  match rest? d.path.toList path.toList with
  | some ('/' :: rest) => some (String.ofList ('/' :: rest))
  | _ => none

end CommonDirectory

/-- How a path is stored: whether as a whole, and the text. -/
structure StoredPath where
  /-- Whether the text is the whole path. -/
  absolute : Bool
  /-- The text. -/
  text : ByteArray

/-- How a path is stored beside a common directory. -/
def StoredPath.of (d : Option CommonDirectory) (path : String) : StoredPath :=
  match d.bind (·.strip? path) with
  | some rest => ⟨false, rest.toUTF8⟩
  | none => ⟨true, path.toUTF8⟩

/-- The path of an entry, with the number of characters in front of the stored part. None if the
entry holds no text, or is relative to a directory that there is not. -/
def Entry.path? (e : Entry) (d : Option CommonDirectory) : Option (String × Nat) := do
  let stored ← String.fromUTF8? e.stored
  if e.absolute then return (stored, 0)
  else
    let directory ← d
    return (directory.path ++ stored, directory.length)

/-- Whether the path of an entry begins with a pattern. -/
def Entry.pathBeginsWith (e : Entry) (d : Option CommonDirectory) (pattern : ByteArray) : Bool :=
  if e.absolute then beginsWith e.stored pattern
  else
    match d with
    | none => false
    | some directory =>
      let path := directory.path.toUTF8
      if pattern.size ≤ path.size then beginsWith path pattern
      else
        beginsWith pattern path &&
          beginsWith e.stored (pattern.extract path.size pattern.size)

end Typeahead
