/-!
# The grammar of JSON

What a JSON document looks like: how blanks, numbers, texts, lists and objects are written.
Nothing is said about how a document is read.

A text is a string of characters, each written plainly or by one of several escapes. A string that
is skipped need not be a text: an escape may name half of a surrogate pair.
-/

namespace Typeahead.Json

/-! ### Blanks -/

/-- What may stand between tokens. -/
def Blanks (cs : List Char) : Prop := ∀ c ∈ cs, c ∈ [' ', '\t', '\n', '\r']

/-! ### Strings -/

/-- A hexadecimal digit, in either case. -/
def HexDigit (value : Nat) (c : Char) : Prop :=
  value < 10 ∧ c.toNat = 48 + value ∨
    10 ≤ value ∧ value < 16 ∧ (c.toNat = 87 + value ∨ c.toNat = 55 + value)

/-- Four hexadecimal digits that spell a number. -/
inductive HexSpelled : Nat → List Char → Prop where
  /-- The highest digit comes first. -/
  | digits {a b c d : Nat} {w x y z : Char} : HexDigit a w → HexDigit b x → HexDigit c y →
      HexDigit d z → HexSpelled (4096 * a + 256 * b + 16 * c + d) [w, x, y, z]

/-- The characters with an escape of one letter, each with the letter. -/
def shortEscapes : List (Char × Char) :=
  [('"', '"'), ('\\', '\\'), ('/', '/'), ('\x08', 'b'), ('\x0c', 'f'), ('\n', 'n'), ('\r', 'r'),
    ('\t', 't')]

/-- Whether a character can stand for itself in a string. -/
def IsPlain (c : Char) : Prop := 0x20 ≤ c.toNat ∧ c ≠ '"' ∧ c ≠ '\\'

/-- How a character is written in a text. -/
inductive CharSpelled : Char → List Char → Prop where
  /-- It stands for itself. -/
  | plain {c : Char} : IsPlain c → CharSpelled c [c]
  /-- It has an escape of one letter. -/
  | short {c letter : Char} : (c, letter) ∈ shortEscapes → CharSpelled c ['\\', letter]
  /-- Its number is given. -/
  | unit {c : Char} {digits : List Char} : HexSpelled c.toNat digits →
      CharSpelled c ('\\' :: 'u' :: digits)
  /-- Its number is given by the two halves of a surrogate pair. -/
  | pair {c : Char} {high low : List Char} : 0x10000 ≤ c.toNat →
      HexSpelled (0xD800 + (c.toNat - 0x10000) / 0x400) high →
      HexSpelled (0xDC00 + (c.toNat - 0x10000) % 0x400) low →
      CharSpelled c ('\\' :: 'u' :: (high ++ '\\' :: 'u' :: low))

/-- How characters are written one after the other. -/
inductive CharsSpelled : List Char → List Char → Prop where
  /-- None. -/
  | nil : CharsSpelled [] []
  /-- One and then others. -/
  | cons {c : Char} {chars piece body : List Char} : CharSpelled c piece →
      CharsSpelled chars body → CharsSpelled (c :: chars) (piece ++ body)

/-- **How a text is written.** -/
def TextSpelled (s : String) (cs : List Char) : Prop :=
  ∃ body, CharsSpelled s.toList body ∧ cs = '"' :: (body ++ ['"'])

/-- What may stand between the quotes of a string, whether or not it is a text. -/
inductive StringBody : List Char → Prop where
  /-- Nothing. -/
  | nil : StringBody []
  /-- A character that stands for itself. -/
  | plain {c : Char} {body : List Char} : IsPlain c → StringBody body → StringBody (c :: body)
  /-- An escape of one letter. -/
  | short {c letter : Char} {body : List Char} : (c, letter) ∈ shortEscapes → StringBody body →
      StringBody ('\\' :: letter :: body)
  /-- The number of a character, or of half of a surrogate pair. -/
  | unit {n : Nat} {digits body : List Char} : HexSpelled n digits → StringBody body →
      StringBody ('\\' :: 'u' :: (digits ++ body))

/-- How a string is written. -/
def IsString (cs : List Char) : Prop := ∃ body, StringBody body ∧ cs = '"' :: (body ++ ['"'])

/-! ### Numbers -/

/-- One or more digits. -/
def Digits (cs : List Char) : Prop := cs ≠ [] ∧ ∀ c ∈ cs, c.isDigit = true

/-- The whole part of a number: zero, or digits that do not begin with zero. -/
def WholePart (cs : List Char) : Prop := Digits cs ∧ (cs = ['0'] ∨ cs.head? ≠ some '0')

/-- The fraction of a number, if it has one. -/
def Fraction (cs : List Char) : Prop := cs = [] ∨ ∃ digits, Digits digits ∧ cs = '.' :: digits

/-- The exponent of a number, if it has one. -/
def Exponent (cs : List Char) : Prop :=
  cs = [] ∨ ∃ mark sign digits, mark ∈ ['e', 'E'] ∧ sign ∈ [[], ['+'], ['-']] ∧ Digits digits ∧
    cs = mark :: (sign ++ digits)

/-- How a number is written. -/
def IsNumber (cs : List Char) : Prop :=
  ∃ sign whole fraction exponent, sign ∈ [[], ['-']] ∧ WholePart whole ∧ Fraction fraction ∧
    Exponent exponent ∧ cs = sign ++ (whole ++ (fraction ++ exponent))

/-! ### Lists and objects -/

/-- Something with blanks around it. -/
structure Item where
  /-- The blanks in front of it. -/
  before : List Char
  /-- How it is written. -/
  body : List Char
  /-- The blanks after it. -/
  after : List Char

/-- How it is written with its blanks. -/
def Item.text (x : Item) : List Char := x.before ++ (x.body ++ x.after)

/-- Nothing but blanks is around it. -/
def Item.IsPadded (x : Item) : Prop := Blanks x.before ∧ Blanks x.after

/-- A member of an object. -/
structure Member where
  /-- The key. -/
  key : Item
  /-- The value. -/
  value : Item

/-- How a member is written. -/
def Member.text (m : Member) : List Char := m.key.text ++ ':' :: m.value.text

/-- Nothing but blanks is around key and value. -/
def Member.IsPadded (m : Member) : Prop := m.key.IsPadded ∧ m.value.IsPadded

/-- Writes commas between texts. -/
def commaed : List (List Char) → List Char
  | [] => []
  | [text] => text
  | text :: texts => text ++ ',' :: commaed texts

/-- How a list is written. -/
def listText (items : List Item) : List Char := '[' :: (commaed (items.map Item.text) ++ [']'])

/-- How an object is written. -/
def objectText (members : List Member) : List Char :=
  '\x7b' :: (commaed (members.map Member.text) ++ ['\x7d'])

/-- **Any well-formed value.** -/
inductive WellFormed : List Char → Prop where
  /-- The name `null`. -/
  | null : WellFormed ['n', 'u', 'l', 'l']
  /-- The name `true`. -/
  | true : WellFormed ['t', 'r', 'u', 'e']
  /-- The name `false`. -/
  | false : WellFormed ['f', 'a', 'l', 's', 'e']
  /-- A number. -/
  | number {cs : List Char} : IsNumber cs → WellFormed cs
  /-- A string. -/
  | string {cs : List Char} : IsString cs → WellFormed cs
  /-- A list. -/
  | list {items : List Item} : (∀ x ∈ items, x.IsPadded) → (∀ x ∈ items, WellFormed x.body) →
      WellFormed (listText items)
  /-- A list without items may hold blanks. -/
  | blankList {blanks : List Char} : Blanks blanks → WellFormed ('[' :: (blanks ++ [']']))
  /-- An object. -/
  | object {members : List Member} : (∀ m ∈ members, m.IsPadded) →
      (∀ m ∈ members, IsString m.key.body) → (∀ m ∈ members, WellFormed m.value.body) →
      WellFormed (objectText members)
  /-- An object without members may hold blanks. -/
  | blankObject {blanks : List Char} : Blanks blanks →
      WellFormed ('\x7b' :: (blanks ++ ['\x7d']))

/-- **An object with keys that are texts.** It is written with commas between its members, or with
blanks if it has none. -/
def ObjectSpelled (members : List (String × Member)) (cs : List Char) : Prop :=
  (∀ m ∈ members, m.2.IsPadded ∧ TextSpelled m.1 m.2.key.body) ∧
    (cs = objectText (members.map Prod.snd) ∨
      members = [] ∧ ∃ blanks, Blanks blanks ∧ cs = '\x7b' :: (blanks ++ ['\x7d']))

end Typeahead.Json
