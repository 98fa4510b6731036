import Typeahead.Score
import Typeahead.Alignment.Trace

/-!
# Scoring

A scorer is a set of weights that has been checked. It scores a needle against a text: the empty
needle matches every text with zero, a needle that does not occur in the text does not match,
and any other is worth the total of its best alignment, clamped into the range of scores.
-/

namespace Typeahead

/-- Checked weights. -/
structure Scorer where
  /-- The weights. -/
  weights : Weights
  /-- Nothing is wrong with them. -/
  sound : weights.fault? = none

namespace Scorer

/-- The scorer with the default weights. -/
def standard : Scorer := ⟨{}, by decide⟩

/-- The scorer with some weights, unless they are refused. -/
def ofWeights (w : Weights) : Except Fault Scorer :=
  match h : w.fault? with
  | some why => .error (.invalidConfig why)
  | none => .ok ⟨w, h⟩

/-- Buffers that are used again from one text to the next. What they hold between two uses means
nothing. -/
structure Scratch where
  /-- Takes the cells of the text. -/
  hay : Array Cell := #[]
  /-- Takes every other row of best totals, among them the first. -/
  row : Array Int := #[]
  /-- Takes the rows in between. -/
  spare : Array Int := #[]

/-- The score of a needle's letters against a text from `offset` on, with buffers to work in,
which are given back. -/
def scoreLettersIn (s : Scorer) (scratch : Scratch) (letters : List Letter) (text : List Char)
    (offset : Nat) : Score × Scratch :=
  match letters with
  | [] => (Score.zero, scratch)
  | first :: later =>
    if Haystack.occursFrom (first :: later) text offset then
      let { hay, row, spare } := scratch
      let hay := Haystack.fill hay s.weights text offset
      let row := Alignment.fillFirst s.weights hay first (Alignment.blank row hay.size)
      let (row, spare) :=
        Alignment.fillRows s.weights hay later row (Alignment.blank spare hay.size)
      let best := Alignment.best row
      (if Alignment.unreachable < best then Score.clamp best else Score.noMatch,
        { hay, row, spare })
    else (Score.noMatch, scratch)

/-- The score of a needle's letters against a text from `offset` on. -/
def scoreLetters (s : Scorer) (letters : List Letter) (text : List Char) (offset : Nat) : Score :=
  (s.scoreLettersIn {} letters text offset).1

/-- The score of a needle as typed. -/
def score (s : Scorer) (needle : Needle) (text : String) (offset : Nat := 0) : Score :=
  s.scoreLetters needle.primary text.toList offset

/-- The score of a needle without its blanks, or as typed when it has no such variant. -/
def scoreSpaceless (s : Scorer) (needle : Needle) (text : String) : Score :=
  s.scoreLetters (needle.spaceless.getD needle.primary) text.toList 0

/-- The score of the variant that matches: the needle as typed, else without its blanks. The
second variant is scored in the buffers that the first one leaves. -/
def scoreEither (s : Scorer) (needle : Needle) (text : String) (offset : Nat) : Score :=
  let chars := text.toList
  match s.scoreLettersIn {} needle.primary chars offset with
  | (typed, scratch) =>
    if typed.isMatch then typed
    else match needle.spaceless with
      | some letters => (s.scoreLettersIn scratch letters chars offset).1
      | none => typed

/-- The score of a needle and the positions of its best alignment, if it matches. -/
def positions (s : Scorer) (needle : Needle) (text : String) : Option (Score × List Nat) :=
  if needle.primary.isEmpty then some (Score.zero, [])
  else if Haystack.occursFrom needle.primary text.toList 0 then do
    let hay := Haystack.prepare s.weights text.toList 0
    let (total, found) ← Alignment.trace s.weights hay needle.primary
    return (Score.clamp total, found)
  else none

end Scorer

/-- Whether a needle occurs in a text from `offset` on. This depends on no weights. -/
def Needle.occursIn (needle : Needle) (text : String) (offset : Nat := 0) : Bool :=
  Haystack.occursFrom needle.primary text.toList offset

/-- The score, by the default weights, of a needle against a text given as bytes. What is not
UTF-8 is replaced. -/
def Needle.scoreBytes (needle : Needle) (text : List UInt8) : Score :=
  Scorer.standard.score needle (Text.decodeLossy text)

end Typeahead
