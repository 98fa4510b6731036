import Typeahead.Paths.Scan

/-!
# Rounds

A dispatcher turns queries into rounds. Every query it is given begins a new generation, which
supersedes all of its earlier rounds: their producers stop, and gathering from them yields
nothing. A round has a pool of its own; the registry of callbacks is shared by the rounds of a
dispatcher.

Scanning a round first scans the path index, shard by shard, and then runs the producers in
order. A producer that comes after the round has been superseded is not started.
-/

namespace Typeahead

/-- A path index that takes part in every round, with the factory that shows its paths. -/
structure PathSource where
  /-- The index. -/
  index : IndexId
  /-- The factory. -/
  factory : Callback
  deriving DecidableEq

/-- What hands out rounds. -/
structure Dispatcher where
  /-- The registry of its rounds' callbacks. -/
  registry : RegistryId
  /-- The counter of its generations. -/
  counter : CounterId
  /-- How far its rounds' pools may grow. -/
  limits : PoolLimits
  /-- Scores for its rounds. -/
  scorer : Scorer
  /-- The path index that takes part, if one does. -/
  paths : Option PathSource

/-- A query that has been submitted. -/
structure Round where
  /-- The query. -/
  needle : Needle
  /-- The candidates. -/
  pool : Pool Payload
  /-- Scores for the producers. -/
  scorer : Scorer
  /-- The path index that takes part, if one does. -/
  paths : Option PathSource

/-- How a dispatcher may be set up: its weights and limits have to be in order. -/
def Dispatcher.settings (config : Config) : Except Fault (Scorer × PoolLimits) := do
  config.pool.check
  return (← Scorer.ofWeights config.scoring, config.pool)

/-- Submits a query, which supersedes every earlier round. -/
def Dispatcher.submit (d : Dispatcher) (query : String) (g : Generations) : Generations × Round :=
  let g := g.advance d.counter
  (g, {
    needle := Needle.prepare query
    pool := Pool.empty ⟨some d.counter, g.of d.counter⟩ d.registry d.limits
    scorer := d.scorer
    paths := d.paths })

/-- How a round is shown for inspection. -/
def Round.inspect (r : Round) : String :=
  Text.inspectRecord "QueryRound"
    [("query", Text.quote r.needle.query), ("container", r.pool.inspect)]

/-! ### Producers -/

/-- A thing that a producer has found. -/
structure Item where
  /-- Which thing it is; none for a thing of its own. -/
  identity : Option UInt32
  /-- Its tag, which is also the text it is scored by. -/
  tag : String
  /-- How relevant it is, if that is known without scoring it. -/
  relevancy : Option Score

/-- What offers things to a round. -/
structure Producer where
  /-- Its name. -/
  name : String
  /-- Builds what is shown for its things. -/
  factory : Callback
  /-- Takes its payloads back, if anybody does. -/
  release : Option Callback
  /-- The things, in the order in which they are offered. -/
  items : List Item
  /-- The item before which it submits another query, if it does. -/
  submitAt : Option Nat

namespace Producer

/-- The offer of an item. An item that has to be scored and does not score above zero is none. -/
def offer? (p : Producer) (scorer : Scorer) (needle : Needle) (item : Item) :
    Option (Offer Payload) :=
  let relevancy := item.relevancy.getD (scorer.score needle item.tag)
  if item.relevancy.isSome ∨ Score.zero < relevancy then
    some {
      identity := item.identity, relevancy, payload := .tagged item.tag, factory := p.factory,
      release := p.release }
  else none

/-- Goes through items, the first of which has a number. A producer returns when it finds its
round superseded, or when the pool takes no more. `counter` is the counter that submitting a query
advances. -/
def runItems (p : Producer) (outside : Callback → Bool) (counter : CounterId) (scorer : Scorer)
    (needle : Needle) : List Item → Nat → Desk → Desk
  | [], _, d => d
  | item :: items, number, d =>
    let d := if p.submitAt = some number then
        { d with generations := d.generations.advance counter }
      else d
    if d.isStale then d
    else
      match p.offer? scorer needle item with
      | none => p.runItems outside counter scorer needle items (number + 1) d
      | some o =>
        let (d, answer) := d.offer outside o
        if Pool.goesOn answer then p.runItems outside counter scorer needle items (number + 1) d
        else d

/-- Runs a producer. While it runs it keeps its callbacks alive. -/
def run (p : Producer) (outside : Callback → Bool) (counter : CounterId) (scorer : Scorer)
    (needle : Needle) (d : Desk) : Desk :=
  let held (c : Callback) : Bool := c == p.factory || some c == p.release || outside c
  p.runItems held counter scorer needle p.items 0 { d with log := .ran p.name :: d.log }

end Producer

namespace Round

variable {σ ρ : Type}

/-- Runs producers in order, and leaves out those that come after the round has been
superseded. -/
def runProducers (isStale : σ → Bool) (run : ρ → σ → σ) : List ρ → σ → σ
  | [], s => s
  | p :: producers, s => runProducers isStale run producers (if isStale s then s else run p s)

/-- Scans the path index, shard by shard, and then runs the producers. A round that has been
superseded does neither. What scanning and running do is up to whoever holds the round. -/
def scan (isStale : σ → Bool) (scanPaths : σ → σ × List ScanOutcome) (run : ρ → σ → σ)
    (producers : List ρ) (s : σ) : σ × List ScanOutcome :=
  if isStale s then (s, [])
  else
    let (s, outcomes) := scanPaths s
    (runProducers isStale run producers s, outcomes)

/-- Scans a path index for a round, if one takes part. -/
def scanPaths (outside : Callback → Bool) (needle : Needle)
    (paths : Option (PathIndex × Callback)) (d : Desk) : Desk × List ScanOutcome :=
  match paths with
  | some (ix, factory) => ix.scanAll outside factory needle d
  | none => (d, [])

/-- Builds the `k` best candidates. A round that has been superseded yields nothing. -/
def gather (d : Desk) (k : Nat) : Desk × List (Call Payload) :=
  if d.isStale then (d, []) else d.materialize k

end Round

end Typeahead
