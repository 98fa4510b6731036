import Typeahead.Session.Indexes

/-!
# Dispatchers and rounds of a session

Every dispatcher has a generation counter and a registry of its own. A round that goes away gives
the payloads of its pool back; when its name is given to a new round, the new one is made before
the old one goes.
-/

namespace Typeahead.Session

/-- Makes a dispatcher with some settings. With an index it shows the paths of the index under a
label. -/
def newDispatcher (s : Session) (name : String) (settings : Scorer × PoolLimits)
    (paths : Option (String × String)) : Session :=
  let (generations, counter) := s.generations.newCounter
  let registry := s.registries.size
  let s := { s with generations, registries := s.registries.push Registry.standard }
  let named := paths.bind fun (index, label) =>
    (s.indexNames.get? index).map fun number => (number, label)
  let (s, source) : Session × Option PathSource := match named with
    | none => (s, none)
    | some (number, label) =>
      let (s, factory) := s.newCallback (.showPath number label)
      (s, some ⟨number, factory⟩)
  let d : Dispatcher :=
    { registry, counter, limits := settings.2, scorer := settings.1, paths := source }
  { s with dispatchers := s.dispatchers.put name d }

/-- Submits a query to a dispatcher, and keeps the round by a name. -/
def submit (s : Session) (dispatcher round query : String) : Session × Option Round :=
  match s.dispatchers.get? dispatcher with
  | none => (s, none)
  | some d =>
    let (generations, r) := d.submit query s.generations
    let (old, rounds) := s.rounds.take round
    let s := { s with generations, rounds := rounds.put round r }
    (s.makeCalls ((old.map fun r => r.pool.dismiss).getD []), some r)

/-- Lets a round go. Answers whether there was one. -/
def dropRound (s : Session) (name : String) : Session × Bool :=
  let (old, rounds) := s.rounds.take name
  let s := { s with rounds }
  (s.makeCalls ((old.map fun r => r.pool.dismiss).getD []), old.isSome)

/-- A producer whose callbacks are given by name. -/
structure NamedProducer where
  /-- Its name. -/
  name : String
  /-- The name of its factory. -/
  factory : String
  /-- Whether the producer makes a factory of that name for itself, which only the pool keeps. -/
  fresh : Bool
  /-- The name of its release callback, if it has one. -/
  release : Option String
  /-- The things it offers. -/
  items : List Item
  /-- The item before which it submits another query, if it does. -/
  submitAt : Option Nat

/-- Finds the callbacks of a producer, and makes those it makes for itself. -/
def callbacksOf (s : Session) (p : NamedProducer) : Session × Option Producer :=
  let (s, factory) := if p.fresh then
      let (s, factory) := s.newCallback (.label p.factory)
      (s, some factory)
    else (s, s.factory? p.factory)
  (s, factory.map fun factory => {
    name := p.name, factory, release := p.release.bind s.callbacks.get?, items := p.items
    submitAt := p.submitAt })

/-- Scans a round. Queries that its producers submit go to a dispatcher. -/
def scanRound (s : Session) (dispatcher round : String) (named : List NamedProducer) :
    Session × Option (List ScanOutcome) :=
  match s.dispatchers.get? dispatcher, s.rounds.get? round with
  | some d, some { needle, scorer, paths, .. } =>
    let (s, producers) := named.foldl
      (fun (s, producers) p =>
        let (s, producer) := s.callbacksOf p
        (s, producers ++ producer.toList))
      (s, [])
    let source := paths.bind fun source =>
      s.indexes[source.index]?.map fun ix => (ix, source.factory)
    s.atRound round fun outside =>
      Round.scan Desk.isStale (Round.scanPaths outside needle source)
        (fun p => p.run outside d.counter scorer needle) producers
  | _, _ => (s, none)

/-- Builds the `k` best candidates of a round, unless it has been superseded. -/
def gather (s : Session) (round : String) (k : Nat) : Session × List String :=
  let (s, calls) := s.atRound round fun _ d => Round.gather d k
  (s, s.built (calls.getD []))

/-- How a dispatcher is shown for inspection. -/
def inspectDispatcher? (s : Session) (name : String) : Option String :=
  (s.dispatchers.get? name).map fun d =>
    let limits :=
      Text.inspectRecord "ContainerLimits" [("max_sheets", toString d.limits.maxSheets)]
    let index := d.paths.bind fun paths => s.indexes[paths.index]?.map PathIndex.inspect
    Text.inspectRecord "QueryDispatcher" [
      ("generation", toString (s.generations.of d.counter)),
      ("registry", (s.registryOf d.registry).inspect s.isAlive),
      ("limits", limits), ("paths", Text.inspectOption index)]

end Typeahead.Session
