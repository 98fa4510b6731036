import Typeahead.Round
import Typeahead.Session.Event
import Typeahead.Session.Store

/-!
# Sessions

A session holds the objects of a program that uses the library, by name: callbacks, slots,
tokens, pools, path indexes, the factories that show paths, dispatchers, rounds. Several of them
share generation counters, registries and indexes, which are kept by number.

A callback is alive as long as a name stands for it, a dispatcher or a round shows its paths with
it, or a pool keeps it. An index is alive as long as a name stands for it or a dispatcher or a
round uses it; the factories that show its paths do not keep it alive.
-/

namespace Typeahead

/-- The objects of a program. -/
structure Session where
  /-- The generation counters; the first is the session's own. -/
  generations : Generations := {}
  /-- The registries by number. -/
  registries : Array Registry := #[]
  /-- The indexes by number. -/
  indexes : Array PathIndex := #[]
  /-- The number of the registry that new pools use. -/
  registry : RegistryId := 0
  /-- The identity of the next callback. -/
  nextCallback : Nat := 0
  /-- The callbacks. -/
  callbacks : Store Callback := {}
  /-- The slots that were assigned. -/
  slots : Store SlotId := {}
  /-- The tokens. -/
  tokens : Store Token := {}
  /-- The pools. -/
  pools : Store (Pool Payload) := {}
  /-- The indexes' numbers. -/
  indexNames : Store IndexId := {}
  /-- The factories that show paths. -/
  materializers : Store Callback := {}
  /-- The dispatchers. -/
  dispatchers : Store Dispatcher := {}
  /-- The rounds. -/
  rounds : Store Round := {}
  /-- What could be noticed, last first. -/
  events : List Event := []

namespace Session

/-- A session with a counter at generation zero, a registry of the usual size, and no named
object. -/
def start : Session :=
  { generations := ({} : Generations).newCounter.1, registries := #[Registry.standard] }

/-- The session's own counter. -/
def counter : CounterId := 0

/-! ### What is alive -/

/-- The callbacks that somebody holds. -/
def held (s : Session) : List Callback :=
  s.callbacks.values ++ s.materializers.values
    ++ s.dispatchers.values.filterMap (fun d => d.paths.map PathSource.factory)
    ++ s.rounds.values.filterMap (fun r => r.paths.map PathSource.factory)
    ++ s.pools.values.flatMap (fun p => p.pins.toList.filterMap id)
    ++ s.rounds.values.flatMap (fun r => r.pool.pins.toList.filterMap id)

/-- Whether somebody holds a callback. -/
def isAlive (s : Session) (c : Callback) : Bool := s.held.contains c

/-- Whether somebody holds an index. -/
def holdsIndex (s : Session) (index : IndexId) : Bool :=
  let uses (paths : Option PathSource) : Bool := paths.any fun source => source.index == index
  s.indexNames.values.contains index || s.dispatchers.values.any (fun d => uses d.paths)
    || s.rounds.values.any (fun r => uses r.paths)

/-- The path of a reference into an index that somebody holds. -/
def resolve? (s : Session) (index : IndexId) (ref : PathRef) : Option String :=
  if s.holdsIndex index then s.indexes[index]?.bind (·.resolve? ref) else none

/-! ### What happens -/

/-- Notes what happened. -/
def note (s : Session) (occurrences : List Occurrence) : Session :=
  { s with events := (occurrences.filterMap (·.event? s.resolve?)).reverse ++ s.events }

/-- Makes calls that have come due, and notes them. -/
def makeCalls (s : Session) (calls : List (Call Payload)) : Session :=
  let generations := calls.foldl (fun g (call : Call Payload) => call.advance g) s.generations
  let s := { s with generations }
  s.note (calls.map .called)

/-- The texts that calls build. -/
def built (s : Session) (calls : List (Call Payload)) : List String :=
  calls.filterMap fun call => (call.make s.resolve?).2

/-- Takes the events noted so far. -/
def takeEvents (s : Session) : Session × List Event :=
  ({ s with events := [] }, s.events.reverse)

/-! ### Working at a desk -/

/-- Works at the desk of a pool that has been taken out of the session. `outside` are callbacks
that are held beside those of the session. -/
def work {α : Type} (s : Session) (pool : Pool Payload) (outside : List Callback)
    (act : (Callback → Bool) → Desk → Desk × α) : Session × Desk × α :=
  let held := outside ++ s.held
  let registry := s.registries.getD pool.registry Registry.standard
  let number := pool.registry
  let (d, answer) := act held.contains { pool, registry, generations := s.generations }
  ({ s with
      registries := s.registries.setIfInBounds number d.registry
      generations := d.generations }, d, answer)

/-- Works at the desk of a pool. -/
def atPool {α : Type} (s : Session) (name : String) (act : (Callback → Bool) → Desk → Desk × α) :
    Session × Option α :=
  match s.pools.take name with
  | (none, _) => (s, none)
  | (some pool, pools) =>
    let (s, d, answer) := work { s with pools } pool [] act
    let s := { s with pools := s.pools.put name d.pool }
    (s.note d.log.reverse, some answer)

/-- Works at the desk of a round's pool. -/
def atRound {α : Type} (s : Session) (name : String)
    (act : (Callback → Bool) → Desk → Desk × α) : Session × Option α :=
  match s.rounds.take name with
  | (none, _) => (s, none)
  | (some { needle, pool, scorer, paths }, rounds) =>
    let outside := (paths.map PathSource.factory).toList
    let (s, d, answer) := work { s with rounds } pool outside act
    let s := { s with rounds := s.rounds.put name { needle, pool := d.pool, scorer, paths } }
    (s.note d.log.reverse, some answer)

/-- Works at the desk of the pool of a name, or else of the round of that name. -/
def atDesk {α : Type} (s : Session) (name : String) (act : (Callback → Bool) → Desk → Desk × α) :
    Session × Option α :=
  if s.pools.contains name then s.atPool name act else s.atRound name act

/-- The pool of a name, or else of the round of that name. -/
def pool? (s : Session) (name : String) : Option (Pool Payload) :=
  (s.pools.get? name).or ((s.rounds.get? name).map Round.pool)

end Session

end Typeahead
