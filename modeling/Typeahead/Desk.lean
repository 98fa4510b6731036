import Typeahead.Pool.Basic
import Typeahead.Paths.Fingerprint

/-!
# Desks

Producers work at a desk: the pool that takes their candidates, the registry that numbers the
callbacks, and the generation counters that say whether the work is still wanted. A release
callback may advance a counter, so an offer can make the very work stale that makes the offer.

A desk keeps a log of what happened at it: the calls that came due, and which producers ran.
-/

namespace Typeahead

/-- What a candidate's callbacks work on. -/
inductive Payload where
  /-- What a producer keeps of a thing, known by its tag. -/
  | tagged (tag : String)
  /-- A path that was found in an index. -/
  | path (ref : PathRef)
  deriving DecidableEq

/-- Something that happened at a desk. -/
inductive Occurrence where
  /-- A call came due. -/
  | called (call : Call Payload)
  /-- A producer began to run. -/
  | ran (producer : String)

/-- Where candidates are offered. -/
structure Desk where
  /-- The pool that takes the candidates. -/
  pool : Pool Payload
  /-- The registry of the pool's callbacks. -/
  registry : Registry
  /-- The generation counters. -/
  generations : Generations
  /-- What happened, last first. -/
  log : List Occurrence := []

namespace Desk

/-- Whether the pool's generation has been superseded. -/
def isStale (d : Desk) : Bool := d.pool.token.isStale d.generations

/-- Logs calls that came due, with what they do to the generations. -/
def call (d : Desk) (calls : List (Call Payload)) : Desk :=
  { d with
    generations := calls.foldl (fun g call => call.advance g) d.generations
    log := calls.foldl (fun log call => .called call :: log) d.log }

/-- Offers a candidate to the pool. -/
def offer (outside : Callback → Bool) (d : Desk) (o : Offer Payload) : Desk × Except Fault Unit :=
  let { pool, registry, generations, log } := d
  let { pool, registry, calls, answer } := pool.offer outside registry o
  (call { pool, registry, generations, log } calls, answer)

/-- Offers candidates in order, whatever becomes of them. Answers what became of each. -/
def offerAll (outside : Callback → Bool) (d : Desk) (offers : List (Offer Payload)) :
    Desk × List (Except Fault Unit) :=
  let (d, answers) := offers.foldl
    (fun (d, answers) o =>
      let (d, answer) := d.offer outside o
      (d, answer :: answers))
    (d, [])
  (d, answers.reverse)

/-- Builds the `k` best candidates. Answers the calls, which are logged as well. -/
def materialize (d : Desk) (k : Nat) : Desk × List (Call Payload) :=
  let { pool, registry, generations, log } := d
  let (pool, calls) := pool.materialize k
  (call { pool, registry, generations, log } calls, calls)

/-- Empties the pool for another generation. -/
def reset (d : Desk) (token : Token) : Desk :=
  let { pool, registry, generations, log } := d
  let (pool, calls) := pool.reset token
  call { pool, registry, generations, log } calls

end Desk

end Typeahead
