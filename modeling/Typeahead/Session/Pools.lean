import Typeahead.Session.Callbacks

/-!
# Pools of a session

A pool that goes away gives all its payloads back. When a name is given to a new pool, the new
one is made before the old one goes.
-/

namespace Typeahead.Session

/-- Makes a pool on the registry in use. -/
def newPool (s : Session) (name : String) (token : Option String) (maxSheets : Option Nat) :
    Session :=
  let limits : PoolLimits := (maxSheets.map PoolLimits.mk).getD {}
  let pool := Pool.empty (s.token token) s.registry limits
  let (old, pools) := s.pools.take name
  let s := { s with pools := pools.put name pool }
  s.makeCalls ((old.map Pool.dismiss).getD [])

/-- Lets a pool go. Answers whether there was one. -/
def dropPool (s : Session) (name : String) : Session × Bool :=
  let (old, pools) := s.pools.take name
  let s := { s with pools }
  (s.makeCalls ((old.map Pool.dismiss).getD []), old.isSome)

/-- Makes the offer of a tagged payload, with callbacks by name. -/
def offer? (s : Session) (identity : Option UInt32) (relevancy : Score) (tag factory : String)
    (release : Option String) : Option (Offer Payload) := do
  return {
    identity, relevancy, payload := .tagged tag, factory := ← s.factory? factory
    release := release.bind s.callbacks.get? }

/-- Offers a candidate to a pool. -/
def offerTo (s : Session) (pool : String) (o : Offer Payload) :
    Session × Option (Except Fault Unit) :=
  s.atDesk pool fun outside d => d.offer outside o

/-- Offers candidates to a pool in order. Answers what became of each. -/
def offerAllTo (s : Session) (pool : String) (offers : List (Offer Payload)) :
    Session × Option (List (Except Fault Unit)) :=
  s.atDesk pool fun outside d => d.offerAll outside offers

/-- Builds the `k` best candidates of a pool. -/
def materialize (s : Session) (pool : String) (k : Nat) : Session × List String :=
  let (s, calls) := s.atDesk pool fun _ d => d.materialize k
  (s, s.built (calls.getD []))

/-- Empties a pool for another token. The pool of a round keeps its generation and cannot be
emptied. -/
def reset (s : Session) (pool : String) (token : Option String) : Session :=
  let token := s.token token
  (s.atPool pool fun _ d => (d.reset token, ())).1

/-- What can be asked of a pool. -/
structure PoolReport where
  /-- The generation it belongs to. -/
  generation : UInt64
  /-- How many candidates are live. -/
  size : Nat
  /-- How many sheets it has. -/
  sheets : Nat
  /-- How many candidates it can ever hold. -/
  capacity : Nat
  /-- Whether it takes no thing that it does not know. -/
  saturated : Bool
  /-- Whether its generation has been superseded. -/
  cancelled : Bool

/-- What can be asked of the pool of a name. -/
def poolReport? (s : Session) (name : String) : Option PoolReport :=
  (s.pool? name).map fun p => {
    generation := p.token.generation, size := p.live, sheets := p.sheets.size
    capacity := p.capacity, saturated := p.isSaturated
    cancelled := p.token.isStale s.generations }

end Typeahead.Session
