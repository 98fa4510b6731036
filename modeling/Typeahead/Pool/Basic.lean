import Std.Data.HashMap
import Typeahead.Fault
import Typeahead.Config
import Typeahead.Pool.Sheets

/-!
# Pools

A pool gathers the candidates of one query. Producers offer candidates; of two offers for the
same thing only the more relevant one stays. Nothing is built until the best candidates are
picked, and a candidate that has been picked does not come back: its thing stays known to the
pool.

Every payload that is offered meets one end: its candidate's release callback takes it back, or
it is dropped if there is none. The operations do not run callbacks themselves. They answer the
calls that have come due, in order.

A pool keeps the callbacks of its candidates alive. The registry that numbers them is shared
with other pools, so an operation is told who else is alive and gives the registry back.

A pool refuses a new candidate when it is saturated, and for no other reason: it always finds memory
for a sheet. (Without, it would refuse the candidate in the same way.)
-/

namespace Typeahead

/-- The number of a callback registry. -/
abbrev RegistryId := Nat

/-- A pool of candidates with payloads of some kind. -/
structure Pool (π : Type) where
  /-- The generation the pool belongs to. -/
  token : Token
  /-- The registry that numbers the callbacks. -/
  registry : RegistryId
  /-- The most sheets the pool may have. -/
  maxSheets : Nat
  /-- The candidates. -/
  sheets : Sheets π := #[]
  /-- Where each thing's candidate is, live or consumed. -/
  known : Std.HashMap UInt32 Location := {}
  /-- How many candidates are live. -/
  live : Nat := 0
  /-- The identity of the next candidate that is a thing of its own. -/
  nextUnique : UInt32 := 0
  /-- The callbacks that the pool keeps alive, by slot. -/
  pins : Array (Option Callback) := #[]

/-- What is offered to a pool. -/
structure Offer (π : Type) where
  /-- Which thing it is; none for a thing of its own that has no duplicates. -/
  identity : Option UInt32
  /-- How relevant it is. -/
  relevancy : Score
  /-- What the callbacks work on. -/
  payload : π
  /-- Builds what is shown. -/
  factory : Callback
  /-- Takes the payload back, if anybody does. -/
  release : Option Callback

/-- What an offer leads to. -/
structure Offered (π : Type) where
  /-- The pool after the offer. -/
  pool : Pool π
  /-- The registry after the offer. -/
  registry : Registry
  /-- The calls that have come due. -/
  calls : List (Call π)
  /-- Why the candidate was not stored, if it was not. An offer that loses against the candidate
  of its thing counts as stored. -/
  answer : Except Fault Unit

namespace Pool

variable {π : Type}

/-- An empty pool. Its sheets have to be numbered, and it has at least one. -/
def empty (token : Token) (registry : RegistryId) (limits : PoolLimits) : Pool π :=
  { token, registry, maxSheets := max 1 (min limits.maxSheets 65535) }

/-- How many candidates the pool can ever hold. -/
def capacity (p : Pool π) : Nat := p.maxSheets * Sheets.placesPerSheet

/-- Whether the pool has no place left for a thing it does not know. -/
def isSaturated (p : Pool π) : Bool := p.maxSheets ≤ p.sheets.size && p.sheets.allFull

/-! ### Callbacks -/

/-- Whether the pool keeps a callback alive. -/
def isPinned (p : Pool π) (c : Callback) : Bool := p.pins.contains (some c)

/-- Keeps the callback of a slot alive. -/
def pin (p : Pool π) (slot : SlotId) (c : Callback) : Pool π :=
  if p.pins.getD slot none = some c then p
  else
    let padded := p.pins ++ Array.replicate (slot + 1 - p.pins.size) none
    { p with pins := padded.setIfInBounds slot (some c) }

/-- The callback that the pool keeps alive at a slot, if it has the role that is asked for. -/
def pinned? (p : Pool π) (role : Role) (slot : SlotId) : Option Callback :=
  (p.pins.getD slot none).filter fun c => c.role = role

/-- Registers a callback and keeps it alive, unless it finds no slot. -/
def keep (alive : Callback → Bool) (p : Pool π) (r : Registry) (c : Callback) :
    Pool π × Registry × Option SlotId :=
  match r.register alive c with
  | (r, none) => (p, r, none)
  | (r, some slot) => (p.pin slot c, r, some slot)

/-- Registers the callbacks of an offer and keeps them alive, the factory first. None if one of
them finds no slot. Whoever offers callbacks holds them, so they are alive. -/
def enlist (outside : Callback → Bool) (p : Pool π) (r : Registry) (factory : Callback)
    (release : Option Callback) : Pool π × Registry × Option (SlotId × Option SlotId) :=
  let alive (p : Pool π) (c : Callback) : Bool :=
    c == factory || some c == release || outside c || p.isPinned c
  match p.keep (alive p) r factory with
  | (p, r, none) => (p, r, none)
  | (p, r, some factorySlot) =>
    match release with
    | none => (p, r, some (factorySlot, none))
    | some release =>
      match p.keep (alive p) r release with
      | (p, r, none) => (p, r, none)
      | (p, r, some releaseSlot) => (p, r, some (factorySlot, some releaseSlot))

/-- The call that gives a payload back: to the release callback at the candidate's slot, or to
nobody. -/
def giveBack (p : Pool π) (release : Option SlotId) (payload : π) : Call π :=
  .back (release.bind (p.pinned? .release)) payload

/-! ### Offers -/

/-- Sets a candidate against the one its thing has already. A strictly more relevant candidate
takes the place of a live one; otherwise the newcomer loses. Answers the loser. -/
def contend (p : Pool π) (loc : Location) (candidate : Candidate) (payload : π) :
    Pool π × Candidate × π :=
  match p.sheets.held? loc with
  | some (current, held) =>
    if current.relevancy < candidate.relevancy then
      let place := ⟨{ candidate with location := loc }, some payload⟩
      ({ p with sheets := p.sheets.setPlace loc place }, current, held)
    else (p, candidate, payload)
  | none => (p, candidate, payload)

/-- Stores a candidate at the next place. -/
def append (p : Pool π) (candidate : Candidate) (payload : π) : Pool π :=
  { p with sheets := p.sheets.push candidate payload, live := p.live + 1 }

/-- Takes in a candidate whose callbacks have slots. Answers whether it is stored, and what lost
its place or found none. -/
def takeIn (p : Pool π) (identity : Option UInt32) (candidate : Candidate) (payload : π) :
    Pool π × Bool × Option (Candidate × π) :=
  match identity.bind (p.known[·]?) with
  | some loc =>
    let (p, loser) := p.contend loc candidate payload
    (p, true, some loser)
  | none =>
    if p.isSaturated then (p, false, some (candidate, payload))
    else
      let loc := p.sheets.next
      let p := p.append candidate payload
      match identity with
      | some identity => ({ p with known := p.known.insert identity loc }, true, none)
      | none => ({ p with nextUnique := p.nextUnique + 1 }, true, none)

/-- Offers a candidate. `outside` says which callbacks are alive whatever this pool does. -/
def offer (outside : Callback → Bool) (p : Pool π) (r : Registry) (o : Offer π) : Offered π :=
  match p.enlist outside r o.factory o.release with
  | (p, r, none) => ⟨p, r, [.back o.release o.payload], .error (.registryFull r.capacity)⟩
  | (p, r, some (factory, release)) =>
    let candidate : Candidate :=
      { relevancy := o.relevancy, identity := o.identity.getD p.nextUnique, location := ⟨0, 0⟩,
        factory, release }
    match p.takeIn o.identity candidate o.payload with
    | (p, stored, loser) =>
      let calls := loser.toList.map fun (loser, payload) => p.giveBack loser.release payload
      ⟨p, r, calls, if stored then .ok () else .error (.poolSaturated p.capacity)⟩

/-- Whether producers may go on after an answer: a full registry only skips one candidate. -/
def goesOn : Except Fault Unit → Bool
  | .ok () | .error (.registryFull _) => true
  | .error _ => false

/-- Whether an answer says that the candidate was stored, or lost against one that is. -/
def isTaken : Except Fault Unit → Bool
  | .ok () => true
  | .error _ => false

/-! ### Picking and emptying -/

/-- Consumes the candidates at some locations, in order. -/
def consumeAll (p : Pool π) : List Location → Pool π × List (Candidate × π)
  | [] => (p, [])
  | loc :: rest =>
    match p.sheets.consume loc with
    | (sheets, some taken) =>
      let (p, others) := consumeAll { p with sheets, live := p.live - 1 } rest
      (p, taken :: others)
    | (sheets, none) => consumeAll { p with sheets } rest

/-- Picks the `k` best live candidates and consumes them. -/
def takeBest (p : Pool π) (k : Nat) : Pool π × List (Candidate × π) :=
  p.consumeAll ((Candidate.best k p.sheets.live).map Candidate.location)

/-- What is due for a candidate that has been taken: its factory builds, and then the payload is
given back. -/
def showing (p : Pool π) (taken : Candidate × π) : List (Call π) :=
  ((p.pinned? .factory taken.1.factory).map fun factory => .build factory taken.2).toList ++
    [p.giveBack taken.1.release taken.2]

/-- Picks the `k` best live candidates. Each is built by its factory, and then its payload is
given back. -/
def materialize (p : Pool π) (k : Nat) : Pool π × List (Call π) :=
  let (p, taken) := p.takeBest k
  (p, taken.flatMap p.showing)

/-- Gives all payloads back, in the order of their places. This is what is due when the pool goes
away. -/
def dismiss (p : Pool π) : List (Call π) :=
  p.sheets.places.filterMap fun place =>
    place.payload.map fun payload => p.giveBack place.candidate.release payload

/-- Empties the pool for another generation. It forgets what it knew and keeps no callback. -/
def reset (p : Pool π) (token : Token) : Pool π × List (Call π) :=
  ({ token, registry := p.registry, maxSheets := p.maxSheets }, p.dismiss)

/-- How a pool is shown for inspection. -/
def inspect (p : Pool π) : String :=
  Text.inspectRecord "ResultContainer" [
    ("generation", toString p.token.generation), ("len", toString p.live),
    ("sheets", toString p.sheets.size), ("max_sheets", toString p.maxSheets)]

end Pool

end Typeahead
