import Typeahead.Pool.Basic

/-!
# Rosters

What a pool is for those who use it: a list of slots in the order in which they were first taken.
A slot is live until it is consumed, and it is never given up, so the thing it stands for stays
known. There are no sheets, no locations, no table of identities, no numbered callbacks and no
counters here; everything is read off the list.
-/

namespace Typeahead

/-- A slot of a roster. -/
structure Slot (π : Type) where
  /-- Which thing it stands for; none for a thing of its own. -/
  key : Option UInt32
  /-- What decides between candidates of the same relevancy: the key, or for a thing of its own
  how many of those had been taken before it. -/
  number : Nat
  /-- How relevant its candidate is. -/
  relevancy : Score
  /-- Builds what is shown. -/
  factory : Callback
  /-- Takes the payload back, if anybody does. -/
  release : Option Callback
  /-- The payload; none once the candidate has been consumed. -/
  payload : Option π

namespace Slot

variable {π : Type}

/-- The slot with the candidate of an offer in it. -/
def put (s : Slot π) (o : Offer π) : Slot π :=
  { s with
    relevancy := o.relevancy, factory := o.factory, release := o.release
    payload := some o.payload }

/-- An offer for the thing of a slot. It takes the slot if the slot is live and the offer is
strictly more relevant. Answers what becomes of the payload that loses. -/
def contend (s : Slot π) (o : Offer π) : Slot π × Call π :=
  match s.payload with
  | some payload =>
    if s.relevancy < o.relevancy then (s.put o, .back s.release payload)
    else (s, .back o.release o.payload)
  | none => (s, .back o.release o.payload)

/-- The slot once its candidate has been consumed. -/
def consume (s : Slot π) : Slot π := { s with payload := none }

/-- What is due when the candidate is shown: its own factory builds from its payload, and then
its own release callback takes the payload back. -/
def showing (s : Slot π) : List (Call π) :=
  match s.payload with
  | some payload => [.build s.factory payload, .back s.release payload]
  | none => []

end Slot

/-- Where a live candidate stands among the others. -/
structure Standing where
  /-- How relevant it is. -/
  relevancy : Score
  /-- What decides between candidates of the same relevancy. -/
  number : Nat
  /-- Which slot it has. -/
  slot : Nat
  deriving DecidableEq

/-- Whether a candidate comes before another one: it is more relevant, or else has the smaller
number, or else the earlier slot. -/
def Standing.before (a b : Standing) : Bool :=
  b.relevancy < a.relevancy || a.relevancy = b.relevancy &&
    (a.number < b.number || a.number = b.number && a.slot ≤ b.slot)

/-- The slots in the order in which they were first taken. -/
abbrev Roster (π : Type) := List (Slot π)

namespace Roster

variable {π : Type}

/-- How many candidates are live. -/
def live (slots : Roster π) : Nat := slots.countP fun s => s.payload.isSome

/-- How many slots stand for things of their own. -/
def uniques (slots : Roster π) : Nat := slots.countP fun s => s.key.isNone

/-- The slot of a thing. -/
def find? (slots : Roster π) (key : UInt32) : Option Nat :=
  slots.findIdx? fun s => s.key = some key

/-- The slot of an offer that is the first one for its thing. -/
def fresh (slots : Roster π) (o : Offer π) : Slot π where
  key := o.identity
  number := (o.identity.map UInt32.toNat).getD slots.uniques
  relevancy := o.relevancy
  factory := o.factory
  release := o.release
  payload := some o.payload

/-- Makes an offer to a roster with room for so many slots. Answers the calls that are due and
whether the offer counts as taken. -/
def offer (room : Nat) (slots : Roster π) (o : Offer π) : Roster π × List (Call π) × Bool :=
  match o.identity.bind slots.find? with
  | some i =>
    (slots.modify i fun s => (s.contend o).1, (slots[i]?.map fun s => (s.contend o).2).toList, true)
  | none =>
    if slots.length < room then (slots ++ [slots.fresh o], [], true)
    else (slots, [.back o.release o.payload], false)

/-- The standings of the live candidates, slot by slot. -/
def standings (slots : Roster π) : List Standing :=
  slots.zipIdx.filterMap fun (s, i) => s.payload.map fun _ => ⟨s.relevancy, s.number, i⟩

/-- The slots of the `k` candidates that come first. -/
def picked (k : Nat) (slots : Roster π) : List Nat :=
  ((slots.standings.mergeSort Standing.before).take k).map Standing.slot

/-- Shows the `k` candidates that come first, in order, and consumes them. -/
def materialize (slots : Roster π) (k : Nat) : Roster π × List (Call π) :=
  (slots.mapIdx fun i s => if i ∈ slots.picked k then s.consume else s,
    (slots.picked k).flatMap fun i => (slots[i]?.map Slot.showing).getD [])

/-- Gives the payloads of all live candidates back. -/
def dismiss (slots : Roster π) : List (Call π) :=
  slots.filterMap fun s => s.payload.map (Call.back s.release)

end Roster

/-! ### Runs -/

/-- The callbacks of an offer have the roles that they are offered for. -/
def Offer.Typed {π : Type} (o : Offer π) : Prop :=
  o.factory.role = .factory ∧ ∀ callback ∈ o.release, callback.role = .release

/-- What can be asked of a pool. -/
inductive Request (π : Type) where
  /-- Inserts a candidate, and asks whether to go on. `outside` are the callbacks that others keep
  alive meanwhile. -/
  | insert (outside : Callback → Bool) (o : Offer π) (typed : o.Typed)
  /-- Inserts a candidate, and asks why it was not stored. -/
  | tryInsert (outside : Callback → Bool) (o : Offer π) (typed : o.Typed)
  /-- Shows the best candidates. -/
  | materialize (k : Nat)
  /-- Empties the pool. -/
  | reset (token : Token)
  /-- Nothing: somebody else registers a callback. -/
  | elsewhere (outside : Callback → Bool) (callback : Callback)

/-- What a pool answers. -/
inductive Answer (π : Type) where
  /-- Whether to go on. -/
  | goesOn (yes : Bool)
  /-- Whether the candidate was stored, or why not. -/
  | told (why : Except Fault Unit)
  /-- What was shown: which factory built from which payload. -/
  | shown (built : List (Callback × π))
  /-- Nothing. -/
  | silent

/-- An answer, with the calls that were made and the number of live candidates afterwards. -/
structure Reply (π : Type) where
  /-- The answer. -/
  answer : Answer π
  /-- The calls, in order. -/
  calls : List (Call π)
  /-- How many candidates are live. -/
  live : Nat

/-- What was built by some calls, in order. -/
def Call.built {π : Type} (calls : List (Call π)) : List (Callback × π) :=
  calls.filterMap fun
    | .build factory payload => some (factory, payload)
    | _ => none

variable {π : Type}

/-- What a roster with room for so many slots answers to a request. -/
def Roster.respond (room : Nat) (slots : Roster π) : Request π → Roster π × Reply π
  | .insert _ o _ =>
    let (slots, calls, taken) := slots.offer room o
    (slots, ⟨.goesOn taken, calls, slots.live⟩)
  | .tryInsert _ o _ =>
    let (slots, calls, taken) := slots.offer room o
    (slots, ⟨.told (if taken then .ok () else .error (.poolSaturated room)), calls, slots.live⟩)
  | .materialize k =>
    let (slots, calls) := slots.materialize k
    (slots, ⟨.shown (Call.built calls), calls, slots.live⟩)
  | .reset _ => ([], ⟨.silent, slots.dismiss, 0⟩)
  | .elsewhere _ _ => (slots, ⟨.silent, [], slots.live⟩)

/-- What a roster answers to requests, one after the other. -/
def Roster.respondAll (room : Nat) (slots : Roster π) : List (Request π) → List (Reply π)
  | [] => []
  | request :: requests =>
    (slots.respond room request).2 :: respondAll room (slots.respond room request).1 requests

/-- What a pool answers to a request. -/
def Pool.respond (p : Pool π) (r : Registry) : Request π → Pool π × Registry × Reply π
  | .insert outside o _ =>
    let after := p.offer outside r o
    (after.pool, after.registry, ⟨.goesOn (goesOn after.answer), after.calls, after.pool.live⟩)
  | .tryInsert outside o _ =>
    let after := p.offer outside r o
    (after.pool, after.registry, ⟨.told after.answer, after.calls, after.pool.live⟩)
  | .materialize k =>
    let (p, calls) := p.materialize k
    (p, r, ⟨.shown (Call.built calls), calls, p.live⟩)
  | .reset token =>
    let (p, calls) := p.reset token
    (p, r, ⟨.silent, calls, p.live⟩)
  | .elsewhere outside callback =>
    let r := (r.register (fun c => outside c || p.isPinned c) callback).1
    (p, r, ⟨.silent, [], p.live⟩)

/-- What a pool answers to requests, one after the other. -/
def Pool.respondAll (p : Pool π) (r : Registry) : List (Request π) → List (Reply π)
  | [] => []
  | request :: requests =>
    (p.respond r request).2.2 ::
      respondAll (p.respond r request).1 (p.respond r request).2.1 requests

/-- Whether the callbacks of a request find slots. -/
def Pool.registers (p : Pool π) (r : Registry) : Request π → Bool
  | .insert outside o _ | .tryInsert outside o _ =>
    (p.enlist outside r o.factory o.release).2.2.isSome
  | _ => true

/-- In a run of requests, all callbacks find slots. -/
def Pool.RegistersAll (p : Pool π) (r : Registry) : List (Request π) → Prop
  | [] => True
  | request :: requests =>
    p.registers r request = true ∧
      RegistersAll (p.respond r request).1 (p.respond r request).2.1 requests

end Typeahead
