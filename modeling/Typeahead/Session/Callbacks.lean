import Typeahead.Session.Basic

/-!
# Callbacks, registries and tokens of a session

Names for callbacks come and go. A callback whose last name goes stays alive as long as a pool
keeps it; a slot whose callback is no longer alive may be given to another.
-/

namespace Typeahead.Session

/-! ### Callbacks -/

/-- Makes a callback. Every callback has an identity of its own. -/
def newCallback (s : Session) (action : Action) : Session × Callback :=
  ({ s with nextCallback := s.nextCallback + 1 }, ⟨s.nextCallback, action⟩)

/-- Lets a name stand for a new callback. Answers whether it stood for one before. -/
def nameCallback (s : Session) (name : String) (action : Action) : Session × Bool :=
  let used := s.callbacks.contains name
  let (s, callback) := s.newCallback action
  ({ s with callbacks := s.callbacks.put name callback }, used)

/-- Makes a factory that builds its name and the payload's tag. -/
def newFactory (s : Session) (name : String) : Session × Bool := s.nameCallback name (.label name)

/-- Makes a release callback, which may advance the session's own counter. -/
def newRelease (s : Session) (name : String) (advances : Bool) : Session × Bool :=
  s.nameCallback name (.swallow name (if advances then some counter else none))

/-- Lets a name stand for nothing. Answers whether it stood for a callback. -/
def forget (s : Session) (name : String) : Session × Bool :=
  let (found, callbacks) := s.callbacks.take name
  ({ s with callbacks }, found.isSome)

/-- Lets a second name stand for a callback. Answers whether that name stood for one before. -/
def nameAgain (s : Session) (name second : String) : Session × Bool :=
  let used := s.callbacks.contains second
  match s.callbacks.get? name with
  | none => (s, used)
  | some callback => ({ s with callbacks := s.callbacks.put second callback }, used)

/-- Whether two names stand for the same callback. -/
def same (s : Session) (a b : String) : Bool :=
  match s.callbacks.get? a, s.callbacks.get? b with
  | some a, some b => a == b
  | _, _ => false

/-- The factory of a name: a callback, or else a factory that shows paths. -/
def factory? (s : Session) (name : String) : Option Callback :=
  (s.callbacks.get? name).or (s.materializers.get? name)

/-! ### Registries -/

/-- Makes a registry and uses it for new pools. -/
def newRegistry (s : Session) (capacity : Option Nat) : Session :=
  let registry := (capacity.map Registry.ofCapacity).getD Registry.standard
  { s with registries := s.registries.push registry, registry := s.registries.size }

/-- Uses the registry of a pool for new pools. -/
def useRegistryOfPool (s : Session) (name : String) : Session :=
  { s with registry := ((s.pool? name).map Pool.registry).getD s.registry }

/-- Uses the registry of a dispatcher for new pools. -/
def useRegistryOfDispatcher (s : Session) (name : String) : Session :=
  { s with registry := ((s.dispatchers.get? name).map Dispatcher.registry).getD s.registry }

/-- A registry by its number. -/
def registryOf (s : Session) (number : RegistryId) : Registry :=
  s.registries.getD number Registry.standard

/-- The registry that new pools use. -/
def currentRegistry (s : Session) : Registry := s.registryOf s.registry

/-- Registers a callback, and remembers its slot by a label. -/
def register (s : Session) (name : String) (label : Option String) : Session × Option SlotId :=
  match s.callbacks.get? name with
  | none => (s, none)
  | some callback =>
    let (registry, slot) := s.currentRegistry.register s.isAlive callback
    let slots := match label, slot with
      | some label, some slot => s.slots.put label slot
      | _, _ => s.slots
    ({ s with registries := s.registries.setIfInBounds s.registry registry, slots }, slot)

/-- The callback at a remembered slot, if it is alive and has the role that is asked for. -/
def atSlot? (s : Session) (label : String) (role : Role) : Option Callback :=
  (s.slots.get? label).bind (s.currentRegistry.lookup s.isAlive role)

/-- Calls the factory at a remembered slot on a payload, which is dropped afterwards. Answers the
text, if there is a factory. -/
def callFactory (s : Session) (label tag : String) : Session × Option String :=
  let calls := match s.atSlot? label .factory with
    | some factory => [Call.build factory (.tagged tag), .discard (.tagged tag)]
    | none => [.discard (.tagged tag)]
  (s.makeCalls calls, (s.built calls).head?)

/-- Calls the release callback at a remembered slot on a payload, which is dropped if there is
none. Answers whether there is one. -/
def callRelease (s : Session) (label tag : String) : Session × Bool :=
  match s.atSlot? label .release with
  | some callback => (s.makeCalls [.release callback (.tagged tag)], true)
  | none => (s.makeCalls [.discard (.tagged tag)], false)

/-! ### Generations -/

/-- Begins the next generation of the session's own counter. -/
def nextGeneration (s : Session) : Session × UInt64 :=
  let generations := s.generations.advance counter
  ({ s with generations }, generations.of counter)

/-- The generation of the session's own counter. -/
def currentGeneration (s : Session) : UInt64 := s.generations.of counter

/-- Makes a token for a generation of the session's own counter, or one that is never stale. -/
def newToken (s : Session) (name : String) (generation : Option UInt64) : Session :=
  let token := match generation with
    | some generation => ⟨some counter, generation⟩
    | none => Token.never
  { s with tokens := s.tokens.put name token }

/-- The token of a name; without a name, one that is never stale. -/
def token (s : Session) (name : Option String) : Token :=
  (name.bind s.tokens.get?).getD Token.never

end Typeahead.Session
