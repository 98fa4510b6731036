import Mathlib.Logic.Function.Basic
import Typeahead.Proofs.Pool.Charges

/-!
# Pools that share a registry

Several pools number their callbacks by one registry, while others make callbacks, pass them on,
let them go and register them. The registry keeps nothing alive, and gives the slot of a dead
callback to another one. A candidate knows its callbacks by their slots only. It still is built
and given back by the callbacks that it came with: its pool pins them, the pin keeps them alive,
and while they are alive their slots do not change hands.

To say which callbacks a candidate came with, its payload carries them along. No operation looks
at a payload, so they make no difference to what happens.
-/

namespace Typeahead

variable {π : Type} {p : Pool (Charge π)} {r : Registry} {slots : Roster (Charge π)} {room i : Nat}

/-- A charge whose payload carries the callbacks that it came with. -/
def Charge.carried (c : Charge π) : Charge (Charge π) := ⟨c, c.factory, c.release⟩

/-- An offer whose payload carries the callbacks that it comes with. -/
def Offer.tagged (o : Offer π) : Offer (Charge π) := { o with payload := o.charge }

/-! ### Worlds -/

/-- A registry, the pools that share it, and who else holds callbacks. -/
structure World (π : Type) where
  /-- The registry. -/
  registry : Registry
  /-- How many times a callback is held beside the pools. -/
  handles : Callback → Nat
  /-- The pools. -/
  pools : List (Pool (Charge π))

/-- What can be asked of a pool. -/
inductive Ask (π : Type) where
  /-- Takes a candidate in. -/
  | offer (o : Offer π) (typed : o.Typed)
  /-- Shows the best candidates. -/
  | materialize (k : Nat)
  /-- Empties the pool. -/
  | reset (token : Token)

/-- What can happen in a world. -/
inductive Act (π : Type) where
  /-- Somebody makes a callback, or takes hold of one that there is. -/
  | hold (c : Callback)
  /-- Somebody lets go of a callback. -/
  | letGo (c : Callback)
  /-- Somebody registers a callback. -/
  | register (c : Callback)
  /-- There is a new pool. -/
  | openPool (token : Token) (limits : PoolLimits)
  /-- The pool with a number is asked something. -/
  | ask (i : Nat) (what : Ask π)
  /-- The pool with a number goes away. -/
  | dropPool (i : Nat)

namespace World

/-- A world with an empty registry, no pool, and nobody who holds a callback. -/
def start (capacity : Nat) : World π := ⟨.ofCapacity capacity, fun _ => 0, []⟩

/-- Whether a callback is held by somebody other than the pool with a number. -/
def isAliveBeside (w : World π) (i : Nat) (c : Callback) : Bool :=
  0 < w.handles c || (w.pools.eraseIdx i).any (·.isPinned c)

/-- Whether somebody holds a callback. -/
def isAlive (w : World π) (c : Callback) : Bool :=
  0 < w.handles c || w.pools.any (·.isPinned c)

/-- What a pool is told when it is asked something: whoever else is alive. -/
def request (w : World π) (i : Nat) : Ask π → Request (Charge π)
  | .offer o typed => .tryInsert (w.isAliveBeside i) o.tagged typed
  | .materialize k => .materialize k
  | .reset token => .reset token

/-- The world after something has happened. -/
def act (w : World π) : Act π → World π
  | .hold c => { w with handles := Function.update w.handles c (w.handles c + 1) }
  | .letGo c => { w with handles := Function.update w.handles c (w.handles c - 1) }
  | .register c => { w with registry := (w.registry.register w.isAlive c).1 }
  | .openPool token limits => { w with pools := w.pools ++ [.empty token 0 limits] }
  | .ask i what =>
    match w.pools[i]? with
    | none => w
    | some p =>
      let (p, registry, _) := p.respond w.registry (w.request i what)
      { w with registry, pools := w.pools.set i p }
  | .dropPool i => { w with pools := w.pools.eraseIdx i }

/-- The calls that are made when something happens. -/
def calls (w : World π) : Act π → List (Call (Charge π))
  | .ask i what =>
    match w.pools[i]? with
    | none => []
    | some p => (p.respond w.registry (w.request i what)).2.2.calls
  | .dropPool i => (w.pools[i]?.map Pool.dismiss).getD []
  | _ => []

/-- The world after several things have happened, one after the other. -/
def run (w : World π) (acts : List (Act π)) : World π := acts.foldl act w

end World

/-- Whether candidates are shown when something happens. -/
def Act.shows : Act π → Bool
  | .ask _ (.materialize _) => true
  | _ => false

/-! ### Slots that do not change hands -/

/-- An offer to a pool leaves the slots of all callbacks that are alive beside it as they are. -/
theorem Pool.getElem?_offer {α : Type} {p : Pool α} {outside : Callback → Bool} {o : Offer α}
    {slot : SlotId} {d : Callback} (hslot : r.slots[slot]? = some d) (houtside : outside d = true) :
    (p.offer outside r o).registry.slots[slot]? = some d :=
  Pool.registry_offer_induction (motive := fun r => r.slots[slot]? = some d)
    (fun _ halive hkept => Registry.getElem?_register_of_alive hkept (halive d houtside)) hslot o

/-! ### Pools that carry their callbacks -/

/-- A pool with its registry is in order: it represents a roster in which each payload carries the
callbacks of its slot. -/
def Pool.InOrder (p : Pool (Charge π)) (r : Registry) : Prop :=
  ∃ room slots, Represents room p r slots ∧ ∀ c ∈ slots.charges, c = c.payload.carried

theorem flatMap_settled_of_carried {settled : List (Charge (Charge π))}
    (hcarried : ∀ c ∈ settled, c = c.payload.carried) (shows : Bool) :
    settled.flatMap (Charge.settled shows) =
      (settled.map Charge.payload).flatMap fun c => c.carried.settled shows := by
  rw [List.flatMap_map]
  exact List.flatMap_congr fun c hc => congrArg (Charge.settled shows) (hcarried c hc)

/-- A request whose charge carries its callbacks keeps a pool in order. Every call that it makes is
one to the callbacks that the payload came with, and when candidates are shown, they are those
that the pool picks. -/
theorem Pool.InOrder.respond (h : p.InOrder r) (request : Request (Charge π))
    (hcharge : ∀ c ∈ request.charge?, c = c.payload.carried) :
    (p.respond r request).1.InOrder (p.respond r request).2.1 ∧
    ∃ settled : List (Charge π),
      (p.respond r request).2.2.calls = settled.flatMap (fun c => c.carried.settled request.shows) ∧
      ∀ k, request = .materialize k → settled = (p.takeBest k).2.map Prod.snd := by
  obtain ⟨room, slots, hrepresents, hcarried⟩ := h
  obtain ⟨slots', settled, hrepresents', hcalls, hperm, hpicked⟩ := hrepresents.balance request
  have hall : ∀ c ∈ settled ++ slots'.charges, c = c.payload.carried := by
    intro c hc
    rcases List.mem_append.mp (hperm.mem_iff.mpr hc) with hc | hc
    · exact hcharge c (Option.mem_toList.mp hc)
    · exact hcarried c hc
  refine ⟨⟨room, slots', hrepresents', fun c hc => hall c (List.mem_append_right _ hc)⟩,
    settled.map Charge.payload, ?_, fun k hk => (hpicked k hk).2⟩
  rw [hcalls]
  exact flatMap_settled_of_carried (fun c hc => hall c (List.mem_append_left _ hc)) request.shows

theorem Pool.InOrder.dismiss (h : p.InOrder r) :
    ∃ settled : List (Charge π), p.dismiss = settled.flatMap fun c => c.carried.returned := by
  obtain ⟨room, slots, hrepresents, hcarried⟩ := h
  refine ⟨slots.charges.map Charge.payload, ?_⟩
  rw [hrepresents.dismiss, slots.dismiss_eq]
  exact flatMap_settled_of_carried hcarried false

theorem Pool.inOrder_empty (token : Token) (registry : RegistryId) (limits : PoolLimits)
    (r : Registry) : (Pool.empty token registry limits : Pool (Charge π)).InOrder r := by
  have hsheets : max 1 (min limits.maxSheets 65535) ≤ 65535 := by omega
  exact ⟨_, [], represents_nil hsheets r, by rintro c ⟨⟩⟩

theorem Pool.InOrder.agrees (h : p.InOrder r) : p.Agrees r := by
  obtain ⟨room, slots, hrepresents, -⟩ := h
  exact hrepresents.agrees

/-- What happens to the registry elsewhere leaves a pool in order, as long as the slots of its pins
stay as they are. -/
theorem Pool.InOrder.elsewhere (h : p.InOrder r) {r' : Registry} (hagrees : p.Agrees r') :
    p.InOrder r' := by
  obtain ⟨room, slots, hrepresents, hcarried⟩ := h
  exact ⟨room, slots, hrepresents.pinned (.refl p) hagrees, hcarried⟩

/-- The slots of a live candidate stand, in its pool, for the callbacks that it came with. -/
theorem Pool.InOrder.pinned?_eq (h : p.InOrder r) {place : Place (Charge π)}
    (hplace : place ∈ p.sheets.places) {c : Charge π} (hc : place.payload = some c) :
    p.pinned? .factory place.candidate.factory = some c.factory ∧
      place.candidate.release.map (p.pinned? .release) = c.release.map some := by
  obtain ⟨room, slots, hrepresents, hcarried⟩ := h
  obtain ⟨i, hi⟩ := List.mem_iff_getElem?.mp hplace
  obtain ⟨s, hs⟩ : ∃ s, slots[i]? = some s := by
    obtain ⟨hlt, -⟩ := List.getElem?_eq_some_iff.mp hi
    exact ⟨_, List.getElem?_eq_getElem (hrepresents.length ▸ hlt)⟩
  have hstands := hrepresents.stands i place s hi hs
  have hcharge : (⟨c, s.factory, s.release⟩ : Charge (Charge π)) ∈ slots.charges := by
    refine List.mem_filterMap.mpr ⟨s, List.mem_of_getElem? hs, ?_⟩
    rw [Slot.charge?, ← hstands.payload, hc, Option.map_some]
  have hown := hcarried _ hcharge
  have hfactory : s.factory = c.factory := congrArg Charge.factory hown
  have hrelease : s.release = c.release := congrArg Charge.release hown
  rw [← hfactory, ← hrelease]
  exact ⟨hstands.factory, hstands.release⟩

/-! ### Runs -/

namespace World

variable {w : World π}

/-- All pools of a world are in order. -/
def Sound (w : World π) : Prop := ∀ p ∈ w.pools, p.InOrder w.registry

theorem isAlive_of_pinAt (hp : p ∈ w.pools) {slot : SlotId} {d : Callback}
    (hd : p.pinAt slot = some d) : w.isAlive d = true := by
  rw [isAlive, Bool.or_eq_true, List.any_eq_true]
  exact .inr ⟨p, hp, Pool.isPinned_of_pinAt hd⟩

theorem isAliveBeside_of_pinAt {q : Pool (Charge π)} {j : Nat} (hj : j ≠ i)
    (hq : w.pools[j]? = some q) {slot : SlotId} {d : Callback} (hd : q.pinAt slot = some d) :
    w.isAliveBeside i d = true := by
  rw [isAliveBeside, Bool.or_eq_true, List.any_eq_true]
  refine .inr ⟨q, List.mem_eraseIdx_iff_getElem?.mpr ⟨j, hj, hq⟩, Pool.isPinned_of_pinAt hd⟩

/-- The request that an ask becomes carries its callbacks. -/
theorem carried_of_mem_request (w : World π) (i : Nat) (what : Ask π) :
    ∀ c ∈ (w.request i what).charge?, c = c.payload.carried := by
  intro c hc
  cases what with
  | offer o typed =>
    obtain rfl := Option.some.inj hc
    rfl
  | materialize k => cases hc
  | reset token => cases hc

theorem shows_request (w : World π) (i : Nat) (what : Ask π) :
    (w.request i what).shows = (Act.ask i what).shows := by
  cases what <;> rfl

/-- When a pool is asked something, the registry leaves the slots of all pins of other pools as
they are. -/
theorem agrees_request (what : Ask π) {q : Pool (Charge π)} {j : Nat} (hj : j ≠ i)
    (hq : w.pools[j]? = some q) (hagrees : q.Agrees w.registry) (p : Pool (Charge π)) :
    q.Agrees (p.respond w.registry (w.request i what)).2.1 := by
  intro slot d hd
  have hslot := hagrees slot d hd
  cases what with
  | offer o typed => exact Pool.getElem?_offer hslot (isAliveBeside_of_pinAt hj hq hd)
  | materialize k => exact hslot
  | reset token => exact hslot

/-- Whatever happens, the slot of a pin stays with its callback. -/
theorem Sound.getElem?_act (h : w.Sound) (hp : p ∈ w.pools) {slot : SlotId} {d : Callback}
    (hd : p.pinAt slot = some d) (a : Act π) : (w.act a).registry.slots[slot]? = some d := by
  have hslot := (h p hp).agrees slot d hd
  cases a with
  | hold c => exact hslot
  | letGo c => exact hslot
  | register c => exact Registry.getElem?_register_of_alive hslot (isAlive_of_pinAt hp hd)
  | openPool token limits => exact hslot
  | ask i what =>
    rw [World.act]
    cases hi : w.pools[i]? with
    | none => exact hslot
    | some q =>
      obtain ⟨j, hj⟩ := List.mem_iff_getElem?.mp hp
      by_cases hne : j = i
      · obtain rfl : p = q := Option.some.inj (hj.symm.trans (hne ▸ hi))
        cases what with
        | offer o typed =>
          rcases heq : p.enlist (w.isAliveBeside i) w.registry o.factory o.release with
            ⟨p₁, r₁, found⟩
          have henlisted := (h p hp).agrees.enlist heq
          have hregistry : (p.offer (w.isAliveBeside i) w.registry o.tagged).registry = r₁ := by
            rw [Pool.registry_offer]
            exact congrArg (·.2.1) heq
          change (p.offer (w.isAliveBeside i) w.registry o.tagged).registry.slots[slot]? = some d
          rw [hregistry]
          exact henlisted.agrees slot d (henlisted.pinned.keeps slot d hd)
        | materialize k => exact hslot
        | reset token => exact hslot
      · exact agrees_request what hne hj (h p hp).agrees q slot d hd
  | dropPool i => exact hslot

/-- **Whatever happens, all pools stay in order**, and every call that is made is one to the
callbacks that the payload came with. -/
theorem Sound.act (h : w.Sound) (a : Act π) :
    (w.act a).Sound ∧ ∃ settled : List (Charge π),
      w.calls a = settled.flatMap fun c => c.carried.settled a.shows := by
  have hothers : ∀ p ∈ w.pools, p.InOrder (w.act a).registry := fun p hp =>
    (h p hp).elsewhere fun slot d hd => h.getElem?_act hp hd a
  cases a with
  | hold c => exact ⟨hothers, [], rfl⟩
  | letGo c => exact ⟨hothers, [], rfl⟩
  | register c => exact ⟨hothers, [], rfl⟩
  | openPool token limits =>
    refine ⟨fun p hp => ?_, [], rfl⟩
    rcases List.mem_append.mp hp with hp | hp
    · exact hothers p hp
    · obtain rfl := List.mem_singleton.mp hp
      exact Pool.inOrder_empty ..
  | ask i what =>
    rw [World.act] at hothers ⊢
    rw [calls]
    cases hi : w.pools[i]? with
    | none => exact ⟨h, [], rfl⟩
    | some p =>
      rw [hi] at hothers
      obtain ⟨hinOrder, settled, hcalls, -⟩ :=
        (h p (List.mem_of_getElem? hi)).respond _ (w.carried_of_mem_request i what)
      refine ⟨fun q hq => ?_, settled, shows_request w i what ▸ hcalls⟩
      rcases List.mem_or_eq_of_mem_set hq with hq | rfl
      · exact hothers q hq
      · exact hinOrder
  | dropPool i =>
    refine ⟨fun p hp => hothers p (List.mem_of_mem_eraseIdx hp), ?_⟩
    rw [calls]
    cases hi : w.pools[i]? with
    | none => exact ⟨[], rfl⟩
    | some p => exact (h p (List.mem_of_getElem? hi)).dismiss

theorem Sound.run (h : w.Sound) (acts : List (Act π)) : (w.run acts).Sound := by
  induction acts generalizing w with
  | nil => exact h
  | cons a acts ih => exact ih (h.act a).1

theorem sound_start (capacity : Nat) : (start capacity : World π).Sound := by
  rintro p ⟨⟩

/-- The slots of a candidate stand for the callbacks of a charge, both in the pool that the
candidate is in and in the registry. -/
structure Binds (w : World π) (p : Pool (Charge π)) (candidate : Candidate) (c : Charge π) :
    Prop where
  factory_pinned : p.pinned? .factory candidate.factory = some c.factory
  release_pinned : candidate.release.map (p.pinned? .release) = c.release.map some
  factory_registered :
    w.registry.lookup w.isAlive .factory candidate.factory = some c.factory
  release_registered :
    candidate.release.map (w.registry.lookup w.isAlive .release) = c.release.map some

theorem Sound.lookup_eq (h : w.Sound) (hp : p ∈ w.pools) {role : Role} {slot : SlotId}
    {d : Callback} (hd : p.pinned? role slot = some d) :
    w.registry.lookup w.isAlive role slot = some d := by
  obtain ⟨hpin, hrole⟩ := Pool.pinned?_eq_some.mp hd
  rw [Registry.lookup, (h p hp).agrees slot d hpin]
  simp [hrole, isAlive_of_pinAt hp hpin]

theorem Sound.binds (h : w.Sound) (hp : p ∈ w.pools) {place : Place (Charge π)}
    (hplace : place ∈ p.sheets.places) {c : Charge π} (hc : place.payload = some c) :
    w.Binds p place.candidate c := by
  obtain ⟨hfactory, hrelease⟩ := (h p hp).pinned?_eq hplace hc
  exact ⟨hfactory, hrelease, h.lookup_eq hp hfactory,
    map_eq_map_some_of_imp hrelease fun _ _ _ => h.lookup_eq hp⟩

/-- **A candidate is built and given back by its own callbacks.** Whatever the size of the registry
and whatever happens: the slots of a live candidate stand for the callbacks that it came with, both
in its pool and in the registry, and they do not change hands whatever happens next. So showing
the best candidates of a pool shows each of those that it picks, and every call that is ever made
is one to the callbacks that the payload came with. -/
theorem candidates_keep_their_callbacks (capacity : Nat) (acts : List (Act π)) :
    let w := (start capacity : World π).run acts
    (∀ p ∈ w.pools, ∀ place ∈ p.sheets.places, ∀ c, place.payload = some c →
      w.Binds p place.candidate c ∧
        ∀ a, ∀ slot ∈ place.candidate.factory :: place.candidate.release.toList,
          (w.act a).registry.slots[slot]? = w.registry.slots[slot]?) ∧
    (∀ p ∈ w.pools, ∀ k,
      (p.materialize k).2 = (p.takeBest k).2.flatMap fun taken => taken.2.carried.shown) ∧
    ∀ a, ∃ settled : List (Charge π),
      w.calls a = settled.flatMap fun c => c.carried.settled a.shows := by
  intro w
  have hsound : w.Sound := (sound_start capacity).run acts
  refine ⟨?_, ?_, fun a => (hsound.act a).2⟩
  · intro p hp place hplace c hc
    have hbinds := hsound.binds hp hplace hc
    refine ⟨hbinds, ?_⟩
    have hkeeps : ∀ {role : Role} {slot : SlotId} {d : Callback}, p.pinned? role slot = some d →
        ∀ a, (w.act a).registry.slots[slot]? = w.registry.slots[slot]? := by
      intro role slot d hd a
      obtain ⟨hpin, -⟩ := Pool.pinned?_eq_some.mp hd
      rw [hsound.getElem?_act hp hpin a, (hsound p hp).agrees slot d hpin]
    intro a slot hslot
    rcases List.mem_cons.mp hslot with rfl | hslot
    · exact hkeeps hbinds.factory_pinned a
    · have hrelease := hbinds.release_pinned
      rw [Option.mem_toList.mp hslot] at hrelease
      cases hcallback : c.release with
      | none => simp [hcallback] at hrelease
      | some callback =>
        rw [hcallback, Option.map_some, Option.map_some, Option.some.injEq] at hrelease
        exact hkeeps hrelease a
  · intro p hp k
    obtain ⟨-, settled, hcalls, hpicked⟩ :=
      (hsound p hp).respond (.materialize k) (by rintro c ⟨⟩)
    have hshown : (p.materialize k).2 = settled.flatMap fun c => c.carried.shown := hcalls
    rw [hshown, hpicked k rfl, List.flatMap_map]

/-- In a registry with two slots: nobody but the pool holds the callbacks of its candidate any
more, and others would like to have their slots. -/
theorem candidates_keep_their_callbacks_two_slots :
    let label : Callback := ⟨0, .label "label"⟩
    let back : Callback := ⟨1, .swallow "back" none⟩
    let other : Callback := ⟨2, .label "other"⟩
    let acts : List (Act Nat) := [
      .openPool .never ⟨1⟩, .hold label, .hold back,
      .ask 0 (.offer ⟨none, .zero, 100, label, some back⟩ ⟨rfl, by simp [back]; rfl⟩),
      .letGo label, .letGo back, .hold other, .register other,
      .openPool .never ⟨1⟩,
      .ask 1 (.offer ⟨none, .zero, 200, other, none⟩ ⟨rfl, by simp⟩)]
    let w := (start 2 : World Nat).run acts
    ∃ p ∈ w.pools, ∃ place ∈ p.sheets.places, place.payload = some ⟨100, label, some back⟩ ∧
      w.Binds p place.candidate ⟨100, label, some back⟩ := by
  intro label back other acts w
  have hstored : (w.pools[0]?.bind fun p => p.sheets.places[0]?).map Place.payload =
      some (some ⟨100, label, some back⟩) := by decide +kernel
  obtain ⟨place, hplace, hpayload⟩ := Option.map_eq_some_iff.mp hstored
  obtain ⟨p, hp, hplace⟩ := Option.bind_eq_some_iff.mp hplace
  have hbinds := ((candidates_keep_their_callbacks 2 acts).1 p (List.mem_of_getElem? hp) place
    (List.mem_of_getElem? hplace) _ hpayload).1
  exact ⟨p, List.mem_of_getElem? hp, place, List.mem_of_getElem? hplace, hpayload, hbinds⟩

end World

end Typeahead
