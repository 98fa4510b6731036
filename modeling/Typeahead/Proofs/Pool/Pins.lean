import Typeahead.Pool.Basic
import Typeahead.Proofs.Registry

/-!
# Pins

A pool pins the callbacks of its candidates: it keeps them alive, each at the slot that the
registry gave it. The registry gives no slot away while its callback is alive, so a pin is right
once and for all: the registry and the pool agree on what a pinned slot stands for, and pins are
only ever added until the pool is emptied.
-/

namespace Typeahead.Pool

variable {π : Type} {p : Pool π} {r : Registry} {c d : Callback} {slot other : SlotId}

/-- The callback that a pool keeps alive at a slot, whatever its role. -/
def pinAt (p : Pool π) (slot : SlotId) : Option Callback := p.pins.getD slot none

/-- The registry has every callback that the pool keeps alive at the slot that the pool has it
at. -/
def Agrees (p : Pool π) (r : Registry) : Prop :=
  ∀ slot c, p.pinAt slot = some c → r.slots[slot]? = some c

/-- The second pool is the first with more callbacks pinned. -/
structure Pinned (p p' : Pool π) : Prop where
  /-- Nothing else has changed. -/
  same : p' = { p with pins := p'.pins }
  /-- Every pin is kept. -/
  keeps : ∀ slot c, p.pinAt slot = some c → p'.pinAt slot = some c

theorem Pinned.refl (p : Pool π) : Pinned p p := ⟨rfl, fun _ _ h => h⟩

theorem Pinned.trans {p p' p'' : Pool π} (h : Pinned p p') (h' : Pinned p' p'') : Pinned p p'' :=
  ⟨by rw [h'.same, h.same], fun slot c hc => h'.keeps slot c (h.keeps slot c hc)⟩

theorem pinned?_eq_some {role : Role} :
    p.pinned? role slot = some c ↔ p.pinAt slot = some c ∧ c.role = role := by
  simp [pinned?, pinAt, Option.filter_eq_some_iff]

theorem Pinned.pinned? {p p' : Pool π} (h : Pinned p p') {role : Role}
    (hc : p.pinned? role slot = some c) : p'.pinned? role slot = some c := by
  rw [pinned?_eq_some] at hc ⊢
  exact ⟨h.keeps slot c hc.1, hc.2⟩

/-- What is due for a candidate depends on the pins only. -/
theorem showing_congr {p p' : Pool π} (h : p.pins = p'.pins) : p.showing = p'.showing := by
  have hpinned : p.pinned? = p'.pinned? := by
    funext role slot
    rw [Pool.pinned?, Pool.pinned?, h]
  funext taken
  rw [showing, showing, giveBack, giveBack, hpinned]

/-- Whoever has a pin counts as alive. -/
theorem isPinned_of_pinAt (h : p.pinAt slot = some c) : p.isPinned c = true := by
  rw [pinAt, Array.getD_eq_getD_getElem?] at h
  cases hget : p.pins[slot]? with
  | none => simp [hget] at h
  | some pin =>
    rw [hget, Option.getD_some] at h
    rw [isPinned, Array.contains_iff_mem]
    exact Array.mem_of_getElem? (h ▸ hget)

theorem isPinned_iff : p.isPinned c = true ↔ ∃ slot, p.pinAt slot = some c := by
  constructor
  · intro h
    obtain ⟨slot, hslot⟩ := Array.mem_iff_getElem?.mp (Array.contains_iff_mem.mp h)
    refine ⟨slot, ?_⟩
    rw [pinAt, Array.getD_eq_getD_getElem?, hslot, Option.getD_some]
  · rintro ⟨slot, hslot⟩
    exact isPinned_of_pinAt hslot

/-- Pinning a callback sets the pin of its slot and no other. -/
theorem pinAt_pin (p : Pool π) (slot : SlotId) (c : Callback) (other : SlotId) :
    (p.pin slot c).pinAt other = if slot = other then some c else p.pinAt other := by
  unfold pin
  by_cases hheld : p.pins.getD slot none = some c
  · rw [if_pos hheld]
    split
    · next h => exact h ▸ hheld
    · rfl
  · rw [if_neg hheld]
    simp only [pinAt, Array.getD_eq_getD_getElem?, Array.getElem?_setIfInBounds, Array.size_append,
      Array.size_replicate]
    by_cases hslot : slot = other
    · rw [if_pos hslot, if_pos hslot, if_pos (by omega), Option.getD_some]
    · rw [if_neg hslot, if_neg hslot, Array.getElem?_append]
      split
      · rfl
      · next hge =>
        rw [Array.getElem?_eq_none (Nat.le_of_not_lt hge), Array.getElem?_replicate]
        split <;> rfl

theorem pin_same (p : Pool π) (slot : SlotId) (c : Callback) :
    p.pin slot c = { p with pins := (p.pin slot c).pins } := by
  unfold pin
  split <;> rfl

theorem pin_of_pinAt (h : p.pinAt slot = some c) : p.pin slot c = p := if_pos h

/-- If the slot has no other pin, only the callback comes to those that are pinned. -/
theorem isPinned_pin (h : ∀ held, p.pinAt slot = some held → held = c) :
    (p.pin slot c).isPinned d = true ↔ p.isPinned d = true ∨ d = c := by
  simp only [isPinned_iff, pinAt_pin]
  constructor
  · rintro ⟨other, hother⟩
    split_ifs at hother
    · exact .inr (Option.some.inj hother).symm
    · exact .inl ⟨other, hother⟩
  · rintro (⟨other, hother⟩ | rfl)
    · refine ⟨other, ?_⟩
      split_ifs with hsame
      · rw [h d (hsame ▸ hother)]
      · exact hother
    · exact ⟨slot, if_pos rfl⟩

/-! ### Registering and pinning -/

theorem registry_offer (p : Pool π) (outside : Callback → Bool) (r : Registry)
    (o : Offer π) :
    (p.offer outside r o).registry = (p.enlist outside r o.factory o.release).2.1 := by
  rw [offer]
  rcases p.enlist outside r o.factory o.release with ⟨p₁, r₁, _ | ⟨factory, release⟩⟩ <;> rfl

theorem registry_keep (p : Pool π) (alive : Callback → Bool) (r : Registry)
    (c : Callback) : (p.keep alive r c).2.1 = (r.register alive c).1 := by
  rw [keep]
  rcases r.register alive c with ⟨r₁, _ | slot⟩ <;> rfl

/-- Somebody else's registration leaves a pool and the registry in agreement, as long as the
pinned callbacks count as alive. -/
theorem Agrees.register (h : p.Agrees r) {alive : Callback → Bool}
    (halive : ∀ d, p.isPinned d = true → alive d = true) (c : Callback) :
    p.Agrees (r.register alive c).1 := by
  intro other d hd
  exact Registry.getElem?_register_of_alive (h other d hd) (halive d (isPinned_of_pinAt hd))

/-- What keeping a callback leads to: the pool only gains pins, it still agrees with the registry,
and a callback that finds a slot is pinned there. -/
structure Kept (p p' : Pool π) (r r' : Registry) (c : Callback) (slot? : Option SlotId) :
    Prop where
  pinned : Pinned p p'
  agrees : p'.Agrees r'
  capacity : r'.capacity = r.capacity
  at_slot : ∀ slot, slot? = some slot → p'.pinAt slot = some c

theorem Agrees.keep (h : p.Agrees r) {alive : Callback → Bool}
    (halive : ∀ d, p.isPinned d = true → alive d = true) (c : Callback) {p' : Pool π}
    {r' : Registry} {slot? : Option SlotId} (heq : p.keep alive r c = (p', r', slot?)) :
    Kept p p' r r' c slot? := by
  have hregister := h.register halive c
  have hcapacity : (r.register alive c).1.capacity = r.capacity := Registry.capacity_register
  unfold Pool.keep at heq
  rcases hreg : r.register alive c with ⟨r₁, slot₁?⟩
  rw [hreg] at heq hregister hcapacity
  cases slot₁? with
  | none =>
    obtain ⟨rfl, rfl, rfl⟩ : p = p' ∧ r₁ = r' ∧ none = slot? := by simpa using heq
    exact ⟨.refl p, hregister, hcapacity, fun _ hslot => by cases hslot⟩
  | some slot =>
    obtain ⟨rfl, rfl, rfl⟩ : p.pin slot c = p' ∧ r₁ = r' ∧ some slot = slot? := by simpa using heq
    have hat : r₁.slots[slot]? = some c := by
      have := Registry.getElem?_register (congrArg Prod.snd hreg)
      rwa [hreg] at this
    refine ⟨⟨pin_same p slot c, ?_⟩, ?_, hcapacity, ?_⟩
    · intro other d hd
      rw [pinAt_pin]
      split
      · next hother =>
        rw [← hat, hother]
        exact hregister other d hd
      · exact hd
    · intro other d hd
      rw [pinAt_pin] at hd
      split at hd
      · next hother =>
        rw [← hd, ← hother]
        exact hat
      · exact hregister other d hd
    · intro slot' hslot'
      obtain rfl := Option.some.inj hslot'
      rw [pinAt_pin, if_pos rfl]

variable {outside : Callback → Bool} {factory : Callback} {release : Option Callback}

/-- Everything that enlisting the callbacks of an offer can do: it keeps the factory, and if that
finds a slot and there is a release callback, it keeps that as well. Whoever is alive beside the
pool or is pinned counts as alive. -/
theorem enlist_cases {p' : Pool π} {r' : Registry} {slots : Option (SlotId × Option SlotId)}
    (heq : p.enlist outside r factory release = (p', r', slots)) :
    ∃ alive : Pool π → Callback → Bool,
      (∀ p d, outside d = true → alive p d = true) ∧
      (∀ p d, p.isPinned d = true → alive p d = true) ∧
      ((p.keep (alive p) r factory = (p', r', none) ∧ slots = none) ∨
        ∃ p₁ r₁ slot, p.keep (alive p) r factory = (p₁, r₁, some slot) ∧
          ((release = none ∧ p' = p₁ ∧ r' = r₁ ∧ slots = some (slot, none)) ∨
            ∃ callback slot₂?, release = some callback ∧
              p₁.keep (alive p₁) r₁ callback = (p', r', slot₂?) ∧
              slots = slot₂?.map fun slot₂ => (slot, some slot₂))) := by
  unfold Pool.enlist at heq
  extract_lets alive at heq
  refine ⟨alive, fun p d hd => by simp [alive, hd], fun p d hd => by simp [alive, hd], ?_⟩
  rcases hfirst : p.keep (alive p) r factory with ⟨p₁, r₁, _ | slot⟩
  · rw [hfirst] at heq
    obtain ⟨rfl, rfl, rfl⟩ : p₁ = p' ∧ r₁ = r' ∧ none = slots := by simpa using heq
    exact .inl ⟨rfl, rfl⟩
  · rw [hfirst] at heq
    refine .inr ⟨p₁, r₁, slot, rfl, ?_⟩
    cases release with
    | none =>
      obtain ⟨rfl, rfl, rfl⟩ : p₁ = p' ∧ r₁ = r' ∧ some (slot, none) = slots := by simpa using heq
      exact .inl ⟨rfl, rfl, rfl, rfl⟩
    | some callback =>
      refine .inr ⟨callback, ?_⟩
      rcases hsecond : p₁.keep (alive p₁) r₁ callback with ⟨p₂, r₂, slot₂?⟩
      simp only [hsecond] at heq
      refine ⟨slot₂?, rfl, ?_⟩
      cases slot₂? with
      | none =>
        obtain ⟨rfl, rfl, rfl⟩ : p₂ = p' ∧ r₂ = r' ∧ none = slots := by simpa using heq
        exact ⟨rfl, rfl⟩
      | some slot₂ =>
        obtain ⟨rfl, rfl, rfl⟩ : p₂ = p' ∧ r₂ = r' ∧ some (slot, some slot₂) = slots := by
          simpa using heq
        exact ⟨rfl, rfl⟩

/-- An offer does to the registry what a few registrations do: what they keep to, it keeps to.
Whoever is alive beside the pool counts as alive. -/
theorem registry_offer_induction {motive : Registry → Prop}
    (hregister : ∀ {r alive} c, (∀ d, outside d = true → alive d = true) → motive r →
      motive (r.register alive c).1)
    (h : motive r) (o : Offer π) : motive (p.offer outside r o).registry := by
  rcases heq : p.enlist outside r o.factory o.release with ⟨p', r', slots⟩
  have hregistry : (p.offer outside r o).registry = r' := by rw [registry_offer, heq]
  rw [hregistry]
  obtain ⟨alive, houtside, -, hcases⟩ := enlist_cases heq
  have hkeep : ∀ {p p₁ : Pool π} {r r₁ c slot?}, p.keep (alive p) r c = (p₁, r₁, slot?) →
      motive r → motive r₁ := by
    intro p p₁ r r₁ c slot? hkept hr
    have hregister' : (r.register (alive p) c).1 = r₁ := by rw [← registry_keep p, hkept]
    exact hregister' ▸ hregister c (houtside p) hr
  rcases hcases with
    ⟨hfirst, -⟩ | ⟨p₁, r₁, slot, hfirst, ⟨-, -, rfl, -⟩ | ⟨callback, slot₂?, -, hsecond, -⟩⟩
  · exact hkeep hfirst h
  · exact hkeep hfirst h
  · exact hkeep hsecond (hkeep hfirst h)

/-- What enlisting the callbacks of an offer leads to. Whether or not they find slots, the pool
only gains pins and still agrees with the registry. If they do, they are pinned there. -/
structure Enlisted (p p' : Pool π) (r r' : Registry) (factory : Callback)
    (release : Option Callback) (slots : Option (SlotId × Option SlotId)) : Prop where
  pinned : Pinned p p'
  agrees : p'.Agrees r'
  capacity : r'.capacity = r.capacity
  at_slots : ∀ slot slot?, slots = some (slot, slot?) →
    p'.pinAt slot = some factory ∧ slot?.map p'.pinAt = release.map some

theorem Agrees.enlist (h : p.Agrees r) {p' : Pool π} {r' : Registry}
    {slots : Option (SlotId × Option SlotId)}
    (heq : p.enlist outside r factory release = (p', r', slots)) :
    Enlisted p p' r r' factory release slots := by
  obtain ⟨alive, -, hpinned, ⟨hfirst, rfl⟩ | ⟨p₁, r₁, slot, hfirst, hrest⟩⟩ := enlist_cases heq
  · have hkept := h.keep (hpinned p) factory hfirst
    exact ⟨hkept.pinned, hkept.agrees, hkept.capacity, by rintro _ _ ⟨⟩⟩
  have hkept := h.keep (hpinned p) factory hfirst
  have hfactory := hkept.at_slot slot rfl
  rcases hrest with ⟨rfl, rfl, rfl, rfl⟩ | ⟨callback, slot₂?, rfl, hsecond, rfl⟩
  · refine ⟨hkept.pinned, hkept.agrees, hkept.capacity, ?_⟩
    rintro _ _ ⟨⟩
    exact ⟨hfactory, rfl⟩
  · have hkept₂ := hkept.agrees.keep (hpinned p₁) callback hsecond
    refine ⟨hkept.pinned.trans hkept₂.pinned, hkept₂.agrees,
      hkept₂.capacity.trans hkept.capacity, ?_⟩
    intro slot' slot? hslots
    obtain ⟨slot₂, rfl, hpair⟩ := Option.map_eq_some_iff.mp hslots
    obtain ⟨rfl, rfl⟩ := Prod.mk.inj hpair
    exact ⟨hkept₂.pinned.keeps slot factory hfactory, congrArg some (hkept₂.at_slot slot₂ rfl)⟩

/-! ### The generation of a pool -/

theorem token_keep (p : Pool π) (alive : Callback → Bool) (r : Registry) (c : Callback) :
    (p.keep alive r c).1.token = p.token := by
  unfold keep
  split
  · rfl
  · next slot _ =>
    show (p.pin slot c).token = p.token
    rw [p.pin_same]

theorem token_enlist (p : Pool π) (outside : Callback → Bool) (r : Registry)
    (factory : Callback) (release : Option Callback) :
    (p.enlist outside r factory release).1.token = p.token := by
  rcases heq : p.enlist outside r factory release with ⟨p', r', slots⟩
  obtain ⟨alive, -, -, ⟨hfirst, -⟩ | ⟨p₁, r₁, slot, hfirst,
    ⟨-, rfl, -, -⟩ | ⟨callback, slot₂, -, hsecond, -⟩⟩⟩ := enlist_cases heq
  · rw [← p.token_keep (alive p) r factory, hfirst]
  · rw [← p.token_keep (alive p) r factory, hfirst]
  · rw [← p.token_keep (alive p) r factory, hfirst, ← p₁.token_keep (alive p₁) r₁ callback, hsecond]

theorem token_contend (p : Pool π) (loc : Location) (candidate : Candidate) (payload : π) :
    (p.contend loc candidate payload).1.token = p.token := by
  rw [contend]
  split
  · split_ifs <;> rfl
  · rfl

theorem token_takeIn (p : Pool π) (identity : Option UInt32) (candidate : Candidate)
    (payload : π) : (p.takeIn identity candidate payload).1.token = p.token := by
  rw [takeIn]
  split
  · exact p.token_contend _ candidate payload
  · split_ifs
    · rfl
    · cases identity <;> rfl

/-- An offer does not change the generation that a pool belongs to. -/
theorem token_offer (p : Pool π) (outside : Callback → Bool) (r : Registry) (o : Offer π) :
    (p.offer outside r o).pool.token = p.token := by
  have htoken := p.token_enlist outside r o.factory o.release
  rcases heq : p.enlist outside r o.factory o.release with ⟨p', r', slots⟩
  rw [heq] at htoken
  rw [offer, heq]
  cases slots with
  | none => exact htoken
  | some slots => exact (p'.token_takeIn ..).trans htoken

/-- Neither does picking candidates. -/
theorem token_consumeAll (p : Pool π) (locs : List Location) :
    (p.consumeAll locs).1.token = p.token := by
  induction locs generalizing p with
  | nil => rfl
  | cons loc locs ih =>
    unfold consumeAll
    split
    · exact ih _
    · exact ih _

end Typeahead.Pool
