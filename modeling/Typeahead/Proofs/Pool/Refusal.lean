import Typeahead.Proofs.Pool.Sharing

/-!
# Refused offers

An offer is made in steps: the factory is registered and pinned, then the release callback is, and
only then is a place looked for. If a step fails, those before it are not undone. So a refused offer
changes nothing in the pool but the pins: the callbacks that have found slots by then stay pinned,
although no candidate uses them, and whoever offered them may let go of them, but their slots stay
taken. If the pool has pinned them for other candidates already, a refused offer leaves no trace.
-/

namespace Typeahead

/-! ### What offering callbacks leaves behind -/

namespace Pool

variable {π : Type} {p p₁ p₂ : Pool π} {r r₁ r₂ : Registry} {outside : Callback → Bool}
variable {c : Callback} {left left₂ : List Callback} {o : Offer π}

/-- **Some callbacks are registered and pinned**, and nothing else happens. -/
structure Enrolls (p p' : Pool π) (r r' : Registry) (left : List Callback) : Prop where
  /-- Nothing changes in the pool but its pins. -/
  same : p' = { p with pins := p'.pins }
  /-- The callbacks are pinned, and no others. -/
  isPinned_iff : ∀ c, p'.isPinned c = true ↔ p.isPinned c = true ∨ c ∈ left
  /-- Slots are given to these callbacks only. -/
  slots : ∀ slot : SlotId, r'.slots[slot]? = r.slots[slot]? ∨ ∃ c ∈ left, r'.slots[slot]? = some c
  /-- If they have been pinned before, nothing happens. -/
  idle : (∀ c ∈ left, p.isPinned c = true) → p' = p ∧ r' = r

theorem Enrolls.refl (p : Pool π) (r : Registry) : Enrolls p p r r [] where
  same := rfl
  isPinned_iff c := by simp
  slots slot := .inl rfl
  idle _ := ⟨rfl, rfl⟩

theorem Enrolls.trans (h : Enrolls p p₁ r r₁ left) (h₂ : Enrolls p₁ p₂ r₁ r₂ left₂) :
    Enrolls p p₂ r r₂ (left ++ left₂) where
  same := by rw [h₂.same, h.same]
  isPinned_iff c := by rw [h₂.isPinned_iff, h.isPinned_iff, List.mem_append, or_assoc]
  slots slot := by
    rcases h₂.slots slot with hsame | ⟨c, hc, hslot⟩
    · rw [hsame]
      exact (h.slots slot).imp_right fun ⟨c, hc, hslot⟩ => ⟨c, List.mem_append_left _ hc, hslot⟩
    · exact .inr ⟨c, List.mem_append_right _ hc, hslot⟩
  idle hpinned := by
    obtain ⟨rfl, rfl⟩ := h.idle fun c hc => hpinned c (List.mem_append_left _ hc)
    exact h₂.idle fun c hc => hpinned c (List.mem_append_right _ hc)

/-- **One callback**: it is registered and pinned if it finds a slot. -/
theorem Agrees.enrolls_keep (h : p.Agrees r) (hnodup : r.slots.toList.Nodup)
    {alive : Callback → Bool} (halive : ∀ d, p.isPinned d = true → alive d = true)
    (c : Callback) {slot? : Option SlotId} (heq : p.keep alive r c = (p₁, r₁, slot?)) :
    Enrolls p p₁ r r₁ (slot?.map fun _ => c).toList := by
  have hkept := h.keep halive c heq
  have hslots := Registry.getElem?_register_cases alive r c
  rw [Pool.keep] at heq
  rcases hreg : r.register alive c with ⟨r', _ | slot⟩
  · obtain ⟨rfl, -⟩ := Prod.mk.inj (hreg.symm.trans (Registry.register_of_none (by rw [hreg])))
    rw [hreg] at heq
    obtain ⟨rfl, rfl, rfl⟩ : p = p₁ ∧ r' = r₁ ∧ none = slot? := by simpa using heq
    exact .refl p r'
  · rw [hreg] at heq hslots
    obtain ⟨rfl, rfl, rfl⟩ : p.pin slot c = p₁ ∧ r' = r₁ ∧ some slot = slot? := by simpa using heq
    refine ⟨pin_same p slot c, fun d => ?_, fun other => ?_, fun hpinned => ?_⟩
    · have hfree : ∀ held, p.pinAt slot = some held → held = c := fun held hheld =>
        Option.some.inj ((hkept.pinned.keeps slot held hheld).symm.trans (hkept.at_slot slot rfl))
      rw [isPinned_pin hfree]
      simp
    · exact (hslots other).imp_right fun hgiven => ⟨c, List.mem_singleton_self c, hgiven⟩
    · obtain ⟨other, hother⟩ := isPinned_iff.mp (hpinned c (List.mem_singleton_self c))
      have hsame := hreg.symm.trans (Registry.register_of_getElem? hnodup (h other c hother))
      obtain ⟨rfl, hslot⟩ := Prod.mk.inj hsame
      obtain rfl := Option.some.inj hslot
      exact ⟨pin_of_pinAt hother, rfl⟩

/-- **The callbacks of an offer**: those are registered and pinned that find slots, the factory
first. -/
theorem Agrees.enrolls_enlist (h : p.Agrees r) (hnodup : r.slots.toList.Nodup)
    {factory : Callback} {release : Option Callback} {found : Option (SlotId × Option SlotId)}
    (heq : p.enlist outside r factory release = (p₂, r₂, found)) :
    ∃ left, left <+: factory :: release.toList ∧
      (found.isSome = true ↔ left = factory :: release.toList) ∧
      Enrolls p p₂ r r₂ left := by
  obtain ⟨alive, -, hpinned, ⟨hfirst, rfl⟩ | ⟨p₁, r₁, slot, hfirst, hrest⟩⟩ := enlist_cases heq
  · exact ⟨[], List.nil_prefix, by simp, h.enrolls_keep hnodup (hpinned p) factory hfirst⟩
  have henrolls := h.enrolls_keep hnodup (hpinned p) factory hfirst
  rcases hrest with ⟨rfl, rfl, rfl, rfl⟩ | ⟨callback, slot₂?, rfl, hsecond, rfl⟩
  · exact ⟨[factory], List.prefix_rfl, by simp, henrolls⟩
  · have hkept := h.keep (hpinned p) factory hfirst
    have hregistry : r₁ = (r.register (alive p) factory).1 := by rw [← registry_keep p, hfirst]
    have hnodup₁ : r₁.slots.toList.Nodup := hregistry ▸ Registry.nodup_register hnodup
    have henrolls₂ := henrolls.trans
      (hkept.agrees.enrolls_keep hnodup₁ (hpinned p₁) callback hsecond)
    cases slot₂? with
    | none => exact ⟨[factory], List.prefix_append [factory] [callback], by simp, henrolls₂⟩
    | some slot₂ => exact ⟨[factory, callback], List.prefix_rfl, by simp, henrolls₂⟩

/-- A candidate that is not taken in changes nothing. -/
theorem takeIn_of_refused {identity : Option UInt32} {candidate : Candidate} {payload : π}
    (h : (p.takeIn identity candidate payload).2.1 = false) :
    (p.takeIn identity candidate payload).1 = p := by
  rw [takeIn] at h ⊢
  cases hknown : identity.bind (p.known[·]?) with
  | some loc =>
    rw [hknown] at h
    cases h
  | none =>
    rw [hknown] at h
    dsimp only at h ⊢
    split_ifs at h ⊢
    · rfl
    · cases identity <;> cases h

/-- What is left behind by an offer that is refused. -/
structure Leaves (outside : Callback → Bool) (p : Pool π) (r : Registry) (o : Offer π)
    (left : List Callback) : Prop where
  /-- The callbacks that have found slots are registered and pinned, and nothing else happens. -/
  enrolls : Enrolls p (p.offer outside r o).pool r (p.offer outside r o).registry left
  /-- They come first in the offer: the factory, and then the release callback. -/
  isPrefix : left <+: o.factory :: o.release.toList
  /-- All have found slots, but there is no place; or else one has found no slot. -/
  answer : (p.offer outside r o).answer = .error (.poolSaturated p.capacity) ∧
      left = o.factory :: o.release.toList ∨
    (p.offer outside r o).answer = .error (.registryFull r.capacity) ∧
      left ≠ o.factory :: o.release.toList

/-- **A refused offer leaves nothing behind but pins.** -/
theorem Agrees.exists_leaves (h : p.Agrees r) (hnodup : r.slots.toList.Nodup)
    (hrefused : (p.offer outside r o).answer ≠ .ok ()) : ∃ left, p.Leaves outside r o left := by
  rcases heq : p.enlist outside r o.factory o.release with ⟨p₁, r₁, found⟩
  obtain ⟨left, hprefix, hall, henrolls⟩ := h.enrolls_enlist hnodup heq
  have hcapacity := (h.enlist heq).capacity
  cases found with
  | none =>
    have hoffer : p.offer outside r o =
        ⟨p₁, r₁, [.back o.release o.payload], .error (.registryFull r₁.capacity)⟩ := by
      rw [Pool.offer, heq]
    refine ⟨left, hoffer ▸ henrolls, hprefix, .inr ⟨?_, fun hleft => ?_⟩⟩
    · rw [hoffer, hcapacity]
    · exact absurd (hall.mpr hleft) Bool.false_ne_true
  | some slots =>
    obtain ⟨factory, release⟩ := slots
    let candidate : Candidate :=
      { relevancy := o.relevancy, identity := o.identity.getD p₁.nextUnique, location := ⟨0, 0⟩,
        factory, release }
    rcases htaken : p₁.takeIn o.identity candidate o.payload with ⟨p₂, stored, loser⟩
    obtain ⟨hpool, hregistry, hanswer⟩ : (p.offer outside r o).pool = p₂ ∧
        (p.offer outside r o).registry = r₁ ∧
        (p.offer outside r o).answer =
          if stored then .ok () else .error (.poolSaturated p₂.capacity) := by
      rw [Pool.offer, heq]
      simp only [candidate] at htaken
      simp only [htaken, and_self]
    cases stored with
    | true => exact absurd hanswer hrefused
    | false =>
      have hsame : p₂ = p₁ := by
        rw [← takeIn_of_refused (p := p₁) (by rw [htaken]), htaken]
      refine ⟨left, ?_, hprefix, .inl ⟨?_, hall.mp rfl⟩⟩
      · rwa [hpool, hregistry, hsame]
      · rw [hanswer, hsame, henrolls.same]
        rfl

end Pool

/-! ### What is left behind in a world -/

namespace World

variable {π : Type} {w w' : World π} {i : Nat} {p p' : Pool (Charge π)} {left : List Callback}

/-- Whether a slot of the registry has a callback that is alive. -/
def isLive (w : World π) (slot : SlotId) : Bool := w.registry.slots[slot]?.any w.isAlive

/-- **Some callbacks are left behind** in a pool of a world. -/
structure LeavesPinned (w w' : World π) (i : Nat) (p p' : Pool (Charge π))
    (left : List Callback) : Prop where
  /-- Nothing changes in the pool but its pins. -/
  same : p' = { p with pins := p'.pins }
  /-- Nothing changes in the other pools. -/
  pools : w'.pools = w.pools.set i p'
  /-- Nobody else takes or lets go of a callback. -/
  handles : w'.handles = w.handles
  /-- The pool keeps the callbacks alive, besides those that it keeps alive already. -/
  isPinned_iff : ∀ c, p'.isPinned c = true ↔ p.isPinned c = true ∨ c ∈ left
  /-- Each of them has a slot. -/
  placed : ∀ c ∈ left, ∃ slot : SlotId, w'.registry.slots[slot]? = some c
  /-- Whatever is held by others from then on: their slots are live, besides those that would be
  live anyway. -/
  isLive_iff : ∀ (handles : Callback → Nat) (slot : SlotId),
    ({ w' with handles } : World π).isLive slot = true ↔
      ({ w with handles } : World π).isLive slot = true ∨
        ∃ c ∈ left, w'.registry.slots[slot]? = some c
  /-- If the pool keeps all of them alive already, there is no trace of them. -/
  traceless : (∀ c ∈ left, p.isPinned c = true) → w' = w

/-- No callback ever has two slots. -/
theorem nodup_act (h : w.registry.slots.toList.Nodup) (a : Act π) :
    (w.act a).registry.slots.toList.Nodup := by
  cases a with
  | hold c => exact h
  | letGo c => exact h
  | register c => exact Registry.nodup_register h
  | openPool token limits => exact h
  | ask i what =>
    rw [World.act]
    cases w.pools[i]? with
    | none => exact h
    | some p =>
      cases what with
      | offer o typed =>
        exact Pool.registry_offer_induction (motive := fun r => r.slots.toList.Nodup)
          (fun _ _ hnodup => Registry.nodup_register hnodup) h o.tagged
      | materialize k => exact h
      | reset token => exact h
  | dropPool i => exact h

theorem nodup_run (h : w.registry.slots.toList.Nodup) (acts : List (Act π)) :
    (w.run acts).registry.slots.toList.Nodup := by
  induction acts generalizing w with
  | nil => exact h
  | cons a acts ih => exact ih (nodup_act h a)

/-- When one pool of several pins more callbacks, these are pinned besides those that some pool
has pinned already. -/
theorem any_isPinned_set {pools : List (Pool (Charge π))} (hp : pools[i]? = some p)
    (hpinned : ∀ c, p'.isPinned c = true ↔ p.isPinned c = true ∨ c ∈ left) (c : Callback) :
    (pools.set i p').any (·.isPinned c) = true ↔ pools.any (·.isPinned c) = true ∨ c ∈ left := by
  have hlt : i < pools.length := (List.getElem?_eq_some_iff.mp hp).1
  have hset : p' ∈ pools.set i p' := List.mem_set hlt p'
  simp only [List.any_eq_true]
  constructor
  · rintro ⟨q, hq, hc⟩
    rcases List.mem_or_eq_of_mem_set hq with hq | rfl
    · exact .inl ⟨q, hq, hc⟩
    · exact ((hpinned c).mp hc).imp_left fun hc => ⟨p, List.mem_of_getElem? hp, hc⟩
  · rintro (⟨q, hq, hc⟩ | hc)
    · obtain ⟨j, hj⟩ := List.mem_iff_getElem?.mp hq
      by_cases hsame : i = j
      · obtain rfl : p = q := Option.some.inj (hp.symm.trans (hsame ▸ hj))
        exact ⟨p', hset, (hpinned c).mpr (.inl hc)⟩
      · exact ⟨q, List.mem_of_getElem? ((List.getElem?_set_ne hsame).trans hj), hc⟩
    · exact ⟨p', hset, (hpinned c).mpr (.inr hc)⟩

theorem isLive_iff {slot : SlotId} : w.isLive slot = true ↔
    ∃ c, w.registry.slots[slot]? = some c ∧ (0 < w.handles c ∨ w.pools.any (·.isPinned c)) := by
  simp only [isLive, isAlive, Option.any_eq_true, Bool.or_eq_true, decide_eq_true_eq]

theorem leavesPinned_of_enrolls {r' : Registry} (hp : w.pools[i]? = some p)
    (h : p.Enrolls p' w.registry r' left) (hagrees : p'.Agrees r') :
    w.LeavesPinned { w with registry := r', pools := w.pools.set i p' } i p p' left where
  same := h.same
  pools := rfl
  handles := rfl
  isPinned_iff := h.isPinned_iff
  placed c hc := by
    obtain ⟨slot, hslot⟩ := Pool.isPinned_iff.mp ((h.isPinned_iff c).mpr (.inr hc))
    exact ⟨slot, hagrees slot c hslot⟩
  isLive_iff handles slot := by
    simp only [isLive_iff, any_isPinned_set hp h.isPinned_iff]
    constructor
    · rintro ⟨c, hslot, halive⟩
      rcases h.slots slot with hsame | hgiven
      · rcases or_assoc.mpr halive with halive | hc
        · exact .inl ⟨c, hsame.symm.trans hslot, halive⟩
        · exact .inr ⟨c, hc, hslot⟩
      · exact .inr hgiven
    · rintro (⟨c, hslot, halive⟩ | ⟨c, hc, hslot⟩)
      · rcases h.slots slot with hsame | ⟨given, hgiven, hslot'⟩
        · exact ⟨c, hsame.trans hslot, or_assoc.mp (.inl halive)⟩
        · exact ⟨given, hslot', .inr (.inr hgiven)⟩
      · exact ⟨c, hslot, .inr (.inr hc)⟩
  traceless hpinned := by
    obtain ⟨rfl, rfl⟩ := h.idle hpinned
    obtain ⟨hlt, rfl⟩ := List.getElem?_eq_some_iff.mp hp
    rw [List.set_getElem_self]

/-- **A refused offer leaves nothing behind but pins.** Whatever has happened: an offer that is
refused, because there is no place for it or because one of its callbacks finds no slot, changes
nothing in the pool but its pins, and nothing elsewhere but the slots of the callbacks that are
pinned. These are the callbacks that had found slots by then, and the pool keeps them alive when
nobody else does, so their slots stay taken. If it keeps them alive for other candidates anyway,
the offer leaves no trace. -/
theorem refused_offer_leaves_pins (capacity : Nat) (acts : List (Act π)) :
    let w := (start capacity : World π).run acts
    ∀ i p, w.pools[i]? = some p → ∀ (o : Offer π) (typed : o.Typed),
      let offered := p.offer (w.isAliveBeside i) w.registry o.tagged
      offered.answer ≠ .ok () →
      ∃ left, left <+: o.factory :: o.release.toList ∧
        (offered.answer = .error (.poolSaturated p.capacity) ∧
            left = o.factory :: o.release.toList ∨
          offered.answer = .error (.registryFull w.registry.capacity) ∧
            left ≠ o.factory :: o.release.toList) ∧
        w.LeavesPinned (w.act (.ask i (.offer o typed))) i p offered.pool left := by
  intro w i p hp o typed offered hrefused
  have hsound : w.Sound := (sound_start capacity).run acts
  have hnodup : w.registry.slots.toList.Nodup := nodup_run List.nodup_nil acts
  have hinOrder := hsound p (List.mem_of_getElem? hp)
  obtain ⟨left, hleaves⟩ := hinOrder.agrees.exists_leaves hnodup hrefused
  have hinOrder' := (hinOrder.respond _ (w.carried_of_mem_request i (.offer o typed))).1
  have hact : w.act (.ask i (.offer o typed)) =
      { w with registry := offered.registry, pools := w.pools.set i offered.pool } := by
    rw [World.act, hp]
    rfl
  refine ⟨left, hleaves.isPrefix, hleaves.answer, ?_⟩
  rw [hact]
  exact leavesPinned_of_enrolls hp hleaves.enrolls hinOrder'.agrees

/-- In a registry with one slot: the factory of the second offer has it already, and its release
callback finds none. -/
theorem refused_offer_leaves_pins_one_slot :
    let label : Callback := ⟨0, .label "label"⟩
    let back : Callback := ⟨1, .swallow "back" none⟩
    let acts : List (Act Nat) := [
      .openPool .never ⟨1⟩, .hold label, .hold back,
      .ask 0 (.offer ⟨none, .zero, 100, label, none⟩ ⟨rfl, by simp⟩)]
    let w := (start 1 : World Nat).run acts
    let o : Offer Nat := ⟨none, .zero, 200, label, some back⟩
    let typed : o.Typed := ⟨rfl, by simp [o, back]; rfl⟩
    ∃ p, w.pools[0]? = some p ∧
      (p.offer (w.isAliveBeside 0) w.registry o.tagged).answer = .error (.registryFull 1) ∧
      w.act (.ask 0 (.offer o typed)) = w := by
  intro label back acts w o typed
  have hpool : (w.pools[0]?.map fun p => (p.isPinned label,
      (p.offer (w.isAliveBeside 0) w.registry o.tagged).answer)) =
        some (true, .error (.registryFull 1)) := by decide +kernel
  obtain ⟨p, hp, heq⟩ := Option.map_eq_some_iff.mp hpool
  obtain ⟨hpinned, hfull⟩ := Prod.mk.inj heq
  refine ⟨p, hp, hfull, ?_⟩
  have hrefused : (p.offer (w.isAliveBeside 0) w.registry o.tagged).answer ≠ .ok () := by
    rw [hfull]
    rintro ⟨⟩
  obtain ⟨left, hprefix, hanswer, hleaves⟩ :=
    refused_offer_leaves_pins 1 acts 0 p hp o typed hrefused
  have hleft : left <+: [label] := by
    have hprefix' : left <+: [label] ++ [back] := hprefix
    rcases List.prefix_concat_iff.mp hprefix' with hall | hleft
    · rcases hanswer with ⟨hsaturated, -⟩ | ⟨-, hpart⟩
      · rw [hfull] at hsaturated
        cases hsaturated
      · exact absurd hall hpart
    · exact hleft
  refine hleaves.traceless fun c hc => ?_
  obtain rfl := List.mem_singleton.mp (hleft.subset hc)
  exact hpinned

/-- The factory of an offer takes the only slot, so its release callback finds none and the offer
is refused. The slot stays taken when nobody holds the callbacks any more. Without the offer it
would be free. -/
theorem refused_offer_takes_slot :
    let label : Callback := ⟨0, .label "label"⟩
    let back : Callback := ⟨1, .swallow "back" none⟩
    let o : Offer Nat := ⟨none, .zero, 100, label, some back⟩
    let typed : o.Typed := ⟨rfl, by simp [o, back]; rfl⟩
    let w := (start 1 : World Nat).run [.openPool .never ⟨1⟩, .hold label, .hold back]
    let letGo : List (Act Nat) := [.letGo label, .letGo back]
    (w.pools[0]?.map fun p => (p.offer (w.isAliveBeside 0) w.registry o.tagged).answer) =
        some (.error (.registryFull 1)) ∧
      (w.run letGo).isLive 0 = false ∧
      (w.run (.ask 0 (.offer o typed) :: letGo)).isLive 0 = true := by
  decide +kernel

end World

end Typeahead
