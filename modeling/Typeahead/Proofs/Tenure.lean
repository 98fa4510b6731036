import Mathlib.Data.Finset.Card
import Mathlib.Logic.Function.Basic
import Typeahead.Proofs.Registry

/-!
# Who keeps which slot

A registry keeps no callback alive. Callbacks are made, cloned and dropped outside of it, and those
who hold them are not known to it; all that it is told is which callbacks are alive at the moment
of a request. Nevertheless a slot is a firm promise: a callback that has been registered has one
slot, and keeps it as long as somebody holds the callback.

A callback that nobody holds any more is gone for good. So the registered callbacks that are alive
are exactly those that the registry finds alive in its slots, and their number alone decides
whether a new callback finds a slot.
-/

namespace Typeahead

open Function (update)

/-- A registry and those who use it. -/
structure Clientele where
  /-- The registry. -/
  registry : Registry
  /-- How many times a callback is held. -/
  handles : Callback → Nat := fun _ => 0
  /-- The identity of the next callback. -/
  next : Nat := 0
  /-- All callbacks that have ever been given a slot. -/
  registered : Finset Callback := ∅

/-- What can be done with callbacks. -/
inductive Deed where
  /-- Somebody makes a callback and holds it. -/
  | make (action : Action)
  /-- Somebody who holds a callback passes it on. -/
  | clone (c : Callback)
  /-- Somebody drops a callback. -/
  | drop (c : Callback)
  /-- Somebody who holds a callback registers it, in whichever role. -/
  | register (c : Callback)

namespace Clientele

/-- Whether somebody holds a callback. -/
def isAlive (w : Clientele) (c : Callback) : Bool := 0 < w.handles c

/-- An empty registry, and nobody who holds a callback. -/
def start (capacity : Nat) : Clientele := { registry := .ofCapacity capacity }

/-- What the registry does with a callback that somebody holds. -/
def enroll (w : Clientele) (c : Callback) : Registry × Option SlotId :=
  w.registry.register w.isAlive c

/-- What comes of a deed. Nobody can pass on or register what nobody holds. -/
def act (w : Clientele) : Deed → Clientele
  | .make action =>
    { w with handles := update w.handles ⟨w.next, action⟩ 1, next := w.next + 1 }
  | .clone c =>
    if w.isAlive c then { w with handles := update w.handles c (w.handles c + 1) } else w
  | .drop c => { w with handles := update w.handles c (w.handles c - 1) }
  | .register c =>
    if w.isAlive c then
      { w with
        registry := (w.enroll c).1
        registered := if (w.enroll c).2.isSome then insert c w.registered else w.registered }
    else w

/-- What comes of several deeds, one after the other. -/
def run (w : Clientele) (deeds : List Deed) : Clientele := deeds.foldl act w

/-- The registered callbacks that are still alive. -/
def living (w : Clientele) : Finset Callback := w.registered.filter fun c => w.isAlive c = true

/-- Whether a callback is held all the time while deeds are done. -/
def HeldThrough (w : Clientele) (c : Callback) (deeds : List Deed) : Prop :=
  ∀ done, done <+: deeds → (w.run done).isAlive c = true

variable {w : Clientele} {c d : Callback} {slot : SlotId} {deeds : List Deed}

instance : Decidable (w.HeldThrough c deeds) :=
  decidable_of_iff (∀ done ∈ deeds.inits, (w.run done).isAlive c = true) (by simp [HeldThrough])

theorem isAlive_iff : w.isAlive c = true ↔ 0 < w.handles c := by simp [isAlive]

/-! ### Registering what somebody holds -/

theorem act_register (h : w.isAlive c = true) : w.act (.register c) = { w with
    registry := (w.enroll c).1
    registered := if (w.enroll c).2.isSome then insert c w.registered else w.registered } := by
  simp [act, h]

theorem act_register_of_dead (h : w.isAlive c = false) : w.act (.register c) = w := by
  simp [act, h]

/-- Only a registration touches the registry. -/
theorem registry_act_cases (w : Clientele) (a : Deed) :
    (w.act a).registry = w.registry ∨
      ∃ c, w.isAlive c = true ∧ (w.act a).registry = (w.enroll c).1 := by
  cases a with
  | make action => exact .inl rfl
  | clone c =>
    left
    show (ite _ _ _ : Clientele).registry = w.registry
    split <;> rfl
  | drop c => exact .inl rfl
  | register c =>
    cases halive : w.isAlive c with
    | false => exact .inl (by rw [act_register_of_dead halive])
    | true => exact .inr ⟨c, halive, by rw [act_register halive]⟩

/-- A slot whose callback is held stays with it, whatever is done. -/
theorem getElem?_act (hslot : w.registry.slots[slot]? = some c) (h : w.isAlive c = true)
    (a : Deed) : (w.act a).registry.slots[slot]? = some c := by
  rcases registry_act_cases w a with heq | ⟨d, -, heq⟩
  · rw [heq]
    exact hslot
  · rw [heq]
    exact Registry.getElem?_register_of_alive hslot h

/-! ### The invariant -/

/-- **The invariant of a registry in use.** -/
structure Sound (capacity : Nat) (w : Clientele) : Prop where
  /-- There are as many slots as can be numbered. -/
  capacity_eq : w.registry.capacity = min capacity 256
  /-- No more are used. -/
  size_le : w.registry.slots.size ≤ w.registry.capacity
  /-- No callback has two slots. -/
  nodup : w.registry.slots.toList.Nodup
  /-- Who has a slot has been registered. -/
  registered_of_mem : ∀ c ∈ w.registry.slots, c ∈ w.registered
  /-- Who has been registered and is alive has a slot. -/
  mem_of_alive : ∀ c ∈ w.registered, w.isAlive c = true → c ∈ w.registry.slots
  /-- Who has been registered has been made. -/
  lt_next : ∀ c ∈ w.registered, c.id < w.next
  /-- So has who is alive. -/
  alive_lt_next : ∀ c, w.isAlive c = true → c.id < w.next

theorem sound_start (capacity : Nat) : Sound capacity (start capacity) where
  capacity_eq := rfl
  size_le := Nat.zero_le _
  nodup := List.nodup_nil
  registered_of_mem := by simp [start, Registry.ofCapacity]
  mem_of_alive := by simp [start]
  lt_next := by simp [start]
  alive_lt_next := by simp [start, isAlive]

/-- What is done with handles keeps the invariant if it revives no callback. -/
theorem Sound.handle {capacity : Nat} {w' : Clientele} (h : Sound capacity w)
    (hregistry : w'.registry = w.registry) (hregistered : w'.registered = w.registered)
    (hnext : w.next ≤ w'.next)
    (halive : ∀ c, w'.isAlive c = true → w.isAlive c = true ∨ w.next ≤ c.id ∧ c.id < w'.next) :
    Sound capacity w' where
  capacity_eq := hregistry ▸ h.capacity_eq
  size_le := hregistry ▸ h.size_le
  nodup := hregistry ▸ h.nodup
  registered_of_mem := by
    rw [hregistry, hregistered]
    exact h.registered_of_mem
  mem_of_alive := by
    intro c hc hlive
    rw [hregistered] at hc
    rw [hregistry]
    rcases halive c hlive with hlive | ⟨hnew, -⟩
    · exact h.mem_of_alive c hc hlive
    · exact absurd (h.lt_next c hc) (Nat.not_lt.mpr hnew)
  lt_next := by
    intro c hc
    rw [hregistered] at hc
    exact Nat.lt_of_lt_of_le (h.lt_next c hc) hnext
  alive_lt_next := by
    intro c hlive
    rcases halive c hlive with hlive | ⟨-, hlt⟩
    · exact Nat.lt_of_lt_of_le (h.alive_lt_next c hlive) hnext
    · exact hlt

theorem size_enroll_le (h : w.registry.slots.size ≤ w.registry.capacity) (c : Callback) :
    (w.enroll c).1.slots.size ≤ w.registry.capacity := by
  unfold enroll
  rcases Registry.register_cases w.isAlive w.registry c with
    ⟨_, _, heq⟩ | ⟨_, _, _, _, _, heq⟩ | ⟨_, _, hroom, heq⟩ | ⟨_, _, _, heq⟩ <;>
    rw [heq]
  · exact h
  · simpa using h
  · simpa using Nat.succ_le_of_lt hroom
  · exact h

/-- Who has a slot after a registration had one before, or has just been registered. -/
theorem mem_enroll (h : d ∈ (w.enroll c).1.slots) :
    d ∈ w.registry.slots ∨ d = c ∧ (w.enroll c).2.isSome = true := by
  unfold enroll at *
  rcases Registry.register_cases w.isAlive w.registry c with
    ⟨_, _, heq⟩ | ⟨_, _, _, _, _, heq⟩ | ⟨_, _, _, heq⟩ | ⟨_, _, _, heq⟩ <;>
    rw [heq] at h ⊢
  · exact .inl h
  · rcases Array.mem_or_eq_of_mem_setIfInBounds h with h | h
    · exact .inl h
    · exact .inr ⟨h, rfl⟩
  · rcases Array.mem_push.mp h with h | h
    · exact .inl h
    · exact .inr ⟨h, rfl⟩
  · exact .inl h

/-- Who is held and has a slot keeps one. -/
theorem mem_enroll_of_alive (hmem : d ∈ w.registry.slots) (h : w.isAlive d = true)
    (c : Callback) : d ∈ (w.enroll c).1.slots := by
  obtain ⟨slot, hslot⟩ := Array.mem_iff_getElem?.mp hmem
  exact Array.mem_of_getElem? (Registry.getElem?_register_of_alive hslot h)

/-- Registering what somebody holds keeps the invariant. -/
theorem Sound.register {capacity : Nat} (h : Sound capacity w) (hc : w.isAlive c = true) :
    Sound capacity (w.act (.register c)) := by
  rw [act_register hc]
  refine {
    capacity_eq := Registry.capacity_register.trans h.capacity_eq
    size_le := ?_
    nodup := Registry.nodup_register h.nodup
    registered_of_mem := ?_
    mem_of_alive := ?_
    lt_next := ?_
    alive_lt_next := h.alive_lt_next }
  · show (w.enroll c).1.slots.size ≤ (w.enroll c).1.capacity
    rw [enroll, Registry.capacity_register]
    exact size_enroll_le h.size_le c
  · intro d hd
    rcases mem_enroll hd with hd | ⟨rfl, hsome⟩
    · have hold := h.registered_of_mem d hd
      show d ∈ ite _ _ _
      split
      · exact Finset.mem_insert_of_mem hold
      · exact hold
    · simp [hsome]
  · intro d hd hlive
    show d ∈ (w.enroll c).1.slots
    cases hslot : (w.enroll c).2 with
    | none =>
      simp only [hslot, Option.isSome_none] at hd
      exact mem_enroll_of_alive (h.mem_of_alive d hd hlive) hlive c
    | some slot =>
      simp only [hslot, Option.isSome_some, if_true, Finset.mem_insert] at hd
      rcases hd with rfl | hd
      · exact Array.mem_of_getElem? (Registry.getElem?_register hslot)
      · exact mem_enroll_of_alive (h.mem_of_alive d hd hlive) hlive c
  · intro d hd
    show d.id < w.next
    simp only at hd
    split at hd
    · rcases Finset.mem_insert.mp hd with rfl | hd
      · exact h.alive_lt_next d hc
      · exact h.lt_next d hd
    · exact h.lt_next d hd

/-- **Whatever is done keeps the invariant.** -/
theorem Sound.act {capacity : Nat} (h : Sound capacity w) (a : Deed) :
    Sound capacity (w.act a) := by
  cases a with
  | make action =>
    refine h.handle rfl rfl (Nat.le_succ _) fun c hc => ?_
    rw [isAlive_iff] at hc ⊢
    by_cases heq : c = ⟨w.next, action⟩
    · subst heq
      exact .inr ⟨Nat.le_refl _, Nat.lt_succ_self _⟩
    · left
      simpa [Clientele.act, heq] using hc
  | clone c =>
    cases hc : w.isAlive c with
    | false => simpa [Clientele.act, hc] using h
    | true =>
      simp only [Clientele.act, hc, if_true]
      refine h.handle rfl rfl (Nat.le_refl _) fun d hd => ?_
      left
      by_cases heq : d = c
      · exact heq ▸ hc
      · simpa [isAlive, heq] using hd
  | drop c =>
    refine h.handle rfl rfl (Nat.le_refl _) fun d hd => ?_
    left
    rw [isAlive_iff] at hd ⊢
    by_cases heq : d = c
    · subst heq
      have hheld : 0 < w.handles d - 1 := by simpa [Clientele.act] using hd
      omega
    · simpa [Clientele.act, heq] using hd
  | register c =>
    cases hc : w.isAlive c with
    | false =>
      rw [act_register_of_dead hc]
      exact h
    | true => exact h.register hc

theorem Sound.run {capacity : Nat} (h : Sound capacity w) (deeds : List Deed) :
    Sound capacity (w.run deeds) := by
  induction deeds generalizing w with
  | nil => exact h
  | cons a deeds ih => exact ih (h.act a)

/-! ### What lasts -/

/-- **A slot whose callback is held all the time stays with it.** -/
theorem getElem?_run (hslot : w.registry.slots[slot]? = some c)
    (hheld : w.HeldThrough c deeds) : (w.run deeds).registry.slots[slot]? = some c := by
  induction deeds generalizing w with
  | nil => exact hslot
  | cons a deeds ih =>
    refine ih (getElem?_act hslot (hheld [] List.nil_prefix) a) fun done hdone => ?_
    exact hheld (a :: done) (List.cons_prefix_cons.mpr ⟨rfl, hdone⟩)

/-- A callback that nobody holds is gone. -/
theorem isAlive_act (hmade : c.id < w.next) (hdead : w.isAlive c = false) (a : Deed) :
    c.id < (w.act a).next ∧ (w.act a).isAlive c = false := by
  have hzero : w.handles c = 0 := by simpa [isAlive] using hdead
  cases a with
  | make action =>
    refine ⟨Nat.lt_succ_of_lt hmade, ?_⟩
    have hne : c ≠ ⟨w.next, action⟩ := by
      rintro rfl
      exact Nat.lt_irrefl _ hmade
    simp [act, isAlive, hne, hzero]
  | clone d =>
    cases hd : w.isAlive d with
    | false => simpa [act, hd] using ⟨hmade, hdead⟩
    | true =>
      have hne : c ≠ d := by
        rintro rfl
        rw [hdead] at hd
        cases hd
      simp only [act, hd, if_true]
      refine ⟨hmade, ?_⟩
      simp [isAlive, hne, hzero]
  | drop d =>
    refine ⟨hmade, ?_⟩
    by_cases heq : c = d
    · subst heq
      simp [act, isAlive, hzero]
    · simp [act, isAlive, heq, hzero]
  | register d =>
    cases hd : w.isAlive d with
    | false =>
      rw [act_register_of_dead hd]
      exact ⟨hmade, hdead⟩
    | true =>
      rw [act_register hd]
      exact ⟨hmade, hdead⟩

/-- **A callback that nobody holds stays gone.** -/
theorem isAlive_run (hmade : c.id < w.next) (hdead : w.isAlive c = false) (deeds : List Deed) :
    (w.run deeds).isAlive c = false := by
  induction deeds generalizing w with
  | nil => exact hdead
  | cons a deeds ih =>
    obtain ⟨hmade', hdead'⟩ := isAlive_act hmade hdead a
    exact ih hmade' hdead'

/-! ### Looking slots up -/

theorem lookup_of_alive (hslot : w.registry.slots[slot]? = some c) (h : w.isAlive c = true)
    (role : Role) : w.registry.lookup w.isAlive role slot =
      if role = c.role then some c else none := by
  rw [Registry.lookup, hslot]
  by_cases hrole : role = c.role
  · subst hrole
    simp [h]
  · simp [hrole, Ne.symm hrole]

theorem lookup_of_dead (hslot : w.registry.slots[slot]? = some c) (h : w.isAlive c = false)
    (role : Role) : w.registry.lookup w.isAlive role slot = none := by
  simp [Registry.lookup, hslot, h]

/-! ### Counting -/

/-- The registered callbacks that are alive are those that are alive in the slots. -/
theorem Sound.living_eq {capacity : Nat} (h : Sound capacity w) :
    w.living = (w.registry.slots.toList.filter w.isAlive).toFinset := by
  ext c
  simp only [living, Finset.mem_filter, List.mem_toFinset, List.mem_filter, Array.mem_toList_iff]
  constructor
  · rintro ⟨hc, hlive⟩
    exact ⟨h.mem_of_alive c hc hlive, hlive⟩
  · rintro ⟨hc, hlive⟩
    exact ⟨h.registered_of_mem c hc, hlive⟩

/-- **The size of the registry is the number of registered callbacks that are alive.** -/
theorem Sound.size_eq {capacity : Nat} (h : Sound capacity w) :
    w.registry.size w.isAlive = w.living.card := by
  rw [h.living_eq, List.toFinset_card_of_nodup (h.nodup.filter _), Registry.size,
    ← Array.countP_toList, List.countP_eq_length_filter]

/-- **A callback finds no slot if and only if it has none and as many as there may be are taken by
callbacks that are alive.** -/
theorem Sound.enroll_eq_none_iff {capacity : Nat} (h : Sound capacity w) (c : Callback) :
    (w.enroll c).2 = none ↔
      c ∉ w.registry.slots ∧ w.registry.size w.isAlive = min capacity 256 := by
  have hsize := h.size_le
  have hcount : w.registry.size w.isAlive ≤ w.registry.slots.size := Array.countP_le_size
  rw [← h.capacity_eq, enroll]
  rcases Registry.register_cases w.isAlive w.registry c with
    ⟨slot, hslot, heq⟩ | ⟨hnew, slot, dead, hslot, hdead, heq⟩ | ⟨hnew, -, hroom, heq⟩ |
      ⟨hnew, hall, hfull, heq⟩ <;>
    rw [heq]
  · simpa using fun hnew => absurd (Array.mem_of_getElem? hslot) hnew
  · have hne : w.registry.size w.isAlive ≠ w.registry.slots.size := by
      intro hsame
      have hlive := Array.countP_eq_size.mp hsame dead (Array.mem_of_getElem? hslot)
      rw [hdead] at hlive
      cases hlive
    simp only [reduceCtorEq, false_iff, not_and]
    omega
  · simp only [reduceCtorEq, false_iff, not_and]
    omega
  · have hsame : w.registry.size w.isAlive = w.registry.slots.size :=
      Array.countP_eq_size.mpr hall
    simp only [true_iff]
    exact ⟨hnew, by omega⟩

/-! ### The whole promise -/

/-- **What a registry promises**, however many slots it may have and whatever is done with
callbacks. No callback has two slots. A callback that is registered and held from then on keeps its
slot: registering it again answers that slot, and the slot gives the callback when it is looked up
by the callback's role and nothing when it is looked up by the other. The slot of a callback that
is dead gives nothing until the slot belongs to another callback. Registering fails if and only if
the callback has no slot and as many registered callbacks are alive as there may be slots. The size
is the number of registered callbacks that are alive. -/
theorem slots_are_kept (capacity : Nat) (deeds : List Deed) :
    let w := (start capacity).run deeds
    w.registry.slots.toList.Nodup ∧
    (∀ c slot, w.isAlive c = true → (w.enroll c).2 = some slot →
      ∀ later, (w.act (.register c)).HeldThrough c later →
        let w' := (w.act (.register c)).run later
        w'.registry.slots[slot]? = some c ∧ w'.enroll c = (w'.registry, some slot) ∧
          ∀ role, w'.registry.lookup w'.isAlive role slot =
            if role = c.role then some c else none) ∧
    (∀ c slot, w.registry.slots[slot]? = some c → w.isAlive c = false →
      ∀ later, ((w.run later).registry.slots[slot]? = some c →
        ∀ role, (w.run later).registry.lookup (w.run later).isAlive role slot = none)) ∧
    (∀ c, w.isAlive c = true →
      ((w.enroll c).2 = none ↔ c ∉ w.registry.slots ∧ w.living.card = min capacity 256)) ∧
    w.registry.size w.isAlive = w.living.card ∧ w.living.card ≤ min capacity 256 := by
  intro w
  have hsound : Sound capacity w := (sound_start capacity).run deeds
  refine ⟨hsound.nodup, ?_, ?_, ?_, hsound.size_eq, ?_⟩
  · intro c slot hc hslot later hheld w'
    have hregistered : (w.act (.register c)).registry.slots[slot]? = some c := by
      rw [act_register hc]
      exact Registry.getElem?_register hslot
    have hkept : w'.registry.slots[slot]? = some c := getElem?_run hregistered hheld
    have hlive : w'.isAlive c = true := hheld later (List.prefix_refl later)
    have hsound' : Sound capacity w' := (hsound.act _).run later
    exact ⟨hkept, Registry.register_of_getElem? hsound'.nodup hkept, lookup_of_alive hkept hlive⟩
  · intro c slot hslot hdead later hstill role
    have hmade : c.id < w.next :=
      hsound.lt_next c (hsound.registered_of_mem c (Array.mem_of_getElem? hslot))
    exact lookup_of_dead hstill (isAlive_run hmade hdead later) role
  · intro c _
    rw [hsound.enroll_eq_none_iff, hsound.size_eq]
  · calc w.living.card = w.registry.size w.isAlive := hsound.size_eq.symm
      _ ≤ w.registry.slots.size := Array.countP_le_size
      _ ≤ w.registry.capacity := hsound.size_le
      _ = min capacity 256 := hsound.capacity_eq

/-- There is one slot. Its callback is dropped, and it looks up as nothing. Then it goes to another
callback that is held, and a third one finds no slot. -/
theorem slots_are_kept_one_slot :
    let back : Callback := ⟨0, .swallow "back" none⟩
    let label : Callback := ⟨1, .label "label"⟩
    let other : Callback := ⟨2, .label "other"⟩
    let deeds : List Deed :=
      [.make back.action, .register back, .drop back, .make label.action]
    let later : List Deed := [.clone label, .make other.action, .register other, .drop label]
    let w := (start 1).run deeds
    let w' := (w.act (.register label)).run later
    w.registry.lookup w.isAlive .release 0 = none ∧
      w'.registry.lookup w'.isAlive .factory 0 = some label ∧
      w'.registry.lookup w'.isAlive .release 0 = none ∧
      (w'.enroll other).2 = none := by
  intro back label other deeds later w w'
  obtain ⟨-, hkept, hdead, -⟩ := slots_are_kept 1 deeds
  obtain ⟨-, -, hlookup⟩ :=
    hkept label 0 (by decide +kernel) (by decide +kernel) later (by decide +kernel)
  obtain ⟨-, -, -, hrefused, -⟩ := slots_are_kept 1 (deeds ++ .register label :: later)
  refine ⟨hdead back 0 (by decide +kernel) (by decide +kernel) [] (by decide +kernel) .release,
    hlookup .factory, hlookup .release, ?_⟩
  exact (hrefused other (by decide +kernel)).mpr ⟨by decide +kernel, by decide +kernel⟩

end Clientele

end Typeahead
