import Mathlib.Data.List.Nodup
import Typeahead.Registry

/-!
# What registering does

Registering a callback can do four things: find the slot that the callback has, take over the
first slot whose callback is dead, open a new slot, or fail because all slots are in use. The
lemma that tells them apart is the only one that looks inside; the others say what their users
rely on: the callback is at the slot that is answered, and no slot changes hands while its
callback is alive.
-/

namespace Typeahead.Registry

variable {alive : Callback → Bool} {r : Registry} {c d : Callback} {slot : SlotId}

/-- Everything that registering can do. -/
theorem register_cases (alive : Callback → Bool) (r : Registry) (c : Callback) :
    (∃ slot, r.slots[slot]? = some c ∧ r.register alive c = (r, some slot)) ∨
    (c ∉ r.slots ∧ ∃ slot dead, r.slots[slot]? = some dead ∧ alive dead = false ∧
      r.register alive c = ({ r with slots := r.slots.setIfInBounds slot c }, some slot)) ∨
    (c ∉ r.slots ∧ (∀ held ∈ r.slots, alive held = true) ∧ r.slots.size < r.capacity ∧
      r.register alive c = ({ r with slots := r.slots.push c }, some r.slots.size)) ∨
    (c ∉ r.slots ∧ (∀ held ∈ r.slots, alive held = true) ∧ r.capacity ≤ r.slots.size ∧
      r.register alive c = (r, none)) := by
  obtain ⟨capacity, ⟨slots⟩⟩ := r
  cases hfound : slots.idxOf? c with
  | some slot =>
    obtain ⟨hlt, hc, -⟩ := List.findIdx?_eq_some_iff_getElem.mp hfound
    refine .inl ⟨slot, ?_, by simp [register, hfound]⟩
    rw [List.getElem?_toArray, List.getElem?_eq_getElem hlt]
    exact congrArg some (eq_of_beq hc)
  | none =>
    have hnew : c ∉ (List.toArray slots) := by simpa using hfound
    cases hdead : slots.findIdx? (fun held => !alive held) with
    | some slot =>
      obtain ⟨hlt, hheld, -⟩ := List.findIdx?_eq_some_iff_getElem.mp hdead
      refine .inr (.inl ⟨hnew, slot, slots[slot], ?_, by simpa using hheld, ?_⟩)
      · rw [List.getElem?_toArray, List.getElem?_eq_getElem hlt]
      · simp [register, hfound, hdead]
    | none =>
      have hall : ∀ held ∈ List.toArray slots, alive held = true := by
        simpa using List.findIdx?_eq_none_iff.mp hdead
      by_cases hroom : capacity ≤ slots.length
      · exact .inr (.inr (.inr ⟨hnew, hall, hroom, by simp [register, hfound, hdead, hroom]⟩))
      · exact .inr (.inr (.inl ⟨hnew, hall, Nat.lt_of_not_le hroom,
          by simp [register, hfound, hdead, hroom]⟩))

@[simp] theorem capacity_register : (r.register alive c).1.capacity = r.capacity := by
  rcases register_cases alive r c with
    ⟨_, _, h⟩ | ⟨_, _, _, _, _, h⟩ | ⟨_, _, _, h⟩ | ⟨_, _, _, h⟩ <;>
    rw [h]

/-- A callback that has been registered is at the slot that was answered. -/
theorem getElem?_register (h : (r.register alive c).2 = some slot) :
    (r.register alive c).1.slots[slot]? = some c := by
  rcases register_cases alive r c with
    ⟨found, hfound, heq⟩ | ⟨-, taken, dead, hdead, -, heq⟩ | ⟨-, -, -, heq⟩ | ⟨-, -, -, heq⟩
  · rw [heq] at h ⊢
    obtain rfl := Option.some.inj h
    exact hfound
  · rw [heq] at h ⊢
    obtain rfl := Option.some.inj h
    obtain ⟨hlt, -⟩ := Array.getElem?_eq_some_iff.mp hdead
    exact Array.getElem?_setIfInBounds_self_of_lt hlt
  · rw [heq] at h ⊢
    obtain rfl := Option.some.inj h
    exact Array.getElem?_push_size
  · rw [heq] at h
    cases h

/-- A slot whose callback is alive keeps it, whoever registers. -/
theorem getElem?_register_of_alive (hslot : r.slots[slot]? = some d) (halive : alive d = true) :
    (r.register alive c).1.slots[slot]? = some d := by
  rcases register_cases alive r c with
    ⟨_, _, heq⟩ | ⟨_, taken, dead, hdead, hgone, heq⟩ | ⟨_, _, _, heq⟩ | ⟨_, _, _, heq⟩
  · rw [heq]
    exact hslot
  · rw [heq]
    have hne : taken ≠ slot := by
      rintro rfl
      rw [hslot] at hdead
      obtain rfl := Option.some.inj hdead
      rw [halive] at hgone
      cases hgone
    rw [← hslot]
    exact Array.getElem?_setIfInBounds_ne hne
  · rw [heq]
    obtain ⟨hlt, -⟩ := Array.getElem?_eq_some_iff.mp hslot
    rw [← hslot, Array.getElem?_push, if_neg (Nat.ne_of_lt hlt)]
  · rw [heq]
    exact hslot

/-- A slot changes hands only when it is given to the callback that registers. -/
theorem getElem?_register_cases (alive : Callback → Bool) (r : Registry) (c : Callback)
    (slot : SlotId) : (r.register alive c).1.slots[slot]? = r.slots[slot]? ∨
      (r.register alive c).1.slots[slot]? = some c := by
  rcases register_cases alive r c with
    ⟨_, _, heq⟩ | ⟨_, taken, dead, hdead, _, heq⟩ | ⟨_, _, _, heq⟩ | ⟨_, _, _, heq⟩
  · exact .inl (by rw [heq])
  · rw [heq]
    by_cases hsame : taken = slot
    · subst hsame
      obtain ⟨hlt, -⟩ := Array.getElem?_eq_some_iff.mp hdead
      exact .inr (Array.getElem?_setIfInBounds_self_of_lt hlt)
    · exact .inl (Array.getElem?_setIfInBounds_ne hsame)
  · rw [heq, Array.getElem?_push]
    split_ifs with hlast
    · exact .inr rfl
    · exact .inl rfl
  · exact .inl (by rw [heq])

/-- Nothing changes when a callback finds no slot. -/
theorem register_of_none (h : (r.register alive c).2 = none) : r.register alive c = (r, none) := by
  rcases register_cases alive r c with
    ⟨_, _, heq⟩ | ⟨_, _, _, _, _, heq⟩ | ⟨_, _, _, heq⟩ | ⟨_, _, _, heq⟩
  case inr.inr.inr => exact heq
  all_goals
    rw [heq] at h
    cases h

/-! ### No callback has two slots -/

/-- Registering gives no callback a second slot. -/
theorem nodup_register (h : r.slots.toList.Nodup) :
    (r.register alive c).1.slots.toList.Nodup := by
  rcases register_cases alive r c with
    ⟨_, _, heq⟩ | ⟨hnew, _, _, _, _, heq⟩ | ⟨hnew, _, _, heq⟩ | ⟨_, _, _, heq⟩
  · rwa [heq]
  · rw [heq, Array.toList_setIfInBounds]
    exact h.set (Array.mem_toList_iff.not.mpr hnew)
  · rw [heq, Array.toList_push]
    exact List.nodup_append.mpr ⟨h, List.nodup_singleton c, fun d hd _ hc hdc =>
      hnew (Array.mem_toList_iff.mp (List.mem_singleton.mp hc ▸ hdc ▸ hd))⟩
  · rwa [heq]

/-- A callback that has a slot is given that slot. -/
theorem register_of_getElem? (h : r.slots.toList.Nodup) (hslot : r.slots[slot]? = some c) :
    r.register alive c = (r, some slot) := by
  have hmem : c ∈ r.slots := Array.mem_of_getElem? hslot
  rcases register_cases alive r c with
    ⟨found, hfound, heq⟩ | ⟨hnew, -⟩ | ⟨hnew, -⟩ | ⟨hnew, -⟩
  · obtain ⟨hlt, hat⟩ := Array.getElem?_eq_some_iff.mp hslot
    obtain ⟨hlt', hat'⟩ := Array.getElem?_eq_some_iff.mp hfound
    have hsame : found = slot := (List.Nodup.getElem_inj_iff h).mp (hat'.trans hat.symm)
    rw [heq, hsame]
  all_goals exact absurd hmem hnew

end Typeahead.Registry
