import Mathlib.Data.List.Basic
import Typeahead.Paths.ProbeTable

/-!
# Walking around a table

Slots are looked at in a circle. The invariant of a probe table says of every entry that no slot
on the way from its ideal slot to its own is free. So a walk from the ideal slot of a hash that
comes to a free slot has met every entry with that hash, and a new entry may take the first free
slot that it comes to.
-/

namespace Typeahead.ProbeTable

/-! ### Circles -/

/-- How far `b` lies after `a` on a circle of `n` slots. -/
def ahead (n a b : Nat) : Nat := (b + n - a) % n

section Circles

variable {n a b c : Nat}

/-- Either `b` is not before `a`, or the way goes around the end. -/
theorem ahead_cases (ha : a < n) (hb : b < n) :
    a ≤ b ∧ ahead n a b = b - a ∨ b < a ∧ ahead n a b = b + n - a := by
  unfold ahead
  rcases Nat.lt_or_ge b a with hlt | hge
  · exact .inr ⟨hlt, Nat.mod_eq_of_lt (by omega)⟩
  · refine .inl ⟨hge, ?_⟩
    rw [show b + n - a = b - a + n by omega, Nat.add_mod_right, Nat.mod_eq_of_lt (by omega)]

theorem ahead_lt (ha : a < n) (b : Nat) : ahead n a b < n :=
  Nat.mod_lt _ (Nat.zero_lt_of_lt ha)

theorem add_ahead_mod (ha : a < n) (hb : b < n) : (a + ahead n a b) % n = b := by
  rcases ahead_cases ha hb with ⟨hle, heq⟩ | ⟨hlt, heq⟩
  · rw [heq, Nat.add_sub_cancel' hle, Nat.mod_eq_of_lt hb]
  · rw [heq, show a + (b + n - a) = b + n by omega, Nat.add_mod_right, Nat.mod_eq_of_lt hb]

theorem ahead_inj (ha : a < n) (hb : b < n) (hc : c < n) (h : ahead n a b = ahead n a c) :
    b = c := by
  rw [← add_ahead_mod ha hb, h, add_ahead_mod ha hc]

theorem ahead_self (ha : a < n) : ahead n a a = 0 := by
  rcases ahead_cases ha ha with ⟨-, heq⟩ | ⟨hlt, -⟩
  · rw [heq, Nat.sub_self]
  · exact absurd hlt (Nat.lt_irrefl a)

theorem ahead_add (ha : a < n) {k : Nat} (hk : k < n) : ahead n a ((a + k) % n) = k := by
  have hlt : (a + k) % n < n := Nat.mod_lt _ (Nat.zero_lt_of_lt ha)
  rcases Nat.lt_or_ge (a + k) n with h | h
  · rw [Nat.mod_eq_of_lt h] at hlt ⊢
    rcases ahead_cases ha hlt with ⟨-, heq⟩ | ⟨hbefore, -⟩ <;> omega
  · have hmod : (a + k) % n = a + k - n := by
      rw [Nat.mod_eq_sub_mod h, Nat.mod_eq_of_lt (by omega)]
    rw [hmod] at hlt ⊢
    rcases ahead_cases ha hlt with ⟨hle, heq⟩ | ⟨-, heq⟩ <;> omega

/-- The way from `a` to `c` leads over `b`, or the way over `b` goes around once more. -/
theorem ahead_trans (ha : a < n) (hb : b < n) (hc : c < n) :
    ahead n a c = ahead n a b + ahead n b c ∨ ahead n a c + n = ahead n a b + ahead n b c := by
  have hab := ahead_cases ha hb
  have hbc := ahead_cases hb hc
  have hac := ahead_cases ha hc
  omega

end Circles

variable {t : ProbeTable} {i j k : Nat} {e : ProbeEntry} {hash : UInt32} {offset : Nat}
variable {accept : Nat → Bool}

/-! ### Slots and contents -/

/-- What a slot holds, going around the end. -/
def slotAt (t : ProbeTable) (i : Nat) : Option ProbeEntry := t.slots.getD (i % t.slots.size) none

/-- The entries of a table, slot by slot. -/
def contents (t : ProbeTable) : List ProbeEntry := t.slots.toList.filterMap id

theorem slotAt_of_lt (hi : i < t.slots.size) : t.slotAt i = t.slots.getD i none := by
  rw [slotAt, Nat.mod_eq_of_lt hi]

theorem slotAt_eq_getElem (hi : i < t.slots.size) : t.slotAt i = t.slots[i] := by
  rw [slotAt_of_lt hi, Array.getD_eq_getD_getElem?, Array.getElem?_eq_getElem hi, Option.getD_some]

theorem slotAt_mod (t : ProbeTable) (i : Nat) : t.slotAt (i % t.slots.size) = t.slotAt i := by
  rw [slotAt, Nat.mod_mod, slotAt]

@[simp] theorem size_slots_setSlot (slot : Option ProbeEntry) :
    (t.setSlot i slot).slots.size = t.slots.size := Array.size_setIfInBounds

theorem slotAt_setSlot (hi : i < t.slots.size) (slot : Option ProbeEntry) (j : Nat) :
    (t.setSlot i slot).slotAt j = if j % t.slots.size = i then slot else t.slotAt j := by
  have hj : j % t.slots.size < t.slots.size := Nat.mod_lt _ (Nat.zero_lt_of_lt hi)
  rw [slotAt, size_slots_setSlot, setSlot, slotAt, Array.getD_eq_getD_getElem?,
    Array.getElem?_setIfInBounds, Array.getD_eq_getD_getElem?]
  by_cases heq : i = j % t.slots.size
  · rw [if_pos heq, if_pos heq.symm, if_pos hi, Option.getD_some]
  · rw [if_neg heq, if_neg (Ne.symm heq)]

theorem slotAt_setSlot_of_lt (hi : i < t.slots.size) (hj : j < t.slots.size)
    (slot : Option ProbeEntry) :
    (t.setSlot i slot).slotAt j = if j = i then slot else t.slotAt j := by
  rw [slotAt_setSlot hi, Nat.mod_eq_of_lt hj]

theorem mem_contents : e ∈ t.contents ↔ ∃ i < t.slots.size, t.slotAt i = some e := by
  rw [contents, List.mem_filterMap]
  constructor
  · rintro ⟨slot, hslot, rfl⟩
    obtain ⟨i, hi, hget⟩ := List.mem_iff_getElem.mp hslot
    rw [Array.length_toList] at hi
    rw [Array.getElem_toList] at hget
    refine ⟨i, hi, ?_⟩
    rw [slotAt_eq_getElem hi, hget]
  · rintro ⟨i, hi, hslot⟩
    rw [slotAt_eq_getElem hi] at hslot
    exact ⟨some e, hslot ▸ Array.mem_toList_iff.mpr (Array.getElem_mem hi), rfl⟩

/-- Freeing a slot takes its entry out of the contents. -/
theorem perm_contents_of_slotAt (hi : i < t.slots.size) (h : t.slotAt i = some e) :
    t.contents.Perm (e :: (t.setSlot i none).contents) := by
  have hget : t.slots.toList[i]? = some (some e) := by
    rw [slotAt_eq_getElem hi] at h
    rw [Array.getElem?_toList, Array.getElem?_eq_getElem hi, h]
  obtain ⟨hlt, hget⟩ := List.getElem?_eq_some_iff.mp hget
  have hsplit : t.slots.toList =
      t.slots.toList.take i ++ some e :: t.slots.toList.drop (i + 1) := by
    rw [← hget, List.getElem_cons_drop, List.take_append_drop]
  have hset : (t.setSlot i none).slots.toList =
      t.slots.toList.take i ++ none :: t.slots.toList.drop (i + 1) := by
    rw [setSlot, Array.toList_setIfInBounds, List.set_eq_take_append_cons_drop, if_pos hlt]
  rw [contents, hsplit, contents, hset, List.filterMap_append, List.filterMap_append]
  exact List.perm_middle

theorem setSlot_setSlot (slot slot' : Option ProbeEntry) :
    (t.setSlot i slot).setSlot i slot' = t.setSlot i slot' := by
  simp [setSlot, Array.setIfInBounds_setIfInBounds]

theorem setSlot_comm (hij : i ≠ j) (slot slot' : Option ProbeEntry) :
    (t.setSlot i slot).setSlot j slot' = (t.setSlot j slot').setSlot i slot := by
  simp [setSlot, Array.setIfInBounds_comm _ _ hij]

theorem setSlot_self (hi : i < t.slots.size) : t.setSlot i (t.slotAt i) = t := by
  obtain ⟨slots, size⟩ := t
  have hi : i < slots.size := hi
  rw [slotAt_eq_getElem hi, setSlot]
  simp [Array.setIfInBounds, hi]

/-- Taking a free slot adds an entry to the contents. -/
theorem perm_contents_setSlot (hi : i < t.slots.size) (h : t.slotAt i = none) :
    (t.setSlot i (some e)).contents.Perm (e :: t.contents) := by
  have hslot : (t.setSlot i (some e)).slotAt i = some e := by
    rw [slotAt_setSlot_of_lt hi hi, if_pos rfl]
  have hperm := perm_contents_of_slotAt (by rwa [size_slots_setSlot]) hslot
  rwa [setSlot_setSlot, ← h, setSlot_self hi] at hperm

/-- A table with fewer entries than slots has a free slot. -/
theorem exists_free (h : t.contents.length < t.slots.size) :
    ∃ i < t.slots.size, t.slotAt i = none := by
  rw [contents, ← Array.length_toList, List.length_filterMap_lt_length_iff_exists] at h
  obtain ⟨slot, hslot, hnone⟩ := h
  obtain ⟨i, hi, rfl⟩ := List.mem_iff_getElem.mp hslot
  rw [Array.length_toList] at hi
  rw [Array.getElem_toList, id] at hnone
  exact ⟨i, hi, (slotAt_eq_getElem hi).trans hnone⟩

end Typeahead.ProbeTable
