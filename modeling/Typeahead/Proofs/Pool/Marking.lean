import Mathlib.Data.List.Basic
import Typeahead.Pool.Sheets

/-!
# Marks

The marks of a sheet are bits of eight words. Setting or clearing one leaves all others as they
are, so the marks of a sheet stay where its payloads are (`Sheet.Marked`): a candidate that comes in
is marked, one that takes the place of a live one finds the mark there, and one that is consumed
loses it. So whoever goes by the marks finds the candidates that have a payload.
-/

namespace Typeahead

namespace Sheet

variable {π : Type} {sheet : Sheet π} {place : Place π} {i j : Nat}

/-! ### Bits -/

theorem toBitVec_bit (i : Nat) : (bit i).toBitVec = BitVec.twoPow 64 (i % 64) := by
  rw [bit, UInt64.toBitVec_shiftLeft, BitVec.twoPow, BitVec.shiftLeft_eq']
  simp

theorem and_bit_ne_zero (word : UInt64) (i : Nat) :
    (word &&& bit i != 0) = word.toBitVec.getLsbD (i % 64) := by
  have hlt : i % 64 < 64 := Nat.mod_lt _ (by decide)
  have hpow : BitVec.twoPow 64 (i % 64) ≠ 0 := by
    intro h
    have := congrArg (·.getLsbD (i % 64)) h
    simp [hlt] at this
  rw [Bool.eq_iff_iff, bne_iff_ne, ne_eq, ← UInt64.toBitVec_inj, UInt64.toBitVec_and,
    toBitVec_bit, BitVec.and_twoPow]
  cases word.toBitVec.getLsbD (i % 64)
  · simp
  · simpa using hpow

/-- A mark is read off its word. -/
theorem isMarked_eq (sheet : Sheet π) (i : Nat) : sheet.isMarked i =
    (sheet.marks[i / 64]?.map fun word => word.toBitVec.getLsbD (i % 64)).getD false := by
  rw [isMarked]
  cases sheet.marks[i / 64]? with
  | none => rfl
  | some word => exact and_bit_ne_zero word i

/-- Changing a word changes the marks in it. -/
theorem isMarked_changeWord (hi : i < 512) (change : UInt64 → UInt64) (j : Nat) :
    (sheet.changeWord i change).isMarked j =
      if i / 64 = j / 64 then
        (sheet.marks[i / 64]?.map fun word => (change word).toBitVec.getLsbD (j % 64)).getD false
      else sheet.isMarked j := by
  have hlt : i / 64 < 8 := by omega
  rw [isMarked_eq, changeWord, Vector.getElem?_eq_getElem hlt]
  simp only [Vector.getElem?_setIfInBounds]
  by_cases hword : i / 64 = j / 64
  · rw [if_pos hword, if_pos hword, if_pos hlt]
    rfl
  · rw [if_neg hword, if_neg hword, isMarked_eq]

theorem isMarked_mark (hi : i < 512) (j : Nat) :
    (sheet.mark i).isMarked j = (decide (i = j) || sheet.isMarked j) := by
  have hlt : i / 64 < 8 := by omega
  rw [mark, isMarked_changeWord hi, isMarked_eq]
  by_cases hword : i / 64 = j / 64
  · have hbit : i % 64 = j % 64 ↔ i = j := by omega
    have hmod : i % 64 < 64 := Nat.mod_lt _ (by decide)
    rw [if_pos hword, ← hword, Vector.getElem?_eq_getElem hlt]
    simp [toBitVec_bit, hbit, hmod, Bool.or_comm]
  · have hne : i ≠ j := fun h => hword (h ▸ rfl)
    rw [if_neg hword, decide_eq_false hne, Bool.false_or]

theorem isMarked_unmark (hi : i < 512) (j : Nat) :
    (sheet.unmark i).isMarked j = (!decide (i = j) && sheet.isMarked j) := by
  have hlt : i / 64 < 8 := by omega
  rw [unmark, isMarked_changeWord hi, isMarked_eq]
  by_cases hword : i / 64 = j / 64
  · have hbit : j % 64 = i % 64 ↔ i = j := by omega
    have hmod : j % 64 < 64 := Nat.mod_lt _ (by decide)
    rw [if_pos hword, ← hword, Vector.getElem?_eq_getElem hlt]
    simp [toBitVec_bit, hbit, hmod, Bool.and_comm]
  · have hne : i ≠ j := fun h => hword (h ▸ rfl)
    rw [if_neg hword, decide_eq_false hne, Bool.not_false, Bool.true_and]

/-! ### Places -/

@[simp] theorem places_changeWord (change : UInt64 → UInt64) :
    (sheet.changeWord i change).places = sheet.places := by
  rw [changeWord]
  split <;> rfl

@[simp] theorem places_mark : (sheet.mark i).places = sheet.places := places_changeWord _

@[simp] theorem places_unmark : (sheet.unmark i).places = sheet.places := places_changeWord _

@[simp] theorem places_setPlace :
    (sheet.setPlace i place).places = sheet.places.setIfInBounds i place := rfl

@[simp] theorem isMarked_setPlace : (sheet.setPlace i place).isMarked j = sheet.isMarked j := rfl

@[simp] theorem places_push : (sheet.push place).places = sheet.places.push place := places_mark

/-! ### Marks where payloads are -/

/-- Exactly the places that have a payload are marked. -/
def Marked (sheet : Sheet π) : Prop :=
  ∀ i, sheet.isMarked i = (sheet.places[i]?.bind Place.payload).isSome

theorem marked_empty : Marked ({} : Sheet π) := by
  intro i
  rw [isMarked_eq]
  by_cases hi : i / 64 < 8
  · simp [Vector.getElem?_eq_getElem hi]
  · simp [Vector.getElem?_eq_none (Nat.le_of_not_lt hi)]

/-- A live candidate comes in. -/
theorem Marked.push (h : sheet.Marked) (hsize : sheet.places.size < 512)
    (hlive : place.payload.isSome = true) : (sheet.push place).Marked := by
  intro i
  have hmark : (sheet.push place).isMarked i =
      (decide (sheet.places.size = i) || sheet.isMarked i) := isMarked_mark hsize i
  rw [hmark, places_push, Array.getElem?_push, h i]
  by_cases hi : sheet.places.size = i
  · rw [decide_eq_true hi, if_pos hi.symm, Bool.true_or, Option.bind_some, hlive]
  · rw [decide_eq_false hi, if_neg (Ne.symm hi), Bool.false_or]

/-- A place is overwritten that is as live as what comes there. -/
theorem Marked.setPlace (h : sheet.Marked)
    (hlive : (sheet.places[i]?.bind Place.payload).isSome = place.payload.isSome) :
    (sheet.setPlace i place).Marked := by
  intro j
  rw [isMarked_setPlace, h j, places_setPlace, Array.getElem?_setIfInBounds]
  by_cases hij : i = j
  · subst hij
    rw [if_pos rfl]
    split_ifs with hlt
    · rw [hlive, Option.bind_some]
    · rw [Array.getElem?_eq_none (Nat.le_of_not_lt hlt)]
  · rw [if_neg hij]

/-- A candidate is consumed. -/
theorem Marked.consume (h : sheet.Marked) (hi : i < 512) (candidate : Candidate) :
    ((sheet.setPlace i ⟨candidate, none⟩).unmark i).Marked := by
  intro j
  rw [isMarked_unmark hi, isMarked_setPlace, h j, places_unmark, places_setPlace,
    Array.getElem?_setIfInBounds]
  by_cases hij : i = j
  · subst hij
    rw [decide_eq_true rfl, if_pos rfl]
    split_ifs <;> rfl
  · rw [decide_eq_false hij, if_neg hij, Bool.not_false, Bool.true_and]

/-- Marks pick the places that have a payload from a list of places. -/
theorem filter_zipIdx_of_marked (places : List (Place π)) (n : Nat)
    (h : ∀ i, sheet.isMarked (n + i) = (places[i]?.bind Place.payload).isSome) :
    ((places.zipIdx n).filter fun (_, i) => sheet.isMarked i).map (fun (place, _) =>
        place.candidate) =
      places.filterMap fun place => place.payload.map fun _ => place.candidate := by
  induction places generalizing n with
  | nil => rfl
  | cons place places ih =>
    have hfirst : sheet.isMarked n = place.payload.isSome := h 0
    have hrest := ih (n + 1) fun i => by rw [Nat.add_assoc, Nat.add_comm 1 i]; exact h (i + 1)
    simp only [List.zipIdx_cons, List.filter_cons, List.filterMap_cons, hfirst]
    cases place.payload with
    | none => exact hrest
    | some payload => exact congrArg (place.candidate :: ·) hrest

/-- By the marks one finds the candidates that have a payload. -/
theorem Marked.live_eq (h : sheet.Marked) : sheet.live =
    sheet.places.toList.filterMap fun place => place.payload.map fun _ => place.candidate :=
  filter_zipIdx_of_marked _ 0 fun i => by rw [Nat.zero_add, h i, Array.getElem?_toList]

/-- What is held at a place is its candidate with the payload. -/
theorem Marked.held?_eq (h : sheet.Marked) (i : Nat) : sheet.held? i =
    sheet.places[i]?.bind fun place =>
      place.payload.map fun payload => (place.candidate, payload) := by
  rw [held?, h i]
  cases sheet.places[i]? with
  | none => rfl
  | some place => cases hpayload : place.payload <;> simp [hpayload]

/-- How many places are marked. -/
def markCount (sheet : Sheet π) : Nat := (List.range 512).countP sheet.isMarked

/-- Marks count the places that have a payload in a list of places. -/
theorem countP_range'_of_marked (places : List (Place π)) (n count : Nat)
    (hcount : places.length ≤ count)
    (h : ∀ i, sheet.isMarked (n + i) = (places[i]?.bind Place.payload).isSome) :
    (List.range' n count).countP sheet.isMarked =
      places.countP fun place => place.payload.isSome := by
  induction places generalizing n count with
  | nil =>
    rw [List.countP_nil, List.countP_eq_zero]
    intro i hi
    obtain ⟨j, -, rfl⟩ := List.mem_range'.mp hi
    simp [h]
  | cons place places ih =>
    obtain ⟨count, rfl⟩ : ∃ fewer, count = fewer + 1 :=
      ⟨count - 1, by rw [List.length_cons] at hcount; omega⟩
    have hfirst : sheet.isMarked n = place.payload.isSome := h 0
    have hrest := ih (n + 1) count (Nat.le_of_succ_le_succ hcount) fun i => by
      rw [Nat.add_assoc, Nat.add_comm 1 i]
      exact h (i + 1)
    rw [List.range'_succ, List.countP_cons, List.countP_cons, hrest, hfirst]

/-- As many places are marked as have a payload. -/
theorem Marked.markCount_eq (h : sheet.Marked) (hsize : sheet.places.size ≤ 512) :
    sheet.markCount = sheet.places.toList.countP fun place => place.payload.isSome := by
  rw [markCount, List.range_eq_range']
  exact countP_range'_of_marked _ 0 512 hsize fun i => by
    rw [Nat.zero_add, h i, Array.getElem?_toList]

end Sheet

end Typeahead
