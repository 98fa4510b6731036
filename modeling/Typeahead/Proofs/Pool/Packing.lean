import Mathlib.Algebra.GroupWithZero.Nat
import Typeahead.Proofs.Pool.Marking

/-!
# Sheets as one row of places

A pool fills one sheet after the other, so all sheets but the last are full, and the place number
`i` of the pool is item `i % 512` of sheet `i / 512`. Sheets that are packed like this are as good
as the list of their places: looking up, overwriting and adding a place are what they are for the
list. As long as all sheets can be numbered with 16 bits, no location is cut short.
-/

namespace Typeahead

/-- Where the place number `i` of a pool is. -/
def Location.ofNumber (i : Nat) : Location := ⟨i / Sheets.placesPerSheet, i % Sheets.placesPerSheet⟩

/-- Which place of a pool a location is. -/
def Location.number (loc : Location) : Nat := loc.sheet * Sheets.placesPerSheet + loc.item

@[simp] theorem Location.number_ofNumber (i : Nat) : (Location.ofNumber i).number = i :=
  Nat.div_add_mod' i _

theorem Location.ofNumber_inj {i j : Nat} : Location.ofNumber i = Location.ofNumber j ↔ i = j :=
  ⟨fun h => by rw [← number_ofNumber i, h, number_ofNumber], fun h => h ▸ rfl⟩

namespace Sheets

variable {π : Type} {sheets full : Sheets π} {last : Sheet π} {place : Place π} {i : Nat}

/-- All sheets but the last are full, and the last one is used. -/
def Packed (sheets : Sheets π) : Prop :=
  sheets = #[] ∨ ∃ (full : Sheets π) (last : Sheet π), sheets = Array.push full last ∧
    (∀ sheet ∈ full, sheet.places.size = placesPerSheet) ∧ 0 < last.places.size ∧
    last.places.size ≤ placesPerSheet

theorem packed_empty : Packed (#[] : Sheets π) := .inl rfl

/-! ### The list of places -/

@[simp] theorem places_empty : places (#[] : Sheets π) = [] := rfl

@[simp] theorem places_push : places (Array.push full last) =
    full.places ++ last.places.toList := by
  simp [places]

theorem length_flatMap_full (sheets : List (Sheet π))
    (h : ∀ sheet ∈ sheets, sheet.places.size = placesPerSheet) :
    (sheets.flatMap fun sheet => sheet.places.toList).length =
      sheets.length * placesPerSheet := by
  induction sheets with
  | nil => simp
  | cons sheet sheets ih =>
    rw [List.flatMap_cons, List.length_append, ih fun s hs => h s (List.mem_cons_of_mem _ hs),
      Array.length_toList, h sheet List.mem_cons_self, List.length_cons, Nat.succ_mul, Nat.add_comm]

theorem length_places_full (h : ∀ sheet ∈ full, sheet.places.size = placesPerSheet) :
    full.places.length = full.size * placesPerSheet := by
  rw [places, length_flatMap_full _ (by simpa using h), Array.length_toList]

/-- In full sheets a place is found by dividing its number by the size of a sheet. -/
theorem getElem?_flatMap_full (sheets : List (Sheet π)) (i : Nat)
    (h : ∀ sheet ∈ sheets, sheet.places.size = placesPerSheet) :
    (sheets.flatMap fun sheet => sheet.places.toList)[i]? =
      sheets[i / placesPerSheet]?.bind fun sheet => sheet.places[i % placesPerSheet]? := by
  induction sheets generalizing i with
  | nil => simp
  | cons sheet sheets ih =>
    have hsize : sheet.places.toList.length = placesPerSheet := h sheet List.mem_cons_self
    rw [List.flatMap_cons]
    by_cases hi : i < placesPerSheet
    · rw [List.getElem?_append_left (hsize ▸ hi), Nat.div_eq_of_lt hi, Nat.mod_eq_of_lt hi]
      simp
    · have hle : placesPerSheet ≤ i := Nat.le_of_not_lt hi
      have hpos : 0 < placesPerSheet := by decide
      obtain ⟨j, rfl⟩ := Nat.exists_eq_add_of_le hle
      rw [List.getElem?_append_right (hsize ▸ hle), hsize, Nat.add_sub_cancel_left,
        ih j fun s hs => h s (List.mem_cons_of_mem _ hs), Nat.add_div_left _ hpos,
        Nat.add_mod_left, List.getElem?_cons_succ]

/-- In packed sheets the place with a number is at the location of that number. -/
theorem Packed.getElem?_places (h : sheets.Packed) (i : Nat) :
    sheets.places[i]? = sheets.place? (.ofNumber i) := by
  rcases h with rfl | ⟨full, last, rfl, hfull, -, hlast⟩
  · simp [place?]
  have hlength : full.places.length = full.size * placesPerSheet := length_places_full hfull
  have hpos : 0 < placesPerSheet := by decide
  rw [places_push, place?, Location.ofNumber, Array.getElem?_push]
  by_cases hi : i < full.size * placesPerSheet
  · have hne : i / placesPerSheet ≠ full.size :=
      Nat.ne_of_lt ((Nat.div_lt_iff_lt_mul hpos).mpr hi)
    rw [List.getElem?_append_left (hlength ▸ hi), if_neg hne, places,
      getElem?_flatMap_full _ _ (by simpa using hfull), Array.getElem?_toList]
  · obtain ⟨j, rfl⟩ := Nat.exists_eq_add_of_le (Nat.le_of_not_lt hi)
    rw [List.getElem?_append_right (hlength ▸ Nat.le_add_right _ _), hlength,
      Nat.add_sub_cancel_left, Nat.mul_comm, Nat.mul_add_div hpos, Nat.mul_add_mod]
    by_cases hj : j < placesPerSheet
    · simp [Nat.div_eq_of_lt hj, Nat.mod_eq_of_lt hj]
    · have hge : last.places.size ≤ j := Nat.le_trans hlast (Nat.le_of_not_lt hj)
      have hdiv : 0 < j / placesPerSheet := Nat.div_pos (Nat.le_of_not_lt hj) hpos
      have hsheet : Array.size full + j / placesPerSheet ≠ Array.size full := by omega
      have hbeyond : full[Array.size full + j / placesPerSheet]? = none :=
        Array.getElem?_eq_none (Nat.le_add_right _ _)
      rw [List.getElem?_eq_none (by simpa using hge)]
      simp only [if_neg hsheet, hbeyond, Option.bind_none]

/-- Packed sheets are full exactly when they hold as many places as they have. -/
theorem Packed.allFull_iff (h : sheets.Packed) :
    sheets.allFull = true ↔ sheets.places.length = sheets.size * placesPerSheet := by
  rcases h with rfl | ⟨full, last, rfl, hfull, -, hlast⟩
  · simp [allFull]
  · simp only [allFull, Array.back?_push, decide_eq_true_eq, places_push, List.length_append,
      length_places_full hfull, Array.length_toList, Array.size_push, Nat.succ_mul]
    omega

theorem Packed.length_le (h : sheets.Packed) :
    sheets.places.length ≤ sheets.size * placesPerSheet := by
  rcases h with rfl | ⟨full, last, rfl, hfull, -, hlast⟩
  · simp
  · rw [places_push, List.length_append, length_places_full hfull, Array.length_toList,
      Array.size_push, Nat.succ_mul]
    exact Nat.add_le_add_left hlast _

/-- No sheet is empty: the places reach into the last one. -/
theorem Packed.lt_length (h : sheets.Packed) (hne : 0 < sheets.size) :
    (sheets.size - 1) * placesPerSheet < sheets.places.length := by
  rcases h with rfl | ⟨full, last, rfl, hfull, hpos, -⟩
  · cases hne
  · rw [places_push, List.length_append, length_places_full hfull, Array.length_toList,
      Array.size_push, Nat.add_sub_cancel]
    exact Nat.lt_add_of_pos_right hpos

/-- There are as many sheets as the places need. -/
theorem Packed.size_eq (h : sheets.Packed) :
    sheets.size = (sheets.places.length + (placesPerSheet - 1)) / placesPerSheet := by
  have hle := h.length_le
  have hlt := h.lt_length
  rw [placesPerSheet] at *
  omega

/-- No sheet is empty or has more places than it may have, and all but the last are full. -/
theorem Packed.size_places (h : sheets.Packed) {sheet : Sheet π}
    (hsheet : sheets[i]? = some sheet) :
    0 < sheet.places.size ∧ sheet.places.size ≤ placesPerSheet ∧
      (i + 1 < sheets.size → sheet.places.size = placesPerSheet) := by
  rcases h with rfl | ⟨full, last, rfl, hfull, hpos, hlast⟩
  · cases hsheet
  rw [Array.getElem?_push] at hsheet
  split at hsheet
  · next hi =>
    obtain rfl := Option.some.inj hsheet
    refine ⟨hpos, hlast, fun hlt => ?_⟩
    rw [Array.size_push, hi] at hlt
    exact absurd hlt (Nat.lt_irrefl _)
  · have hsize := hfull sheet (Array.mem_of_getElem? hsheet)
    rw [hsize]
    exact ⟨by decide, Nat.le_refl _, fun _ => rfl⟩

/-- Where there is a place, the location is that of its number. -/
theorem Packed.eq_ofNumber (h : sheets.Packed) {loc : Location}
    (hplace : sheets.place? loc = some place) : loc = .ofNumber loc.number := by
  obtain ⟨sheet, hsheet, hitem⟩ := Option.bind_eq_some_iff.mp hplace
  obtain ⟨hlt, -⟩ := Array.getElem?_eq_some_iff.mp hitem
  have hitem : loc.item < placesPerSheet := Nat.lt_of_lt_of_le hlt (h.size_places hsheet).2.1
  have hdiv : loc.number / placesPerSheet = loc.sheet := by
    rw [Location.number, Nat.mul_comm, Nat.mul_add_div (by decide), Nat.div_eq_of_lt hitem,
      Nat.add_zero]
  have hmod : loc.number % placesPerSheet = loc.item := by
    rw [Location.number, Nat.mul_comm, Nat.mul_add_mod, Nat.mod_eq_of_lt hitem]
  rw [Location.ofNumber, hdiv, hmod]

/-- The next candidate goes to the place whose number is how many there are, as long as 16 bits
suffice to number the sheets. -/
theorem Packed.next_eq (h : sheets.Packed) (hsize : sheets.size < UInt16.size) :
    sheets.next = .ofNumber sheets.places.length := by
  have hpos : 0 < placesPerSheet := by decide
  rcases h with rfl | ⟨full, last, rfl, hfull, -, hlast⟩
  · simp [next, allFull, Location.ofNumber]
  rw [places_push, List.length_append, length_places_full hfull, Array.length_toList,
    Location.ofNumber, Nat.mul_comm, Nat.mul_add_div hpos, Nat.mul_add_mod, next]
  have hbefore : full.size < UInt16.size := by
    rw [Array.size_push] at hsize
    omega
  by_cases hl : placesPerSheet ≤ last.places.size
  · have heq : last.places.size = placesPerSheet := Nat.le_antisymm hlast hl
    rw [Array.size_push] at hsize
    simp [allFull, heq, Nat.div_self hpos, Nat.mod_eq_of_lt hsize]
  · have hlt : last.places.size < placesPerSheet := Nat.lt_of_not_le hl
    have hitem : last.places.size < UInt16.size :=
      Nat.lt_trans hlt (by decide : placesPerSheet < UInt16.size)
    simp [allFull, hl, Nat.div_eq_of_lt hlt, Nat.mod_eq_of_lt hlt, Nat.mod_eq_of_lt hbefore,
      Nat.mod_eq_of_lt hitem]

/-! ### Adding and overwriting -/

theorem modify_push_last (full : Sheets π) (last : Sheet π) (change : Sheet π → Sheet π) :
    Array.modify (Array.push full last) ((Array.push full last).size - 1) change =
      Array.push full (change last) := by
  apply Array.ext (by simp)
  intro i hi _
  rw [Array.size_modify, Array.size_push] at hi
  rw [Array.getElem_modify, Array.getElem_push, Array.getElem_push, Array.size_push]
  by_cases hlt : i < full.size
  · simp [hlt, Nat.ne_of_gt hlt]
  · simp [show full.size = i by omega]

/-- Adding a candidate keeps the sheets packed and adds one place to the list. -/
theorem Packed.push (h : sheets.Packed) (candidate : Candidate) (payload : π) :
    (sheets.push candidate payload).Packed ∧
      (sheets.push candidate payload).places =
        sheets.places ++ [⟨{ candidate with location := sheets.next }, some payload⟩] := by
  rw [Sheets.push]
  generalize (⟨{ candidate with location := sheets.next }, some payload⟩ : Place π) = place
  have hnew : (Sheet.push {} place).places = #[place] := Sheet.places_push
  have hnewSize : 0 < (Sheet.push {} place).places.size ∧
      (Sheet.push {} place).places.size ≤ placesPerSheet := by
    rw [hnew]
    exact ⟨Nat.one_pos, (by decide : 1 ≤ 512)⟩
  rcases h with rfl | ⟨full, last, rfl, hfull, hpos, hlast⟩
  · exact ⟨.inr ⟨#[], _, rfl, by simp, hnewSize⟩, by simp [allFull, places]⟩
  by_cases hl : placesPerSheet ≤ last.places.size
  · have hall : allFull (Array.push full last) = true := by simpa [allFull] using hl
    rw [if_pos hall]
    refine ⟨.inr ⟨Array.push full last, _, rfl, ?_, hnewSize⟩, by simp⟩
    intro sheet hsheet
    rcases Array.mem_push.mp hsheet with hsheet | rfl
    · exact hfull sheet hsheet
    · exact Nat.le_antisymm hlast hl
  · have hall : ¬ allFull (Array.push full last) = true := by simpa [allFull] using hl
    rw [if_neg hall, modify_push_last]
    refine ⟨.inr ⟨full, last.push place, rfl, hfull, by simp, ?_⟩, by simp⟩
    rw [Sheet.places_push, Array.size_push]
    exact Nat.lt_of_not_le hl

section Modify

variable {change : Sheet π → Sheet π} {loc : Location}

/-- A sheet that keeps as many places keeps the sheets packed. -/
theorem Packed.modify (h : sheets.Packed) (s : Nat)
    (hsize : ∀ sheet, (change sheet).places.size = sheet.places.size) :
    Packed (Array.modify sheets s change) := by
  rcases h with rfl | ⟨full, last, rfl, hfull, hpos, hlast⟩
  · exact .inl (by simp)
  have hmodify : Array.modify (Array.push full last) s change =
      Array.push (Array.modify full s change) (if s = full.size then change last else last) := by
    apply Array.ext (by simp)
    intro i hi _
    simp only [Array.size_modify, Array.size_push] at hi
    simp only [Array.getElem_modify, Array.getElem_push, Array.size_modify]
    by_cases hlt : i < full.size
    · simp [hlt]
    · obtain rfl : i = full.size := by omega
      simp
  have hchanged : (if s = full.size then change last else last).places.size =
      last.places.size := by
    split
    · exact hsize last
    · rfl
  refine .inr ⟨_, _, hmodify, ?_, hchanged ▸ hpos, hchanged ▸ hlast⟩
  intro sheet hsheet
  obtain ⟨i, hi, rfl⟩ := Array.mem_iff_getElem.mp hsheet
  rw [Array.size_modify] at hi
  rw [Array.getElem_modify]
  split
  · rw [hsize]
    exact hfull _ (Array.getElem_mem hi)
  · exact hfull _ (Array.getElem_mem hi)

/-- Overwriting a place changes that place only. -/
theorem place?_modify (sheets : Sheets π) (other : Location)
    (hchange : ∀ sheet, (change sheet).places = sheet.places.setIfInBounds loc.item place) :
    place? (Array.modify sheets loc.sheet change) other =
      if loc = other then (sheets.place? other).map fun _ => place else sheets.place? other := by
  obtain ⟨sheet, item⟩ := loc
  obtain ⟨sheet', item'⟩ := other
  rw [place?, Array.getElem?_modify, place?]
  by_cases hsheet : sheet = sheet'
  · subst hsheet
    rw [if_pos rfl]
    cases sheets[sheet]? with
    | none => simp
    | some found =>
      simp only [Option.map_some, Option.bind_some, hchange, Array.getElem?_setIfInBounds,
        Location.mk.injEq, true_and]
      by_cases hitem : item = item'
      · subst hitem
        by_cases hlt : item < found.places.size
        · simp [hlt]
        · simp [hlt]
      · simp [hitem]
  · simp [hsheet]

/-- Overwriting the place with a number overwrites it in the list. -/
theorem Packed.places_modify (h : sheets.Packed) (i : Nat)
    (hchange : ∀ sheet, (change sheet).places =
      sheet.places.setIfInBounds (Location.ofNumber i).item place) :
    places (Array.modify sheets (Location.ofNumber i).sheet change) =
      sheets.places.set i place := by
  have hpacked : Packed (Array.modify sheets (Location.ofNumber i).sheet change) :=
    h.modify _ fun sheet => by rw [hchange, Array.size_setIfInBounds]
  apply List.ext_getElem?
  intro j
  rw [hpacked.getElem?_places, place?_modify _ _ hchange, ← h.getElem?_places, List.getElem?_set]
  by_cases hij : i = j
  · subst hij
    by_cases hlt : i < sheets.places.length
    · simp [hlt]
    · simp [hlt]
  · rw [if_neg (fun heq => hij (Location.ofNumber_inj.mp heq)), if_neg hij]

end Modify

/-! ### Marks -/

/-- On every sheet, exactly the places that have a payload are marked. -/
def Marked (sheets : Sheets π) : Prop := ∀ sheet ∈ sheets, sheet.Marked

theorem marked_empty : Marked (#[] : Sheets π) := by rintro _ ⟨⟨⟩⟩

/-- The live candidates are those that have a payload. -/
theorem Marked.live_eq (h : sheets.Marked) : sheets.live =
    sheets.places.filterMap fun place => place.payload.map fun _ => place.candidate := by
  rw [live, places, List.filterMap_flatMap]
  exact List.flatMap_congr fun sheet hsheet => (h sheet (Array.mem_toList_iff.mp hsheet)).live_eq

/-- What is held at a location is the candidate there with its payload. -/
theorem Marked.held?_eq (h : sheets.Marked) (loc : Location) : sheets.held? loc =
    (sheets.place? loc).bind fun place =>
      place.payload.map fun payload => (place.candidate, payload) := by
  rw [held?, place?, Option.bind_assoc]
  cases hsheet : sheets[loc.sheet]? with
  | none => rfl
  | some sheet => exact (h sheet (Array.mem_of_getElem? hsheet)).held?_eq loc.item

/-- There are as many marks as places that have a payload. -/
theorem Marked.sum_markCount (h : sheets.Marked) (hpacked : sheets.Packed) :
    (sheets.toList.map Sheet.markCount).sum =
      sheets.places.countP fun place => place.payload.isSome := by
  rw [places, List.countP_flatMap]
  refine congrArg List.sum (List.map_congr_left fun sheet hsheet => ?_)
  have hsheet := Array.mem_toList_iff.mp hsheet
  obtain ⟨i, hi⟩ := Array.mem_iff_getElem?.mp hsheet
  exact (h sheet hsheet).markCount_eq (hpacked.size_places hi).2.1

theorem Marked.modify (h : sheets.Marked) {change : Sheet π → Sheet π} {s : Nat}
    (hchange : ∀ sheet, sheets[s]? = some sheet → sheet.Marked → (change sheet).Marked) :
    Marked (Array.modify sheets s change) := by
  intro sheet hsheet
  obtain ⟨i, hi, rfl⟩ := Array.mem_iff_getElem.mp hsheet
  rw [Array.size_modify] at hi
  rw [Array.getElem_modify]
  split
  · next heq =>
    subst heq
    exact hchange _ (Array.getElem?_eq_getElem hi) (h _ (Array.getElem_mem hi))
  · exact h _ (Array.getElem_mem hi)

/-- A candidate comes in with its payload. -/
theorem Marked.push (h : sheets.Marked) (candidate : Candidate) (payload : π) :
    (sheets.push candidate payload).Marked := by
  rw [Sheets.push]
  have hlive : (⟨{ candidate with location := sheets.next }, some payload⟩ :
      Place π).payload.isSome = true := rfl
  by_cases hall : sheets.allFull = true
  · rw [if_pos hall]
    intro sheet hsheet
    rcases Array.mem_push.mp hsheet with hsheet | rfl
    · exact h sheet hsheet
    · exact Sheet.marked_empty.push (Nat.zero_lt_succ 511) hlive
  · rw [if_neg hall]
    refine h.modify fun sheet hsheet hmarked => hmarked.push ?_ hlive
    have hback : sheets.back? = some sheet := by rw [Array.back?, hsheet]
    rw [allFull, hback] at hall
    exact Nat.lt_of_not_le fun hle => hall (decide_eq_true hle)

end Sheets

end Typeahead
