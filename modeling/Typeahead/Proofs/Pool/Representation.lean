import Typeahead.Proofs.Pool.Pins
import Typeahead.Proofs.Pool.Ranking

/-!
# Pools that represent rosters

A pool represents a roster when its places, one after the other, hold what the slots of the roster
hold, its table knows the slots of the keys, its counters count, and the numbers of its callbacks
stand for the callbacks of the roster. An offer keeps that up, whether it is stored, takes the
place of another, loses, or finds no room or no slots for its callbacks.
-/

namespace Typeahead

variable {π : Type} {p p' : Pool π} {r r' : Registry} {slots : Roster π} {s s' : Slot π}
variable {place place' : Place π} {room i : Nat} {o : Offer π}

/-! ### The relation -/

/-- The place number `i` of a pool holds what a slot holds. -/
structure Stands (p : Pool π) (i : Nat) (place : Place π) (s : Slot π) : Prop where
  standing : place.candidate.standing = ⟨s.relevancy, s.number, i⟩
  location : place.candidate.location = .ofNumber i
  payload : place.payload = s.payload
  factory : p.pinned? .factory place.candidate.factory = some s.factory
  release : place.candidate.release.map (p.pinned? .release) = s.release.map some

/-- A pool represents a roster with room for so many slots. -/
structure Represents (room : Nat) (p : Pool π) (r : Registry) (slots : Roster π) : Prop where
  packed : p.sheets.Packed
  marked : p.sheets.Marked
  length : p.sheets.places.length = slots.length
  stands : ∀ i place s, p.sheets.places[i]? = some place → slots[i]? = some s →
    Stands p i place s
  known : ∀ key : UInt32, p.known[key]? = (slots.find? key).map Location.ofNumber
  numbers : ∀ s ∈ slots, ∀ key, s.key = some key → s.number = key.toNat
  live : p.live = slots.live
  uniques : p.nextUnique.toNat = slots.uniques
  capacity : p.capacity = room
  fits : slots.length ≤ room
  sheets : p.maxSheets ≤ 65535
  agrees : p.Agrees r

theorem bind_eq_of_map_eq {α β : Type} {x : Option α} {f : α → Option β} {y : Option β}
    (h : x.map f = y.map some) : x.bind f = y := by
  cases x <;> cases y <;> simp_all

/-- What one function finds another one finds, too. -/
theorem map_eq_map_some_of_imp {α β : Type} {x : Option α} {f g : α → Option β} {y : Option β}
    (h : x.map f = y.map some) (himp : ∀ a, ∀ b ∈ y, f a = some b → g a = some b) :
    x.map g = y.map some := by
  cases x with
  | none => exact h
  | some a =>
    cases y with
    | none => cases h
    | some b => exact congrArg some (himp a b rfl (Option.some.inj h))

theorem Stands.pinned (h : Stands p i place s) (hpinned : p.Pinned p') : Stands p' i place s :=
  ⟨h.standing, h.location, h.payload, hpinned.pinned? h.factory,
    map_eq_map_some_of_imp h.release fun _ _ _ => hpinned.pinned?⟩

/-- The payload at a place goes back to the slot's own release callback. -/
theorem Stands.giveBack (h : Stands p i place s) (payload : π) :
    p.giveBack place.candidate.release payload = .back s.release payload := by
  rw [Pool.giveBack, bind_eq_of_map_eq h.release]

/-- What is due for a candidate that has been taken is what is due for its slot. -/
theorem Stands.showing (h : Stands p i place s) {payload : π}
    (hpayload : s.payload = some payload) :
    p.showing (place.candidate, payload) = s.showing := by
  rw [Pool.showing, h.factory, h.giveBack, Slot.showing, hpayload]
  rfl

/-- More pins make no difference. -/
theorem Represents.pinned (h : Represents room p r slots) (hpinned : p.Pinned p')
    (hagrees : p'.Agrees r') : Represents room p' r' slots := by
  have hsheets : p'.sheets = p.sheets := by rw [hpinned.same]
  have hknown : p'.known = p.known := by rw [hpinned.same]
  have hlive : p'.live = p.live := by rw [hpinned.same]
  have hunique : p'.nextUnique = p.nextUnique := by rw [hpinned.same]
  have hmost : p'.maxSheets = p.maxSheets := by rw [hpinned.same]
  refine ⟨hsheets ▸ h.packed, hsheets ▸ h.marked, by rw [hsheets, h.length], ?_,
    by rw [hknown]; exact h.known, h.numbers, hlive.trans h.live, hunique ▸ h.uniques, ?_,
    h.fits, hmost ▸ h.sheets, hagrees⟩
  · intro i place s hplace hs
    exact (h.stands i place s (hsheets ▸ hplace) hs).pinned hpinned
  · rw [Pool.capacity, hmost]
    exact h.capacity

/-- A new pool represents the empty roster. -/
theorem represents_nil {token : Token} {registry : RegistryId} {maxSheets : Nat}
    (h : maxSheets ≤ 65535) (r : Registry) :
    Represents (maxSheets * Sheets.placesPerSheet) ({ token, registry, maxSheets } : Pool π) r []
    where
  packed := Sheets.packed_empty
  marked := Sheets.marked_empty
  length := rfl
  stands := by rintro _ _ _ _ ⟨⟩
  known := by intro key; exact Std.HashMap.getElem?_empty
  numbers := by rintro _ ⟨⟩
  live := rfl
  uniques := rfl
  capacity := rfl
  fits := Nat.zero_le _
  sheets := h
  agrees := by rintro slot c ⟨⟩

theorem Represents.getElem?_places (h : Represents room p r slots) (hs : slots[i]? = some s) :
    ∃ place, p.sheets.places[i]? = some place ∧ p.sheets.place? (.ofNumber i) = some place ∧
      Stands p i place s := by
  obtain ⟨hi, -⟩ := List.getElem?_eq_some_iff.mp hs
  have hplace := List.getElem?_eq_getElem (h.length.symm ▸ hi)
  exact ⟨_, hplace, h.packed.getElem?_places i ▸ hplace, h.stands i _ s hplace hs⟩

/-! ### Overwriting a place -/

theorem Roster.find?_congr {slots slots' : Roster π} (h : slots.map Slot.key = slots'.map Slot.key)
    (key : UInt32) : slots.find? key = slots'.find? key := by
  have hmap : ∀ slots : Roster π,
      slots.find? key = (slots.map Slot.key).findIdx? fun k => k = some key := by
    intro slots
    rw [List.findIdx?_map]
    rfl
  rw [hmap, hmap, h]

theorem Roster.uniques_congr {slots slots' : Roster π}
    (h : slots.map Slot.key = slots'.map Slot.key) : slots.uniques = slots'.uniques := by
  have hmap : ∀ slots : Roster π, slots.uniques = (slots.map Slot.key).countP Option.isNone := by
    intro slots
    rw [List.countP_map]
    rfl
  rw [hmap, hmap, h]

theorem Roster.set_self (hs : slots[i]? = some s) : slots.set i s = slots := by
  obtain ⟨hi, rfl⟩ := List.getElem?_eq_some_iff.mp hs
  exact List.set_getElem_self hi

theorem Roster.map_key_set (hs : slots[i]? = some s) (hkey : s'.key = s.key) :
    (slots.set i s').map Slot.key = slots.map Slot.key := by
  rw [List.map_set, hkey, ← List.map_set, Roster.set_self hs]

/-- Overwriting a place and the slot that it represents, for the same thing, keeps a pool the
representation of a roster. -/
theorem Represents.set (h : Represents room p r slots) (hs : slots[i]? = some s)
    (hkey : s'.key = s.key) (hnumber : s'.number = s.number) (hstands : Stands p i place' s')
    {sheets : Sheets π} (hpacked : sheets.Packed) (hmarked : sheets.Marked)
    (hplaces : sheets.places = p.sheets.places.set i place') {live : Nat}
    (hlive : live = Roster.live (slots.set i s')) :
    Represents room { p with sheets, live } r (slots.set i s') := by
  have hkeys := Roster.map_key_set hs hkey
  refine ⟨hpacked, hmarked, ?_, ?_, ?_, ?_, hlive, ?_, h.capacity, ?_, h.sheets, h.agrees⟩
  · rw [hplaces, List.length_set, List.length_set, h.length]
  · intro j place t hplace ht
    rw [hplaces, List.getElem?_set] at hplace
    rw [List.getElem?_set] at ht
    by_cases hij : i = j
    · subst hij
      rw [if_pos rfl] at hplace ht
      split at hplace
      · split at ht
        · obtain rfl := Option.some.inj hplace
          obtain rfl := Option.some.inj ht
          exact ⟨hstands.1, hstands.2, hstands.3, hstands.4, hstands.5⟩
        · cases ht
      · cases hplace
    · rw [if_neg hij] at hplace ht
      have := h.stands j place t hplace ht
      exact ⟨this.1, this.2, this.3, this.4, this.5⟩
  · intro key
    rw [Roster.find?_congr hkeys]
    exact h.known key
  · intro t ht key htkey
    rcases List.mem_or_eq_of_mem_set ht with ht | rfl
    · exact h.numbers t ht key htkey
    · rw [hnumber]
      exact h.numbers s (List.mem_of_getElem? hs) key (hkey ▸ htkey)
  · rw [Roster.uniques_congr hkeys]
    exact h.uniques
  · rw [List.length_set]
    exact h.fits

theorem Roster.live_set (hs : slots[i]? = some s) (s' : Slot π) :
    Roster.live (slots.set i s') + s.payload.isSome.toNat =
      slots.live + s'.payload.isSome.toNat := by
  obtain ⟨hi, rfl⟩ := List.getElem?_eq_some_iff.mp hs
  have hle : slots[i].payload.isSome = true → 0 < slots.live := fun hsome =>
    List.countP_pos_iff.mpr ⟨_, List.getElem_mem hi, hsome⟩
  have hset := List.countP_set (p := fun s : Slot π => s.payload.isSome) (a := s') hi
  rw [Roster.live, hset, ← Roster.live]
  cases hold : slots[i].payload.isSome with
  | true =>
    have := hle hold
    cases s'.payload.isSome <;> simp <;> omega
  | false => cases s'.payload.isSome <;> simp

/-- The place of a live candidate is overwritten by one that has a payload. -/
theorem Represents.setPlace (h : Represents room p r slots)
    (hplace : p.sheets.place? (.ofNumber i) = some place) (hold : place.payload.isSome = true)
    (place' : Place π) (hnew : place'.payload.isSome = true) :
    (p.sheets.setPlace (.ofNumber i) place').Packed ∧
      (p.sheets.setPlace (.ofNumber i) place').Marked ∧
      (p.sheets.setPlace (.ofNumber i) place').places = p.sheets.places.set i place' := by
  refine ⟨h.packed.modify _ fun sheet => by simp, h.marked.modify fun sheet hsheet hmarked => ?_,
    h.packed.places_modify i fun sheet => rfl⟩
  rw [Sheets.place?, hsheet, Option.bind_some] at hplace
  exact hmarked.setPlace (by rw [hplace, Option.bind_some, hold, hnew])

/-- The sheets can be numbered with 16 bits. -/
theorem Represents.size_sheets_lt (h : Represents room p r slots) :
    p.sheets.size < UInt16.size := by
  have hmost := h.sheets
  have hfits := h.fits
  rw [← h.length, ← h.capacity, Pool.capacity] at hfits
  by_contra hle
  have hlt := h.packed.lt_length (by simp only [UInt16.size] at hle; omega)
  have hsheets : p.maxSheets ≤ p.sheets.size - 1 := by simp only [UInt16.size] at hle; omega
  have := Nat.mul_le_mul_right Sheets.placesPerSheet hsheets
  omega

/-! ### Offers -/

/-- A candidate stands for an offer: its numbers mean the callbacks of the offer. -/
structure Carries (p : Pool π) (candidate : Candidate) (o : Offer π) : Prop where
  relevancy : candidate.relevancy = o.relevancy
  identity : candidate.identity = o.identity.getD p.nextUnique
  factory : p.pinned? .factory candidate.factory = some o.factory
  release : candidate.release.map (p.pinned? .release) = o.release.map some

theorem Carries.giveBack {candidate : Candidate} (h : Carries p candidate o) (payload : π) :
    p.giveBack candidate.release payload = .back o.release payload := by
  rw [Pool.giveBack, bind_eq_of_map_eq h.release]

/-- A candidate that contends with the one of a slot fares as its offer does. -/
theorem Represents.contend (h : Represents room p r slots) {candidate : Candidate}
    (hc : Carries p candidate o) (hs : slots[i]? = some s)
    (hnumber : candidate.identity.toNat = s.number) :
    Represents room (p.contend (.ofNumber i) candidate o.payload).1 r
        (slots.set i (s.contend o).1) ∧
      (p.contend (.ofNumber i) candidate o.payload).1.giveBack
          (p.contend (.ofNumber i) candidate o.payload).2.1.release
          (p.contend (.ofNumber i) candidate o.payload).2.2 = (s.contend o).2 := by
  obtain ⟨place, -, hplace, hstands⟩ := h.getElem?_places hs
  obtain ⟨current, payload⟩ := place
  have hpayload : payload = s.payload := hstands.payload
  have hself := Roster.set_self hs
  rw [Pool.contend, h.marked.held?_eq, hplace, Slot.contend, ← hpayload]
  cases payload with
  | none => exact ⟨hself.symm ▸ h, hc.giveBack _⟩
  | some held =>
    have hrelevancy : current.relevancy = s.relevancy :=
      congrArg Standing.relevancy hstands.standing
    have hless : current.relevancy < candidate.relevancy ↔ s.relevancy < o.relevancy := by
      rw [hrelevancy, hc.relevancy]
    by_cases hlt : s.relevancy < o.relevancy
    · have hput : Stands p i ⟨{ candidate with location := .ofNumber i }, some o.payload⟩
          (s.put o) := by
        refine ⟨?_, rfl, rfl, hc.factory, hc.release⟩
        simp [Candidate.standing, Slot.put, hc.relevancy, hnumber]
      have hlive : Roster.live (slots.set i (s.put o)) = slots.live := by
        have hset := Roster.live_set hs (s.put o)
        rw [← hpayload] at hset
        exact Nat.add_right_cancel hset
      have hkey : (s.put o).key = s.key := rfl
      obtain ⟨hpacked, hmarked, hplaces⟩ := h.setPlace hplace rfl
        (⟨{ candidate with location := .ofNumber i }, some o.payload⟩ : Place π) rfl
      have hset := h.set hs hkey rfl hput hpacked hmarked hplaces (h.live.trans hlive.symm)
      simp only [Option.bind_some, Option.map_some, if_pos hlt, if_pos (hless.mpr hlt)]
      exact ⟨hset, hstands.giveBack held⟩
    · simp only [Option.bind_some, Option.map_some, if_neg hlt, if_neg (mt hless.mp hlt)]
      exact ⟨hself.symm ▸ h, hc.giveBack _⟩

/-- A pool has no room exactly when its roster has none. -/
theorem Represents.isSaturated_iff (h : Represents room p r slots) :
    p.isSaturated = true ↔ room ≤ slots.length := by
  have hpos : 0 < Sheets.placesPerSheet := by decide
  have hlength := h.length
  have hle := h.packed.length_le
  have hfits := h.fits
  rw [← h.capacity, Pool.capacity] at hfits
  rw [Pool.isSaturated, Bool.and_eq_true, decide_eq_true_eq, h.packed.allFull_iff, ← h.capacity,
    Pool.capacity]
  constructor
  · rintro ⟨hmost, hfull⟩
    rw [← hlength, hfull]
    exact Nat.mul_le_mul_right _ hmost
  · intro hge
    have hsize : p.maxSheets ≤ p.sheets.size :=
      Nat.le_of_mul_le_mul_right (Nat.le_trans hge (hlength ▸ hle)) hpos
    refine ⟨hsize, Nat.le_antisymm hle ?_⟩
    by_contra hlt
    have hmore : p.maxSheets < p.sheets.size := by
      refine Nat.lt_of_mul_lt_mul_right (a := Sheets.placesPerSheet) ?_
      omega
    have := h.packed.lt_length (Nat.lt_of_le_of_lt (Nat.zero_le _) hmore)
    have := Nat.mul_le_mul_right Sheets.placesPerSheet (Nat.le_sub_one_of_lt hmore)
    omega

theorem Roster.find?_append (slots : Roster π) (s : Slot π) (key : UInt32) :
    Roster.find? (slots ++ [s]) key =
      (slots.find? key).or (if s.key = some key then some slots.length else none) := by
  have hlast : ([s] : Roster π).findIdx? (fun s => s.key = some key) =
      if s.key = some key then some 0 else none := by
    simp [List.findIdx?_cons]
  rw [Roster.find?, List.findIdx?_append, hlast, Roster.find?]
  split <;> simp

theorem Roster.uniques_append (slots : Roster π) (s : Slot π) :
    Roster.uniques (slots ++ [s]) = slots.uniques + s.key.isNone.toNat := by
  rw [Roster.uniques, List.countP_append, List.countP_singleton, Roster.uniques]
  cases s.key <;> rfl

theorem Roster.live_append (slots : Roster π) (s : Slot π) :
    Roster.live (slots ++ [s]) = slots.live + s.payload.isSome.toNat := by
  rw [Roster.live, List.countP_append, List.countP_singleton, Roster.live]
  cases s.payload <;> rfl

/-- A counter of uniques does not wrap around before the pool is full. -/
theorem Represents.toNat_nextUnique_add_one (h : Represents room p r slots)
    (hroom : slots.length < room) :
    (p.nextUnique + 1).toNat = slots.uniques + 1 := by
  have hcount : slots.uniques ≤ slots.length := List.countP_le_length
  have hcapacity : room ≤ 65535 * Sheets.placesPerSheet :=
    h.capacity ▸ Nat.mul_le_mul_right _ h.sheets
  have hbound : 65535 * Sheets.placesPerSheet < 2 ^ 32 - 1 := by decide
  rw [UInt32.toNat_add, h.uniques, UInt32.toNat_one]
  exact Nat.mod_eq_of_lt (by omega)

/-- Storing a candidate appends the slot of its offer, if the table and the counter follow. -/
theorem Represents.append (h : Represents room p r slots) {candidate : Candidate}
    (hc : Carries p candidate o) (hroom : slots.length < room)
    {known : Std.HashMap UInt32 Location} {nextUnique : UInt32}
    (hknown : ∀ key : UInt32, known[key]? =
      (Roster.find? (slots ++ [slots.fresh o]) key).map Location.ofNumber)
    (huniques : nextUnique.toNat = Roster.uniques (slots ++ [slots.fresh o])) :
    Represents room { p.append candidate o.payload with known, nextUnique } r
      (slots ++ [slots.fresh o]) := by
  obtain ⟨hpacked, hplaces⟩ := h.packed.push candidate o.payload
  refine ⟨hpacked, h.marked.push _ _, ?_, ?_, hknown, ?_, ?_, huniques, h.capacity, ?_,
    h.sheets, h.agrees⟩
  · change (p.sheets.push candidate o.payload).places.length = _
    rw [hplaces, List.length_append, List.length_append, h.length]
    rfl
  · intro i place s hplace hs
    replace hplace : (p.sheets.push candidate o.payload).places[i]? = some place := hplace
    rw [hplaces] at hplace
    rcases Nat.lt_trichotomy i slots.length with hi | rfl | hi
    · rw [List.getElem?_append_left hi] at hs
      rw [List.getElem?_append_left (h.length ▸ hi)] at hplace
      have := h.stands i place s hplace hs
      exact ⟨this.1, this.2, this.3, this.4, this.5⟩
    · rw [List.getElem?_concat_length] at hs
      rw [← h.length, List.getElem?_concat_length] at hplace
      obtain rfl := Option.some.inj hs
      obtain rfl := Option.some.inj hplace
      rw [h.packed.next_eq h.size_sheets_lt, h.length]
      refine ⟨?_, rfl, rfl, hc.factory, hc.release⟩
      simp only [Candidate.standing, Location.number_ofNumber, hc.relevancy, hc.identity,
        Roster.fresh, Standing.mk.injEq, true_and, and_true]
      cases o.identity with
      | none => exact h.uniques
      | some key => rfl
    · have hbeyond : (slots ++ [slots.fresh o]).length ≤ i := by
        rw [List.length_append]
        exact hi
      rw [List.getElem?_eq_none hbeyond] at hs
      cases hs
  · intro t ht key htkey
    rcases List.mem_append.mp ht with ht | ht
    · exact h.numbers t ht key htkey
    · obtain rfl := List.mem_singleton.mp ht
      rw [Roster.fresh] at htkey ⊢
      simp only at htkey
      rw [htkey]
      rfl
  · rw [Roster.live_append]
    exact congrArg (· + 1) h.live
  · rw [List.length_append]
    exact hroom

@[simp] theorem Roster.key_fresh (slots : Roster π) (o : Offer π) :
    (slots.fresh o).key = o.identity := rfl

/-- A thing of its own gets a slot, and a number that no other one has. -/
theorem Represents.append_unique (h : Represents room p r slots) {candidate : Candidate}
    (hc : Carries p candidate o) (hroom : slots.length < room) (hnone : o.identity = none) :
    Represents room { p.append candidate o.payload with nextUnique := p.nextUnique + 1 } r
      (slots ++ [slots.fresh o]) := by
  refine h.append hc hroom (fun key => ?_) ?_
  · rw [Roster.find?_append, Roster.key_fresh, hnone, if_neg (by simp), Option.or_none]
    exact h.known key
  · rw [Roster.uniques_append, Roster.key_fresh, hnone]
    exact h.toNat_nextUnique_add_one hroom

/-- A thing that is not known yet gets a slot, by which it is known from then on. -/
theorem Represents.append_keyed (h : Represents room p r slots) {candidate : Candidate}
    (hc : Carries p candidate o) (hroom : slots.length < room) {key : UInt32}
    (hkey : o.identity = some key) (hnew : slots.find? key = none) :
    Represents room
      { p.append candidate o.payload with known := p.known.insert key p.sheets.next } r
      (slots ++ [slots.fresh o]) := by
  refine h.append hc hroom (fun other => ?_) ?_
  · rw [Roster.find?_append, Roster.key_fresh, hkey, Std.HashMap.getElem?_insert,
      h.packed.next_eq h.size_sheets_lt, h.length]
    by_cases heq : key = other
    · subst heq
      simp [hnew]
    · rw [if_neg (by simpa using heq), if_neg (by simpa using heq), Option.or_none]
      exact h.known other
  · rw [Roster.uniques_append, Roster.key_fresh, hkey]
    exact h.uniques

/-- What is taken in by a pool is taken in by its roster, and what loses is the same. -/
theorem Represents.takeIn (h : Represents room p r slots) {candidate : Candidate}
    (hc : Carries p candidate o) :
    Represents room (p.takeIn o.identity candidate o.payload).1 r (slots.offer room o).1 ∧
      ((p.takeIn o.identity candidate o.payload).2.2.toList.map fun (loser, payload) =>
        (p.takeIn o.identity candidate o.payload).1.giveBack loser.release payload) =
          (slots.offer room o).2.1 ∧
      (p.takeIn o.identity candidate o.payload).2.1 = (slots.offer room o).2.2 := by
  have hlookup : o.identity.bind (p.known[·]?) =
      (o.identity.bind slots.find?).map Location.ofNumber := by
    cases o.identity with
    | none => rfl
    | some key => exact h.known key
  rw [Pool.takeIn, Roster.offer, hlookup]
  cases hfind : o.identity.bind slots.find? with
  | some i =>
    obtain ⟨key, hkey, hi⟩ := Option.bind_eq_some_iff.mp hfind
    obtain ⟨hlt, hslot, -⟩ := List.findIdx?_eq_some_iff_getElem.mp hi
    have hs : slots[i]? = some slots[i] := List.getElem?_eq_getElem hlt
    have hnumber : candidate.identity.toNat = slots[i].number := by
      rw [hc.identity, hkey, Option.getD_some]
      exact (h.numbers _ (List.getElem_mem hlt) key (of_decide_eq_true hslot)).symm
    obtain ⟨hrepresents, hloser⟩ := h.contend hc hs hnumber
    have hmodify : slots.modify i (fun s => (s.contend o).1) =
        slots.set i (slots[i].contend o).1 := by
      rw [List.modify_eq_set_getElem?, hs]
      rfl
    refine ⟨?_, ?_, rfl⟩
    · simp only [Option.map_some, hmodify]
      exact hrepresents
    · simp only [Option.map_some, hs, Option.toList_some, List.map_cons, List.map_nil]
      exact congrArg (· :: []) hloser
  | none =>
    have hsaturated := h.isSaturated_iff
    simp only [Option.map_none]
    by_cases hroom : slots.length < room
    · rw [if_pos hroom, if_neg (mt hsaturated.mp (Nat.not_le_of_lt hroom))]
      cases hidentity : o.identity with
      | none => exact ⟨h.append_unique hc hroom hidentity, rfl, rfl⟩
      | some key =>
        rw [hidentity] at hfind
        exact ⟨h.append_keyed hc hroom hidentity hfind, rfl, rfl⟩
    · have hfull := hsaturated.mpr (Nat.le_of_not_lt hroom)
      simp only [if_neg hroom, if_pos hfull, Option.toList_some, List.map_cons, List.map_nil,
        hc.giveBack, and_true]
      exact h

/-- An offer whose callbacks find slots fares in a pool as in its roster. -/
theorem Represents.offer (h : Represents room p r slots) {outside : Callback → Bool}
    (typed : o.Typed) (hreg : (p.enlist outside r o.factory o.release).2.2.isSome = true) :
    Represents room (p.offer outside r o).pool (p.offer outside r o).registry
        (slots.offer room o).1 ∧
      (p.offer outside r o).calls = (slots.offer room o).2.1 ∧
      (p.offer outside r o).answer =
        if (slots.offer room o).2.2 then .ok () else .error (.poolSaturated room) := by
  rcases heq : p.enlist outside r o.factory o.release with ⟨p₁, r₁, found⟩
  have henlisted := h.agrees.enlist heq
  have h₁ := h.pinned henlisted.pinned henlisted.agrees
  rw [heq] at hreg
  obtain ⟨⟨factorySlot, releaseSlot⟩, rfl⟩ := Option.isSome_iff_exists.mp hreg
  obtain ⟨hfactory, hrelease⟩ := henlisted.at_slots _ _ rfl
  have hc : Carries p₁ ⟨o.relevancy, o.identity.getD p₁.nextUnique, ⟨0, 0⟩, factorySlot,
      releaseSlot⟩ o := by
    refine ⟨rfl, rfl, Pool.pinned?_eq_some.mpr ⟨hfactory, typed.1⟩, ?_⟩
    refine map_eq_map_some_of_imp hrelease fun slot callback hcallback hpin => ?_
    exact Pool.pinned?_eq_some.mpr ⟨hpin, typed.2 callback hcallback⟩
  obtain ⟨hrepresents, hcalls, htaken⟩ := h₁.takeIn hc
  rw [Pool.offer, heq]
  refine ⟨hrepresents, hcalls, ?_⟩
  rw [← htaken, ← hrepresents.capacity]

/-- An offer of which a callback finds no slot leaves the roster as it is, and its payload is
given back. -/
theorem Represents.offer_of_not_registered (h : Represents room p r slots)
    {outside : Callback → Bool}
    (hreg : (p.enlist outside r o.factory o.release).2.2 = none) :
    Represents room (p.offer outside r o).pool (p.offer outside r o).registry slots ∧
      (p.offer outside r o).calls = [.back o.release o.payload] ∧
      (p.offer outside r o).answer = .error (.registryFull r.capacity) := by
  rcases heq : p.enlist outside r o.factory o.release with ⟨p₁, r₁, found⟩
  have henlisted := h.agrees.enlist heq
  rw [heq] at hreg
  obtain rfl : found = none := hreg
  rw [Pool.offer, heq, ← henlisted.capacity]
  exact ⟨h.pinned henlisted.pinned henlisted.agrees, rfl, rfl⟩

end Typeahead
