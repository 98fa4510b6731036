import Typeahead.Proofs.Pool.Charges

/-!
# A pool's bookkeeping

A pool keeps the same things in several forms: places, and on each candidate the location of its
place; payloads, and beside them marks; the identities on the candidates, and a table of them; and
counters of what is there. What its places were taken for is written down nowhere, but follows from
the requests (`Pool.titles`). By these titles one can say that all forms agree (`Pool.WellKept`),
and they do so after whatever requests. In particular a pool that says that it is saturated is one
that refuses what it does not know, and it stays so until it is emptied.
-/

namespace Typeahead

variable {π : Type} {p p' : Pool π} {r r' : Registry} {slots slots' : Roster π} {room : Nat}
variable {o : Offer π}

/-! ### Titles -/

/-- What a place is taken for: a thing with a key, or a thing of its own, which is handed an
identity. -/
inductive Title where
  /-- A thing with a key. -/
  | keyed (key : UInt32)
  /-- A thing of its own. -/
  | own (identity : UInt32)
  deriving DecidableEq

namespace Title

/-- The identity of what a place is taken for. -/
def identity : Title → UInt32
  | keyed identity | own identity => identity

/-- The key of what a place is taken for, if it has one. -/
def key? : Title → Option UInt32
  | keyed key => some key
  | own _ => none

/-- The identity that was handed out for a place, if one was. -/
def own? : Title → Option UInt32
  | keyed _ => none
  | own identity => some identity

theorem key?_eq_some {title : Title} {key : UInt32} :
    title.key? = some key ↔ title = .keyed key := by
  cases title <;> simp [key?]

theorem own?_eq_some {title : Title} {identity : UInt32} :
    title.own? = some identity ↔ title = .own identity := by
  cases title <;> simp [own?]

end Title

namespace Pool

/-- What an offer takes a place for, if it takes one. -/
def titleOf (p : Pool π) (o : Offer π) : Title :=
  match o.identity with
  | some key => .keyed key
  | none => .own p.nextUnique

/-- What the places of a pool are taken for after a request, from what they were taken for before
it. An offer has taken a place if there is one more. -/
def retitle (p : Pool π) (r : Registry) (titles : List Title) : Request π → List Title
  | .insert outside o _ | .tryInsert outside o _ =>
    if p.sheets.places.length < (p.offer outside r o).pool.sheets.places.length then
      titles ++ [p.titleOf o]
    else titles
  | .reset _ => []
  | .materialize _ | .elsewhere _ _ => titles

/-- What the places of a pool are taken for after some requests. -/
def titles (p : Pool π) (r : Registry) (before : List Title) : List (Request π) → List Title
  | [] => before
  | request :: requests =>
    titles (p.respond r request).1 (p.respond r request).2.1 (p.retitle r before request) requests

end Pool

/-- Whether a request empties the pool. -/
def Request.resets : Request π → Bool
  | .reset _ => true
  | _ => false

/-- The books of a pool are in order, with what its places are taken for. -/
structure Pool.WellKept (p : Pool π) (r : Registry) (titles : List Title) : Prop where
  /-- A candidate has the location of its place, in numbers of 16 bits. -/
  located : ∀ loc place, p.sheets.place? loc = some place →
    place.candidate.location = loc ∧ loc.sheet < UInt16.size ∧ loc.item < UInt16.size
  /-- No sheet is empty or has more than 512 places, and all but the last are full. -/
  filled : ∀ i sheet, p.sheets[i]? = some sheet →
    0 < sheet.places.size ∧ sheet.places.size ≤ 512 ∧
      (i + 1 < p.sheets.size → sheet.places.size = 512)
  /-- There are as many sheets as the places need. -/
  sheets : p.sheets.size = (p.sheets.places.length + 511) / 512
  /-- Exactly the places that have a payload are marked. -/
  marked : ∀ sheet ∈ p.sheets, ∀ i, sheet.isMarked i = true ↔
    ∃ place, sheet.places[i]? = some place ∧ place.payload.isSome = true
  /-- Nothing is marked behind the places of a sheet. -/
  unmarked : ∀ sheet ∈ p.sheets, ∀ i, sheet.places.size ≤ i → sheet.isMarked i = false
  /-- As many candidates are live as places are marked. -/
  counted : p.live = (p.sheets.toList.map Sheet.markCount).sum
  /-- The candidates have the identities that their places are taken for. -/
  titled : (p.sheets.places.map fun place => place.candidate.identity) =
    titles.map Title.identity
  /-- What is known by a key has a place, which was taken for that key. -/
  known : ∀ (key : UInt32) loc, p.known[key]? = some loc →
    ∃ place, p.sheets.place? loc = some place ∧ place.candidate.identity = key ∧
      titles[loc.number]? = some (.keyed key)
  /-- No two keys share a place. -/
  apart : ∀ (key key' : UInt32) loc, p.known[key]? = some loc → p.known[key']? = some loc →
    key = key'
  /-- A candidate whose place was taken for a key is the one that is known by it. -/
  keyed : ∀ loc place key, p.sheets.place? loc = some place →
    titles[loc.number]? = some (.keyed key) →
      place.candidate.identity = key ∧ p.known[key]? = some loc
  /-- No key has two places. -/
  keys : (titles.filterMap Title.key?).Nodup
  /-- No identity was handed out twice. -/
  handed : (titles.filterMap Title.own?).Nodup
  /-- The identity that is handed out next is a new one. -/
  next : p.nextUnique ∉ titles.filterMap Title.own?
  /-- What is not known is refused, its callbacks having slots, exactly if the pool is saturated. -/
  refused : ∀ outside (o : Offer π), (p.enlist outside r o.factory o.release).2.2.isSome = true →
    (∀ key ∈ o.identity, p.known[key]? = none) → (p.offer outside r o).answer =
      if p.isSaturated then .error (.poolSaturated p.capacity) else .ok ()
  /-- A saturated pool stays saturated until it is emptied. -/
  stays : p.isSaturated = true → ∀ requests, (∀ request ∈ requests, request.resets = false) →
    (p.after r requests).1.isSaturated = true
  /-- Emptying a pool makes room. -/
  emptied : ∀ token, (p.reset token).1.isSaturated = false

/-! ### The titles of a roster -/

/-- What a slot is taken for. -/
def Slot.title (s : Slot π) : Title :=
  match s.key with
  | some key => .keyed key
  | none => .own (.ofNat s.number)

@[simp] theorem Slot.key?_title (s : Slot π) : s.title.key? = s.key := by
  rw [title]
  cases s.key <;> rfl

theorem Slot.title_contend (s : Slot π) (o : Offer π) : (s.contend o).1.title = s.title := by
  rw [contend]
  split
  · split <;> rfl
  · rfl

theorem Roster.map_key (slots : Roster π) :
    slots.map Slot.key = (slots.map Slot.title).map Title.key? := by
  rw [List.map_map]
  exact List.map_congr_left fun s _ => s.key?_title.symm

/-- Slots that change one by one, each for the same as before, are taken for the same. -/
theorem Roster.map_title_eq {change : Nat → Slot π → Slot π}
    (hget : ∀ i : Nat, slots'[i]? = slots[i]?.map (change i))
    (hchange : ∀ i s, (change i s).title = s.title) :
    slots'.map Slot.title = slots.map Slot.title := by
  apply List.ext_getElem? fun i => ?_
  rw [List.getElem?_map, hget, List.getElem?_map, Option.map_map]
  exact congrArg (Option.map · slots[i]?) (funext (hchange i))

/-- Showing candidates changes nothing about what slots are taken for. -/
theorem Roster.map_title_materialize (slots : Roster π) (k : Nat) :
    (slots.materialize k).1.map Slot.title = slots.map Slot.title := by
  refine Roster.map_title_eq (fun i => List.getElem?_mapIdx) fun i s => ?_
  split <;> rfl

/-- An offer changes nothing about what slots are taken for, unless it takes a new one for what
there is no slot for. -/
theorem Roster.offer_cases (room : Nat) (slots : Roster π) (o : Offer π) :
    (slots.offer room o).1.map Slot.title = slots.map Slot.title ∨
      slots.length < room ∧ o.identity.bind slots.find? = none ∧
        (slots.offer room o).1 = slots ++ [slots.fresh o] := by
  rw [offer]
  cases hfind : o.identity.bind slots.find? with
  | some i =>
    refine .inl (Roster.map_title_eq (fun j => List.getElem?_modify ..) fun j s => ?_)
    split
    · exact s.title_contend o
    · rfl
  | none =>
    by_cases hroom : slots.length < room
    · exact .inr ⟨hroom, rfl, congrArg Prod.fst (if_pos hroom)⟩
    · exact .inl (congrArg (fun after : Roster π × _ => after.1.map Slot.title) (if_neg hroom))

/-! ### Titles and pools -/

/-- A pool represents a roster whose slots are taken for some titles, all of them different, and
the counter is ahead of the identities that were handed out. -/
structure Titled (room : Nat) (p : Pool π) (r : Registry) (slots : Roster π)
    (titles : List Title) : Prop where
  represents : Represents room p r slots
  title : slots.map Slot.title = titles
  nodup : titles.Nodup
  behind : ∀ identity, .own identity ∈ titles → identity.toNat < p.nextUnique.toNat

variable {titles : List Title}

theorem Titled.length_slots (h : Titled room p r slots titles) : slots.length = titles.length := by
  rw [← h.title, List.length_map]

theorem Titled.length_places (h : Titled room p r slots titles) :
    p.sheets.places.length = titles.length :=
  h.represents.length.trans h.length_slots

/-- Where the titles are the same, there are not more places. -/
theorem Titled.not_length_lt (h : Titled room p r slots titles)
    (h' : Titled room p' r' slots' titles) :
    ¬ p.sheets.places.length < p'.sheets.places.length := by
  rw [h.length_places, h'.length_places]
  exact Nat.lt_irrefl _

/-- A pool that represents slots which are taken for the same keeps the titles. -/
theorem Titled.congr (h : Titled room p r slots titles) (h' : Represents room p' r' slots')
    (hsame : slots'.map Slot.title = slots.map Slot.title) :
    Titled room p' r' slots' titles := by
  have hkeys : slots'.map Slot.key = slots.map Slot.key := by
    rw [Roster.map_key, Roster.map_key, hsame]
  have hcounter : p'.nextUnique.toNat = p.nextUnique.toNat := by
    rw [h'.uniques, h.represents.uniques, Roster.uniques_congr hkeys]
  exact ⟨h', hsame.trans h.title, h.nodup, fun identity hmem => hcounter ▸ h.behind identity hmem⟩

theorem Represents.title_fresh (h : Represents room p r slots) (o : Offer π) :
    (slots.fresh o).title = p.titleOf o := by
  rw [Slot.title, Roster.key_fresh, Pool.titleOf]
  cases hkey : o.identity with
  | some key => rfl
  | none =>
    simp only [Roster.fresh, hkey, Option.map_none, Option.getD_none, ← h.uniques,
      UInt32.ofNat_toNat]

/-- What there is no slot for has no title yet. -/
theorem Titled.titleOf_notMem (h : Titled room p r slots titles)
    (hnew : o.identity.bind slots.find? = none) : p.titleOf o ∉ titles := by
  rw [Pool.titleOf]
  cases hkey : o.identity with
  | some key =>
    rw [hkey, Option.bind_some, Roster.find?, List.findIdx?_eq_none_iff] at hnew
    rw [← h.title]
    intro hmem
    obtain ⟨s, hs, htitle⟩ := List.mem_map.mp hmem
    have hskey : s.key = some key := by
      rw [← s.key?_title, htitle]
      rfl
    simpa [hskey] using hnew s hs
  | none => exact fun hmem => Nat.lt_irrefl _ (h.behind _ hmem)

/-- A pool that takes one more slot, for what there was none for, has one more title. -/
theorem Titled.append (h : Titled room p r slots titles)
    (hnew : o.identity.bind slots.find? = none)
    (h' : Represents room p' r' (slots ++ [slots.fresh o])) :
    Titled room p' r' (slots ++ [slots.fresh o]) (titles ++ [p.titleOf o]) := by
  have hcounter : p'.nextUnique.toNat = p.nextUnique.toNat + o.identity.isNone.toNat := by
    rw [h'.uniques, Roster.uniques_append, h.represents.uniques, Roster.key_fresh]
  refine ⟨h', ?_, ?_, ?_⟩
  · rw [List.map_append, h.title, List.map_singleton, h.represents.title_fresh]
  · refine List.nodup_append.mpr ⟨h.nodup, List.nodup_singleton _, ?_⟩
    rintro title hmem _ hlast rfl
    exact h.titleOf_notMem hnew (List.mem_singleton.mp hlast ▸ hmem)
  · intro identity hmem
    rw [hcounter]
    rcases List.mem_append.mp hmem with hmem | hmem
    · exact Nat.lt_add_right _ (h.behind identity hmem)
    · rw [List.mem_singleton, Pool.titleOf] at hmem
      cases hkey : o.identity with
      | some key =>
        rw [hkey] at hmem
        cases hmem
      | none =>
        rw [hkey] at hmem
        obtain rfl := Title.own.inj hmem
        exact Nat.lt_succ_self _

/-- An offer keeps the titles, or takes a place and adds one. -/
theorem Titled.offer (h : Titled room p r slots titles) (outside : Callback → Bool)
    (typed : o.Typed) :
    ∃ slots', Titled room (p.offer outside r o).pool (p.offer outside r o).registry slots'
      (if p.sheets.places.length < (p.offer outside r o).pool.sheets.places.length then
        titles ++ [p.titleOf o]
      else titles) := by
  by_cases hreg : (p.enlist outside r o.factory o.release).2.2.isSome = true
  · obtain ⟨hrepresents, -⟩ := h.represents.offer typed hreg
    rcases slots.offer_cases room o with hsame | ⟨-, hnew, happend⟩
    · have hkept := h.congr hrepresents hsame
      rw [if_neg (h.not_length_lt hkept)]
      exact ⟨_, hkept⟩
    · rw [happend] at hrepresents
      have hmore := h.append hnew hrepresents
      have hlt : p.sheets.places.length < (p.offer outside r o).pool.sheets.places.length := by
        rw [h.length_places, hmore.length_places, List.length_append]
        exact Nat.lt_succ_self _
      rw [if_pos hlt]
      exact ⟨_, hmore⟩
  · obtain ⟨hrepresents, -⟩ :=
      h.represents.offer_of_not_registered (Option.not_isSome_iff_eq_none.mp hreg)
    have hkept := h.congr hrepresents rfl
    rw [if_neg (h.not_length_lt hkept)]
    exact ⟨slots, hkept⟩

/-- **One request**: what the places of a pool are taken for is what the request makes of it. -/
theorem Titled.respond (h : Titled room p r slots titles) (request : Request π) :
    ∃ slots', Titled room (p.respond r request).1 (p.respond r request).2.1 slots'
      (p.retitle r titles request) := by
  cases request with
  | insert outside o typed => exact h.offer outside typed
  | tryInsert outside o typed => exact h.offer outside typed
  | materialize k =>
    obtain ⟨hrepresents, -⟩ := h.represents.respond (.materialize k) rfl
    exact ⟨_, h.congr hrepresents (slots.map_title_materialize k)⟩
  | reset token =>
    obtain ⟨hrepresents, -⟩ := h.represents.respond (.reset token) rfl
    exact ⟨[], hrepresents, rfl, .nil, by rintro _ ⟨⟩⟩
  | elsewhere outside callback =>
    obtain ⟨hrepresents, -⟩ := h.represents.respond (.elsewhere outside callback) rfl
    exact ⟨slots, h.congr hrepresents rfl⟩

/-- **A run of requests**: what the places of a pool are taken for is what the requests make of
it. -/
theorem Titled.after (h : Titled room p r slots titles) (requests : List (Request π)) :
    ∃ slots', Titled room (p.after r requests).1 (p.after r requests).2 slots'
      (p.titles r titles requests) := by
  induction requests generalizing p r slots titles with
  | nil => exact ⟨slots, h⟩
  | cons request requests ih =>
    obtain ⟨slots', hnow⟩ := h.respond request
    exact ih hnow

/-! ### The books -/

theorem Titled.getElem?_titles (h : Titled room p r slots titles) (i : Nat) :
    titles[i]? = slots[i]?.map Slot.title := by
  rw [← h.title, List.getElem?_map]

/-- A key is known exactly at the place that was taken for it. -/
theorem Titled.known_iff (h : Titled room p r slots titles) {key : UInt32} {loc : Location} :
    p.known[key]? = some loc ↔ ∃ i, titles[i]? = some (.keyed key) ∧ .ofNumber i = loc := by
  have hkeyed : ∀ i : Nat, titles[i]? = some (Title.keyed key) ↔
      ∃ s, slots[i]? = some s ∧ s.key = some key := by
    intro i
    rw [h.getElem?_titles, Option.map_eq_some_iff]
    refine exists_congr fun s => and_congr_right fun _ => ?_
    rw [← Title.key?_eq_some, Slot.key?_title]
  rw [h.represents.known key, Option.map_eq_some_iff]
  refine exists_congr fun i => and_congr_left fun _ => ?_
  rw [hkeyed]
  constructor
  · intro hfind
    obtain ⟨hlt, hkey, -⟩ := List.findIdx?_eq_some_iff_getElem.mp hfind
    exact ⟨slots[i], List.getElem?_eq_getElem hlt, of_decide_eq_true hkey⟩
  · rintro ⟨s, hs, hkey⟩
    have htitle := (hkeyed i).mpr ⟨s, hs, hkey⟩
    cases hfind : slots.find? key with
    | none =>
      have := List.findIdx?_eq_none_iff.mp hfind s (List.mem_of_getElem? hs)
      simp [hkey] at this
    | some j =>
      obtain ⟨hlt, hfound, -⟩ := List.findIdx?_eq_some_iff_getElem.mp hfind
      have hj := (hkeyed j).mpr ⟨_, List.getElem?_eq_getElem hlt, of_decide_eq_true hfound⟩
      exact congrArg some
        ((List.getElem?_inj (h.length_slots ▸ hlt) h.nodup).mp (hj.trans htitle.symm))

/-- A candidate has the identity that its place was taken for. -/
theorem Titled.map_identity (h : Titled room p r slots titles) :
    (p.sheets.places.map fun place => place.candidate.identity) = titles.map Title.identity := by
  have hplaces : (p.sheets.places.map fun place => place.candidate.identity) =
      slots.map fun s => .ofNat s.number := by
    refine map_eq_map h.represents.length fun i place s hplace hs => ?_
    have hstanding := (h.represents.stands i place s hplace hs).standing
    have hnumber : place.candidate.identity.toNat = s.number := congrArg Standing.number hstanding
    rw [← hnumber, UInt32.ofNat_toNat]
  rw [hplaces, ← h.title, List.map_map]
  refine List.map_congr_left fun s hs => ?_
  rw [Function.comp_apply, Slot.title]
  cases hkey : s.key with
  | some key => rw [h.represents.numbers s hs key hkey, UInt32.ofNat_toNat]; rfl
  | none => rfl

/-- Where there is a title, there is a place with its identity. -/
theorem Titled.exists_place (h : Titled room p r slots titles) {i : Nat} {title : Title}
    (htitle : titles[i]? = some title) :
    ∃ place, p.sheets.place? (.ofNumber i) = some place ∧
      place.candidate.identity = title.identity := by
  have hidentity := congrArg (·[i]?) h.map_identity
  simp only [List.getElem?_map, htitle, Option.map_some] at hidentity
  obtain ⟨place, hplace, heq⟩ := Option.map_eq_some_iff.mp hidentity
  exact ⟨place, h.represents.packed.getElem?_places i ▸ hplace, heq⟩

/-- As many candidates are live as places have a payload. -/
theorem Represents.live_eq (h : Represents room p r slots) :
    p.live = p.sheets.places.countP fun place => place.payload.isSome := by
  have hpayloads : p.sheets.places.map Place.payload = slots.map Slot.payload :=
    map_eq_map h.length fun i place s hplace hs => (h.stands i place s hplace hs).payload
  have hcounts := congrArg (List.countP Option.isSome) hpayloads
  rw [List.countP_map, List.countP_map] at hcounts
  rw [h.live]
  exact hcounts.symm

/-- Locations of places have numbers of 16 bits. -/
theorem Represents.located (h : Represents room p r slots) {loc : Location} {place : Place π}
    (hplace : p.sheets.place? loc = some place) :
    place.candidate.location = loc ∧ loc.sheet < UInt16.size ∧ loc.item < UInt16.size := by
  have hloc := h.packed.eq_ofNumber hplace
  obtain ⟨sheet, hsheet, hitem⟩ := Option.bind_eq_some_iff.mp hplace
  obtain ⟨hlt, -⟩ := Array.getElem?_eq_some_iff.mp hsheet
  refine ⟨?_, Nat.lt_trans hlt h.size_sheets_lt, ?_⟩
  · rw [hloc, ← h.packed.getElem?_places] at hplace
    obtain ⟨hi, -⟩ := List.getElem?_eq_some_iff.mp hplace
    have hs := List.getElem?_eq_getElem (h.length ▸ hi)
    rw [(h.stands _ _ _ hplace hs).location, ← hloc]
  · rw [hloc]
    exact Nat.lt_trans (Nat.mod_lt _ (by decide)) (by decide : Sheets.placesPerSheet < UInt16.size)

/-- What a pool does not know finds a place, unless the pool is saturated. -/
theorem Pool.Agrees.answer_offer (h : p.Agrees r) {outside : Callback → Bool}
    (hreg : (p.enlist outside r o.factory o.release).2.2.isSome = true)
    (hnew : ∀ key ∈ o.identity, p.known[key]? = none) :
    (p.offer outside r o).answer =
      if p.isSaturated then .error (.poolSaturated p.capacity) else .ok () := by
  rcases heq : p.enlist outside r o.factory o.release with ⟨p₁, r₁, found⟩
  have hpinned := (h.enlist heq).pinned
  rw [heq] at hreg
  obtain ⟨⟨factory, release⟩, rfl⟩ := Option.isSome_iff_exists.mp hreg
  have hunknown : o.identity.bind (p₁.known[·]?) = none := by
    rw [hpinned.same]
    exact Option.bind_eq_none_iff.mpr hnew
  have hsaturated : p₁.isSaturated = p.isSaturated := by
    rw [hpinned.same]
    rfl
  rw [Pool.offer, heq]
  simp only [Pool.takeIn, hunknown, hsaturated]
  cases p.isSaturated with
  | true =>
    have hcapacity : p₁.capacity = p.capacity := by
      rw [hpinned.same]
      rfl
    simp [hcapacity]
  | false => cases o.identity <;> rfl

theorem Pool.length_le_titles (p : Pool π) (r : Registry) (titles : List Title)
    {requests : List (Request π)} (h : ∀ request ∈ requests, request.resets = false) :
    titles.length ≤ (p.titles r titles requests).length := by
  induction requests generalizing p r titles with
  | nil => exact Nat.le_refl _
  | cons request requests ih =>
    have hnow : titles.length ≤ (p.retitle r titles request).length := by
      cases request with
      | insert _ _ _ | tryInsert _ _ _ =>
        rw [retitle]
        split
        · exact List.length_append ▸ Nat.le_add_right _ _
        · exact Nat.le_refl _
      | reset token => cases h _ List.mem_cons_self
      | materialize _ | elsewhere _ _ => exact Nat.le_refl _
    exact Nat.le_trans hnow (ih _ _ _ fun later hlater => h later (List.mem_cons_of_mem _ hlater))

/-- A pool without room gets none by requests that do not empty it. -/
theorem Titled.isSaturated_after (h : Titled room p r slots titles)
    (hsaturated : p.isSaturated = true) {requests : List (Request π)}
    (hkeep : ∀ request ∈ requests, request.resets = false) :
    (p.after r requests).1.isSaturated = true := by
  obtain ⟨slots', hafter⟩ := h.after requests
  have hfull := h.represents.isSaturated_iff.mp hsaturated
  have hmore := p.length_le_titles r titles hkeep
  rw [hafter.represents.isSaturated_iff, hafter.length_slots]
  rw [h.length_slots] at hfull
  exact Nat.le_trans hfull hmore

/-- The books of a pool that has the titles of a roster are in order. -/
theorem Titled.wellKept (h : Titled room p r slots titles) (hroom : 0 < room) :
    p.WellKept r titles where
  located _ _ := h.represents.located
  filled _ _ := h.represents.packed.size_places
  sheets := h.represents.packed.size_eq
  marked sheet hsheet i := by
    rw [h.represents.marked sheet hsheet i]
    cases sheet.places[i]? <;> simp
  unmarked sheet hsheet i hi := by
    rw [h.represents.marked sheet hsheet i, Array.getElem?_eq_none hi]
    rfl
  counted := by rw [h.represents.marked.sum_markCount h.represents.packed, h.represents.live_eq]
  titled := h.map_identity
  known key loc hknown := by
    obtain ⟨i, htitle, rfl⟩ := h.known_iff.mp hknown
    obtain ⟨place, hplace, hidentity⟩ := h.exists_place htitle
    exact ⟨place, hplace, hidentity, by rwa [Location.number_ofNumber]⟩
  apart key key' loc hknown hknown' := by
    obtain ⟨i, htitle, rfl⟩ := h.known_iff.mp hknown
    obtain ⟨j, htitle', hij⟩ := h.known_iff.mp hknown'
    obtain rfl := Location.ofNumber_inj.mp hij
    exact Title.keyed.inj (Option.some.inj (htitle.symm.trans htitle'))
  keyed loc place key hplace htitle := by
    obtain ⟨i, rfl⟩ : ∃ i, loc = .ofNumber i := ⟨_, h.represents.packed.eq_ofNumber hplace⟩
    rw [Location.number_ofNumber] at htitle
    obtain ⟨place', hplace', hidentity⟩ := h.exists_place htitle
    obtain rfl := Option.some.inj (hplace.symm.trans hplace')
    exact ⟨hidentity, h.known_iff.mpr ⟨i, htitle, rfl⟩⟩
  keys := h.nodup.filterMap fun a a' b ha ha' => by
    rw [Title.key?_eq_some.mp ha, Title.key?_eq_some.mp ha']
  handed := h.nodup.filterMap fun a a' b ha ha' => by
    rw [Title.own?_eq_some.mp ha, Title.own?_eq_some.mp ha']
  next hmem := by
    obtain ⟨title, hmem, hown⟩ := List.mem_filterMap.mp hmem
    exact Nat.lt_irrefl _ (h.behind _ (Title.own?_eq_some.mp hown ▸ hmem))
  refused _ _ := h.represents.agrees.answer_offer
  stays hsaturated _ := h.isSaturated_after hsaturated
  emptied token := by
    have hreset : Represents room (p.reset token).1 r [] :=
      (h.represents.respond (.reset token) rfl).1
    rw [← Bool.not_eq_true, hreset.isSaturated_iff]
    exact Nat.not_le_of_lt hroom

/-- **The books of a pool are in order** after whatever requests, whatever its limit, its registry
and the callbacks of others: its sheets, locations, marks, counters and table agree with each other
and with what its places were taken for, and it is saturated exactly as long as it refuses what it
does not know. -/
theorem Pool.wellKept_after (token : Token) (registry : RegistryId) (limits : PoolLimits)
    (r : Registry) (requests : List (Request π)) :
    let p : Pool π := .empty token registry limits
    (p.after r requests).1.WellKept (p.after r requests).2 (p.titles r [] requests) := by
  intro p
  have hsheets : max 1 (min limits.maxSheets 65535) ≤ 65535 := by omega
  have hempty : Titled _ p r [] [] := ⟨represents_nil hsheets r, rfl, .nil, by rintro _ ⟨⟩⟩
  obtain ⟨slots, hafter⟩ := hempty.after requests
  exact hafter.wellKept (Nat.mul_pos (by omega) (by decide))

/-- Two offers for the same thing, with one for a thing of its own in between. -/
example :
    let label : Callback := ⟨0, .label "label"⟩
    Pool.titles (.empty .never 0 ⟨1⟩) .standard [] ([
      .insert (fun _ => false) ⟨some 7, .zero, 100, label, none⟩ ⟨rfl, by simp⟩,
      .insert (fun _ => false) ⟨none, .zero, 300, label, none⟩ ⟨rfl, by simp⟩,
      .tryInsert (fun _ => false) ⟨some 7, .greatest, 200, label, none⟩ ⟨rfl, by simp⟩,
      .materialize 1] : List (Request Nat)) = [.keyed 7, .own 0] := by
  cbv

end Typeahead
