import Typeahead.Proofs.Pool.Representation

/-!
# A pool is its roster

Picking the best candidates of a pool picks those of the roster that it represents, and emptying
the one empties the other. So every request is answered the same by both, and whatever is asked of
a pool, it answers as its roster does.
-/

namespace Typeahead

variable {π : Type} {p : Pool π} {r : Registry} {slots : Roster π} {s : Slot π} {room i : Nat}

/-! ### Picking -/

/-- Consuming the candidate at a place consumes the one in the slot. -/
theorem Represents.consume (h : Represents room p r slots) (hs : slots[i]? = some s) {payload : π}
    (hpayload : s.payload = some payload) :
    ∃ candidate, p.sheets.consume (.ofNumber i) =
        (p.sheets.clear (.ofNumber i) candidate, some (candidate, payload)) ∧
      Represents room
        { p with sheets := p.sheets.clear (.ofNumber i) candidate, live := p.live - 1 } r
        (slots.set i s.consume) ∧
      p.showing (candidate, payload) = s.showing := by
  obtain ⟨⟨candidate, held⟩, -, hplace, hstands⟩ := h.getElem?_places hs
  obtain rfl : held = some payload := hstands.payload.trans hpayload
  have hlive : p.live - 1 = Roster.live (slots.set i s.consume) := by
    have hset := Roster.live_set hs s.consume
    rw [hpayload] at hset
    rw [h.live]
    exact Nat.sub_eq_of_eq_add hset.symm
  have hconsumed : Stands p i ⟨candidate, none⟩ s.consume :=
    ⟨hstands.standing, hstands.location, rfl, hstands.factory, hstands.release⟩
  have hkey : s.consume.key = s.key := rfl
  have hitem : (Location.ofNumber i).item < 512 := Nat.mod_lt _ (by decide)
  refine ⟨candidate, ?_, h.set hs hkey rfl hconsumed ?_ ?_ ?_ hlive, hstands.showing hpayload⟩
  · rw [Sheets.consume, h.marked.held?_eq, hplace]
    rfl
  · exact h.packed.modify _ fun sheet => by simp
  · exact h.marked.modify fun sheet _ hmarked => hmarked.consume hitem candidate
  · exact h.packed.places_modify i fun sheet => by simp

/-- To consume one candidate and then others is to consume them all. -/
theorem Roster.mapIdx_consume_cons {picked : List Nat} (hs : slots[i]? = some s)
    (hi : i ∉ picked) :
    (slots.set i s.consume).mapIdx (fun j s => if j ∈ picked then s.consume else s) =
      slots.mapIdx fun j s => if j ∈ i :: picked then s.consume else s := by
  apply List.ext_getElem? fun j => ?_
  rw [List.getElem?_mapIdx, List.getElem?_mapIdx]
  by_cases hij : i = j
  · subst hij
    obtain ⟨hlt, -⟩ := List.getElem?_eq_some_iff.mp hs
    rw [List.getElem?_set_self hlt, hs, Option.map_some, Option.map_some, if_neg hi,
      if_pos List.mem_cons_self]
  · rw [List.getElem?_set_ne hij]
    simp [List.mem_cons, Ne.symm hij]

/-- Consuming candidates one after the other consumes those in their slots, and what is due for
them is what is due for the slots. -/
theorem Represents.consumeAll (h : Represents room p r slots) (picked : List Nat)
    (hnodup : picked.Nodup)
    (hlive : ∀ i ∈ picked, ∃ s payload, slots[i]? = some s ∧ s.payload = some payload) :
    Represents room (p.consumeAll (picked.map .ofNumber)).1 r
        (slots.mapIdx fun i s => if i ∈ picked then s.consume else s) ∧
      (p.consumeAll (picked.map .ofNumber)).1.pins = p.pins ∧
      (p.consumeAll (picked.map .ofNumber)).2.flatMap p.showing =
        picked.flatMap fun i => (slots[i]?.map Slot.showing).getD [] := by
  induction picked generalizing p slots with
  | nil =>
    have hslots : slots.mapIdx (fun i s => if i ∈ [] then s.consume else s) = slots := by
      apply List.ext_getElem? fun j => ?_
      simp
    exact ⟨hslots.symm ▸ h, rfl, rfl⟩
  | cons i picked ih =>
    obtain ⟨s, payload, hs, hpayload⟩ := hlive i List.mem_cons_self
    obtain ⟨candidate, hconsume, hrepresents, hshowing⟩ := h.consume hs hpayload
    obtain ⟨hi, hnodup⟩ := List.nodup_cons.mp hnodup
    have hother : ∀ j ∈ picked, (slots.set i s.consume)[j]? = slots[j]? := by
      intro j hj
      have hne : i ≠ j := by
        rintro rfl
        exact hi hj
      exact List.getElem?_set_ne hne
    obtain ⟨hall, hpins, hcalls⟩ := ih hrepresents hnodup fun j hj => by
      rw [hother j hj]
      exact hlive j (List.mem_cons_of_mem _ hj)
    rw [List.map_cons, Pool.consumeAll, hconsume]
    refine ⟨Roster.mapIdx_consume_cons hs hi ▸ hall, hpins, ?_⟩
    rw [List.flatMap_cons, List.flatMap_cons, hshowing, hs]
    refine congrArg (s.showing ++ ·) ?_
    refine hcalls.trans (List.flatMap_congr fun j hj => ?_)
    rw [hother j hj]

/-- Two lists of the same length are the same if their elements are, one by one. -/
theorem map_eq_map {α β γ : Type} {l : List α} {l' : List β} {f : α → γ} {g : β → γ}
    (hlength : l.length = l'.length)
    (h : ∀ (i : Nat) a b, l[i]? = some a → l'[i]? = some b → f a = g b) :
    l.map f = l'.map g := by
  apply List.ext_getElem (by rw [List.length_map, List.length_map, hlength])
  intro i hi hi'
  rw [List.getElem_map, List.getElem_map]
  rw [List.length_map] at hi hi'
  exact h i _ _ (List.getElem?_eq_getElem hi) (List.getElem?_eq_getElem hi')

/-- Two lists of the same length give the same if their elements do, one by one. -/
theorem filterMap_eq_filterMap {α β γ : Type} {l : List α} {l' : List β} {f : α → Option γ}
    {g : β → Option γ} (hlength : l.length = l'.length)
    (h : ∀ (i : Nat) a b, l[i]? = some a → l'[i]? = some b → f a = g b) :
    l.filterMap f = l'.filterMap g :=
  calc l.filterMap f = (l.map f).filterMap id := by rw [List.filterMap_map]; rfl
    _ = (l'.map g).filterMap id := by rw [map_eq_map hlength h]
    _ = l'.filterMap g := by rw [List.filterMap_map]; rfl

/-- The live candidates of a pool stand where the live slots of its roster stand. -/
theorem Represents.map_standing_live (h : Represents room p r slots) :
    p.sheets.live.map Candidate.standing = slots.standings := by
  rw [h.marked.live_eq, List.map_filterMap, Roster.standings]
  apply filterMap_eq_filterMap (by rw [List.length_zipIdx, h.length])
  intro i place indexed hplace hindexed
  obtain ⟨s, hs, rfl⟩ : ∃ s, slots[i]? = some s ∧ (s, i) = indexed := by
    simpa [List.getElem?_zipIdx] using hindexed
  have hstands := h.stands i place s hplace hs
  rw [hstands.payload, Option.map_map]
  exact congrArg (s.payload.map ·) (funext fun _ => hstands.standing)

/-- What is due for all payloads of a pool is what is due for all payloads of its roster. -/
theorem Represents.dismiss (h : Represents room p r slots) : p.dismiss = slots.dismiss := by
  apply filterMap_eq_filterMap h.length
  intro i place s hplace hs
  have hstands := h.stands i place s hplace hs
  rw [hstands.payload]
  exact congrArg (s.payload.map ·) (funext fun payload => hstands.giveBack payload)

theorem Represents.location_of_mem_live (h : Represents room p r slots) {c : Candidate}
    (hc : c ∈ p.sheets.live) : c.location = .ofNumber c.location.number := by
  rw [h.marked.live_eq] at hc
  obtain ⟨place, hplace, hsome⟩ := List.mem_filterMap.mp hc
  obtain ⟨i, hi, rfl⟩ := List.mem_iff_getElem.mp hplace
  have hs := List.getElem?_eq_getElem (h.length ▸ hi)
  have hstands := h.stands i _ _ (List.getElem?_eq_getElem hi) hs
  obtain ⟨-, -, rfl⟩ := Option.map_eq_some_iff.mp hsome
  rw [hstands.location, Location.number_ofNumber]

theorem Roster.mem_standings {standing : Standing} : standing ∈ slots.standings ↔
    ∃ s payload, slots[standing.slot]? = some s ∧ s.payload = some payload ∧
      standing = ⟨s.relevancy, s.number, standing.slot⟩ := by
  rw [Roster.standings, List.mem_filterMap]
  constructor
  · rintro ⟨⟨s, i⟩, hmem, hsome⟩
    obtain ⟨payload, hpayload, rfl⟩ := Option.map_eq_some_iff.mp hsome
    exact ⟨s, payload, List.mk_mem_zipIdx_iff_getElem?.mp hmem, hpayload, rfl⟩
  · rintro ⟨s, payload, hs, hpayload, heq⟩
    refine ⟨(s, standing.slot), List.mk_mem_zipIdx_iff_getElem?.mpr hs, ?_⟩
    change s.payload.map _ = some standing
    rw [hpayload, Option.map_some, ← heq]

theorem Roster.nodup_slot_standings (slots : Roster π) :
    (slots.standings.map Standing.slot).Nodup := by
  have hindices : (slots.zipIdx.map Prod.snd).Nodup := by
    rw [List.zipIdx_map_snd]
    exact List.nodup_range'
  rw [List.Nodup, List.pairwise_map] at hindices ⊢
  rw [Roster.standings, List.pairwise_filterMap]
  refine hindices.imp ?_
  rintro ⟨s, i⟩ ⟨t, j⟩ hne standing hs standing' ht
  obtain ⟨-, -, rfl⟩ := Option.map_eq_some_iff.mp hs
  obtain ⟨-, -, rfl⟩ := Option.map_eq_some_iff.mp ht
  exact hne

theorem Roster.nodup_picked (k : Nat) (slots : Roster π) : (slots.picked k).Nodup := by
  have hperm := List.mergeSort_perm slots.standings Standing.before
  have hsorted := (hperm.map Standing.slot).nodup_iff.mpr slots.nodup_slot_standings
  rw [Roster.picked, List.map_take]
  exact hsorted.sublist (List.take_sublist _ _)

theorem Roster.live_of_mem_picked {k : Nat} (hi : i ∈ slots.picked k) :
    ∃ s payload, slots[i]? = some s ∧ s.payload = some payload := by
  obtain ⟨standing, hmem, rfl⟩ := List.mem_map.mp hi
  have hperm := List.mergeSort_perm slots.standings Standing.before
  obtain ⟨s, payload, hs, hpayload, -⟩ :=
    Roster.mem_standings.mp (hperm.mem_iff.mp (List.mem_of_mem_take hmem))
  exact ⟨s, payload, hs, hpayload⟩

/-- The `k` best candidates of a pool are in the slots that its roster picks. -/
theorem Represents.location_best (h : Represents room p r slots) (k : Nat) :
    (Candidate.best k p.sheets.live).map Candidate.location =
      (slots.picked k).map Location.ofNumber := by
  have hstandings := h.map_standing_live
  have hnumbers : p.sheets.live.map Candidate.location =
      (slots.standings.map Standing.slot).map Location.ofNumber := by
    rw [← hstandings, List.map_map, List.map_map]
    exact List.map_congr_left fun c hc => h.location_of_mem_live hc
  have hplaces : (p.sheets.live.map Candidate.location).Nodup := by
    rw [hnumbers]
    exact slots.nodup_slot_standings.map fun i j hij => Location.ofNumber_inj.mp hij
  rw [Candidate.location_best k _ (fun c => h.location_of_mem_live) hplaces, hstandings,
    Roster.picked, List.map_map]
  rfl

/-- Showing the best candidates of a pool shows those of its roster. -/
theorem Represents.materialize (h : Represents room p r slots) (k : Nat) :
    Represents room (p.materialize k).1 r (slots.materialize k).1 ∧
      (p.materialize k).2 = (slots.materialize k).2 := by
  obtain ⟨hrepresents, hpins, hcalls⟩ :=
    h.consumeAll (slots.picked k) (slots.nodup_picked k) fun i => Roster.live_of_mem_picked
  rw [← h.location_best k] at hrepresents hpins hcalls
  refine ⟨hrepresents, ?_⟩
  have hshowing : (p.takeBest k).1.showing = p.showing := Pool.showing_congr hpins
  rw [Roster.materialize, ← hcalls, ← hshowing]
  rfl

/-! ### Runs -/

/-- One request: a pool answers as its roster does, and represents it still. -/
theorem Represents.respond (h : Represents room p r slots) (request : Request π)
    (hreg : p.registers r request = true) :
    Represents room (p.respond r request).1 (p.respond r request).2.1
        (slots.respond room request).1 ∧
      (p.respond r request).2.2 = (slots.respond room request).2 := by
  cases request with
  | insert outside o typed =>
    obtain ⟨hrepresents, hcalls, hanswer⟩ := h.offer typed hreg
    refine ⟨hrepresents, ?_⟩
    simp only [Pool.respond, Roster.respond, hcalls, hanswer, hrepresents.live]
    cases (slots.offer room o).2.2 <;> rfl
  | tryInsert outside o typed =>
    obtain ⟨hrepresents, hcalls, hanswer⟩ := h.offer typed hreg
    refine ⟨hrepresents, ?_⟩
    simp only [Pool.respond, Roster.respond, hcalls, hanswer, hrepresents.live]
  | materialize k =>
    obtain ⟨hrepresents, hcalls⟩ := h.materialize k
    refine ⟨hrepresents, ?_⟩
    simp only [Pool.respond, Roster.respond, hcalls, hrepresents.live]
  | reset token =>
    refine ⟨h.capacity ▸ represents_nil h.sheets r, ?_⟩
    simp only [Pool.respond, Roster.respond, Pool.reset, h.dismiss]
  | elsewhere outside callback =>
    have halive : ∀ d, p.isPinned d = true → (outside d || p.isPinned d) = true := by
      intro d hd
      rw [hd, Bool.or_true]
    refine ⟨h.pinned (.refl p) (h.agrees.register halive callback), ?_⟩
    simp only [Pool.respond, Roster.respond, h.live]

/-- A run of requests: a pool answers as its roster does. -/
theorem Represents.respondAll (h : Represents room p r slots) (requests : List (Request π))
    (hreg : p.RegistersAll r requests) :
    p.respondAll r requests = slots.respondAll room requests := by
  induction requests generalizing p r slots with
  | nil => rfl
  | cons request requests ih =>
    obtain ⟨hnow, hlater⟩ := hreg
    obtain ⟨hrepresents, hreply⟩ := h.respond request hnow
    rw [Pool.respondAll, Roster.respondAll, hreply, ih hrepresents hlater]

/-- **A pool answers as its roster does**, whatever its limit and whatever the requests, as long
as all callbacks find slots: its answers, the calls that it makes and the number of live
candidates are those of a list of slots with room for 512 candidates a sheet. -/
theorem Pool.respondAll_eq_roster (token : Token) (registry : RegistryId) (limits : PoolLimits)
    (r : Registry) (requests : List (Request π))
    (hreg : (Pool.empty token registry limits).RegistersAll r requests) :
    (Pool.empty token registry limits).respondAll r requests =
      Roster.respondAll (max 1 (min limits.maxSheets 65535) * 512) [] requests := by
  have hsheets : max 1 (min limits.maxSheets 65535) ≤ 65535 := by omega
  exact (represents_nil hsheets r).respondAll requests hreg

/-- Two offers for the same thing, the second one better, and between them one for a thing of its
own: the callbacks find slots in a registry of the usual size. -/
theorem Pool.respondAll_eq_roster_standard :
    let label : Callback := ⟨0, .label "label"⟩
    let back : Callback := ⟨1, .swallow "back" none⟩
    let requests : List (Request Nat) := [
      .tryInsert (fun _ => false) ⟨some 7, .zero, 100, label, some back⟩ ⟨rfl, by simp [back]; rfl⟩,
      .insert (fun _ => false) ⟨none, .zero, 300, label, some back⟩ ⟨rfl, by simp [back]; rfl⟩,
      .insert (fun _ => false) ⟨some 7, .greatest, 200, label, none⟩ ⟨rfl, by simp⟩,
      .materialize 1]
    (Pool.empty .never 0 ⟨1⟩).RegistersAll .standard requests ∧
      (Pool.empty .never 0 ⟨1⟩).respondAll .standard requests =
        Roster.respondAll 512 [] requests := by
  intro label back requests
  have hreg : (Pool.empty .never 0 ⟨1⟩).RegistersAll .standard requests :=
    ⟨by decide +kernel, by decide +kernel, by decide +kernel, rfl, trivial⟩
  exact ⟨hreg, Pool.respondAll_eq_roster .never 0 ⟨1⟩ .standard requests hreg⟩

end Typeahead
