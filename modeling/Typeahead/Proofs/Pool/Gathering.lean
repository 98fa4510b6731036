import Mathlib.Data.Set.List
import Typeahead.Paths.Scan
import Typeahead.Proofs.Pool.Contest

/-!
# Gathering hits

A hit of a scan is offered for the thing that its hash names. So when hits are offered to a pool one
after the other, the pool keeps of the hits with one hash the best, and of several best the first,
and showing goes through the hits that are kept in the order of their scores, and among hits of one
score in the order of their hashes. All of these offers find slots once the first one has, and none
of them makes the work stale.
-/

namespace Typeahead

variable {factory : Callback} {hits best : List Hit} {hit x : Hit} {slots : Roster Payload}
variable {room : Nat}

namespace Hit

/-- The identity of a hit in a pool. -/
def hash (hit : Hit) : UInt32 := hit.ref.hash

/-- What is offered of a hit. -/
def offer (factory : Callback) (hit : Hit) : Offer Payload where
  identity := some hit.hash
  relevancy := hit.relevancy
  payload := .path hit.ref
  factory
  release := none

/-- The slot of a hit. -/
def slot (factory : Callback) (hit : Hit) : Slot Payload where
  key := some hit.hash
  number := hit.hash.toNat
  relevancy := hit.relevancy
  factory
  release := none
  payload := some (.path hit.ref)

theorem offer_injective (factory : Callback) : Function.Injective (Hit.offer factory) := by
  rintro ⟨relevancy, ref⟩ ⟨relevancy', ref'⟩ heq
  obtain ⟨-, rfl, hpayload, -⟩ := Offer.mk.inj heq
  obtain rfl := Payload.path.inj hpayload
  rfl

/-- A hit is the best of those with its hash, and the first of the best. -/
def Leads (hits : List Hit) (hit : Hit) : Prop :=
  (hits.filter fun other => other.hash = hit.hash).argmax Hit.relevancy = some hit

theorem Leads.mem (h : Leads hits hit) : hit ∈ hits :=
  List.mem_of_mem_filter (List.argmax_mem h)

/-- A hit leads if its offer does. -/
theorem leads_offer_iff :
    (hit.offer factory).Leads (hits.map (Hit.offer factory)) ↔ hit.Leads hits := by
  have hfilter : (hits.map (Hit.offer factory)).filter
        (fun other => other.identity = (hit.offer factory).identity) =
      (hits.filter fun other => other.hash = hit.hash).map (Hit.offer factory) := by
    rw [List.filter_map]
    refine congrArg _ (List.filter_congr fun other _ => decide_eq_decide.mpr ?_)
    exact Option.some_inj
  have hmax : ∀ l : List Hit, (l.map (Hit.offer factory)).argmax Offer.relevancy =
      (l.argmax Hit.relevancy).map (Hit.offer factory) := fun l => argmax_map fun _ _ => rfl
  rw [Offer.Leads, hfilter, hmax, Leads]
  exact (Option.map_injective (offer_injective factory)).eq_iff' rfl

end Hit

/-! ### Rosters of hits -/

/-- What a roster answers that takes a hit: the only calls are of hits that are dropped. -/
structure Takes (offered : Roster Payload × List (Call Payload) × Bool) : Prop where
  taken : offered.2.2 = true
  drops : ∀ call ∈ offered.2.1, ∃ payload, call = .discard payload

/-- A roster keeps the hits that lead, each hash once. -/
structure Gathers (factory : Callback) (hits : List Hit) (slots : Roster Payload)
    (best : List Hit) : Prop where
  /-- Its slots are those of the hits that are kept. -/
  slots_eq : slots = best.map (Hit.slot factory)
  /-- They have different hashes. -/
  nodup : (best.map Hit.hash).Nodup
  /-- They are those that lead. -/
  mem_iff : ∀ hit, hit ∈ best ↔ Hit.Leads hits hit

/-- A roster keeps hits by keeping their offers. -/
theorem gathers_iff : Gathers factory hits slots best ↔
    Keeps (hits.map (Hit.offer factory)) slots (best.map (Hit.offer factory)) := by
  have hslots : (best.map (Hit.offer factory)).map Offer.slot = best.map (Hit.slot factory) := by
    rw [List.map_map]
    rfl
  have hkeys : (best.map (Hit.offer factory)).map Offer.identity =
      (best.map Hit.hash).map some := by
    rw [List.map_map, List.map_map]
    rfl
  constructor
  · intro h
    refine ⟨fun o ho => ?_, hslots ▸ h.slots_eq, ?_, fun o => ⟨fun ho => ?_, fun hleads => ?_⟩⟩
    · obtain ⟨hit, -, rfl⟩ := List.mem_map.mp ho
      rfl
    · rw [hkeys]
      exact h.nodup.map (Option.some_injective _)
    · obtain ⟨hit, hhit, rfl⟩ := List.mem_map.mp ho
      exact Hit.leads_offer_iff.mpr ((h.mem_iff hit).mp hhit)
    · obtain ⟨hit, -, rfl⟩ := List.mem_map.mp hleads.mem
      exact List.mem_map_of_mem ((h.mem_iff hit).mpr (Hit.leads_offer_iff.mp hleads))
  · intro h
    refine ⟨hslots ▸ h.slots_eq, .of_map some (hkeys ▸ h.nodup), fun hit => ?_⟩
    calc hit ∈ best ↔ hit.offer factory ∈ best.map (Hit.offer factory) :=
          (List.mem_map_of_injective (Hit.offer_injective factory)).symm
      _ ↔ (hit.offer factory).Leads (hits.map (Hit.offer factory)) := h.mem_iff _
      _ ↔ hit.Leads hits := Hit.leads_offer_iff

theorem gathers_nil (factory : Callback) : Gathers factory [] [] [] := gathers_iff.mpr keeps_nil

/-- What is kept of offers of hits are offers of hits. -/
theorem Keeps.exists_gathers {kept : List (Offer Payload)}
    (h : Keeps (hits.map (Hit.offer factory)) slots kept) :
    ∃ best, Gathers factory hits slots best := by
  have hrange : kept ∈ Set.range (List.map (Hit.offer factory)) := by
    rw [Set.range_list_map]
    intro o ho
    obtain ⟨hit, -, rfl⟩ := List.mem_map.mp ((h.mem_iff o).mp ho).mem
    exact ⟨hit, rfl⟩
  obtain ⟨best, rfl⟩ := hrange
  exact ⟨best, gathers_iff.mpr h⟩

/-- **One hit**: a roster that has room for all hashes takes it, and keeps those that lead. -/
theorem Gathers.offer (h : Gathers factory hits slots best)
    (hroom : ((hits ++ [x]).map Hit.hash).toFinset.card ≤ room) :
    Takes (slots.offer room (x.offer factory)) ∧
      ∃ best', Gathers factory (hits ++ [x]) (slots.offer room (x.offer factory)).1 best' := by
  have hmap : (hits ++ [x]).map (Hit.offer factory) =
      hits.map (Hit.offer factory) ++ [x.offer factory] := by
    rw [List.map_append, List.map_singleton]
  have hthings : ((hits.map (Hit.offer factory) ++ [x.offer factory]).map
      Offer.identity).toFinset.card ≤ room := by
    have hkeys : (((hits ++ [x]).map (Hit.offer factory)).map Offer.identity).toFinset =
        ((hits ++ [x]).map Hit.hash).toFinset.image some := by
      ext key
      simp only [List.mem_toFinset, List.mem_map, Finset.mem_image, exists_exists_and_eq_and]
      rfl
    rw [← hmap, hkeys]
    exact Finset.card_image_le.trans hroom
  obtain ⟨htaken, hcalls, kept, hkeeps⟩ := (gathers_iff.mp h).offer rfl hthings
  rw [← hmap] at hcalls hkeeps
  refine ⟨⟨htaken, fun call hcall => ?_⟩, hkeeps.exists_gathers⟩
  obtain ⟨o, ho, rfl⟩ := hcalls call hcall
  obtain ⟨hit, -, rfl⟩ := List.mem_map.mp ho
  exact ⟨_, rfl⟩

/-! ### Showing hits -/

/-- Whether a hit comes before another one: it has the better score, or else the smaller hash. -/
def Hit.before (a b : Hit) : Bool :=
  b.relevancy < a.relevancy || a.relevancy = b.relevancy && a.hash ≤ b.hash

/-- What is due when a hit is shown. -/
def Hit.showing (factory : Callback) (hit : Hit) : List (Call Payload) :=
  [.build factory (.path hit.ref), .discard (.path hit.ref)]

/-- **The hits that are shown are the first ones by score and hash**, of those that are kept. -/
theorem Gathers.materialize (h : Gathers factory hits slots best) (k : Nat) :
    (slots.materialize k).2 =
      ((best.mergeSort Hit.before).take k).flatMap (Hit.showing factory) := by
  have hsort : (best.mergeSort Hit.before).map (Hit.offer factory) =
      (best.map (Hit.offer factory)).mergeSort Offer.before := by
    refine List.map_mergeSort fun a _ b _ => ?_
    rw [Hit.before, Bool.eq_iff_iff, Offer.before_iff, Bool.or_eq_true, Bool.and_eq_true,
      decide_eq_true_iff, decide_eq_true_iff, decide_eq_true_iff, UInt32.le_iff_toNat_le]
    rfl
  rw [(gathers_iff.mp h).materialize, ← hsort, ← List.map_take, List.flatMap_map]
  rfl

/-! ### Desks at which hits are offered -/

variable {p : Pool Payload} {r : Registry} {outside : Callback → Bool} {d : Desk}

/-- The factory of a scan finds a slot. -/
def Pool.Admits (p : Pool Payload) (r : Registry) (outside : Callback → Bool)
    (factory : Callback) : Prop :=
  (p.enlist outside r factory none).2.2.isSome = true

theorem Pool.admits_iff : p.Admits r outside factory ↔
    (r.register (fun c => c == factory || outside c || p.isPinned c) factory).2.isSome = true := by
  rw [Admits, enlist]
  simp only [keep, Option.some_beq_none, Bool.or_false]
  rcases r.register _ factory with ⟨r', _ | slot⟩ <;> rfl

/-- A factory that has a slot finds it. -/
theorem Pool.admits_of_mem (h : factory ∈ r.slots) : p.Admits r outside factory := by
  rw [admits_iff]
  rcases Registry.register_cases (fun c => c == factory || outside c || p.isPinned c) r factory with
    ⟨slot, -, heq⟩ | ⟨hnew, -⟩ | ⟨hnew, -⟩ | ⟨hnew, -⟩
  · rw [heq]
    rfl
  all_goals exact absurd h hnew

/-- A factory that has found a slot finds one ever after. -/
theorem Pool.Admits.offer (h : p.Admits r outside factory) (hagrees : p.Agrees r) (hit : Hit) :
    (p.offer outside r (hit.offer factory)).pool.Admits
      (p.offer outside r (hit.offer factory)).registry outside factory := by
  refine admits_of_mem ?_
  rw [registry_offer]
  change factory ∈ (p.enlist outside r factory none).2.1.slots
  rw [Admits] at h
  rcases heq : p.enlist outside r factory none with ⟨p', r', slots⟩
  rw [heq] at h
  obtain ⟨⟨slot, release⟩, rfl⟩ := Option.isSome_iff_exists.mp h
  have henlisted := hagrees.enlist heq
  exact Array.mem_of_getElem? (henlisted.agrees slot factory (henlisted.at_slots _ _ rfl).1)

/-- **A desk that has gathered hits**: the pool keeps those that lead, and goes on taking hits. -/
structure Desk.Gathered (d : Desk) (outside : Callback → Bool) (factory : Callback) (room : Nat)
    (hits : List Hit) : Prop where
  /-- The pool represents a roster that keeps the hits that lead. -/
  roster : ∃ slots best, Represents room d.pool d.registry slots ∧ Gathers factory hits slots best
  /-- The factory of the hits finds a slot. -/
  admits : d.pool.Admits d.registry outside factory
  /-- The work is still wanted. -/
  fresh : d.isStale = false

theorem foldl_advance_eq {calls : List (Call Payload)}
    (h : ∀ call ∈ calls, ∃ payload, call = .discard payload) (g : Generations) :
    calls.foldl (fun g call => call.advance g) g = g := by
  induction calls generalizing g with
  | nil => rfl
  | cons call calls ih =>
    obtain ⟨payload, rfl⟩ := h _ List.mem_cons_self
    exact ih (fun other hother => h other (List.mem_cons_of_mem _ hother)) g

/-- Whether an offer leaves the work stale depends on the calls that it makes. -/
theorem Desk.isStale_offer (d : Desk) (outside : Callback → Bool) (o : Offer Payload) :
    (d.offer outside o).1.isStale = d.pool.token.isStale
      ((d.pool.offer outside d.registry o).calls.foldl (fun g call => call.advance g)
        d.generations) := by
  rw [← d.pool.token_offer outside d.registry o]
  rfl

/-- **One hit at a desk**: it is taken. -/
theorem Desk.Gathered.offer (h : d.Gathered outside factory room hits)
    (hrole : factory.role = .factory)
    (hroom : ((hits ++ [x]).map Hit.hash).toFinset.card ≤ room) :
    (d.offer outside (x.offer factory)).2 = .ok () ∧
      (d.offer outside (x.offer factory)).1.Gathered outside factory room (hits ++ [x]) := by
  obtain ⟨slots, best, hrepresents, hgathers⟩ := h.roster
  obtain ⟨⟨htaken, hdrops⟩, best', hgathers'⟩ := hgathers.offer hroom
  have htyped : (x.offer factory).Typed := ⟨hrole, by rintro callback ⟨⟩⟩
  obtain ⟨hrepresents', hcalls, hanswer⟩ := hrepresents.offer htyped h.admits
  have hgenerations := foldl_advance_eq hdrops d.generations
  rw [← hcalls] at hgenerations
  rw [htaken, if_pos rfl] at hanswer
  refine ⟨hanswer, ⟨_, best', hrepresents', hgathers'⟩, h.admits.offer hrepresents.agrees x, ?_⟩
  rw [d.isStale_offer, hgenerations]
  exact h.fresh

end Typeahead
