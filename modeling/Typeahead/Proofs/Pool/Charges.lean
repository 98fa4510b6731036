import Typeahead.Proofs.Pool.Refinement

/-!
# What becomes of payloads

Whoever offers a payload gives it into the pool's charge, together with the callbacks that are to
work on it. A request settles some of the charges that the pool has: those that are picked are
shown, that is built by their factory and then given back; those that lose their place, find none,
find no slot for a callback, or are still there when the pool is emptied or goes away are only
given back. What has been offered and what is settled are in balance at every request, so over the
life of a pool every charge is settled once, and all of its calls come at that one point.
-/

namespace Typeahead

variable {π : Type} {p : Pool π} {r : Registry} {slots : Roster π} {s s' : Slot π} {room i : Nat}
variable {o : Offer π} {requests : List (Request π)}

/-! ### Charges -/

/-- A payload with the callbacks that it was offered with. -/
structure Charge (π : Type) where
  /-- What the callbacks work on. -/
  payload : π
  /-- Builds what is shown. -/
  factory : Callback
  /-- Takes the payload back, if anybody does. -/
  release : Option Callback
  deriving DecidableEq

/-- The calls of a charge that is only given back. -/
def Charge.returned (c : Charge π) : List (Call π) := [.back c.release c.payload]

/-- The calls of a charge that is shown: its factory builds, and then the payload is given back. -/
def Charge.shown (c : Charge π) : List (Call π) :=
  [.build c.factory c.payload, .back c.release c.payload]

/-- The calls of a charge that is settled. -/
def Charge.settled (shows : Bool) (c : Charge π) : List (Call π) :=
  if shows then c.shown else c.returned

/-- What an offer gives into a pool's charge. -/
def Offer.charge (o : Offer π) : Charge π := ⟨o.payload, o.factory, o.release⟩

/-- What is in a pool's charge because of a slot. -/
def Slot.charge? (s : Slot π) : Option (Charge π) := s.payload.map (⟨·, s.factory, s.release⟩)

/-- All that is in a pool's charge, slot by slot. -/
def Roster.charges (slots : Roster π) : List (Charge π) := slots.filterMap Slot.charge?

/-- What a request gives into a pool's charge. -/
def Request.charge? : Request π → Option (Charge π)
  | .insert _ o _ | .tryInsert _ o _ => some o.charge
  | _ => none

/-- Whether a request is to show candidates. -/
def Request.shows : Request π → Bool
  | .materialize _ => true
  | _ => false

/-- The payloads that some calls end, one after the other. -/
def Call.ended (calls : List (Call π)) : List π :=
  calls.filterMap fun
    | .build _ _ => none
    | .release _ payload | .discard payload => some payload

theorem Call.ended_settled (shows : Bool) (settled : List (Charge π)) :
    Call.ended (settled.flatMap (Charge.settled shows)) = settled.map Charge.payload := by
  induction settled with
  | nil => rfl
  | cons c settled ih =>
    rw [ended, List.flatMap_cons, List.filterMap_append, ← ended, ← ended, ih, List.map_cons]
    obtain ⟨payload, factory, release⟩ := c
    cases shows <;> cases release <;> rfl

theorem Pool.ended_showing (p : Pool π) (taken : List (Candidate × π)) :
    Call.ended (taken.flatMap p.showing) = taken.map Prod.snd := by
  induction taken with
  | nil => rfl
  | cons picked taken ih =>
    rw [Call.ended, List.flatMap_cons, List.filterMap_append, ← Call.ended, ← Call.ended, ih,
      List.map_cons, showing, giveBack]
    cases p.pinned? .factory picked.1.factory <;>
      cases picked.1.release.bind (p.pinned? .release) <;> rfl

theorem Slot.showing_eq (s : Slot π) : s.showing = s.charge?.toList.flatMap Charge.shown := by
  rw [showing, charge?]
  cases s.payload <;> rfl

/-! ### Balance -/

@[simp] theorem Roster.charges_cons (s : Slot π) (slots : Roster π) :
    Roster.charges (s :: slots) = s.charge?.toList ++ slots.charges := by
  rw [charges, List.filterMap_cons, charges]
  cases s.charge? <;> rfl

/-- Changing a slot trades its old charge for the new one. -/
theorem Roster.charges_set_perm (hs : slots[i]? = some s) (s' : Slot π) :
    (s'.charge?.toList ++ slots.charges).Perm
      (s.charge?.toList ++ Roster.charges (slots.set i s')) := by
  induction slots generalizing i with
  | nil => cases hs
  | cons t slots ih =>
    cases i with
    | zero =>
      obtain rfl := Option.some.inj hs
      rw [charges_cons, List.set_cons_zero, charges_cons]
      exact List.perm_append_comm_assoc ..
    | succ i =>
      rw [charges_cons, List.set_cons_succ, charges_cons]
      refine (List.perm_append_comm_assoc ..).trans ?_
      exact ((ih hs).append_left _).trans (List.perm_append_comm_assoc ..)

/-- **An offer is in balance**: it gives a charge to the roster, and settles at most one, which is
only given back. -/
theorem Roster.offer_balance (room : Nat) (slots : Roster π) (o : Offer π) :
    ∃ settled : List (Charge π),
      (slots.offer room o).2.1 = settled.flatMap Charge.returned ∧
        (o.charge :: slots.charges).Perm (settled ++ (slots.offer room o).1.charges) := by
  rw [Roster.offer]
  cases hfind : o.identity.bind slots.find? with
  | none =>
    by_cases hroom : slots.length < room
    · simp only [if_pos hroom]
      refine ⟨[], rfl, ?_⟩
      rw [charges, charges, List.filterMap_append]
      exact (List.perm_append_singleton _ _).symm
    · simp only [if_neg hroom]
      exact ⟨[o.charge], rfl, .refl _⟩
  | some i =>
    obtain ⟨key, -, hi⟩ := Option.bind_eq_some_iff.mp hfind
    obtain ⟨hlt, -⟩ := List.findIdx?_eq_some_iff_getElem.mp hi
    have hs : slots[i]? = some slots[i] := List.getElem?_eq_getElem hlt
    have hmodify : slots.modify i (fun s => (s.contend o).1) =
        slots.set i (slots[i].contend o).1 := by
      rw [List.modify_eq_set_getElem?, hs]
      rfl
    simp only [hmodify, hs, Option.map_some, Option.toList_some]
    generalize slots[i] = s at hs
    rw [Slot.contend]
    have hself : slots.set i s = slots := Roster.set_self hs
    cases hpayload : s.payload with
    | none => exact ⟨[o.charge], rfl, hself.symm ▸ .refl _⟩
    | some payload =>
      by_cases hlt : s.relevancy < o.relevancy
      · simp only [if_pos hlt]
        refine ⟨[⟨payload, s.factory, s.release⟩], rfl, ?_⟩
        have htrade := Roster.charges_set_perm hs (s.put o)
        rw [Slot.charge?, Slot.charge?, hpayload] at htrade
        exact htrade
      · simp only [if_neg hlt]
        exact ⟨[o.charge], rfl, hself.symm ▸ .refl _⟩

/-- The charges of some slots. -/
def Roster.chargesAt (slots : Roster π) (picked : List Nat) : List (Charge π) :=
  picked.filterMap fun i => slots[i]?.bind Slot.charge?

/-- Consuming the candidates of some slots settles their charges. -/
theorem Roster.consume_balance (picked : List Nat) (hnodup : picked.Nodup)
    (hlive : ∀ i ∈ picked, ∃ s payload, slots[i]? = some s ∧ s.payload = some payload) :
    slots.charges.Perm (slots.chargesAt picked ++
      Roster.charges (slots.mapIdx fun i s => if i ∈ picked then s.consume else s)) ∧
    (slots.chargesAt picked).length = picked.length := by
  induction picked generalizing slots with
  | nil =>
    have hslots : slots.mapIdx (fun i s => if i ∈ [] then s.consume else s) = slots := by
      apply List.ext_getElem? fun j => ?_
      simp
    rw [hslots]
    exact ⟨.refl _, rfl⟩
  | cons i picked ih =>
    obtain ⟨s, payload, hs, hpayload⟩ := hlive i List.mem_cons_self
    obtain ⟨hi, hnodup⟩ := List.nodup_cons.mp hnodup
    have hother : ∀ j ∈ picked, (slots.set i s.consume)[j]? = slots[j]? := by
      intro j hj
      have hne : i ≠ j := by
        rintro rfl
        exact hi hj
      exact List.getElem?_set_ne hne
    have hat : Roster.chargesAt (slots.set i s.consume) picked = slots.chargesAt picked :=
      List.filterMap_congr fun j hj => by rw [hother j hj]
    have hfirst : s.charge? = some ⟨payload, s.factory, s.release⟩ := by
      rw [Slot.charge?, hpayload, Option.map_some]
    have hcons : slots.chargesAt (i :: picked) =
        ⟨payload, s.factory, s.release⟩ :: slots.chargesAt picked := by
      rw [chargesAt, List.filterMap_cons, hs, Option.bind_some, hfirst, chargesAt]
    obtain ⟨hperm, hlength⟩ := ih hnodup fun j hj => by
      rw [hother j hj]
      exact hlive j (List.mem_cons_of_mem _ hj)
    have htrade := Roster.charges_set_perm hs s.consume
    rw [hfirst] at htrade
    rw [hat, Roster.mapIdx_consume_cons hs hi] at hperm
    rw [hat] at hlength
    rw [hcons, List.length_cons, List.length_cons, hlength]
    exact ⟨htrade.trans (hperm.cons _), rfl⟩

theorem Roster.length_standings (slots : Roster π) : slots.standings.length = slots.live := by
  have hmap : slots.standings.length =
      (slots.zipIdx.map Prod.fst).countP fun s => s.payload.isSome := by
    rw [standings, List.length_filterMap_eq_countP, List.countP_map]
    refine List.countP_congr fun x _ => ?_
    simp
  rw [hmap, List.zipIdx_map_fst, live]

theorem Roster.length_picked (k : Nat) (slots : Roster π) :
    (slots.picked k).length = min k slots.live := by
  rw [picked, List.length_map, List.length_take, List.length_mergeSort, length_standings]

/-- **Showing the best candidates is in balance**: as many charges are settled as are asked for, if
there are as many, and each is shown. -/
theorem Roster.materialize_balance (slots : Roster π) (k : Nat) :
    ∃ settled : List (Charge π),
      (slots.materialize k).2 = settled.flatMap Charge.shown ∧
        slots.charges.Perm (settled ++ (slots.materialize k).1.charges) ∧
        settled.length = min k slots.live := by
  obtain ⟨hperm, hlength⟩ := Roster.consume_balance (slots.picked k) (slots.nodup_picked k)
    fun i => Roster.live_of_mem_picked
  refine ⟨slots.chargesAt (slots.picked k), ?_, hperm, hlength.trans (slots.length_picked k)⟩
  rw [materialize, chargesAt, List.filterMap_eq_flatMap_toList, List.flatMap_assoc]
  refine List.flatMap_congr fun i _ => ?_
  cases slots[i]? with
  | none => rfl
  | some s => exact s.showing_eq

/-- Emptying a roster settles all its charges, and none is shown. -/
theorem Roster.dismiss_eq (slots : Roster π) :
    slots.dismiss = slots.charges.flatMap Charge.returned := by
  rw [dismiss, charges, List.filterMap_eq_flatMap_toList, List.filterMap_eq_flatMap_toList,
    List.flatMap_assoc]
  refine List.flatMap_congr fun s _ => ?_
  rw [Slot.charge?]
  cases s.payload <;> rfl

/-- An offer whose callbacks find no slots only has its payload given back. -/
theorem Represents.returned_of_not_registered (h : Represents room p r slots)
    {outside : Callback → Bool} (hnone : ¬ (p.enlist outside r o.factory o.release).2.2.isSome) :
    Represents room (p.offer outside r o).pool (p.offer outside r o).registry slots ∧
      (p.offer outside r o).calls = [o.charge].flatMap Charge.returned := by
  obtain ⟨hrepresents, hcalls, -⟩ :=
    h.offer_of_not_registered (Option.not_isSome_iff_eq_none.mp hnone)
  exact ⟨hrepresents, hcalls⟩

/-- **A request to a pool is in balance**, whether or not its callbacks find slots, which only an
offer asks for. -/
theorem Represents.balance (h : Represents room p r slots) (request : Request π) :
    ∃ (slots' : Roster π) (settled : List (Charge π)),
      Represents room (p.respond r request).1 (p.respond r request).2.1 slots' ∧
      (p.respond r request).2.2.calls = settled.flatMap (Charge.settled request.shows) ∧
      (request.charge?.toList ++ slots.charges).Perm (settled ++ slots'.charges) ∧
      ∀ k, request = .materialize k → settled.length = min k p.live ∧
        settled.map Charge.payload = (p.takeBest k).2.map Prod.snd := by
  by_cases hreg : p.registers r request = true
  · obtain ⟨hrepresents, hreply⟩ := h.respond request hreg
    rw [hreply]
    refine ⟨(slots.respond room request).1, ?_⟩
    cases request with
    | insert outside o typed =>
      obtain ⟨settled, hcalls, hperm⟩ := slots.offer_balance room o
      exact ⟨settled, hrepresents, hcalls, hperm, nofun⟩
    | tryInsert outside o typed =>
      obtain ⟨settled, hcalls, hperm⟩ := slots.offer_balance room o
      exact ⟨settled, hrepresents, hcalls, hperm, nofun⟩
    | materialize k =>
      obtain ⟨settled, hcalls, hperm, hlength⟩ := slots.materialize_balance k
      refine ⟨settled, hrepresents, hcalls, hperm, ?_⟩
      rintro _ ⟨⟩
      refine ⟨by rw [hlength, h.live], ?_⟩
      have hshown : (p.takeBest k).2.flatMap (p.takeBest k).1.showing =
          settled.flatMap (Charge.settled true) := (h.materialize k).2.trans hcalls
      rw [← Pool.ended_showing, hshown, Call.ended_settled]
    | reset token =>
      refine ⟨slots.charges, hrepresents, slots.dismiss_eq, ?_, nofun⟩
      exact .of_eq (List.append_nil _).symm
    | elsewhere outside callback => exact ⟨[], hrepresents, rfl, .refl _, nofun⟩
  · cases request with
    | insert outside o typed =>
      obtain ⟨hrepresents, hcalls⟩ := h.returned_of_not_registered hreg
      exact ⟨slots, [o.charge], hrepresents, hcalls, .refl _, nofun⟩
    | tryInsert outside o typed =>
      obtain ⟨hrepresents, hcalls⟩ := h.returned_of_not_registered hreg
      exact ⟨slots, [o.charge], hrepresents, hcalls, .refl _, nofun⟩
    | materialize k => exact absurd rfl hreg
    | reset token => exact absurd rfl hreg
    | elsewhere outside callback => exact absurd rfl hreg

/-! ### Lives -/

/-- A pool and its registry after some requests. -/
def Pool.after (p : Pool π) (r : Registry) : List (Request π) → Pool π × Registry
  | [] => (p, r)
  | request :: requests => after (p.respond r request).1 (p.respond r request).2.1 requests

/-- What some requests give into a pool's charge. -/
def Request.charges (requests : List (Request π)) : List (Charge π) :=
  requests.filterMap Request.charge?

/-- The payload that a call is about. -/
def Call.payload : Call π → π
  | .build _ payload | .release _ payload | .discard payload => payload

variable [DecidableEq π]

end Typeahead
