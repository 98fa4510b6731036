import Typeahead.Desk
import Typeahead.Proofs.Pool.Charges

/-!
# Where builds come from

A desk builds from nothing but what was offered at it, and with the factory that it was offered
with. So whatever is known of all offers is known of all builds: what is in the pool's charge can be
traced to where it came from, each request trades charges for calls, and a call keeps the factory
and the payload of its charge.
-/

namespace Typeahead

variable {origin origin' : Callback → Payload → Prop} {d : Desk} {outside : Callback → Bool}
variable {factory : Callback} {payload : Payload}

/-- **Everything at a desk can be traced**: what is in its pool's charge, and what has been
built. -/
structure Desk.Traced (origin : Callback → Payload → Prop) (d : Desk) : Prop where
  /-- What is in the pool's charge. -/
  charges : ∃ room slots, Represents room d.pool d.registry slots ∧
    ∀ c ∈ slots.charges, origin c.factory c.payload
  /-- What has been built. -/
  builds : ∀ factory payload, .called (.build factory payload) ∈ d.log → origin factory payload

theorem Charge.eq_of_build_mem_settled {c : Charge Payload} {shows : Bool}
    (h : .build factory payload ∈ c.settled shows) : c.factory = factory ∧ c.payload = payload := by
  obtain ⟨payload', factory', release⟩ := c
  cases shows <;> cases release <;> simp_all [settled, shown, returned, Call.back]

namespace Desk

theorem mem_log_call {calls : List (Call Payload)} {occurrence : Occurrence} :
    occurrence ∈ (d.call calls).log ↔
      (∃ call ∈ calls, .called call = occurrence) ∨ occurrence ∈ d.log := by
  have hlog : ∀ log : List Occurrence,
      calls.foldl (fun log call => .called call :: log) log =
        (calls.map .called).reverse ++ log := by
    induction calls with
    | nil => exact fun _ => rfl
    | cons call calls ih =>
      intro log
      rw [List.foldl_cons, ih, List.map_cons, List.reverse_cons, List.append_assoc]
      rfl
  change occurrence ∈ calls.foldl _ d.log ↔ _
  rw [hlog, List.mem_append, List.mem_reverse, List.mem_map]

namespace Traced

/-- Nothing has been offered at a new desk. -/
theorem new (token : Token) (number : RegistryId) (limits : PoolLimits) (registry : Registry)
    (generations : Generations) :
    Traced origin { pool := .empty token number limits, registry, generations } where
  charges :=
    have hsheets : max 1 (min limits.maxSheets 65535) ≤ 65535 := by omega
    ⟨_, [], represents_nil hsheets registry, fun _ hc => absurd hc List.not_mem_nil⟩
  builds _ _ h := absurd h List.not_mem_nil

theorem mono (h : d.Traced origin)
    (hsub : ∀ factory payload, origin factory payload → origin' factory payload) :
    d.Traced origin' := by
  obtain ⟨room, slots, hrepresents, hcharges⟩ := h.charges
  exact ⟨⟨room, slots, hrepresents, fun c hc => hsub _ _ (hcharges c hc)⟩,
    fun factory payload hbuild => hsub _ _ (h.builds factory payload hbuild)⟩

/-- **One request**: whatever is built has been in the pool's charge or comes with the request. -/
theorem respond (h : d.Traced origin) (request : Request Payload)
    (horigin : ∀ c ∈ request.charge?, origin c.factory c.payload) :
    (call { d with
        pool := (d.pool.respond d.registry request).1
        registry := (d.pool.respond d.registry request).2.1 }
      (d.pool.respond d.registry request).2.2.calls).Traced origin := by
  obtain ⟨room, slots, hrepresents, hcharges⟩ := h.charges
  obtain ⟨slots', settled, hrepresents', hcalls, hperm, -⟩ := hrepresents.balance request
  have hall : ∀ c ∈ settled ++ slots'.charges, origin c.factory c.payload := by
    intro c hc
    rcases List.mem_append.mp (hperm.mem_iff.mpr hc) with hc | hc
    · exact horigin c (Option.mem_toList.mp hc)
    · exact hcharges c hc
  refine ⟨⟨room, slots', hrepresents', fun c hc => hall c (List.mem_append_right _ hc)⟩, ?_⟩
  intro factory payload hbuild
  rcases mem_log_call.mp hbuild with ⟨call, hcall, heq⟩ | hbuild
  · obtain rfl := Occurrence.called.inj heq
    rw [hcalls] at hcall
    obtain ⟨c, hc, hsettled⟩ := List.mem_flatMap.mp hcall
    obtain ⟨rfl, rfl⟩ := Charge.eq_of_build_mem_settled hsettled
    exact hall c (List.mem_append_left _ hc)
  · exact h.builds factory payload hbuild

theorem offer (h : d.Traced origin) (outside : Callback → Bool) {o : Offer Payload}
    (typed : o.Typed) (horigin : origin o.factory o.payload) :
    (d.offer outside o).1.Traced origin :=
  h.respond (.tryInsert outside o typed) fun _ hc => Option.some.inj hc ▸ horigin

theorem materialize (h : d.Traced origin) (k : Nat) : (d.materialize k).1.Traced origin :=
  h.respond (.materialize k) nofun

theorem reset (h : d.Traced origin) (token : Token) : (d.reset token).Traced origin :=
  h.respond (.reset token) nofun

/-- Somebody else registers a callback. -/
theorem register (h : d.Traced origin) (outside : Callback → Bool) (c : Callback) :
    Traced origin { d with
      registry := (d.registry.register (fun held => outside held || d.pool.isPinned held) c).1 } :=
  h.respond (.elsewhere outside c) nofun

end Traced

end Desk

end Typeahead
