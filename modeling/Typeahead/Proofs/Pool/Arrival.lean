import Mathlib.Data.List.Pairwise
import Mathlib.Order.Bounds.Basic
import Typeahead.Proofs.Pool.Charges
import Typeahead.Proofs.Pool.Contest

/-!
# The order of arrival

Producers work side by side, so nobody knows in which order their offers arrive. Slots are given in
the order of arrival, and an offer that loses may come before or after the one that it loses
against. Still the same things survive with the same relevancies, for what is kept is said of all
offers together: of those for one thing, one than which none is more relevant. If there is only one
such offer for each thing, then the offers that are kept are the same as well, and since no two of
them are for one thing, there is only one order in which they are shown.
-/

namespace Typeahead

variable {π : Type} {offers offers' best best' : List (Offer π)} {o x : Offer π}
variable {slots slots' : Roster π} {p : Pool π} {r : Registry} {room : Nat}

/-! ### Offers in any order -/

namespace Offer

/-- No offer for the same thing is more relevant. -/
def Tops (offers : List (Offer π)) (o : Offer π) : Prop :=
  ∀ x ∈ offers, x.identity = o.identity → x.relevancy ≤ o.relevancy

instance : Decidable (Tops offers o) :=
  inferInstanceAs (Decidable (∀ x ∈ offers, x.identity = o.identity → x.relevancy ≤ o.relevancy))

/-- For no thing is the greatest relevancy offered twice. -/
def TopsOnce (offers : List (Offer π)) : Prop :=
  offers.Pairwise fun o x => o.identity = x.identity → o.Tops offers → ¬ x.Tops offers

instance : Decidable (TopsOnce offers) :=
  inferInstanceAs (Decidable (offers.Pairwise fun o x =>
    o.identity = x.identity → o.Tops offers → ¬ x.Tops offers))

theorem Leads.tops (h : o.Leads offers) : o.Tops offers := fun _ hx hsame =>
  Int.not_lt.mp (h.not_lt hx hsame)

theorem tops_congr (hperm : offers.Perm offers') : o.Tops offers ↔ o.Tops offers' := by
  simp only [Tops, hperm.mem_iff]

/-- An offer than which none is more relevant leads, if there is only one such for its thing. -/
theorem Tops.leads (h : o.Tops offers) (ho : o ∈ offers) (honce : TopsOnce offers) :
    o.Leads offers := by
  obtain ⟨lead, hleads, hsame⟩ := exists_leads ho
  have hsymm : Std.Symm fun o x : Offer π =>
      o.identity = x.identity → o.Tops offers → ¬ x.Tops offers :=
    ⟨fun _ _ hone heq htops htops' => hone heq.symm htops' htops⟩
  by_cases heq : lead = o
  · exact heq ▸ hleads
  · exact absurd h (honce.forall hleads.mem ho heq hsame hleads.tops)

end Offer

namespace Keeps

/-- **The relevancy that survives for a thing is the greatest that has been offered for it.** -/
theorem mem_relevancies_iff (h : Keeps offers slots best) {key : UInt32} {relevancy : Score} :
    (∃ o ∈ best, o.identity = some key ∧ o.relevancy = relevancy) ↔
      IsGreatest {s | ∃ o ∈ offers, o.identity = some key ∧ o.relevancy = s} relevancy := by
  constructor
  · rintro ⟨o, ho, hkey, rfl⟩
    have hleads := (h.mem_iff o).mp ho
    refine ⟨⟨o, hleads.mem, hkey, rfl⟩, ?_⟩
    rintro _ ⟨x, hx, hkey', rfl⟩
    exact hleads.tops x hx (hkey'.trans hkey.symm)
  · rintro ⟨⟨x, hx, hkey, rfl⟩, hupper⟩
    obtain ⟨o, ho, hsame⟩ := h.exists_of_mem hx
    have hleads := (h.mem_iff o).mp ho
    refine ⟨o, ho, hsame.trans hkey, ?_⟩
    have hle : o.relevancy.value ≤ x.relevancy.value :=
      hupper ⟨o, hleads.mem, hsame.trans hkey, rfl⟩
    exact Score.ext (Int.le_antisymm hle (hleads.tops x hx hsame.symm))

/-- **The same offers are kept, in whatever order they arrive**, if for each thing there is only one
of the greatest relevancy. -/
theorem perm (h : Keeps offers slots best) (h' : Keeps offers' slots' best')
    (hperm : offers.Perm offers') (honce : Offer.TopsOnce offers) : best.Perm best' := by
  have hsub : ∀ o ∈ best', o ∈ best := by
    intro o ho
    have hleads := (h'.mem_iff o).mp ho
    refine (h.mem_iff o).mpr (((Offer.tops_congr hperm).mpr hleads.tops).leads ?_ honce)
    exact hperm.mem_iff.mpr hleads.mem
  refine (List.perm_ext_iff_of_nodup h.nodup.of_map h'.nodup.of_map).mpr fun o =>
    ⟨fun ho => ?_, hsub o⟩
  obtain ⟨o', ho', hsame⟩ := h'.exists_of_mem (hperm.mem_iff.mp ((h.mem_iff o).mp ho).mem)
  rwa [← List.inj_on_of_nodup_map h.nodup (hsub o' ho') ho hsame]

/-- Offers for different things can be sorted in one way only. -/
theorem mergeSort_eq (h : Keeps offers slots best) (hperm : best.Perm best') :
    best.mergeSort Offer.before = best'.mergeSort Offer.before := by
  refine mergeSort_eq_of_perm Offer.relevancy Offer.number (fun _ _ => Offer.before_iff) hperm
    fun a ha b hb hnumber => ?_
  exact List.inj_on_of_nodup_map h.nodup ha hb
    ((Offer.number_inj (h.named_of_mem ha) (h.named_of_mem hb)).mp hnumber)

end Keeps

/-! ### Pools that are fed -/

/-- What a request offers. -/
def Request.offer? : Request π → Option (Offer π)
  | .insert _ o _ | .tryInsert _ o _ => some o
  | _ => none

/-- What some requests offer. -/
def Request.offered (requests : List (Request π)) : List (Offer π) :=
  requests.filterMap Request.offer?

/-- A request that feeds a pool: it offers a candidate for a thing that it names, or is none of the
pool's. Nothing is shown, and the pool is not emptied. -/
def Request.Feeds : Request π → Prop
  | .insert _ o _ | .tryInsert _ o _ => o.identity.isSome = true
  | .elsewhere _ _ => True
  | .materialize _ | .reset _ => False

/-- What survives in a pool: which things, and how relevant their candidates are. -/
def Pool.survivors (p : Pool π) : List (UInt32 × Score) :=
  p.sheets.live.map fun c => (c.identity, c.relevancy)

/-- Some things are no more than they are together with others. -/
theorem card_identities_le (offers others : List (Offer π)) :
    (offers.map Offer.identity).toFinset.card ≤
      ((offers ++ others).map Offer.identity).toFinset.card := by
  rw [List.map_append, List.toFinset_append]
  exact Finset.card_le_card Finset.subset_union_left

/-- **One request**: a pool that is fed keeps the offers that lead. -/
theorem Represents.feed (h : Represents room p r slots) (hkeeps : Keeps offers slots best)
    {request : Request π} (hfeeds : request.Feeds) (hreg : p.registers r request = true)
    (hroom : ((offers ++ request.offer?.toList).map Offer.identity).toFinset.card ≤ room) :
    ∃ slots' best', Represents room (p.respond r request).1 (p.respond r request).2.1 slots' ∧
      Keeps (offers ++ request.offer?.toList) slots' best' := by
  obtain ⟨hrepresents, -⟩ := h.respond request hreg
  cases request with
  | insert outside o typed =>
    obtain ⟨-, -, best', hkeeps'⟩ := hkeeps.offer hfeeds hroom
    exact ⟨_, best', hrepresents, hkeeps'⟩
  | tryInsert outside o typed =>
    obtain ⟨-, -, best', hkeeps'⟩ := hkeeps.offer hfeeds hroom
    exact ⟨_, best', hrepresents, hkeeps'⟩
  | materialize k => exact hfeeds.elim
  | reset token => exact hfeeds.elim
  | elsewhere outside callback =>
    refine ⟨slots, best, hrepresents, ?_⟩
    change Keeps (offers ++ []) slots best
    rwa [List.append_nil]

/-- **A run of requests**: a pool that is fed keeps the offers that lead. -/
theorem Represents.feedAll (h : Represents room p r slots) (hkeeps : Keeps offers slots best)
    {requests : List (Request π)} (hfeeds : ∀ request ∈ requests, request.Feeds)
    (hreg : p.RegistersAll r requests)
    (hroom : ((offers ++ Request.offered requests).map Offer.identity).toFinset.card ≤ room) :
    ∃ slots' best', Represents room (p.after r requests).1 (p.after r requests).2 slots' ∧
      Keeps (offers ++ Request.offered requests) slots' best' := by
  induction requests generalizing p r slots offers best with
  | nil =>
    rw [Request.offered, List.filterMap_nil, List.append_nil]
    exact ⟨slots, best, h, hkeeps⟩
  | cons request requests ih =>
    have hcons : offers ++ Request.offered (request :: requests) =
        (offers ++ request.offer?.toList) ++ Request.offered requests := by
      rw [Request.offered, List.filterMap_cons, List.append_assoc, Request.offered]
      cases request.offer? <;> rfl
    rw [hcons] at hroom ⊢
    obtain ⟨hnow, hlater⟩ := hreg
    obtain ⟨slots', best', hrepresents, hkeeps'⟩ :=
      h.feed hkeeps (hfeeds request List.mem_cons_self) hnow
        ((card_identities_le _ _).trans hroom)
    exact ih hrepresents hkeeps'
      (fun other hother => hfeeds other (List.mem_cons_of_mem _ hother)) hlater hroom

/-- What survives in a pool are the things of the offers that are kept, with their relevancies. -/
theorem Represents.survivors_eq (h : Represents room p r slots) (hkeeps : Keeps offers slots best) :
    p.survivors = best.map fun o => (o.identity.getD 0, o.relevancy) := by
  have hinj : Function.Injective (Prod.map UInt32.toNat id : UInt32 × Score → Nat × Score) :=
    Function.Injective.prodMap (fun _ _ => UInt32.toNat_inj.mp) Function.injective_id
  have hstandings : p.sheets.live.map Candidate.standing = best.zipIdx.map Offer.standing :=
    h.map_standing_live.trans hkeeps.standings_eq
  refine List.map_injective_iff.mpr hinj ?_
  calc p.survivors.map (Prod.map UInt32.toNat id)
      = (p.sheets.live.map Candidate.standing).map fun s => (s.number, s.relevancy) := by
        rw [Pool.survivors, List.map_map, List.map_map]
        rfl
    _ = (best.zipIdx.map Prod.fst).map fun o => (o.number, o.relevancy) := by
        rw [hstandings, List.map_map, List.map_map]
        rfl
    _ = (best.map fun o => (o.identity.getD 0, o.relevancy)).map (Prod.map UInt32.toNat id) := by
        rw [List.zipIdx_map_fst, List.map_map]
        refine List.map_congr_left fun o ho => ?_
        obtain ⟨key, hkey⟩ := Option.isSome_iff_exists.mp (hkeeps.named_of_mem ho)
        rw [Function.comp_apply, Offer.number, hkey]
        rfl

/-- A thing survives with the greatest relevancy that has been offered for it, and only once. -/
theorem Represents.mem_survivors_iff (h : Represents room p r slots)
    (hkeeps : Keeps offers slots best) {key : UInt32} {relevancy : Score} :
    (key, relevancy) ∈ p.survivors ↔
      IsGreatest {s | ∃ o ∈ offers, o.identity = some key ∧ o.relevancy = s} relevancy := by
  rw [h.survivors_eq hkeeps, ← hkeeps.mem_relevancies_iff, List.mem_map]
  refine exists_congr fun o => and_congr_right fun ho => ?_
  obtain ⟨key', hkey⟩ := Option.isSome_iff_exists.mp (hkeeps.named_of_mem ho)
  rw [Prod.mk.injEq, hkey, Option.getD_some, Option.some.injEq]

theorem Represents.nodup_survivors (h : Represents room p r slots)
    (hkeeps : Keeps offers slots best) : (p.survivors.map Prod.fst).Nodup := by
  have hkeys : (p.survivors.map Prod.fst).map some = best.map Offer.identity := by
    rw [h.survivors_eq hkeeps, List.map_map, List.map_map]
    refine List.map_congr_left fun o ho => ?_
    obtain ⟨key, hkey⟩ := Option.isSome_iff_exists.mp (hkeeps.named_of_mem ho)
    rw [Function.comp_apply, Function.comp_apply, hkey, Option.getD_some]
  exact .of_map some (hkeys ▸ hkeeps.nodup)

/-- A new pool that is fed. -/
theorem Pool.exists_keeps (token : Token) (registry : RegistryId) (limits : PoolLimits)
    {requests : List (Request π)} (hfeeds : ∀ request ∈ requests, request.Feeds)
    (hreg : (Pool.empty token registry limits).RegistersAll r requests)
    (hroom : ((Request.offered requests).map Offer.identity).toFinset.card ≤
      (Pool.empty token registry limits : Pool π).capacity) :
    ∃ room slots best,
      Represents room ((Pool.empty token registry limits).after r requests).1
        ((Pool.empty token registry limits).after r requests).2 slots ∧
      Keeps (Request.offered requests) slots best := by
  have hsheets : max 1 (min limits.maxSheets 65535) ≤ 65535 := by omega
  exact ⟨_, (represents_nil hsheets r).feedAll keeps_nil hfeeds hreg hroom⟩

/-- **The order of arrival makes no difference.** Two new pools, perhaps of different sizes and at
different registries, are given the same offers in two orders, each for a thing that it names; all
callbacks find slots, and there is room for all things. Then the same things survive in both, each
once and with the greatest relevancy that has been offered for it. If that is offered only once for
each thing, then showing the `k` best makes the same calls in both: the same factories build from
the same payloads in the same order. -/
theorem Pool.order_of_arrival {requests requests' : List (Request π)}
    (hfeeds : ∀ request ∈ requests, request.Feeds)
    (hfeeds' : ∀ request ∈ requests', request.Feeds)
    (hperm : (Request.offered requests).Perm (Request.offered requests'))
    (token token' : Token) (registry registry' : RegistryId) (limits limits' : PoolLimits)
    {r r' : Registry} (hreg : (Pool.empty token registry limits).RegistersAll r requests)
    (hreg' : (Pool.empty token' registry' limits').RegistersAll r' requests')
    (hroom : ((Request.offered requests).map Offer.identity).toFinset.card ≤
      (Pool.empty token registry limits : Pool π).capacity)
    (hroom' : ((Request.offered requests').map Offer.identity).toFinset.card ≤
      (Pool.empty token' registry' limits' : Pool π).capacity) :
    let p := ((Pool.empty token registry limits).after r requests).1
    let p' := ((Pool.empty token' registry' limits').after r' requests').1
    p.survivors.Perm p'.survivors ∧ (p.survivors.map Prod.fst).Nodup ∧
      (∀ key relevancy, (key, relevancy) ∈ p.survivors ↔
        IsGreatest {s | ∃ o ∈ Request.offered requests, o.identity = some key ∧ o.relevancy = s}
          relevancy) ∧
      (Offer.TopsOnce (Request.offered requests) →
        ∀ k, (p.materialize k).2 = (p'.materialize k).2) := by
  intro p p'
  obtain ⟨room, slots, best, hrepresents, hkeeps⟩ :=
    Pool.exists_keeps token registry limits hfeeds hreg hroom
  obtain ⟨room', slots', best', hrepresents', hkeeps'⟩ :=
    Pool.exists_keeps token' registry' limits' hfeeds' hreg' hroom'
  have hsurvivors : ∀ key relevancy, (key, relevancy) ∈ p.survivors ↔
      IsGreatest {s | ∃ o ∈ Request.offered requests, o.identity = some key ∧ o.relevancy = s}
        relevancy := fun _ _ => hrepresents.mem_survivors_iff hkeeps
  have hnodup := hrepresents.nodup_survivors hkeeps
  refine ⟨?_, hnodup, hsurvivors, fun honce k => ?_⟩
  · refine (List.perm_ext_iff_of_nodup hnodup.of_map
      (hrepresents'.nodup_survivors hkeeps').of_map).mpr fun (key, relevancy) => ?_
    rw [hsurvivors, hrepresents'.mem_survivors_iff hkeeps']
    simp only [hperm.mem_iff]
  · have hbest := hkeeps.mergeSort_eq (hkeeps.perm hkeeps' hperm honce)
    calc (p.materialize k).2 = (slots.materialize k).2 := (hrepresents.materialize k).2
      _ = (slots'.materialize k).2 := by rw [hkeeps.materialize, hkeeps'.materialize, hbest]
      _ = (p'.materialize k).2 := (hrepresents'.materialize k).2.symm

/-- Two offers for one thing and one for another: the better one of the two comes last, or it comes
first, and to a pool with more sheets. -/
theorem Pool.order_of_arrival_late_or_early :
    let label : Callback := ⟨0, .label "label"⟩
    let back : Callback := ⟨1, .swallow "back" none⟩
    let worse : Offer Nat := ⟨some 7, .zero, 100, label, some back⟩
    let other : Offer Nat := ⟨some 8, .zero, 200, label, none⟩
    let better : Offer Nat := ⟨some 7, .greatest, 300, label, some back⟩
    let requests : List (Request Nat) := [
      .insert (fun _ => false) worse ⟨rfl, by simp [worse, back]; rfl⟩,
      .tryInsert (fun _ => false) other ⟨rfl, by simp [other]⟩,
      .insert (fun _ => false) better ⟨rfl, by simp [better, back]; rfl⟩]
    let requests' : List (Request Nat) := [
      .tryInsert (fun _ => false) better ⟨rfl, by simp [better, back]; rfl⟩,
      .insert (fun _ => false) worse ⟨rfl, by simp [worse, back]; rfl⟩,
      .insert (fun _ => false) other ⟨rfl, by simp [other]⟩]
    let p : Pool Nat := ((Pool.empty .never 0 ⟨1⟩).after (.ofCapacity 2) requests).1
    let p' : Pool Nat := ((Pool.empty .never 1 ⟨3⟩).after .standard requests').1
    Offer.TopsOnce (Request.offered requests) ∧ p.survivors.Perm p'.survivors ∧
      ∀ k, (p.materialize k).2 = (p'.materialize k).2 := by
  intro label back worse other better requests requests' p p'
  have honce : Offer.TopsOnce (Request.offered requests) := by decide +kernel
  have hfeeds : ∀ request ∈ requests, request.Feeds := by
    simp [requests, Request.Feeds, worse, other, better]
  have hfeeds' : ∀ request ∈ requests', request.Feeds := by
    simp [requests', Request.Feeds, worse, other, better]
  have hperm : (Request.offered requests).Perm (Request.offered requests') :=
    (List.perm_append_comm : ([worse, other] ++ [better]).Perm ([better] ++ [worse, other]))
  have hreg : (Pool.empty .never 0 ⟨1⟩).RegistersAll (.ofCapacity 2) requests :=
    ⟨by decide +kernel, by decide +kernel, by decide +kernel, trivial⟩
  have hreg' : (Pool.empty .never 1 ⟨3⟩).RegistersAll .standard requests' :=
    ⟨by decide +kernel, by decide +kernel, by decide +kernel, trivial⟩
  obtain ⟨hsurvivors, -, -, hcalls⟩ := Pool.order_of_arrival hfeeds hfeeds' hperm .never .never 0 1
    ⟨1⟩ ⟨3⟩ hreg hreg' (by decide +kernel) (by decide +kernel)
  exact ⟨honce, hsurvivors, hcalls honce⟩

end Typeahead
