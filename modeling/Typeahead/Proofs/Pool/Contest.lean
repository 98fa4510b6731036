import Mathlib.Data.Finset.Card
import Mathlib.Data.List.MinMax
import Typeahead.Proofs.Pool.Refinement

/-!
# Contests

When offers that name their things are made to a roster one after the other, and nothing is shown
in between, the roster keeps of the offers for one thing the most relevant, and of several such the
first. That is what it says at any time, and an offer makes one step: it is the first for its thing,
or it is better than the one that the roster has, or nothing changes. Showing then goes through the
offers that are kept by their relevancies, and among those of one relevancy by their things, which
are all different.
-/

namespace Typeahead

instance : Preorder Score where
  le_refl s := Int.le_refl s.value
  le_trans _ _ _ h h' := Int.le_trans h h'
  lt_iff_le_not_ge _ _ := Int.lt_iff_le_and_not_ge

variable {π : Type} {offers best : List (Offer π)} {o x y : Offer π} {slots : Roster π}
variable {room : Nat}

theorem argmax_map {α β : Type} {l : List α} {g : α → β} {f : β → Score} {f' : α → Score}
    (h : ∀ x ∈ l, f (g x) = f' x) : (l.map g).argmax f = (l.argmax f').map g := by
  induction l using List.reverseRecOn with
  | nil => rfl
  | append_singleton l x ih =>
    rw [List.map_append, List.map_singleton, List.argmax_concat, List.argmax_concat,
      ih fun y hy => h y (List.mem_append_left _ hy)]
    cases hmax : l.argmax f' with
    | none => rfl
    | some y =>
      dsimp only [Option.map_some]
      rw [h x (List.mem_append_right _ (List.mem_singleton_self x)),
        h y (List.mem_append_left _ (List.argmax_mem hmax))]
      split_ifs <;> rfl

/-! ### Two offers for one thing -/

namespace Offer

/-- What decides between offers of the same relevancy: the thing. -/
def number (o : Offer π) : Nat := (o.identity.map UInt32.toNat).getD 0

/-- The slot of an offer that is kept. -/
def slot (o : Offer π) : Slot π where
  key := o.identity
  number := o.number
  relevancy := o.relevancy
  factory := o.factory
  release := o.release
  payload := some o.payload

/-- Which of two offers has the slot of the first one afterwards: the second only if it is
better. -/
def winner (o x : Offer π) : Offer π := if o.relevancy < x.relevancy then x else o

/-- Which of two offers is turned away. -/
def loser (o x : Offer π) : Offer π := if o.relevancy < x.relevancy then o else x

theorem identity_winner (h : o.identity = x.identity) :
    (o.winner x).identity = x.identity := by
  rw [winner]
  split_ifs
  · rfl
  · exact h

theorem loser_eq_or (o x : Offer π) : o.loser x = o ∨ o.loser x = x := by
  rw [loser]
  split_ifs
  · exact .inl rfl
  · exact .inr rfl

/-- An offer set against the one that has its slot. -/
theorem contend_slot (h : o.identity = x.identity) :
    o.slot.contend x =
      ((o.winner x).slot, .back (o.loser x).release (o.loser x).payload) := by
  rw [Slot.contend, winner, loser]
  change (if o.relevancy < x.relevancy then _ else _ : Slot π × Call π) = _
  split_ifs
  · rw [Slot.put, slot, slot, number, number, h]
  · rfl

/-- An offer that names its thing gets that slot when it is the first one. -/
theorem fresh_eq_slot (slots : Roster π) (hnamed : o.identity.isSome = true) :
    slots.fresh o = o.slot := by
  obtain ⟨key, hkey⟩ := Option.isSome_iff_exists.mp hnamed
  rw [Roster.fresh, slot, number, hkey]
  rfl

/-- Things with the same number are the same. -/
theorem number_inj (ho : o.identity.isSome = true) (hx : x.identity.isSome = true) :
    o.number = x.number ↔ o.identity = x.identity := by
  obtain ⟨key, hkey⟩ := Option.isSome_iff_exists.mp ho
  obtain ⟨key', hkey'⟩ := Option.isSome_iff_exists.mp hx
  rw [number, number, hkey, hkey', Option.some.injEq]
  exact UInt32.toNat_inj

/-! ### Who leads -/

/-- An offer is the best of those for its thing, and the first of the best. -/
def Leads (offers : List (Offer π)) (o : Offer π) : Prop :=
  (offers.filter fun other => other.identity = o.identity).argmax Offer.relevancy = some o

theorem Leads.mem (h : Leads offers o) : o ∈ offers :=
  List.mem_of_mem_filter (List.argmax_mem h)

/-- No offer for the same thing is better than the one that leads. -/
theorem Leads.not_lt (h : Leads offers o) (hx : x ∈ offers) (hsame : x.identity = o.identity) :
    ¬ o.relevancy < x.relevancy :=
  List.not_lt_of_mem_argmax (List.mem_filter.mpr ⟨hx, decide_eq_true hsame⟩) h

/-- An offer for another thing makes no difference. -/
theorem leads_append_of_ne (h : x.identity ≠ o.identity) :
    Leads (offers ++ [x]) o ↔ Leads offers o := by
  rw [Leads, Leads, List.filter_append, List.filter_singleton, decide_eq_false h]
  simp

/-- Another offer for the same thing leads if it is better than the one that has led. -/
theorem leads_append_of_leads (h : Leads offers o) (hsame : x.identity = o.identity)
    (hy : y.identity = x.identity) : Leads (offers ++ [x]) y ↔ y = o.winner x := by
  rw [Leads, List.filter_append, List.filter_singleton, decide_eq_true hy.symm, hy, hsame]
  change (_ ++ [x] : List (Offer π)).argmax _ = _ ↔ _
  rw [List.argmax_concat, show List.argmax _ _ = some o from h, winner]
  dsimp only
  split_ifs <;> rw [Option.some.injEq, eq_comm]

/-- The first offer for a thing leads. -/
theorem leads_append_of_new (h : ∀ other ∈ offers, other.identity ≠ x.identity)
    (hy : y.identity = x.identity) : Leads (offers ++ [x]) y ↔ y = x := by
  rw [Leads, List.filter_append, List.filter_singleton, decide_eq_true hy.symm, hy,
    List.filter_eq_nil_iff.mpr fun other hother => by simpa using h other hother]
  change some x = some y ↔ _
  rw [Option.some.injEq, eq_comm]

/-- For every thing that is offered an offer leads. -/
theorem exists_leads (hx : x ∈ offers) : ∃ o, Leads offers o ∧ o.identity = x.identity := by
  cases hlead : (offers.filter fun other => other.identity = x.identity).argmax Offer.relevancy with
  | none =>
    have hmem : x ∈ offers.filter fun other => other.identity = x.identity :=
      List.mem_filter.mpr ⟨hx, decide_eq_true rfl⟩
    rw [List.argmax_eq_none.mp hlead] at hmem
    exact absurd hmem List.not_mem_nil
  | some o =>
    have hsame : o.identity = x.identity :=
      of_decide_eq_true (List.mem_filter.mp (List.argmax_mem hlead)).2
    refine ⟨o, ?_, hsame⟩
    rwa [Leads, hsame]

end Offer

/-! ### Rosters that keep the best offers -/

/-- **A roster keeps the offers that lead**, one for each thing. -/
structure Keeps (offers : List (Offer π)) (slots : Roster π) (best : List (Offer π)) : Prop where
  /-- All offers name their things. -/
  named : ∀ o ∈ offers, o.identity.isSome = true
  /-- The slots are those of the offers that are kept. -/
  slots_eq : slots = best.map Offer.slot
  /-- They are for different things. -/
  nodup : (best.map Offer.identity).Nodup
  /-- They are those that lead. -/
  mem_iff : ∀ o, o ∈ best ↔ o.Leads offers

theorem keeps_nil : Keeps ([] : List (Offer π)) [] [] where
  named _ ho := absurd ho List.not_mem_nil
  slots_eq := rfl
  nodup := .nil
  mem_iff _ := ⟨fun h => absurd h List.not_mem_nil, fun h => absurd h.mem List.not_mem_nil⟩

namespace Keeps

/-- For every thing an offer is kept. -/
theorem exists_of_mem (h : Keeps offers slots best) (hx : x ∈ offers) :
    ∃ o ∈ best, o.identity = x.identity := by
  obtain ⟨o, hleads, hsame⟩ := Offer.exists_leads hx
  exact ⟨o, (h.mem_iff o).mpr hleads, hsame⟩

theorem named_of_mem (h : Keeps offers slots best) (ho : o ∈ best) : o.identity.isSome = true :=
  h.named o ((h.mem_iff o).mp ho).mem

theorem named_append (h : Keeps offers slots best) (hnamed : x.identity.isSome = true) :
    ∀ o ∈ offers ++ [x], o.identity.isSome = true := by
  intro o ho
  rcases List.mem_append.mp ho with ho | ho
  · exact h.named o ho
  · exact List.mem_singleton.mp ho ▸ hnamed

/-- Looking for the thing of an offer finds the offer that is kept for it. -/
theorem bind_find?_eq (h : Keeps offers slots best) (hnamed : x.identity.isSome = true) :
    x.identity.bind slots.find? = best.findIdx? fun o => o.identity = x.identity := by
  obtain ⟨key, hkey⟩ := Option.isSome_iff_exists.mp hnamed
  rw [hkey, Option.bind_some, Roster.find?, h.slots_eq, List.findIdx?_map]
  rfl

/-- What becomes of one more offer: it is taken, calls go to those that are turned away, and the
roster keeps the offers that lead. -/
structure Taken (offers : List (Offer π)) (x : Offer π)
    (after : Roster π × List (Call π) × Bool) : Prop where
  taken : after.2.2 = true
  calls : ∀ call ∈ after.2.1, ∃ o ∈ offers ++ [x], call = .back o.release o.payload
  keeps : ∃ best, Keeps (offers ++ [x]) after.1 best

/-- An offer for a new thing gets the next slot. -/
theorem offer_of_new (h : Keeps offers slots best) (hnamed : x.identity.isSome = true)
    (hnew : ∀ o ∈ best, o.identity ≠ x.identity) (hroom : best.length < room) :
    Taken offers x (slots.offer room x) := by
  have hfind : x.identity.bind slots.find? = none := by
    rw [h.bind_find?_eq hnamed, List.findIdx?_eq_none_iff]
    exact fun o ho => decide_eq_false (hnew o ho)
  have hlength : slots.length < room := by rwa [h.slots_eq, List.length_map]
  have hoffer : slots.offer room x = (slots ++ [x.slot], [], true) := by
    rw [Roster.offer, hfind, ← Offer.fresh_eq_slot slots hnamed]
    exact if_pos hlength
  have hunknown : ∀ other ∈ offers, other.identity ≠ x.identity := by
    intro other hother heq
    obtain ⟨o, ho, hsame⟩ := h.exists_of_mem hother
    exact hnew o ho (hsame.trans heq)
  rw [hoffer]
  refine ⟨rfl, fun call hcall => absurd hcall List.not_mem_nil, best ++ [x],
    h.named_append hnamed, ?_, ?_, fun o => ?_⟩
  · rw [h.slots_eq, List.map_append]
    rfl
  · rw [List.map_append, List.nodup_append]
    refine ⟨h.nodup, List.nodup_singleton _, ?_⟩
    rintro _ hkey _ hx rfl
    obtain ⟨o, ho, heq⟩ := List.mem_map.mp hkey
    exact hnew o ho (heq.trans (List.mem_singleton.mp hx))
  · rw [List.mem_append, List.mem_singleton]
    by_cases hsame : o.identity = x.identity
    · rw [Offer.leads_append_of_new hunknown hsame]
      exact or_iff_right fun ho => hnew o ho hsame
    · rw [Offer.leads_append_of_ne (Ne.symm hsame), ← h.mem_iff]
      refine or_iff_left ?_
      rintro rfl
      exact hsame rfl

/-- As long as there is room for every thing, there is room for an offer for a new one. -/
theorem length_lt (h : Keeps offers slots best) (hnew : ∀ o ∈ best, o.identity ≠ x.identity)
    (hroom : ((offers ++ [x]).map Offer.identity).toFinset.card ≤ room) : best.length < room := by
  have hnodup : ((x :: best).map Offer.identity).Nodup := by
    rw [List.map_cons, List.nodup_cons, List.mem_map]
    exact ⟨fun ⟨o, ho, hsame⟩ => hnew o ho hsame, h.nodup⟩
  have hsub : ((x :: best).map Offer.identity).toFinset ⊆
      ((offers ++ [x]).map Offer.identity).toFinset := by
    intro key hkey
    rw [List.mem_toFinset, List.mem_map] at hkey ⊢
    obtain ⟨o, ho, rfl⟩ := hkey
    refine ⟨o, List.mem_append.mpr ?_, rfl⟩
    rcases List.mem_cons.mp ho with rfl | ho
    · exact .inr (List.mem_singleton_self _)
    · exact .inl ((h.mem_iff o).mp ho).mem
  have hcard := (Finset.card_le_card hsub).trans hroom
  rwa [List.toFinset_card_of_nodup hnodup, List.length_map] at hcard

/-- An offer for a known thing is set against the one that has led. -/
theorem offer_eq (h : Keeps offers slots best) {i : Nat}
    (hfind : x.identity.bind slots.find? = some i) (hget : best[i]? = some o)
    (hsame : o.identity = x.identity) (room : Nat) :
    slots.offer room x =
      ((best.set i (o.winner x)).map Offer.slot,
        [.back (o.loser x).release (o.loser x).payload], true) := by
  have hslot : slots[i]? = some o.slot := by
    rw [h.slots_eq, List.getElem?_map, hget, Option.map_some]
  rw [Roster.offer, hfind]
  dsimp only
  rw [List.modify_eq_set_getElem?, hslot, Option.map_eq_map, Option.map_some, Option.map_some,
    Offer.contend_slot hsame, h.slots_eq, List.map_set]
  rfl

/-- An offer for a known thing takes the place of the one that has led, or nothing changes. -/
theorem offer_of_known (h : Keeps offers slots best) (hnamed : x.identity.isSome = true) {i : Nat}
    (hfind : x.identity.bind slots.find? = some i) :
    Taken offers x (slots.offer room x) := by
  obtain ⟨hlt, hsame, -⟩ :=
    List.findIdx?_eq_some_iff_getElem.mp (h.bind_find?_eq hnamed ▸ hfind)
  replace hsame := of_decide_eq_true hsame
  have hget : best[i]? = some best[i] := List.getElem?_eq_getElem hlt
  have hmem : best[i] ∈ best := List.getElem_mem hlt
  generalize best[i] = o at hsame hget hmem
  have hwinner := Offer.identity_winner hsame
  have hkeys : (best.set i (o.winner x)).map Offer.identity = best.map Offer.identity := by
    obtain ⟨hlt, rfl⟩ := List.getElem?_eq_some_iff.mp hget
    rw [List.map_set, hwinner, ← hsame, ← List.map_set, List.set_getElem_self]
  have hnodup : ((best.set i (o.winner x)).map Offer.identity).Nodup := hkeys ▸ h.nodup
  rw [h.offer_eq hfind hget hsame]
  refine ⟨rfl, fun call hcall => ⟨o.loser x, ?_, List.mem_singleton.mp hcall⟩,
    best.set i (o.winner x), h.named_append hnamed, rfl, hnodup, fun y => ?_⟩
  · rw [List.mem_append, List.mem_singleton]
    refine (o.loser_eq_or x).imp_left fun hloser => ?_
    rw [hloser]
    exact ((h.mem_iff o).mp hmem).mem
  by_cases hy : y.identity = x.identity
  · rw [Offer.leads_append_of_leads ((h.mem_iff o).mp hmem) hsame.symm hy]
    refine ⟨fun hin => ?_, fun heq => heq ▸ List.mem_set hlt _⟩
    exact List.inj_on_of_nodup_map hnodup hin (List.mem_set hlt _) (hy.trans hwinner.symm)
  · rw [Offer.leads_append_of_ne (Ne.symm hy), ← h.mem_iff]
    constructor
    · intro hin
      refine (List.mem_or_eq_of_mem_set hin).resolve_right ?_
      rintro rfl
      exact hy hwinner
    · intro hin
      obtain ⟨j, hj⟩ := List.mem_iff_getElem?.mp hin
      refine List.mem_iff_getElem?.mpr ⟨j, ?_⟩
      rw [List.getElem?_set_ne, hj]
      rintro rfl
      obtain rfl := Option.some.inj (hget.symm.trans hj)
      exact hy hsame

/-- **One offer**: a roster that has room for all things takes it, and keeps the offers that
lead. -/
theorem offer (h : Keeps offers slots best) (hnamed : x.identity.isSome = true)
    (hroom : ((offers ++ [x]).map Offer.identity).toFinset.card ≤ room) :
    Taken offers x (slots.offer room x) := by
  cases hfind : x.identity.bind slots.find? with
  | some i => exact h.offer_of_known hnamed hfind
  | none =>
    have hnew : ∀ o ∈ best, o.identity ≠ x.identity := by
      rw [h.bind_find?_eq hnamed, List.findIdx?_eq_none_iff] at hfind
      exact fun o ho => of_decide_eq_false (hfind o ho)
    exact h.offer_of_new hnamed hnew (h.length_lt hnew hroom)

end Keeps

/-! ### Showing offers -/

/-- **What has different numbers can be sorted in one way only**, by relevancy and then by
number. -/
theorem mergeSort_eq_of_perm {α : Type} {before : α → α → Bool} (relevancy : α → Score)
    (number : α → Nat) {l l' : List α} (hbefore : ∀ a b, before a b = true ↔
      relevancy b < relevancy a ∨ relevancy a = relevancy b ∧ number a ≤ number b)
    (hperm : l.Perm l') (hnumber : ∀ a ∈ l, ∀ b ∈ l, number a = number b → a = b) :
    l.mergeSort before = l'.mergeSort before := by
  have hvalue : ∀ a b, before a b = true ↔ (relevancy b).value < (relevancy a).value ∨
      (relevancy a).value = (relevancy b).value ∧ number a ≤ number b := by
    intro a b
    rw [hbefore, Score.ext_iff]
    rfl
  have htrans : ∀ a b c, before a b = true → before b c = true → before a c = true := by
    intro a b c hab hbc
    rw [hvalue] at *
    omega
  have htotal : ∀ a b, (before a b || before b a) = true := by
    intro a b
    rw [Bool.or_eq_true, hvalue, hvalue]
    omega
  refine List.Perm.eq_of_pairwise (fun a b ha hb hab hba => ?_)
    (List.pairwise_mergeSort htrans htotal l) (List.pairwise_mergeSort htrans htotal l')
    ((List.mergeSort_perm ..).trans (hperm.trans (List.mergeSort_perm ..).symm))
  refine hnumber a (List.mem_mergeSort.mp ha) b (hperm.mem_iff.mpr (List.mem_mergeSort.mp hb)) ?_
  rw [hvalue] at hab hba
  omega

/-- Whether an offer comes before another one: it is more relevant, or else its thing has the
smaller number. -/
def Offer.before (a b : Offer π) : Bool :=
  b.relevancy < a.relevancy || a.relevancy = b.relevancy && a.number ≤ b.number

theorem Offer.before_iff {a b : Offer π} : a.before b = true ↔
    b.relevancy < a.relevancy ∨ a.relevancy = b.relevancy ∧ a.number ≤ b.number := by
  simp only [before, Bool.or_eq_true, Bool.and_eq_true, decide_eq_true_eq]

theorem Standing.before_iff {a b : Standing} : a.before b = true ↔
    b.relevancy < a.relevancy ∨ a.relevancy = b.relevancy ∧
      (a.number < b.number ∨ a.number = b.number ∧ a.slot ≤ b.slot) := by
  simp only [before, Bool.or_eq_true, Bool.and_eq_true, decide_eq_true_eq]

/-- Where an offer that is kept stands. -/
def Offer.standing (x : Offer π × Nat) : Standing := ⟨x.1.relevancy, x.1.number, x.2⟩

namespace Keeps

theorem standings_eq (h : Keeps offers slots best) :
    slots.standings = best.zipIdx.map Offer.standing := by
  rw [Roster.standings, h.slots_eq, List.zipIdx_map, List.filterMap_map, ← List.filterMap_eq_map]
  rfl

/-- Offers that are kept come in the order of their standings: what would decide between offers for
the same thing never does. -/
theorem before_eq (h : Keeps offers slots best) {a b : Offer π × Nat} (ha : a ∈ best.zipIdx)
    (hb : b ∈ best.zipIdx) :
    Offer.before a.1 b.1 = (Offer.standing a).before (Offer.standing b) := by
  have hget : ∀ {x : Offer π × Nat}, x ∈ best.zipIdx → best[x.2]? = some x.1 := fun hx =>
    List.mem_zipIdx_iff_getElem?.mp hx
  have hsame : a.1.number = b.1.number → a.2 = b.2 := by
    intro hnumber
    have hidentity := (Offer.number_inj (h.named_of_mem (List.mem_of_getElem? (hget ha)))
      (h.named_of_mem (List.mem_of_getElem? (hget hb)))).mp hnumber
    have hkey : ∀ {x : Offer π × Nat}, x ∈ best.zipIdx →
        (best.map Offer.identity)[x.2]? = some x.1.identity := by
      intro x hx
      rw [List.getElem?_map, hget hx, Option.map_some]
    obtain ⟨hlt, hat⟩ := List.getElem?_eq_some_iff.mp (hkey ha)
    obtain ⟨hlt', hat'⟩ := List.getElem?_eq_some_iff.mp (hkey hb)
    exact (List.Nodup.getElem_inj_iff h.nodup).mp (hat.trans (hidentity.trans hat'.symm))
  rw [Bool.eq_iff_iff, Offer.before_iff, Standing.before_iff]
  dsimp only [Offer.standing]
  refine or_congr_right (and_congr_right fun _ => ?_)
  omega

/-- **The offers that are shown are the first ones by relevancy and thing**, of those that are
kept. -/
theorem materialize (h : Keeps offers slots best) (k : Nat) :
    (slots.materialize k).2 =
      ((best.mergeSort Offer.before).take k).flatMap fun o => o.slot.showing := by
  let sorted := best.zipIdx.mergeSort fun a b => Offer.before a.1 b.1
  have hstandings : slots.standings.mergeSort Standing.before = sorted.map Offer.standing := by
    have hmap := List.map_mergeSort (r := fun a b : Offer π × Nat => Offer.before a.1 b.1)
      (s := Standing.before) fun a ha b hb => h.before_eq ha hb
    rw [h.standings_eq, ← hmap]
  have hbest : best.mergeSort Offer.before = sorted.map Prod.fst := by
    have hmap := List.map_mergeSort (r := fun a b : Offer π × Nat => Offer.before a.1 b.1)
      (s := Offer.before) (f := Prod.fst) (l := best.zipIdx) fun _ _ _ _ => rfl
    rw [List.zipIdx_map_fst] at hmap
    exact hmap.symm
  have hslot : ∀ x ∈ sorted.take k,
      (slots[(Offer.standing x).slot]?.map Slot.showing).getD [] = x.1.slot.showing := by
    intro x hx
    have hmem := List.mem_mergeSort.mp (List.mem_of_mem_take hx)
    have hget : slots[x.2]? = some x.1.slot := by
      rw [h.slots_eq, List.getElem?_map, List.mem_zipIdx_iff_getElem?.mp hmem, Option.map_some]
    change (slots[x.2]?.map Slot.showing).getD [] = _
    rw [hget]
    rfl
  rw [Roster.materialize, Roster.picked, hstandings, hbest, ← List.map_take, ← List.map_take,
    List.map_map, List.flatMap_map, List.flatMap_map]
  exact List.flatMap_congr hslot

end Keeps

end Typeahead
