import Mathlib.Data.Nat.Find
import Mathlib.Order.Bounds.Basic
import Typeahead.Proofs.Paths.Scanning
import Typeahead.Proofs.Supersession

/-!
# Scans that go stale

A scan can be superseded by its own offers: an offer may displace a candidate whose release callback
submits another query. The scan does not notice at once, as it asks only after every 4096 offers.
An offer makes one call at most, so a counter that has left a generation is ahead of it by no more
than there were offers since, and cannot have come around to it again when the scan asks next
(`isStale_afterHits`). So the scan stops at the first multiple of 4096 after the offer that made it
stale, unless the hits run out before.

What a scan does is offering: a scan that is not stopped before `n` offers goes on from the desk
that they lead to (`offerHits_eq`).
-/

namespace Typeahead

variable {outside : Callback → Bool} {factory : Callback} {hits : List Hit} {hit : Hit}
variable {d : Desk} {counter : CounterId} {j m n : Nat}

/-! ### One call at most for each offer -/

theorem Call.of_advance_cases (call : Call Payload) (g : Generations) (counter : CounterId) :
    (call.advance g).of counter = g.of counter ∨
      (call.advance g).of counter = g.of counter + 1 := by
  by_cases hbound : counter < g.current.size
  · obtain ⟨-, hadvance⟩ := call.of_advance hbound
    rw [hadvance]
    split_ifs
    · exact .inr rfl
    · exact .inl (UInt64.add_zero _)
  · refine .inl ?_
    unfold Call.advance
    split
    · simp [Generations.of, Generations.advance, hbound]
    · rfl

/-- An offer makes no call, or one. -/
theorem Pool.calls_offer_cases (p : Pool Payload) (outside : Callback → Bool) (r : Registry)
    (o : Offer Payload) :
    (p.offer outside r o).calls = [] ∨ ∃ call, (p.offer outside r o).calls = [call] := by
  rw [Pool.offer]
  rcases p.enlist outside r o.factory o.release with ⟨p', r', _ | ⟨slot, release⟩⟩
  · exact .inr ⟨_, rfl⟩
  · dsimp only
    rcases p'.takeIn o.identity _ o.payload with ⟨p'', stored, _ | loser⟩
    · exact .inl rfl
    · exact .inr ⟨_, rfl⟩

/-- An offer advances a counter by one at most. -/
theorem Desk.of_offer_cases (d : Desk) (outside : Callback → Bool) (o : Offer Payload)
    (counter : CounterId) :
    (d.offer outside o).1.generations.of counter = d.generations.of counter ∨
      (d.offer outside o).1.generations.of counter = d.generations.of counter + 1 := by
  have hgenerations : (d.offer outside o).1.generations =
      (d.pool.offer outside d.registry o).calls.foldl (fun g call => call.advance g)
        d.generations := rfl
  rw [hgenerations]
  rcases d.pool.calls_offer_cases outside d.registry o with hnone | ⟨call, hone⟩
  · rw [hnone]
    exact .inl rfl
  · rw [hone]
    exact call.of_advance_cases d.generations counter

/-! ### Offering some hits -/

namespace Desk

/-- The desk after some hits have been offered, whatever became of them. -/
def afterHits (d : Desk) (outside : Callback → Bool) (factory : Callback) (hits : List Hit) :
    Desk := (d.offerAll outside (hits.map (Hit.offer factory))).1

/-- Answers that were there before stay behind those that come. -/
theorem foldl_offer_eq (outside : Callback → Bool) (offers : List (Offer Payload)) (d : Desk)
    (answers : List (Except Fault Unit)) :
    let step (s : Desk × List (Except Fault Unit)) (o : Offer Payload) :=
      ((s.1.offer outside o).1, (s.1.offer outside o).2 :: s.2)
    offers.foldl step (d, answers) =
      ((offers.foldl step (d, [])).1, (offers.foldl step (d, [])).2 ++ answers) := by
  intro step
  induction offers generalizing d answers with
  | nil => rfl
  | cons o offers ih =>
    rw [List.foldl_cons, List.foldl_cons, ih, ih _ [_]]
    simp

theorem offerAll_cons (d : Desk) (outside : Callback → Bool) (o : Offer Payload)
    (offers : List (Offer Payload)) :
    d.offerAll outside (o :: offers) =
      (((d.offer outside o).1.offerAll outside offers).1,
        (d.offer outside o).2 :: ((d.offer outside o).1.offerAll outside offers).2) := by
  have hlater := foldl_offer_eq outside offers (d.offer outside o).1 [(d.offer outside o).2]
  simp only [offerAll, List.foldl_cons]
  refine (congrArg (fun s => (s.1, s.2.reverse)) hlater).trans ?_
  simp

@[simp] theorem afterHits_nil (d : Desk) (outside : Callback → Bool) (factory : Callback) :
    d.afterHits outside factory [] = d := rfl

@[simp] theorem afterHits_cons (d : Desk) (outside : Callback → Bool) (factory : Callback)
    (hit : Hit) (hits : List Hit) :
    d.afterHits outside factory (hit :: hits) =
      (d.offer outside (hit.offer factory)).1.afterHits outside factory hits := by
  rw [afterHits, List.map_cons, offerAll_cons, afterHits]

theorem afterHits_append (d : Desk) (outside : Callback → Bool) (factory : Callback)
    (first last : List Hit) :
    d.afterHits outside factory (first ++ last) =
      (d.afterHits outside factory first).afterHits outside factory last := by
  induction first generalizing d with
  | nil => rfl
  | cons hit first ih => simp [ih]

theorem token_afterHits (d : Desk) (outside : Callback → Bool) (factory : Callback)
    (hits : List Hit) : (d.afterHits outside factory hits).pool.token = d.pool.token := by
  induction hits generalizing d with
  | nil => rfl
  | cons hit hits ih =>
    rw [afterHits_cons, ih]
    exact d.pool.token_offer outside d.registry _

/-- Some offers advance a counter by their number at most. -/
theorem exists_of_afterHits (d : Desk) (outside : Callback → Bool) (factory : Callback)
    (hits : List Hit) (counter : CounterId) :
    ∃ k ≤ hits.length, (d.afterHits outside factory hits).generations.of counter =
      d.generations.of counter + UInt64.ofNat k := by
  induction hits generalizing d with
  | nil => exact ⟨0, Nat.le_refl 0, (UInt64.add_zero _).symm⟩
  | cons hit hits ih =>
    obtain ⟨k, hk, heq⟩ := ih (d.offer outside (hit.offer factory)).1
    rw [afterHits_cons, heq]
    rcases d.of_offer_cases outside (hit.offer factory) counter with hsame | hnext
    · exact ⟨k, Nat.le_succ_of_le hk, by rw [hsame]⟩
    · refine ⟨k + 1, Nat.succ_le_succ hk, ?_⟩
      rw [hnext, UInt64.ofNat_add, UInt64.add_assoc, UInt64.add_comm 1]
      rfl

/-- **Work that an offer has made stale stays stale** for as long as a counter takes to come
around. -/
theorem isStale_afterHits (hfresh : d.isStale = false)
    (hstale : (d.offer outside (hit.offer factory)).1.isStale = true)
    (hfew : hits.length + 1 < UInt64.size) :
    (d.afterHits outside factory (hit :: hits)).isStale = true := by
  have htoken : (d.offer outside (hit.offer factory)).1.pool.token = d.pool.token :=
    d.pool.token_offer outside d.registry _
  rw [isStale, htoken] at hstale
  rw [isStale, token_afterHits]
  rw [isStale] at hfresh
  unfold Token.isStale at hfresh hstale ⊢
  cases hcounter : d.pool.token.counter with
  | none => simp [hcounter] at hstale
  | some counter =>
    simp only [hcounter, bne_iff_ne, bne_eq_false_iff_eq, ne_eq] at hfresh hstale ⊢
    obtain ⟨k, hk, heq⟩ := exists_of_afterHits (d.offer outside (hit.offer factory)).1 outside
      factory hits counter
    rcases d.of_offer_cases outside (hit.offer factory) counter with hsame | hnext
    · exact absurd (hsame.trans hfresh) hstale
    · rw [afterHits_cons, heq, hnext, hfresh]
      intro haround
      have hnat := congrArg UInt64.toNat haround
      rw [UInt64.toNat_add, UInt64.toNat_add, UInt64.toNat_one, UInt64.toNat_ofNat'] at hnat
      have hword := d.pool.token.generation.toNat_lt
      simp only [UInt64.size] at hfew
      omega

/-- Whether no hit is refused for want of room. A full registry only skips a hit. -/
def HasRoomFor (d : Desk) (outside : Callback → Bool) (factory : Callback) (hits : List Hit) :
    Prop :=
  ∀ answer ∈ (d.offerAll outside (hits.map (Hit.offer factory))).2, Pool.goesOn answer = true

theorem hasRoomFor_cons : d.HasRoomFor outside factory (hit :: hits) ↔
    Pool.goesOn (d.offer outside (hit.offer factory)).2 = true ∧
      (d.offer outside (hit.offer factory)).1.HasRoomFor outside factory hits := by
  rw [HasRoomFor, List.map_cons, offerAll_cons, List.forall_mem_cons, HasRoomFor]

/-- **The offer of one hit makes the work stale** that is not so before. -/
structure TurnsStale (d : Desk) (outside : Callback → Bool) (factory : Callback) (hits : List Hit)
    (j : Nat) : Prop where
  lt : j < hits.length
  fresh : ∀ i ≤ j, (d.afterHits outside factory (hits.take i)).isStale = false
  stale : (d.afterHits outside factory (hits.take (j + 1))).isStale = true

/-- Work becomes stale at some hit unless it is stale before, or never. -/
theorem staleness_cases (d : Desk) (outside : Callback → Bool) (factory : Callback)
    (hits : List Hit) : d.isStale = true ∨ (∃ j, d.TurnsStale outside factory hits j) ∨
      ∀ n ≤ hits.length, (d.afterHits outside factory (hits.take n)).isStale = false := by
  by_cases hnever : ∀ n ≤ hits.length,
      (d.afterHits outside factory (hits.take n)).isStale = false
  · exact .inr (.inr hnever)
  · have hsome : ∃ n, n ≤ hits.length ∧
        (d.afterHits outside factory (hits.take n)).isStale = true := by
      simpa using hnever
    obtain ⟨n, ⟨hle, hstale⟩, hfirst⟩ := Nat.findX hsome
    cases n with
    | zero => exact .inl hstale
    | succ j =>
      refine .inr (.inl ⟨j, hle, fun i hi => ?_, hstale⟩)
      have hearlier := hfirst i (Nat.lt_succ_of_le hi)
      have hi' : i ≤ hits.length := by omega
      simpa [hi'] using hearlier

/-- Work that has become stale at a hit is stale after any hits that follow. -/
theorem TurnsStale.isStale_of_lt (h : d.TurnsStale outside factory hits j) (hlt : j < n)
    (hfew : n - j < UInt64.size) :
    (d.afterHits outside factory (hits.take n)).isStale = true := by
  obtain ⟨k, rfl⟩ := Nat.exists_eq_add_of_lt hlt
  have hlength := h.lt
  have hsplit : ∀ k, hits.take (j + (k + 1)) =
      hits.take j ++ hits[j] :: (hits.drop (j + 1)).take k := by
    intro k
    rw [List.take_add, List.drop_eq_getElem_cons hlength, List.take_succ_cons]
  have hstale := h.stale
  rw [hsplit 0, List.take_zero, afterHits_append, afterHits_cons, afterHits_nil] at hstale
  rw [Nat.add_assoc, hsplit k, afterHits_append]
  refine isStale_afterHits (h.fresh j (Nat.le_refl j)) hstale ?_
  have hfollow := List.length_take_le k (hits.drop (j + 1))
  omega

/-- When a loop finds its work stale. -/
theorem isStaleAt_iff (d : Desk) (count : Nat) :
    d.pool.token.isStaleAt d.generations count = true ↔
      Token.interval ∣ count ∧ d.isStale = true := by
  rw [Token.isStaleAt, Bool.and_eq_true, beq_iff_eq, Nat.dvd_iff_mod_eq_zero]
  rfl

end Desk

/-! ### Where a scan stops -/

/-- A loop asks next at the least multiple of the interval above. -/
theorem Token.isLeast_next (j : Nat) :
    IsLeast {m | interval ∣ m ∧ j < m} (interval * (j / interval + 1)) := by
  refine ⟨⟨Nat.dvd_mul_right _ _, Nat.lt_mul_div_succ j (by decide)⟩, ?_⟩
  rintro _ ⟨⟨k, rfl⟩, hlt⟩
  exact Nat.mul_le_mul_left _ (Nat.div_lt_of_lt_mul hlt)

namespace PathIndex

open Typeahead.Desk

variable {inserted : Nat}

/-- **A scan that is not stopped before some hits goes on after them**, from the desk that they
lead to. -/
theorem offerHits_eq (scanned : Nat) (hroom : d.HasRoomFor outside factory hits)
    (hle : n ≤ hits.length)
    (hgoes : ∀ i < n, 0 < inserted + i → Token.interval ∣ inserted + i →
      (d.afterHits outside factory (hits.take i)).isStale = false) :
    offerHits outside factory scanned hits inserted d =
      offerHits outside factory scanned (hits.drop n) (inserted + n)
        (d.afterHits outside factory (hits.take n)) := by
  induction hits generalizing d inserted n with
  | nil =>
    obtain rfl := Nat.le_zero.mp hle
    rfl
  | cons hit hits ih =>
    cases n with
    | zero => rfl
    | succ n =>
      obtain ⟨hfirst, hlater⟩ := hasRoomFor_cons.mp hroom
      have hasked : ¬ (0 < inserted ∧ d.pool.token.isStaleAt d.generations inserted = true) := by
        rintro ⟨hpos, hstale⟩
        obtain ⟨hdvd, hstale⟩ := (d.isStaleAt_iff inserted).mp hstale
        exact Bool.false_ne_true ((hgoes 0 (Nat.succ_pos n) hpos hdvd).symm.trans hstale)
      rw [offerHits_cons_of_goesOn scanned inserted hasked hfirst,
        ih hlater (Nat.le_of_succ_le_succ hle)]
      · rw [List.drop_succ_cons, List.take_succ_cons, afterHits_cons, Nat.add_assoc,
          Nat.add_comm 1]
      · intro i hi hpos hdvd
        rw [Nat.add_assoc, Nat.add_comm 1] at hpos hdvd
        have hthere := hgoes (i + 1) (Nat.succ_lt_succ hi) hpos hdvd
        rwa [List.take_succ_cons, afterHits_cons] at hthere

/-- A scan that is never found stale is completed. -/
theorem offerHits_of_fresh (scanned : Nat) (hroom : d.HasRoomFor outside factory hits)
    (hfresh : ∀ i < hits.length, 0 < i → Token.interval ∣ i →
      (d.afterHits outside factory (hits.take i)).isStale = false) :
    offerHits outside factory scanned hits 0 d =
      (d.afterHits outside factory (hits.take hits.length),
        ⟨.completed, scanned, hits.length⟩) := by
  rw [offerHits_eq scanned hroom (Nat.le_refl hits.length)]
  · rw [List.drop_length, Nat.zero_add]
    rfl
  · intro i hi hpos hdvd
    rw [Nat.zero_add] at hpos hdvd
    exact hfresh i hi hpos hdvd

/-- A scan that becomes stale at a hit stops when it asks next. -/
theorem offerHits_of_turnsStale (scanned : Nat) (hroom : d.HasRoomFor outside factory hits)
    (hturns : d.TurnsStale outside factory hits j)
    (hleast : IsLeast {m | Token.interval ∣ m ∧ j < m} m) (hfew : m - j < UInt64.size) :
    offerHits outside factory scanned hits 0 d =
      if m < hits.length then
        (d.afterHits outside factory (hits.take m), ⟨.cancelled, scanned, m⟩)
      else
        (d.afterHits outside factory (hits.take hits.length),
          ⟨.completed, scanned, hits.length⟩) := by
  obtain ⟨⟨hdvd, hlt⟩, hlower⟩ := hleast
  have hfresh : ∀ i < m, Token.interval ∣ i →
      (d.afterHits outside factory (hits.take i)).isStale = false := by
    intro i hi hdvd'
    refine hturns.fresh i (Nat.le_of_not_lt fun hji => ?_)
    exact absurd (hlower ⟨hdvd', hji⟩) (Nat.not_le_of_lt hi)
  split_ifs with hmore
  · rw [offerHits_eq scanned hroom (Nat.le_of_lt hmore), List.drop_eq_getElem_cons hmore,
      Nat.zero_add, offerHits, if_pos]
    · exact ⟨Nat.zero_lt_of_lt hlt,
        (isStaleAt_iff _ m).mpr ⟨hdvd, hturns.isStale_of_lt hlt hfew⟩⟩
    · intro i hi _ hdvd'
      rw [Nat.zero_add] at hdvd'
      exact hfresh i hi hdvd'
  · refine offerHits_of_fresh scanned hroom fun i hi _ hdvd' => ?_
    exact hfresh i (Nat.lt_of_lt_of_le hi (Nat.le_of_not_lt hmore)) hdvd'

section Scan

variable {ix : PathIndex} {needle : Needle} {shard : Nat} {store : Shard}
variable (hrunning : ix.isShutdown = false) (hcount : ix.shards.size ≤ 65535)
variable (hstore : ix.shards[shard]? = some store)

include hrunning hcount hstore

/-- What a scan of a running index does in a shard that there is. -/
theorem tryScan_eq :
    ix.tryScan outside factory needle shard d =
      if d.isStale = true then (d, .ok ⟨.cancelled, 0, 0⟩)
      else (offerHits outside factory store.entries.length
        (ix.hits needle shard store) 0 d).map id .ok := by
  have hlt := (Array.getElem?_eq_some_iff.mp hstore).1
  split_ifs with hstale
  · rw [tryScan, hrunning, if_neg Bool.false_ne_true, if_neg (by omega), if_pos hstale]
  · exact tryScan_of_fresh outside factory needle hrunning (by omega)
      (Bool.eq_false_iff.mpr hstale) hstore

/-- A scan that is stale before it begins. -/
theorem tryScan_of_isStale (hstale : d.isStale = true) :
    ix.tryScan outside factory needle shard d = (d, .ok ⟨.cancelled, 0, 0⟩) := by
  rw [tryScan_eq hrunning hcount hstore, if_pos hstale]

/-- A scan that is never stale. -/
theorem tryScan_of_never_stale (hroom : d.HasRoomFor outside factory (ix.hits needle shard store))
    (hfresh : ∀ n ≤ (ix.hits needle shard store).length,
      (d.afterHits outside factory ((ix.hits needle shard store).take n)).isStale = false) :
    let hits := ix.hits needle shard store
    ix.tryScan outside factory needle shard d =
      (d.afterHits outside factory (hits.take hits.length),
        .ok ⟨.completed, store.entries.length, hits.length⟩) := by
  intro hits
  have hfirst : d.isStale = false := hfresh 0 (Nat.zero_le _)
  rw [tryScan_eq hrunning hcount hstore, hfirst, if_neg Bool.false_ne_true,
    offerHits_of_fresh store.entries.length hroom fun i hi _ _ => hfresh i (Nat.le_of_lt hi)]
  rfl

/-- A scan that one of its hits makes stale. -/
theorem tryScan_of_turnsStale (hroom : d.HasRoomFor outside factory (ix.hits needle shard store))
    (hturns : d.TurnsStale outside factory (ix.hits needle shard store) j) :
    let hits := ix.hits needle shard store
    ∃ m, IsLeast {m | 4096 ∣ m ∧ j < m} m ∧ min m hits.length ≤ (j + 1) + 4095 ∧
      ix.tryScan outside factory needle shard d =
        if m < hits.length then
          (d.afterHits outside factory (hits.take m), .ok ⟨.cancelled, store.entries.length, m⟩)
        else
          (d.afterHits outside factory (hits.take hits.length),
            .ok ⟨.completed, store.entries.length, hits.length⟩) := by
  intro hits
  have hleast := Token.isLeast_next j
  have hsoon : Token.interval * (j / Token.interval + 1) ≤ (j + 1) + 4095 := by
    simp only [Token.interval]
    omega
  refine ⟨_, hleast, (Nat.min_le_left _ _).trans hsoon, ?_⟩
  have hfew : Token.interval * (j / Token.interval + 1) - j < UInt64.size := by
    simp only [UInt64.size]
    omega
  have hfirst : d.isStale = false := hturns.fresh 0 (Nat.zero_le j)
  rw [tryScan_eq hrunning hcount hstore, hfirst, if_neg Bool.false_ne_true,
    offerHits_of_turnsStale store.entries.length hroom hturns hleast hfew]
  split_ifs <;> rfl

/-- **In all cases**, as many hits as the scan reports have been offered, the first ones in the
order of the shard. -/
theorem exists_tryScan_eq (hroom : d.HasRoomFor outside factory (ix.hits needle shard store)) :
    ∃ ending, ∃ n ≤ (ix.hits needle shard store).length,
      ix.tryScan outside factory needle shard d =
        (d.afterHits outside factory ((ix.hits needle shard store).take n),
          .ok ⟨ending, if d.isStale = true then 0 else store.entries.length, n⟩) := by
  rcases d.staleness_cases outside factory (ix.hits needle shard store) with
    hstale | ⟨j, hturns⟩ | hfresh
  · refine ⟨.cancelled, 0, Nat.zero_le _, ?_⟩
    rw [if_pos hstale]
    exact tryScan_of_isStale hrunning hcount hstore hstale
  · have hfirst : d.isStale = false := hturns.fresh 0 (Nat.zero_le j)
    obtain ⟨m, -, -, heq⟩ := tryScan_of_turnsStale hrunning hcount hstore hroom hturns
    rw [hfirst, if_neg Bool.false_ne_true, heq]
    split_ifs with hmore
    · exact ⟨.cancelled, m, Nat.le_of_lt hmore, rfl⟩
    · exact ⟨.completed, _, Nat.le_refl _, rfl⟩
  · have hfirst : d.isStale = false := hfresh 0 (Nat.zero_le _)
    rw [hfirst, if_neg Bool.false_ne_true]
    exact ⟨.completed, _, Nat.le_refl _, tryScan_of_never_stale hrunning hcount hstore hroom hfresh⟩

end Scan

end PathIndex

/-- **A scan that goes stale stops within 4096 offers.** A scan of a shard of a running index, after
any requests, that is stale before it begins offers nothing. If the offer of one of its hits makes
it stale, for instance by a release callback that submits a query, it offers the hits up to the
least multiple of 4096 after that one and is cancelled, or is completed if there are no more hits;
and if none does, it is completed. It offers the first hits in the order of the shard, as many as it
reports, and has scored all paths of the shard. The pool must not refuse a hit for want of room. -/
theorem PathIndex.stale_scans_stop [Memory] {config : IndexConfig} {scorer : Scorer}
    {digest : String → UInt64} {ix : PathIndex} (hcreate : create config scorer digest = .ok ix)
    (requests : List PathRequest) (hrunning : (ix.after requests).isShutdown = false)
    {shard : Nat} {store : Shard} (hstore : (ix.after requests).shards[shard]? = some store)
    (outside : Callback → Bool) (factory : Callback) (needle : Needle) (d : Desk) :
    let hits := (ix.after requests).hits needle shard store
    let after (n : Nat) := d.afterHits outside factory (hits.take n)
    let scanned := (ix.after requests).tryScan outside factory needle shard d
    let live := store.entries.length
    (d.isStale = true → scanned = (d, .ok ⟨.cancelled, 0, 0⟩)) ∧
    (d.HasRoomFor outside factory hits →
      (∀ j, d.TurnsStale outside factory hits j →
        ∃ m, IsLeast {m | 4096 ∣ m ∧ j < m} m ∧ min m hits.length ≤ (j + 1) + 4095 ∧
          scanned = if m < hits.length then (after m, .ok ⟨.cancelled, live, m⟩)
            else (after hits.length, .ok ⟨.completed, live, hits.length⟩)) ∧
      ((∀ n ≤ hits.length, (after n).isStale = false) →
        scanned = (after hits.length, .ok ⟨.completed, live, hits.length⟩)) ∧
      ∃ ending, ∃ n ≤ hits.length, scanned =
        (after n, .ok ⟨ending, if d.isStale = true then 0 else live, n⟩)) := by
  intro hits after scanned live
  have hfits := (fits_of_create (q := ⟨config, scorer, digest, needle⟩) hcreate).alike
    (ix.alike_after requests)
  have hcount : (ix.after requests).shards.size ≤ 65535 :=
    hfits.count_eq ▸ shardCount_le_of_create hcreate
  exact ⟨tryScan_of_isStale hrunning hcount hstore, fun hroom =>
    ⟨fun j => tryScan_of_turnsStale hrunning hcount hstore hroom,
      tryScan_of_never_stale hrunning hcount hstore hroom,
      exists_tryScan_eq hrunning hcount hstore hroom⟩⟩

section AddressSpace

open scoped Typeahead.Memory.AddressSpace

/-- The first of two hits displaces a candidate whose release callback submits a query. The scan
does not ask again before its hits run out. -/
theorem PathIndex.stale_scans_stop_two_hits :
    let requests := [.add "/mu", .add "/mx"]
    let found : Callback := ⟨0, .showPath 0 "found"⟩
    let typist : Callback := ⟨1, .swallow "typist" (some 0)⟩
    let old : Offer Payload := {
      identity := some 1030175846, relevancy := ⟨1, by decide⟩, payload := .tagged "old"
      factory := found, release := some typist }
    let empty : Desk := {
      pool := .empty ⟨some 0, 0⟩ 0 ⟨1⟩, registry := .standard, generations := ⟨#[0]⟩ }
    let d := (empty.offer (fun _ => false) old).1
    ∃ store, (small.after requests).shards[0]? = some store ∧
      let hits := (small.after requests).hits (.prepare "m") 0 store
      d.TurnsStale (fun _ => false) found hits 0 ∧ d.HasRoomFor (fun _ => false) found hits ∧
        (small.after requests).tryScan (fun _ => false) found (.prepare "m") 0 d =
          (d.afterHits (fun _ => false) found (hits.take 2), .ok ⟨.completed, 2, 2⟩) := by
  intro requests found typist old empty d
  let found₁ : Hit := ⟨⟨54, by decide⟩, 0, 0, 11087706599641791590⟩
  let found₂ : Hit := ⟨⟨54, by decide⟩, 0, 10, 14340175773181645273⟩
  have hshard : ((small.after requests).shards[0]?.map fun store =>
      (store.entries.length, (small.after requests).hits (.prepare "m") 0 store)) =
        some (2, [found₁, found₂]) := by decide +kernel
  obtain ⟨store, hstore, heq⟩ := Option.map_eq_some_iff.mp hshard
  obtain ⟨hlive, hfound⟩ := Prod.mk.inj heq
  refine ⟨store, hstore, ?_⟩
  intro hits
  have hhits : hits = [found₁, found₂] := hfound
  have hempty : Typeahead.Represents 512 empty.pool empty.registry [] :=
    Typeahead.represents_nil (show 1 ≤ 65535 by decide) .standard
  have henlists : (empty.pool.enlist (fun _ => false) empty.registry old.factory
      old.release).2.2.isSome = true := by decide +kernel
  obtain ⟨hone, hcalls, -⟩ := hempty.offer ⟨rfl, by rintro _ ⟨⟩; rfl⟩ henlists
  have hadmits : d.pool.Admits d.registry (fun _ => false) found := by
    refine Pool.admits_of_mem ?_
    change found ∈ (empty.pool.offer (fun _ => false) empty.registry old).registry.slots
    rw [Pool.registry_offer]
    decide +kernel
  obtain ⟨htwo, hcalls₁, hanswer₁⟩ := hone.offer (o := found₁.offer found) ⟨rfl, nofun⟩ hadmits
  obtain ⟨-, -, hanswer₂⟩ := htwo.offer (o := found₂.offer found) ⟨rfl, nofun⟩
    (hadmits.offer hone.agrees found₁)
  have hback : (d.pool.offer (fun _ => false) d.registry (found₁.offer found)).calls =
      [.back (some typist) (.tagged "old")] := hcalls₁.trans (by decide +kernel)
  have hturns : d.TurnsStale (fun _ => false) found hits 0 := by
    rw [hhits]
    refine ⟨by decide, fun i hi => ?_, ?_⟩
    · obtain rfl := Nat.le_zero.mp hi
      change d.isStale = false
      rw [Desk.isStale_offer, hcalls]
      rfl
    · have htoken : d.pool.token = empty.pool.token := empty.pool.token_offer _ _ old
      have hgenerations : d.generations = empty.generations := congrArg (List.foldl _ _) hcalls
      change (d.offer (fun _ => false) (found₁.offer found)).1.isStale = true
      rw [Desk.isStale_offer, htoken, hgenerations, hback]
      rfl
  have hroom : d.HasRoomFor (fun _ => false) found hits := by
    rw [hhits, Desk.hasRoomFor_cons, Desk.hasRoomFor_cons]
    exact ⟨(congrArg Pool.goesOn hanswer₁).trans (by decide +kernel),
      (congrArg Pool.goesOn hanswer₂).trans (by decide +kernel), nofun⟩
  refine ⟨hturns, hroom, ?_⟩
  obtain ⟨-, hstops⟩ := stale_scans_stop create_small requests (by decide +kernel) hstore
    (fun _ => false) found (.prepare "m") d
  obtain ⟨m, ⟨⟨hdvd, hpos⟩, -⟩, -, hscan⟩ := (hstops hroom).1 0 hturns
  have hlength : ((small.after requests).hits (.prepare "m") 0 store).length = 2 := by
    rw [hfound]
    rfl
  have hmany : ¬ m < 2 := by
    have := Nat.le_of_dvd hpos hdvd
    omega
  rw [hscan, hlength, if_neg hmany, hlive]

end AddressSpace

end Typeahead
