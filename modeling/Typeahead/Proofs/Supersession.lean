import Mathlib.Logic.Function.Basic
import Typeahead.Proofs.Pool.Pins
import Typeahead.Round

/-!
# Which rounds are superseded

A dispatcher hands out rounds, and a round is superseded by every query that is submitted after
its own. What decides it is a comparison of two numbers of 64 bits, which is made at several
places: before a scan, before each producer, before candidates are picked. Between any two of them
anything may happen: producers run, and offer candidates, and pick them, and submit queries; so do
release callbacks, which an offer can call.

So a dispatcher is looked at together with everything its rounds work on, and moves are made one
after the other. A producer may make any moves. A scan is made of moves too, so that whatever
holds after any moves also holds at each moment of a scan, and of a scan that a producer begins.

As long as fewer than 2 ^ 64 queries have been submitted, the comparison is right at all of these
moments. All else follows from that.
-/

namespace Typeahead

open Function (update)

/-! ### The generations at a desk -/

namespace Generations

theorem size_advance (g : Generations) (counter : CounterId) :
    (g.advance counter).current.size = g.current.size := by
  simp [advance]

theorem of_advance {g : Generations} {counter : CounterId} (h : counter < g.current.size) :
    (g.advance counter).of counter = g.of counter + 1 := by
  simp [advance, Generations.of, h, Array.getElem_modify]

theorem of_advance_of_ne (g : Generations) {counter other : CounterId} (h : other ≠ counter) :
    (g.advance other).of counter = g.of counter := by
  simp [advance, Generations.of, Array.getElem?_modify, h, Array.getD_eq_getD_getElem?]

end Generations

/-- Whether a release callback advanced a counter, that is, submitted a query. -/
def Occurrence.advances (counter : CounterId) : Occurrence → Bool
  | .called (.release ⟨_, .swallow _ (some other)⟩ _) => other == counter
  | _ => false

/-- A call advances a counter by one if it advances it at all. -/
theorem Call.of_advance (call : Call Payload) {g : Generations} {counter : CounterId}
    (h : counter < g.current.size) : (call.advance g).current.size = g.current.size ∧
      (call.advance g).of counter = g.of counter +
        if (Occurrence.called call).advances counter then 1 else 0 := by
  unfold Call.advance
  split
  · next other payload =>
    refine ⟨g.size_advance other, ?_⟩
    by_cases heq : other = counter
    · subst heq
      simp [Occurrence.advances, Generations.of_advance h]
    · simp [Occurrence.advances, heq, g.of_advance_of_ne heq]
  · next hother =>
    refine ⟨rfl, ?_⟩
    rw [if_neg, UInt64.add_zero]
    intro hadvances
    unfold Occurrence.advances at hadvances
    split at hadvances
    · next other payload heq =>
      obtain rfl := Occurrence.called.inj heq
      exact hother _ _ _ _ rfl
    · exact Bool.false_ne_true hadvances

namespace Desk

variable {d d' d'' : Desk} {counter : CounterId} {asked : Nat}

/-- What operations at a desk lead to: the pool belongs to its generation, and the calls that came
due have been made. -/
def Follows (d d' : Desk) : Prop :=
  ∃ (pool : Pool Payload) (registry : Registry) (calls : List (Call Payload)),
    pool.token = d.pool.token ∧
      d' = { pool, registry, generations := d.generations, log := d.log : Desk }.call calls

theorem Follows.refl (d : Desk) : d.Follows d := ⟨d.pool, d.registry, [], rfl, rfl⟩

theorem Follows.trans (h : d.Follows d') (h' : d'.Follows d'') : d.Follows d'' := by
  obtain ⟨pool, registry, calls, htoken, rfl⟩ := h
  obtain ⟨pool', registry', calls', htoken', rfl⟩ := h'
  refine ⟨pool', registry', calls ++ calls', htoken'.trans htoken, ?_⟩
  simp [Desk.call, List.foldl_append]

theorem Follows.token_eq (h : d.Follows d') : d'.pool.token = d.pool.token := by
  obtain ⟨pool, registry, calls, htoken, rfl⟩ := h
  exact htoken

/-- A counter holds the number of queries that were submitted, some of them by release
callbacks. -/
def Counts (counter : CounterId) (asked : Nat) (d : Desk) : Prop :=
  counter < d.generations.current.size ∧
    d.generations.of counter =
      UInt64.ofNat (asked + d.log.countP (Occurrence.advances counter))

theorem Counts.call (h : d.Counts counter asked) (calls : List (Call Payload)) :
    (d.call calls).Counts counter asked ∧
      d.log.countP (Occurrence.advances counter) ≤
        (d.call calls).log.countP (Occurrence.advances counter) := by
  induction calls generalizing d with
  | nil => exact ⟨h, Nat.le_refl _⟩
  | cons call calls ih =>
    obtain ⟨hbound, hcounts⟩ := h
    obtain ⟨hsize, hadvance⟩ := call.of_advance hbound
    have hfirst : (d.call [call]).Counts counter asked := by
      refine ⟨hsize ▸ hbound, ?_⟩
      change (call.advance d.generations).of counter = UInt64.ofNat
        (asked + (Occurrence.called call :: d.log).countP (Occurrence.advances counter))
      rw [hadvance, hcounts, List.countP_cons, ← Nat.add_assoc]
      split
      · exact (UInt64.ofNat_add _ 1).symm
      · exact UInt64.add_zero _
    obtain ⟨hlast, hgrows⟩ := ih hfirst
    refine ⟨hlast, Nat.le_trans ?_ hgrows⟩
    change _ ≤ (Occurrence.called call :: d.log).countP (Occurrence.advances counter)
    rw [List.countP_cons]
    exact Nat.le_add_right _ _

theorem Follows.counts (h : d.Follows d') (hcounts : d.Counts counter asked) :
    d'.Counts counter asked ∧ d.log.countP (Occurrence.advances counter) ≤
      d'.log.countP (Occurrence.advances counter) := by
  obtain ⟨pool, registry, calls, -, rfl⟩ := h
  have hsame : Desk.Counts counter asked
      { pool, registry, generations := d.generations, log := d.log } := hcounts
  exact hsame.call calls

end Desk

namespace Desk

variable {outside : Callback → Bool}

theorem follows_offer (outside : Callback → Bool) (d : Desk) (o : Offer Payload) :
    d.Follows (d.offer outside o).1 := by
  exact ⟨_, _, _, d.pool.token_offer outside d.registry o, rfl⟩

theorem follows_materialize (d : Desk) (k : Nat) : d.Follows (d.materialize k).1 :=
  ⟨_, d.registry, _, d.pool.token_consumeAll _, rfl⟩

/-- Emptying a pool that stays with its generation. -/
theorem follows_reset (d : Desk) : d.Follows (d.reset d.pool.token) :=
  ⟨(d.pool.reset d.pool.token).1, d.registry, _, rfl, rfl⟩

end Desk

namespace PathIndex

variable (ix : PathIndex) (outside : Callback → Bool) (factory : Callback) (needle : Needle)

theorem follows_offerHits (scanned : Nat) (hits : List Hit) (inserted : Nat) (d : Desk) :
    d.Follows (offerHits outside factory scanned hits inserted d).1 := by
  induction hits generalizing inserted d with
  | nil => exact .refl d
  | cons hit hits ih =>
    unfold offerHits
    split_ifs with hstale
    · exact .refl d
    · have hoffer := d.follows_offer outside {
        identity := some hit.ref.hash, relevancy := hit.relevancy, payload := .path hit.ref,
        factory, release := none }
      dsimp only
      split
      · exact hoffer.trans (ih _ _)
      · exact hoffer

theorem follows_scan (shard : Nat) (d : Desk) :
    d.Follows (ix.scan outside factory needle shard d).1 := by
  have htry : d.Follows (ix.tryScan outside factory needle shard d).1 := by
    unfold tryScan
    split_ifs
    · exact .refl d
    · exact .refl d
    · exact .refl d
    · split
      · exact .refl d
      · split
        · exact .refl d
        · exact follows_offerHits outside factory _ _ 0 d
  unfold scan
  rcases heq : ix.tryScan outside factory needle shard d with ⟨d', _ | outcome⟩
  · rw [heq] at htry
    exact htry
  · rw [heq] at htry
    exact htry

/-- Scanning an index is offering. -/
theorem follows_scanShards (shards : List Nat) (d : Desk) :
    d.Follows (ix.scanShards outside factory needle shards d).1 := by
  induction shards generalizing d with
  | nil => exact .refl d
  | cons shard shards ih => exact (ix.follows_scan outside factory needle shard d).trans (ih _)

end PathIndex

/-! ### Producers -/

namespace Round

variable {σ ρ : Type} {isStale : σ → Bool} {run : ρ → σ → σ} {s : σ}

/-- No producer is started in a round that has been superseded. -/
theorem runProducers_of_stale (h : isStale s = true) (producers : List ρ) :
    runProducers isStale run producers s = s := by
  induction producers with
  | nil => rfl
  | cons p producers ih =>
    rw [runProducers, if_pos h]
    exact ih

/-- **The producers that are started** are all up to the first one during which the round is
superseded. -/
theorem exists_runProducers_eq (isStale : σ → Bool) (run : ρ → σ → σ) (producers : List ρ)
    (s : σ) : ∃ m ≤ producers.length,
      runProducers isStale run producers s =
        (producers.take m).foldl (fun s p => run p s) s ∧
      (∀ j < m, isStale ((producers.take j).foldl (fun s p => run p s) s) = false) ∧
      (m < producers.length →
        isStale ((producers.take m).foldl (fun s p => run p s) s) = true) := by
  induction producers generalizing s with
  | nil => exact ⟨0, Nat.le_refl _, rfl, nofun, nofun⟩
  | cons p producers ih =>
    cases hstale : isStale s with
    | true => exact ⟨0, Nat.zero_le _, runProducers_of_stale hstale _, nofun, fun _ => hstale⟩
    | false =>
      obtain ⟨m, hm, heq, hbefore, hlast⟩ := ih (run p s)
      refine ⟨m + 1, Nat.succ_le_succ hm, ?_, ?_, fun h => hlast (Nat.lt_of_succ_lt_succ h)⟩
      · rw [runProducers, hstale]
        exact heq
      · intro j hj
        cases j with
        | zero => exact hstale
        | succ j => exact hbefore j (Nat.lt_of_succ_lt_succ hj)

end Round

/-! ### A dispatcher in use -/

/-- A dispatcher and everything that its rounds work on. -/
structure Dispatch where
  /-- The dispatcher. -/
  dispatcher : Dispatcher
  /-- The generation counters. -/
  generations : Generations
  /-- The registry of the dispatcher's rounds. -/
  registry : Registry
  /-- The rounds. Each goes by the number of its query among all that have been submitted. -/
  rounds : Nat → Option Round := fun _ => none
  /-- How many queries have been submitted otherwise than by release callbacks. -/
  asked : Nat := 0
  /-- What happened, last first. -/
  log : List Occurrence := []

/-- What can be done with a dispatcher and its rounds. -/
inductive Move where
  /-- A query is submitted. -/
  | submit (query : String)
  /-- A candidate is offered to a round. -/
  | offer (n : Nat) (outside : Callback → Bool) (o : Offer Payload)
  /-- An index is scanned for a round, or for some needle and some factory. -/
  | scanIndex (n : Nat) (ix : PathIndex) (outside : Callback → Bool) (factory : Callback)
    (needle : Needle)
  /-- The best candidates of a round are picked, without asking whether it is superseded. -/
  | materialize (n k : Nat)
  /-- The best candidates of a round are picked. -/
  | gather (n k : Nat)
  /-- A round goes away, and its payloads are given back. -/
  | letGo (n : Nat)
  /-- A producer begins to run. -/
  | begin (producer : String)
  /-- Others who share the registry leave it changed. -/
  | share (registry : Registry)
  /-- The counter of another dispatcher is advanced. -/
  | advance (other : CounterId)

namespace Dispatch

/-- A new dispatcher beside those whose counters there are. -/
def start (g : Generations) (registry : RegistryId) (settings : Scorer × PoolLimits)
    (paths : Option PathSource) : Dispatch :=
  { dispatcher := {
      registry, counter := g.newCounter.2, limits := settings.2, scorer := settings.1, paths }
    generations := g.newCounter.1
    registry := .standard }

/-- How many queries have been submitted. -/
def submits (w : Dispatch) : Nat :=
  w.asked + w.log.countP (Occurrence.advances w.dispatcher.counter)

/-- Keeps a round. -/
def setRound (w : Dispatch) (n : Nat) (r : Round) : Dispatch :=
  { w with rounds := update w.rounds n (some r) }

/-- The desk of a round. -/
def desk (w : Dispatch) (r : Round) : Desk :=
  { pool := r.pool, registry := w.registry, generations := w.generations, log := w.log }

/-- What work at a desk leaves behind. -/
def leave (w : Dispatch) (d : Desk) : Dispatch :=
  { w with registry := d.registry, generations := d.generations, log := d.log }

/-- Works at the desk of a round, if there is the round. -/
def atRound {α : Type} (w : Dispatch) (n : Nat) (act : Desk → Desk × List α) :
    Dispatch × List α :=
  match w.rounds n with
  | none => (w, [])
  | some r =>
    let (d, answer) := act (w.desk r)
    ((w.leave d).setRound n { r with pool := d.pool }, answer)

/-- Submits a query, and keeps the round. -/
def submit (w : Dispatch) (query : String) : Dispatch :=
  let (generations, r) := w.dispatcher.submit query w.generations
  { w with generations, asked := w.asked + 1 }.setRound (w.submits + 1) r

/-- Makes a move. -/
def move (w : Dispatch) : Move → Dispatch
  | .submit query => w.submit query
  | .offer n outside o => (w.atRound (α := Unit) n fun d => ((d.offer outside o).1, [])).1
  | .scanIndex n ix outside factory needle =>
    (w.atRound n (ix.scanAll outside factory needle)).1
  | .materialize n k => (w.atRound n fun d => d.materialize k).1
  | .gather n k => (w.atRound n fun d => Round.gather d k).1
  | .letGo n => (w.atRound (α := Unit) n fun d => (d.reset d.pool.token, [])).1
  | .begin producer => { w with log := .ran producer :: w.log }
  | .share registry => { w with registry }
  | .advance other =>
    if other = w.dispatcher.counter then w
    else { w with generations := w.generations.advance other }

/-- Makes moves one after the other. -/
def run (w : Dispatch) (moves : List Move) : Dispatch := moves.foldl move w

/-- Whether there is a round. -/
def HasRound (w : Dispatch) (n : Nat) : Prop := (w.rounds n).isSome

/-- Whether a round finds itself superseded. -/
def isStale (w : Dispatch) (n : Nat) : Bool :=
  (w.rounds n).any fun r => r.pool.token.isStale w.generations

/-- A producer: what it does can depend on all that it finds. -/
structure Performer where
  /-- Its name. -/
  name : String
  /-- The moves it makes. -/
  moves : Dispatch → List Move

/-- Runs a producer. -/
def perform (w : Dispatch) (p : Performer) : Dispatch :=
  let w := w.move (.begin p.name)
  w.run (p.moves w)

/-- Runs producers one after the other. -/
def performAll (w : Dispatch) (producers : List Performer) : Dispatch := producers.foldl perform w

/-- Scans the path index of a round, if there is one. -/
def scanPaths (w : Dispatch) (n : Nat) (outside : Callback → Bool)
    (indexes : IndexId → Option PathIndex) : Dispatch × List ScanOutcome :=
  match w.rounds n with
  | none => (w, [])
  | some r =>
    let source := r.paths.bind fun source =>
      (indexes source.index).map fun ix => (ix, source.factory)
    w.atRound n (Round.scanPaths outside r.needle source)

/-- Scans a round. -/
def scan (w : Dispatch) (n : Nat) (outside : Callback → Bool)
    (indexes : IndexId → Option PathIndex) (producers : List Performer) :
    Dispatch × List ScanOutcome :=
  Round.scan (fun w => w.isStale n) (fun w => w.scanPaths n outside indexes)
    (fun p w => w.perform p) producers w

/-- Picks the best candidates of a round. -/
def gather (w : Dispatch) (n k : Nat) : Dispatch × List (Call Payload) :=
  w.atRound n fun d => Round.gather d k

/-! ### The invariant -/

variable {w w' : Dispatch} {n : Nat}

/-- **The invariant of a dispatcher**: its counter holds how many queries have been submitted, and
each round belongs to the generation that its query began. -/
structure Orderly (w : Dispatch) : Prop where
  /-- The dispatcher has a counter. -/
  bound : w.dispatcher.counter < w.generations.current.size
  /-- It holds how many queries have been submitted. -/
  of_counter : w.generations.of w.dispatcher.counter = UInt64.ofNat w.submits
  /-- Each round belongs to the generation that its query began. -/
  token_eq : ∀ n r, w.rounds n = some r →
    r.pool.token = ⟨some w.dispatcher.counter, UInt64.ofNat n⟩
  /-- Its query has been submitted. -/
  le_submits : ∀ n r, w.rounds n = some r → n ≤ w.submits

/-- What becomes of a dispatcher: it has the rounds it had, and no submission is undone. -/
structure Leads (w w' : Dispatch) : Prop where
  /-- It is still orderly. -/
  orderly : w'.Orderly
  /-- It is the same dispatcher. -/
  dispatcher_eq : w'.dispatcher = w.dispatcher
  /-- No submission is undone. -/
  submits_le : w.submits ≤ w'.submits
  /-- Every round is kept. -/
  hasRound : ∀ n, w.HasRound n → w'.HasRound n

theorem Orderly.leads_refl (h : w.Orderly) : w.Leads w :=
  ⟨h, rfl, Nat.le_refl _, fun _ hn => hn⟩

theorem Leads.trans {w'' : Dispatch} (h : w.Leads w') (h' : w'.Leads w'') : w.Leads w'' :=
  ⟨h'.orderly, h'.dispatcher_eq.trans h.dispatcher_eq, Nat.le_trans h.submits_le h'.submits_le,
    fun n hn => h'.hasRound n (h.hasRound n hn)⟩

/-- Changes that leave the rounds alone. -/
theorem Orderly.leads (h : w.Orderly) (hdispatcher : w'.dispatcher = w.dispatcher)
    (hrounds : w'.rounds = w.rounds)
    (hbound : w.dispatcher.counter < w'.generations.current.size)
    (hcounter : w'.generations.of w.dispatcher.counter = UInt64.ofNat w'.submits)
    (hsubmits : w.submits ≤ w'.submits) : w.Leads w' where
  orderly := {
    bound := hdispatcher ▸ hbound
    of_counter := hdispatcher ▸ hcounter
    token_eq := hdispatcher ▸ hrounds ▸ h.token_eq
    le_submits := fun n r hr => Nat.le_trans (h.le_submits n r (hrounds ▸ hr)) hsubmits }
  dispatcher_eq := hdispatcher
  submits_le := hsubmits
  hasRound := by simp [HasRound, hrounds]

theorem Orderly.setRound (h : w.Orderly) {r : Round}
    (htoken : r.pool.token = ⟨some w.dispatcher.counter, UInt64.ofNat n⟩)
    (hle : n ≤ w.submits) : w.Leads (w.setRound n r) := by
  have hrounds : ∀ m r', (w.setRound n r).rounds m = some r' →
      m = n ∧ r' = r ∨ w.rounds m = some r' := by
    intro m r' hr'
    rw [Dispatch.setRound] at hr'
    by_cases hm : m = n
    · subst hm
      exact .inl ⟨rfl, by simpa using hr'.symm⟩
    · exact .inr (by simpa [hm] using hr')
  refine ⟨⟨h.bound, h.of_counter, ?_, ?_⟩, rfl, Nat.le_refl _, ?_⟩
  · intro m r' hr'
    rcases hrounds m r' hr' with ⟨rfl, rfl⟩ | hr'
    · exact htoken
    · exact h.token_eq m r' hr'
  · intro m r' hr'
    rcases hrounds m r' hr' with ⟨rfl, rfl⟩ | hr'
    · exact hle
    · exact h.le_submits m r' hr'
  · intro m hm
    by_cases heq : m = n
    · simp [HasRound, Dispatch.setRound, heq]
    · simpa [HasRound, Dispatch.setRound, heq] using hm

theorem orderly_start (g : Generations) (registry : RegistryId)
    (settings : Scorer × PoolLimits) (paths : Option PathSource) :
    (start g registry settings paths).Orderly where
  bound := by simp [start, Generations.newCounter]
  of_counter := by simp [start, submits, Generations.newCounter, Generations.of]
  token_eq := fun n r hr => by simp [start] at hr
  le_submits := fun n r hr => by simp [start] at hr

theorem Orderly.submit (h : w.Orderly) (query : String) : w.Leads (w.submit query) := by
  have hadvance : (w.generations.advance w.dispatcher.counter).of w.dispatcher.counter =
      UInt64.ofNat (w.submits + 1) := by
    rw [Generations.of_advance h.bound, h.of_counter]
    exact (UInt64.ofNat_add _ 1).symm
  let next : Dispatch := { w with
    generations := w.generations.advance w.dispatcher.counter, asked := w.asked + 1 }
  have hsubmits : next.submits = w.submits + 1 := Nat.add_right_comm _ _ _
  have hnext : w.Leads next := h.leads rfl rfl
    ((w.generations.size_advance _).symm ▸ h.bound) (hsubmits ▸ hadvance) (by omega)
  refine hnext.trans (hnext.orderly.setRound ?_ (Nat.le_of_eq hsubmits.symm))
  rw [← hadvance]
  rfl

/-- Work at the desk of a round keeps the dispatcher orderly. -/
theorem Orderly.atRound (h : w.Orderly) {α : Type} (n : Nat) {act : Desk → Desk × List α}
    (hact : ∀ d : Desk, d.Follows (act d).1) : w.Leads (w.atRound n act).1 := by
  unfold Dispatch.atRound
  split
  · exact h.leads_refl
  · next r hr =>
    have hfollows := hact (w.desk r)
    have hcounts : (w.desk r).Counts w.dispatcher.counter w.asked := ⟨h.bound, h.of_counter⟩
    obtain ⟨⟨hbound, hcounter⟩, hgrows⟩ := hfollows.counts hcounts
    have hleave : w.Leads (w.leave (act (w.desk r)).1) :=
      h.leads rfl rfl hbound hcounter (Nat.add_le_add_left hgrows w.asked)
    refine hleave.trans (hleave.orderly.setRound ?_ ?_)
    · exact hfollows.token_eq.trans (h.token_eq n r hr)
    · exact Nat.le_trans (h.le_submits n r hr) hleave.submits_le

theorem follows_gather (d : Desk) (k : Nat) : d.Follows (Round.gather d k).1 := by
  unfold Round.gather
  split_ifs
  · exact .refl d
  · exact d.follows_materialize k

/-- **One move** keeps the dispatcher orderly. -/
theorem Orderly.move (h : w.Orderly) (m : Move) : w.Leads (w.move m) := by
  cases m with
  | submit query => exact h.submit query
  | offer n outside o => exact h.atRound n fun d => d.follows_offer outside o
  | scanIndex n ix outside factory needle =>
    exact h.atRound n fun d => ix.follows_scanShards outside factory needle _ d
  | materialize n k => exact h.atRound n fun d => d.follows_materialize k
  | gather n k => exact h.atRound n fun d => follows_gather d k
  | letGo n => exact h.atRound n fun d => d.follows_reset
  | begin producer => exact h.leads rfl rfl h.bound h.of_counter (Nat.le_refl _)
  | share registry => exact h.leads rfl rfl h.bound h.of_counter (Nat.le_refl _)
  | advance other =>
    show Leads w (if other = w.dispatcher.counter then w else _)
    split_ifs with hown
    · exact h.leads_refl
    · exact h.leads rfl rfl ((w.generations.size_advance other).symm ▸ h.bound)
        ((w.generations.of_advance_of_ne hown).trans h.of_counter) (Nat.le_refl _)

/-- What one move keeps, any moves keep. -/
theorem Orderly.run (h : w.Orderly) (moves : List Move) : w.Leads (w.run moves) := by
  induction moves generalizing w with
  | nil => exact h.leads_refl
  | cons m moves ih => exact (h.move m).trans (ih (h.move m).orderly)

/-! ### Being superseded -/

theorem HasRound.exists_eq (h : w.HasRound n) : ∃ r, w.rounds n = some r :=
  Option.isSome_iff_exists.mp h

theorem hasRound_of_stale (h : w.isStale n = true) : w.HasRound n := by
  cases hr : w.rounds n with
  | none => simp [isStale, hr] at h
  | some r => simp [HasRound, hr]

/-- **A round finds itself superseded if and only if a query has been submitted after its own.** -/
theorem Orderly.isStale_iff (h : w.Orderly) (hround : w.HasRound n)
    (hfew : w.submits < UInt64.size) : w.isStale n = true ↔ n < w.submits := by
  obtain ⟨r, hr⟩ := hround.exists_eq
  have hle := h.le_submits n r hr
  rw [isStale, hr, Option.any_some, h.token_eq n r hr, Token.isStale]
  dsimp only
  rw [h.of_counter, bne_iff_ne, Ne, ← UInt64.toNat_inj, UInt64.toNat_ofNat_of_lt' hfew,
    UInt64.toNat_ofNat_of_lt' (Nat.lt_of_le_of_lt hle hfew)]
  omega

/-- So a round that has not been superseded is that of the last query. -/
theorem Orderly.eq_submits (h : w.Orderly) (hround : w.HasRound n) (hfew : w.submits < UInt64.size)
    (hlive : w.isStale n = false) : n = w.submits := by
  obtain ⟨r, hr⟩ := hround.exists_eq
  have hle := h.le_submits n r hr
  have hnot : ¬ n < w.submits := by
    rw [← h.isStale_iff hround hfew, hlive]
    exact Bool.false_ne_true
  omega

/-! ### Rounds that have been superseded -/

/-- Work that changes nothing. -/
theorem atRound_eq_self {α : Type} {r : Round} {act : Desk → Desk × List α} {answer : List α}
    (hr : w.rounds n = some r) (hact : act (w.desk r) = (w.desk r, answer)) :
    w.atRound n act = (w, answer) := by
  unfold Dispatch.atRound
  rw [hr]
  dsimp only
  rw [hact]
  show ({ w with rounds := update w.rounds n (some r) }, answer) = (w, answer)
  rw [← hr, Function.update_eq_self]

theorem isStale_eq {r : Round} (hr : w.rounds n = some r) :
    w.isStale n = (w.desk r).isStale := by
  rw [isStale, hr]
  rfl

theorem scan_of_stale (h : w.isStale n = true) (outside : Callback → Bool)
    (indexes : IndexId → Option PathIndex) (producers : List Performer) :
    w.scan n outside indexes producers = (w, []) := if_pos h

theorem gather_of_stale (h : w.isStale n = true) (k : Nat) : w.gather n k = (w, []) := by
  obtain ⟨r, hr⟩ := (hasRound_of_stale h).exists_eq
  rw [isStale_eq hr] at h
  exact atRound_eq_self hr (if_pos h)

/-! ### Scans are made of moves -/

theorem run_append (w : Dispatch) (moves more : List Move) :
    w.run (moves ++ more) = (w.run moves).run more := List.foldl_append

theorem exists_scanPaths_eq_run (w : Dispatch) (n : Nat) (outside : Callback → Bool)
    (indexes : IndexId → Option PathIndex) :
    ∃ moves, (w.scanPaths n outside indexes).1 = w.run moves := by
  unfold Dispatch.scanPaths
  split
  · exact ⟨[], rfl⟩
  · next r hr =>
    dsimp only
    cases r.paths.bind fun source => (indexes source.index).map fun ix => (ix, source.factory) with
    | none => exact ⟨[], by rw [atRound_eq_self hr rfl]; rfl⟩
    | some source => exact ⟨[.scanIndex n source.1 outside source.2 r.needle], rfl⟩

theorem exists_performAll_eq_run (w : Dispatch) (producers : List Performer) :
    ∃ moves, w.performAll producers = w.run moves := by
  induction producers generalizing w with
  | nil => exact ⟨[], rfl⟩
  | cons p producers ih =>
    obtain ⟨moves, hmoves⟩ := ih (w.perform p)
    refine ⟨.begin p.name :: p.moves (w.move (.begin p.name)) ++ moves, ?_⟩
    rw [run_append]
    exact hmoves

theorem performAll_append (w : Dispatch) (first last : List Performer) :
    w.performAll (first ++ last) = (w.performAll first).performAll last := List.foldl_append

theorem Orderly.performAll (h : w.Orderly) (producers : List Performer) :
    w.Leads (w.performAll producers) := by
  obtain ⟨moves, hmoves⟩ := w.exists_performAll_eq_run producers
  exact hmoves ▸ h.run moves

theorem Orderly.scanPaths (h : w.Orderly) (n : Nat) (outside : Callback → Bool)
    (indexes : IndexId → Option PathIndex) : w.Leads (w.scanPaths n outside indexes).1 := by
  obtain ⟨moves, hmoves⟩ := w.exists_scanPaths_eq_run n outside indexes
  exact hmoves ▸ h.run moves

/-- **A scan of a round** starts the producers up to the first one during which a query is
submitted, and none if one is submitted while the path index is scanned. -/
theorem Orderly.scan (h : w.Orderly) (hround : w.HasRound n) (hlive : w.isStale n = false)
    (outside : Callback → Bool) (indexes : IndexId → Option PathIndex)
    (producers : List Performer)
    (hfew : (w.scan n outside indexes producers).1.submits < UInt64.size) :
    let w₀ := (w.scanPaths n outside indexes).1
    ∃ m ≤ producers.length,
      w.scan n outside indexes producers =
        (w₀.performAll (producers.take m), (w.scanPaths n outside indexes).2) ∧
      (∀ j < m, (w₀.performAll (producers.take j)).submits = n) ∧
      (m < producers.length → n < (w₀.performAll (producers.take m)).submits) ∧
      ∃ moves, (w.scan n outside indexes producers).1 = w.run moves := by
  intro w₀
  obtain ⟨m, hm, heq, hbefore, hlast⟩ := Round.exists_runProducers_eq
    (fun w : Dispatch => w.isStale n) (fun p w => w.perform p) producers w₀
  have hscan : w.scan n outside indexes producers =
      (w₀.performAll (producers.take m), (w.scanPaths n outside indexes).2) := by
    rw [Dispatch.scan, Round.scan, hlive, if_neg Bool.false_ne_true]
    exact congrArg (·, _) heq
  have hpaths : w.Leads w₀ := h.scanPaths n outside indexes
  have hleads : ∀ j, w.Leads (w₀.performAll (producers.take j)) := fun j =>
    hpaths.trans (hpaths.orderly.performAll _)
  rw [hscan] at hfew
  have hfew' : ∀ j ≤ m, (w₀.performAll (producers.take j)).submits < UInt64.size := by
    intro j hj
    have hsplit : producers.take m = producers.take j ++ (producers.take m).drop j := by
      conv_lhs =>
        rw [← List.take_append_drop j (producers.take m), List.take_take, Nat.min_eq_left hj]
    rw [hsplit, performAll_append] at hfew
    exact Nat.lt_of_le_of_lt ((hleads j).orderly.performAll _).submits_le hfew
  refine ⟨m, hm, hscan, ?_, ?_, ?_⟩
  · intro j hj
    exact ((hleads j).orderly.eq_submits ((hleads j).hasRound n hround)
      (hfew' j (Nat.le_of_lt hj)) (hbefore j hj)).symm
  · intro hmore
    exact ((hleads m).orderly.isStale_iff ((hleads m).hasRound n hround)
      (hfew' m (Nat.le_refl m))).mp (hlast hmore)
  · obtain ⟨first, hfirst⟩ := w.exists_scanPaths_eq_run n outside indexes
    obtain ⟨rest, hrest⟩ := w₀.exists_performAll_eq_run (producers.take m)
    refine ⟨first ++ rest, ?_⟩
    rw [hscan, run_append, ← hfirst]
    exact hrest

/-! ### Any moves -/

/-- **Supersession is exact, permanent and effective.** After any moves, as long as fewer than
2 ^ 64 queries have been submitted: a round finds itself superseded if and only if a query has
been submitted after its own, so at most one round does not; and from then on it always does. A
round that has been superseded starts no producer and picks no candidate, and nothing changes. In
any other, the producers up to the first one during which a query is submitted are started. -/
theorem supersession (g : Generations) (registry : RegistryId) (settings : Scorer × PoolLimits)
    (paths : Option PathSource) (moves : List Move)
    (hfew : ((start g registry settings paths).run moves).submits < UInt64.size) :
    let w := (start g registry settings paths).run moves
    (∀ n, w.HasRound n → (w.isStale n = true ↔ n < w.submits)) ∧
    (∀ m n, w.HasRound m → w.HasRound n → w.isStale m = false → w.isStale n = false → m = n) ∧
    (∀ n, w.isStale n = true → ∀ more, (w.run more).submits < UInt64.size →
      (w.run more).isStale n = true) ∧
    (∀ n, w.isStale n = true →
      (∀ outside indexes producers, w.scan n outside indexes producers = (w, [])) ∧
      ∀ k, w.gather n k = (w, [])) ∧
    ∀ n, w.HasRound n → w.isStale n = false → ∀ outside indexes producers,
      (w.scan n outside indexes producers).1.submits < UInt64.size →
      let w₀ := (w.scanPaths n outside indexes).1
      ∃ m ≤ producers.length,
        w.scan n outside indexes producers =
          (w₀.performAll (producers.take m), (w.scanPaths n outside indexes).2) ∧
        (∀ j < m, (w₀.performAll (producers.take j)).submits = n) ∧
        (m < producers.length → n < (w₀.performAll (producers.take m)).submits) ∧
        ∃ more, (w.scan n outside indexes producers).1 = w.run more := by
  intro w
  have hw : w.Orderly := ((orderly_start g registry settings paths).run moves).orderly
  refine ⟨fun n hn => hw.isStale_iff hn hfew, ?_, ?_, ?_, ?_⟩
  · intro m n hm hn hm' hn'
    rw [hw.eq_submits hm hfew hm', hw.eq_submits hn hfew hn']
  · intro n hn more hmore
    have hround := hasRound_of_stale hn
    have hleads := hw.run more
    refine (hleads.orderly.isStale_iff (hleads.hasRound n hround) hmore).mpr ?_
    exact Nat.lt_of_lt_of_le ((hw.isStale_iff hround hfew).mp hn) hleads.submits_le
  · exact fun n hn => ⟨scan_of_stale hn, gather_of_stale hn⟩
  · exact fun n hn hlive outside indexes producers hfew' =>
      hw.scan hn hlive outside indexes producers hfew'

/-- Of two producers that submit a query the second is not started. -/
theorem supersession_one_query :
    let typist : Performer := { name := "typist", moves := fun _ => [.submit "ab"] }
    let w := (start {} 0 (.standard, ⟨1⟩) none).run [.submit "a"]
    w.submits < UInt64.size ∧ w.HasRound 1 ∧ w.isStale 1 = false ∧
      let w' := (w.scan 1 (fun _ => false) (fun _ => none) [typist, typist]).1
      w'.submits = 2 ∧ w'.log = [.ran "typist"] ∧ (w'.isStale 1 = true ↔ 1 < w'.submits) ∧
        ∃ more, w' = w.run more := by
  intro typist w
  have hfew : w.submits < UInt64.size := by decide
  have hround : w.HasRound 1 := rfl
  have hlive : w.isStale 1 = false := rfl
  obtain ⟨-, -, -, -, hscan⟩ :=
    supersession {} 0 (.standard, ⟨1⟩) none [.submit "a"] hfew
  obtain ⟨m, -, -, -, -, more, hmore⟩ := hscan 1 hround hlive (fun _ => false) (fun _ => none)
    [typist, typist] (by decide)
  refine ⟨hfew, hround, hlive, rfl, rfl, ?_, more, hmore⟩
  decide

end Dispatch

end Typeahead
