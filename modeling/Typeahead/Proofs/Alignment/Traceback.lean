import Typeahead.Proofs.Alignment.Table

/-!
# Tracing back finds the best placement

Every value above the mark in a row of best totals has a predecessor that explains it, because
the value is the total of a placement and that placement comes from somewhere. So the walk back
from the last match never gets stuck (`Tabulates.traceFrom`), and the placement it reads off is
optimal. Among the optimal ones it is the one with the earliest last position; and going back
from any position, the one with the nearest position before it (`IsWinner`).
-/

namespace Typeahead.Alignment

/-- Of all lists that meet a condition, this one has the latest entries from back to front: where
another one agrees with it from some entry on, the entry before is no later. -/
def IsNearest (meets : List Nat → Prop) (ps : List Nat) : Prop :=
  ∀ qs, meets qs → ∀ a a' p q back, back ≠ [] → ps = a ++ p :: back → qs = a' ++ q :: back → q ≤ p

/-- The placement that wins: no other has a greater total, and of those with the same total no
other ends earlier; and where one agrees with it from some position on, the position before lies
no nearer. -/
structure IsWinner (w : Weights) (text : List Char) (letters : List Letter) (ps : List Nat) :
    Prop where
  /-- It is a placement in the text from its beginning on. -/
  placed : IsPlacement text 0 letters ps
  /-- It is optimal. -/
  optimal : ∀ qs, IsPlacement text 0 letters qs →
    total w text 0 letters qs ≤ total w text 0 letters ps
  /-- Its last position is the earliest. -/
  earliest : ∀ qs, IsPlacement text 0 letters qs →
    total w text 0 letters qs = total w text 0 letters ps →
      ∀ p ∈ ps.getLast?, ∀ q ∈ qs.getLast?, p ≤ q
  /-- Going back, its positions are the nearest. -/
  nearest : IsNearest (fun qs => IsPlacement text 0 letters qs ∧
    total w text 0 letters qs = total w text 0 letters ps) ps

/-- The empty needle has one placement, which is empty. -/
theorem isWinner_nil (w : Weights) (text : List Char) : IsWinner w text [] [] := by
  refine ⟨isPlacement_nil.mpr rfl, ?_, ?_, ?_⟩
  · intro qs hqs
    rw [isPlacement_nil.mp hqs]
  · intro qs _ _ p hp
    exact absurd hp (by simp)
  · intro qs _ a a' p q back _ hps
    exact absurd hps (by simp)

variable {w : Weights} {text : List Char} {letters : List Letter} {letter : Letter}
  {row : Array Int}

theorem getLast?_append_cons {α : Type} {a back : List α} {p : α} (hback : back ≠ []) :
    (a ++ p :: back).getLast? = back.getLast? := by
  obtain ⟨b, back, rfl⟩ := List.exists_cons_of_ne_nil hback
  rw [List.getLast?_append_of_ne_nil _ (List.cons_ne_nil _ _), List.getLast?_cons_cons]

/-! ### The parts of the search -/

/-- A position explains a target. -/
def Explains (w : Weights) (row : Array Int) (j : Nat) (target : Int) (k : Nat) : Prop :=
  unreachable < valueAt row k ∧ valueAt row k + step w (j - k - 1) = target

/-- The nearest position that explains the target is found if there is any. -/
theorem predecessor_of_explains {j n : Nat} {target : Int}
    (h : ∃ k < n, Explains w row j target k) :
    ∃ k < n, predecessor w row j target n = some k ∧ Explains w row j target k ∧
      ∀ k' < n, Explains w row j target k' → k' ≤ k := by
  induction n with
  | zero =>
    obtain ⟨k, hk, -⟩ := h
    exact absurd hk (Nat.not_lt_zero k)
  | succ n ih =>
    rw [predecessor]
    by_cases hn : Explains w row j target n
    · refine ⟨n, Nat.lt_succ_self n, if_pos hn, hn, fun k' hk' _ => Nat.le_of_lt_succ hk'⟩
    · obtain ⟨k, hk, hexp⟩ := h
      have hkn : k < n := by
        rcases Nat.lt_succ_iff_lt_or_eq.mp hk with hlt | rfl
        · exact hlt
        · exact absurd hexp hn
      obtain ⟨m, hm, hfound, hm', hmax⟩ := ih ⟨k, hkn, hexp⟩
      refine ⟨m, hm.trans (Nat.lt_succ_self n), (if_neg hn).trans hfound, hm', ?_⟩
      intro k' hk' hexp'
      rcases Nat.lt_succ_iff_lt_or_eq.mp hk' with hlt | rfl
      · exact hmax k' hlt hexp'
      · exact absurd hexp' hn

/-- What the search for the earliest best position has found among the first `n` positions. -/
structure FoundUpTo (row : Array Int) (n : Nat) (found : Option (Nat × Int)) : Prop where
  /-- Nothing, if none of them is reachable. -/
  of_none : found = none → ∀ k < n, valueAt row k ≤ unreachable
  /-- The greatest value, at the first position that has it. -/
  of_some : ∀ j v, found = some (j, v) → v = valueAt row j ∧ unreachable < v ∧
    (∀ k < n, valueAt row k ≤ v) ∧ ∀ k < j, valueAt row k < v

/-- One position more. -/
theorem FoundUpTo.next {n : Nat} {found : Option (Nat × Int)} (h : FoundUpTo row n found)
    {better : Bool} (hbetter : better = true ↔ match found with
      | none => unreachable < valueAt row n
      | some (_, best) => best < valueAt row n) :
    FoundUpTo row (n + 1) (if better then some (n, valueAt row n) else found) := by
  cases found with
  | none =>
    simp only at hbetter
    have hnone := h.of_none rfl
    by_cases hn : unreachable < valueAt row n
    · rw [if_pos (hbetter.mpr hn)]
      refine ⟨fun h => absurd h (by simp), ?_⟩
      rintro j v ⟨⟩
      refine ⟨rfl, hn, fun k hk => ?_, fun k hk => lt_of_le_of_lt (hnone k hk) hn⟩
      rcases Nat.lt_succ_iff_lt_or_eq.mp hk with hlt | rfl
      · exact (hnone k hlt).trans hn.le
      · exact le_refl _
    · rw [if_neg (mt hbetter.mp hn)]
      refine ⟨fun _ k hk => ?_, fun j v h => absurd h (by simp)⟩
      rcases Nat.lt_succ_iff_lt_or_eq.mp hk with hlt | rfl
      · exact hnone k hlt
      · exact not_lt.mp hn
  | some found =>
    obtain ⟨j, v⟩ := found
    simp only at hbetter
    obtain ⟨hv, hreach, hle, hfirst⟩ := h.of_some j v rfl
    by_cases hn : v < valueAt row n
    · rw [if_pos (hbetter.mpr hn)]
      refine ⟨fun h => absurd h (by simp), ?_⟩
      rintro j v ⟨⟩
      refine ⟨rfl, hreach.trans hn, fun k hk => ?_, fun k hk => lt_of_le_of_lt (hle k hk) hn⟩
      rcases Nat.lt_succ_iff_lt_or_eq.mp hk with hlt | rfl
      · exact (hle k hlt).trans hn.le
      · exact le_refl _
    · rw [if_neg (mt hbetter.mp hn)]
      refine ⟨fun h => absurd h (by simp), ?_⟩
      rintro j v ⟨⟩
      refine ⟨hv, hreach, fun k hk => ?_, hfirst⟩
      rcases Nat.lt_succ_iff_lt_or_eq.mp hk with hlt | rfl
      · exact hle k hlt
      · exact not_lt.mp hn

theorem foundUpTo_earliestBest (row : Array Int) : FoundUpTo row row.size (earliestBest row) := by
  refine (Array.foldl_induction
    (motive := fun n (acc : Option (Nat × Int) × Nat) => acc.2 = n ∧ FoundUpTo row n acc.1)
    ⟨rfl, ?_⟩ ?_).2
  · exact ⟨fun _ k hk => absurd hk (Nat.not_lt_zero k), fun j v h => absurd h (by simp)⟩
  · rintro i ⟨found, n⟩ ⟨hn, hfound⟩
    simp only at hn hfound
    subst hn
    have hvalue : row[i] = valueAt row i := by
      rw [valueAt, Array.getD_eq_getD_getElem?, Fin.getElem_fin, Array.getElem?_eq_getElem i.2,
        Option.getD_some]
    refine ⟨rfl, ?_⟩
    rw [hvalue]
    refine hfound.next ?_
    cases found <;> simp

/-- If some position of a row is reachable, the earliest one with the greatest value is found. -/
theorem earliestBest_of_reachable {k : Nat} (hk : unreachable < valueAt row k) :
    ∃ j, earliestBest row = some (j, valueAt row j) ∧ unreachable < valueAt row j ∧
      (∀ k, valueAt row k ≤ valueAt row j) ∧ ∀ k < j, valueAt row k < valueAt row j := by
  have h := foundUpTo_earliestBest row
  have hsize : ∀ k, unreachable < valueAt row k → k < row.size := by
    intro k hk
    by_contra hge
    rw [valueAt, Array.getD_eq_getD_getElem?, Array.getElem?_eq_none (Nat.le_of_not_lt hge)] at hk
    exact absurd hk (lt_irrefl _)
  cases hfound : earliestBest row with
  | none =>
    rw [hfound] at h
    exact absurd (h.of_none rfl k (hsize k hk)) (not_le.mpr hk)
  | some found =>
    obtain ⟨j, v⟩ := found
    rw [hfound] at h
    obtain ⟨rfl, hreach, hle, hfirst⟩ := h.of_some j v rfl
    refine ⟨j, rfl, hreach, fun k => ?_, hfirst⟩
    by_cases hlt : unreachable < valueAt row k
    · exact hle k (hsize k hlt)
    · exact (not_lt.mp hlt).trans hreach.le

/-! ### The walk back -/

/-- The placement read off from a position: it ends there with the best total there, and of all
that do so its positions are the nearest. -/
structure ReadsOff (w : Weights) (text : List Char) (letters : List Letter) (front : List Nat)
    (j : Nat) (best : Int) : Prop where
  /-- It is a placement that ends at the position. -/
  placed : IsPlacement text 0 letters (front ++ [j])
  /-- Its total is the best one. -/
  total_eq : total w text 0 letters (front ++ [j]) = best
  /-- Going back, its positions are the nearest. -/
  nearest : IsNearest (fun qs => IsPlacement text 0 letters qs ∧
    total w text 0 letters qs = best ∧ qs.getLast? = some j) (front ++ [j])

theorem HoldsBest.isBest_at (h : HoldsBest w text 0 letters row) (k : Nat) :
    IsBest (endTotals w text 0 letters k) (valueAt row k) := by
  have := h.best k
  rwa [Nat.zero_add] at this

/-- A best total at `j` is explained by the positions that the optimal placements ending at `j`
come from, and by no others. -/
theorem explains_iff {letter : Letter} {top before : Array Int} (hne : letters ≠ [])
    (htop : HoldsBest w text 0 (letters ++ [letter]) top)
    (hbefore : HoldsBest w text 0 letters before) {j k : Nat} (hkj : k < j)
    (hj : unreachable < valueAt top j) :
    Explains w before j (valueAt top j - gainAt w text letter j) k ↔
      ∃ s ∈ endTotals w text 0 letters k,
        s + step w (j - k - 1) + gainAt w text letter j = valueAt top j := by
  constructor
  · rintro ⟨hk, heq⟩
    exact ⟨valueAt before k, (hbefore.isBest_at k).mem hk, by omega⟩
  · rintro ⟨s, hs, heq⟩
    have hk : unreachable < valueAt before k := (hbefore.isBest_at k).lt_iff.mpr ⟨s, hs⟩
    have hsle := (hbefore.isBest_at k).le hs
    obtain ⟨hfit, -⟩ := (mem_endTotals_concat hne).mp ((htop.isBest_at j).mem hj)
    have hmem : valueAt before k + step w (j - k - 1) + gainAt w text letter j ∈
        endTotals w text 0 (letters ++ [letter]) j :=
      (mem_endTotals_concat hne).mpr
        ⟨hfit, k, hkj, _, (hbefore.isBest_at k).mem hk, rfl⟩
    have hle := (htop.isBest_at j).le hmem
    exact ⟨hk, by omega⟩

/-- What is read off for the needle without its last letter, continued by the last position. A
rival that ends there comes from no nearer a position; one that comes from the same position is
told apart before it. -/
theorem ReadsOff.next {letter : Letter} {top before : Array Int} {front : List Nat} {j k : Nat}
    (hne : letters ≠ []) (htop : HoldsBest w text 0 (letters ++ [letter]) top)
    (hbefore : HoldsBest w text 0 letters before) (hj : unreachable < valueAt top j) (hkj : k < j)
    (hexp : Explains w before j (valueAt top j - gainAt w text letter j) k)
    (hnearest : ∀ k' < j, Explains w before j (valueAt top j - gainAt w text letter j) k' → k' ≤ k)
    (h : ReadsOff w text letters front k (valueAt before k)) :
    ReadsOff w text (letters ++ [letter]) (front ++ [k]) j (valueAt top j) := by
  obtain ⟨hfit, -⟩ := (mem_endTotals_concat hne).mp ((htop.isBest_at j).mem hj)
  have hplaced := isPlacement_concat_concat.mpr ⟨h.placed, hfit, hkj⟩
  refine ⟨hplaced, ?_, ?_⟩
  · rw [total_concat_concat h.placed.length_eq hkj, h.total_eq]
    have := hexp.2
    omega
  · rintro qs ⟨hqs, hqtotal, hlast⟩ a a' p q back hback hps hqseq
    obtain ⟨qfront, rfl⟩ := List.getLast?_eq_some_iff.mp hlast
    obtain ⟨hqplaced, -⟩ := isPlacement_concat.mp hqs
    obtain ⟨qfront, k', rfl⟩ := hqplaced.exists_last hne
    obtain ⟨-, -, hk'j⟩ := isPlacement_concat_concat.mp hqs
    have hqsum : total w text 0 (letters ++ [letter]) (qfront ++ [k'] ++ [j]) =
        total w text 0 letters (qfront ++ [k']) + step w (j - k' - 1) + gainAt w text letter j :=
      total_concat_concat hqplaced.length_eq hk'j
    have hk' : k' ≤ k := by
      refine hnearest k' hk'j
        ((explains_iff hne htop hbefore hk'j hj).mpr ⟨_, ⟨_, hqplaced, rfl⟩, ?_⟩)
      rw [← hqsum, hqtotal]
    rcases List.eq_nil_or_concat' back with rfl | ⟨back, b, rfl⟩
    · exact absurd rfl hback
    rw [← List.cons_append, ← List.append_assoc] at hps hqseq
    obtain ⟨hps, -⟩ := List.append_inj' hps rfl
    obtain ⟨hqseq, -⟩ := List.append_inj' hqseq rfl
    rcases List.eq_nil_or_concat' back with rfl | ⟨back', c, hc⟩
    · obtain ⟨-, hpk⟩ := List.append_inj' hps rfl
      obtain ⟨-, hqk⟩ := List.append_inj' hqseq rfl
      rw [← List.singleton_inj.mp hpk, ← List.singleton_inj.mp hqk]
      exact hk'
    · have hlast : ∀ (front a : List Nat) (x y : Nat), front ++ [x] = a ++ y :: back → x = c := by
        intro front a x y heq
        rw [hc, ← List.cons_append, ← List.append_assoc] at heq
        exact List.singleton_inj.mp (List.append_inj' heq rfl).2
      obtain rfl : k = k' := (hlast _ _ _ _ hps).trans (hlast _ _ _ _ hqseq).symm
      refine h.nearest _ ⟨hqplaced, ?_, List.getLast?_concat⟩ a a' p q back ?_ hps hqseq
      · have := hexp.2
        omega
      · rw [hc]
        simp

/-- **The walk back never gets stuck.** From a reachable position of any row it reads off the best
placement that ends there, with the nearest positions. -/
theorem Tabulates.traceFrom {table : Array Int}
    (h : Tabulates w text 0 letters letters.length table) {i : Nat} (hi : i < letters.length)
    {j : Nat} (hj : unreachable < valueAt (rowAt table (Haystack.prepare w text 0).size i) j)
    (found : List Nat) :
    ∃ front, traceFrom w (Haystack.prepare w text 0) letters table i j found =
        some (front ++ j :: found) ∧
      ReadsOff w text (letters.take (i + 1)) front j
        (valueAt (rowAt table (Haystack.prepare w text 0).size i) j) := by
  induction i generalizing j found with
  | zero =>
    obtain ⟨front, hplaced, htotal⟩ := ((h.rows 0 hi).isBest_at j).mem hj
    obtain rfl : front = [] := by
      have := hplaced.length_eq
      rw [List.length_take, List.length_append, List.length_singleton] at this
      exact List.eq_nil_of_length_eq_zero (by omega)
    refine ⟨[], rfl, hplaced, htotal, ?_⟩
    intro qs _ a a' p q back hback hps _
    have h₁ := congrArg List.length hps
    have h₂ := List.length_pos_of_ne_nil hback
    rw [List.nil_append, List.length_singleton, List.length_append, List.length_cons] at h₁
    omega
  | succ i ih =>
    have hbefore := h.rows i (Nat.lt_of_succ_lt hi)
    have htop := h.rows (i + 1) hi
    have hne : letters.take (i + 1) ≠ [] := take_ne_nil (Nat.succ_pos i) (Nat.le_of_lt hi)
    rw [List.take_succ_eq_append_getElem hi] at htop ⊢
    obtain ⟨hfit, p, hpj, s, hs, heq⟩ :=
      (mem_endTotals_concat hne).mp ((htop.isBest_at j).mem hj)
    obtain ⟨cell, hcell, -⟩ :=
      (Haystack.fits_iff_cell (w := w)).mp ((Nat.zero_add j).symm ▸ hfit)
    have hgain : gain w letters[i + 1] cell = gainAt w text letters[i + 1] j := by
      rw [Haystack.gain_of_getElem? hcell, Nat.zero_add]
    have hread := valueAt_rowAt (row_le_size h.size_eq hi) (Array.getElem?_eq_some_iff.mp hcell).1
    obtain ⟨k, hkj, hpred, hexp, hnearest⟩ := predecessor_of_explains
      ⟨p, hpj, (explains_iff hne htop hbefore hpj hj).mpr ⟨s, hs, heq.symm⟩⟩
    obtain ⟨front, htrace, hreads⟩ := ih (Nat.lt_of_succ_lt hi) hexp.1 (j :: found)
    refine ⟨front ++ [k], ?_, hreads.next hne htop hbefore hj hkj hexp hnearest⟩
    rw [Alignment.traceFrom, List.getElem?_eq_getElem hi, hcell, List.append_assoc,
      List.singleton_append, ← htrace]
    simp only [Option.bind_eq_bind, Option.bind_some, hgain, ← hread, hpred]

/-- The trace of a needle that occurs in the text: the greatest total, and the placement that
wins. -/
theorem trace_isWinner (sound : w.Sound) (hne : letters ≠ [])
    (hplaced : ∃ ps, IsPlacement text 0 letters ps) :
    ∃ best ps, trace w (Haystack.prepare w text 0) letters = some (best, ps) ∧
      IsBest (totals w text 0 letters) best ∧ IsWinner w text letters ps := by
  set top := lastRow w (Haystack.prepare w text 0) letters with hdef
  have htop : HoldsBest w text 0 letters top := holdsBest_lastRow sound hne
  obtain ⟨qs, hqs⟩ := hplaced
  obtain ⟨qfront, k, rfl⟩ := hqs.exists_last hne
  have hk : unreachable < valueAt top k :=
    (htop.isBest_at k).lt_iff.mpr ⟨_, qfront, hqs, rfl⟩
  obtain ⟨j, hfound, hj, hmax, hfirst⟩ := earliestBest_of_reachable hk
  have hpos := List.length_pos_of_ne_nil hne
  obtain ⟨front, htrace, hreads⟩ := (tabulates_tabulate sound text 0 letters).traceFrom
    (Nat.sub_lt hpos Nat.one_pos) hj []
  rw [Nat.sub_add_cancel hpos, List.take_length] at hreads
  have hle : ∀ qs, IsPlacement text 0 letters qs →
      total w text 0 letters qs ≤ valueAt top j := by
    intro qs hqs
    obtain ⟨qfront, k, rfl⟩ := hqs.exists_last hne
    exact ((htop.isBest_at k).le ⟨qfront, hqs, rfl⟩).trans (hmax k)
  have hend : ∀ qs, IsPlacement text 0 letters qs →
      total w text 0 letters qs = valueAt top j → ∀ q ∈ qs.getLast?, j ≤ q := by
    intro qs hqs htotal q hq
    obtain ⟨qfront, rfl⟩ := List.getLast?_eq_some_iff.mp hq
    by_contra hlt
    have h₁ := (htop.isBest_at q).le ⟨qfront, hqs, rfl⟩
    have h₂ := hfirst q (not_le.mp hlt)
    omega
  refine ⟨valueAt top j, front ++ [j], ?_, ?_, ?_⟩
  · rw [hdef, lastRow] at hfound
    simp only [trace, hfound, Option.bind_eq_bind, Option.bind_some, htrace]
    rfl
  · refine IsBest.extend (htop.isBest_at j) ?_ ?_
    · rintro t ⟨qfront, hqs, rfl⟩
      exact ⟨_, hqs, rfl⟩
    · intro t ht
      obtain ⟨p, hp⟩ := (mem_totals_iff hne).mp ht
      exact ⟨unreachable_lt_of_mem_endTotals sound hp, ((htop.isBest_at p).le hp).trans (hmax p)⟩
  · refine ⟨hreads.placed, ?_, ?_, ?_⟩
    · rw [hreads.total_eq]
      exact hle
    · rw [hreads.total_eq]
      intro qs hqs htotal p hp q hq
      rw [List.getLast?_concat, Option.mem_some_iff] at hp
      exact hp ▸ hend qs hqs htotal q hq
    · rw [hreads.total_eq]
      rintro qs ⟨hqs, htotal⟩ a a' p q back hback hps hqseq
      have hlast : qs.getLast? = some j := by
        rw [hqseq, getLast?_append_cons hback, ← getLast?_append_cons hback, ← hps,
          List.getLast?_concat]
      exact hreads.nearest qs ⟨hqs, htotal, hlast⟩ a a' p q back hback hps hqseq

end Typeahead.Alignment

namespace Typeahead.Scorer

open Typeahead.Alignment

/-- **The positions are a witness of the score.** Either the needle has no placement in the text,
and then there are neither positions nor a score; or the positions are those of the placement
that wins, and they come with the score. -/
theorem positions_isWinner (s : Scorer) (needle : Needle) (text : String) :
    ((∀ ps, ¬ IsPlacement text.toList 0 needle.primary ps) ∧
      s.positions needle text = none ∧ s.score needle text = Score.noMatch) ∨
    ∃ ps, s.positions needle text = some (s.score needle text, ps) ∧
      s.score needle text ≠ Score.noMatch ∧
      IsWinner s.weights text.toList needle.primary ps := by
  rw [positions, score, scoreLetters]
  by_cases hne : needle.primary = []
  · rw [hne]
    exact Or.inr ⟨[], rfl, (by decide : Score.zero ≠ Score.noMatch), isWinner_nil _ _⟩
  · rw [if_neg (by simpa using hne)]
    by_cases h : Haystack.occursFrom needle.primary text.toList 0 = true
    · obtain ⟨best, ps, htrace, hbest, hwinner⟩ :=
        trace_isWinner s.sound_weights hne (Haystack.occursFrom_iff.mp h)
      have hscore : (s.scoreLettersIn {} needle.primary text.toList 0).1 = Score.clamp best := by
        obtain ⟨first, later, heq⟩ := List.exists_cons_of_ne_nil hne
        rw [heq] at h hbest ⊢
        obtain ⟨best', hbest', hscore⟩ := s.isBest_of_occursFrom {} first later text.toList 0 h
        obtain rfl := hbest.unique hbest'
        obtain ⟨qs, hqs⟩ := Haystack.occursFrom_iff.mp h
        rw [hscore, if_pos (hbest.lt_iff.mpr ⟨_, qs, hqs, rfl⟩)]
      refine Or.inr ⟨ps, ?_, ?_, hwinner⟩
      · rw [if_pos h]
        simp only
        rw [htrace, hscore]
        rfl
      · intro hno
        have hmatch := Score.isMatch_clamp best
        rw [← hscore, hno] at hmatch
        exact absurd hmatch (by decide)
    · refine Or.inl ⟨fun ps hps => h (Haystack.occursFrom_iff.mpr ⟨ps, hps⟩), if_neg h, ?_⟩
      obtain ⟨first, later, heq⟩ := List.exists_cons_of_ne_nil hne
      rw [heq] at h ⊢
      rw [scoreLettersIn, if_neg h]

end Typeahead.Scorer
