import Mathlib.Data.List.Chain
import Mathlib.Tactic.Linarith
import Typeahead.Proofs.Alignment.Optimum

/-!
# The beginning of a text matches best

A text that begins with the query has a placement with nothing in between and nothing in front, on
which the case agrees everywhere: one that begins the text and earns all that can be earned without
any other boundary (`ceiling_le_total`). In a text without inner boundaries no placement exceeds
that (`total_le_ceiling`), and one with a gap somewhere falls short of it by a step and a penalty
(`total_add_le_ceiling`). The optima of the two texts compare as these totals do, and so do the
scores that they are clamped to.
-/

namespace Typeahead

/-! ### Clamped totals -/

namespace Score

variable {total total' : Int}

theorem clamp_le_clamp (h : total ≤ total') : clamp total ≤ clamp total' := by
  show (clamp total).value ≤ (clamp total').value
  simp only [clamp]
  omega

theorem noMatch_lt_clamp (total : Int) : noMatch < clamp total := by
  show (-32768 : Int) < (clamp total).value
  simp only [clamp]
  omega

/-- Clamping keeps a positive total apart from a smaller one that is not clamped to the greatest
score. -/
theorem clamp_lt_clamp (h : total < total') (hpositive : 0 < total')
    (hbelow : clamp total < greatest) : clamp total < clamp total' := by
  change (clamp total).value < 16383 at hbelow
  show (clamp total).value < (clamp total').value
  simp only [clamp] at hbelow ⊢
  omega

end Score

namespace Alignment

variable {w : Weights} {text : List Char} {letters : List Letter} {letter : Letter}
  {ps : List Nat} {p : Nat}

/-- Only its first character begins a part of the text, as far as the text is looked at: no position
but the first earns a bonus. -/
def IsPlain (w : Weights) (text : List Char) : Prop :=
  ∀ p c, 0 < p → p < Haystack.longest → text[p]? = some c →
    w.bonus (Boundary.between (charBefore text p) c) = 0

theorem isPlain_iff : IsPlain w text ↔ ∀ p < min Haystack.longest text.length, 0 < p →
    (text[p]?.all fun c => w.bonus (Boundary.between (charBefore text p) c) = 0) = true := by
  simp only [Option.all_eq_true, decide_eq_true_iff]
  constructor
  · intro h p hlt hp c hget
    exact h p c hp (lt_min_iff.mp hlt).1 hget
  · intro h p c hp hlongest hget
    exact h p (lt_min hlongest (List.getElem?_eq_some_iff.mp hget).1) hp c hget

instance (w : Weights) (text : List Char) : Decidable (IsPlain w text) :=
  decidable_of_iff _ isPlain_iff.symm

/-- Positions that follow one another. -/
def IsRun (ps : List Nat) : Prop := ps.IsChain fun p q => q = p + 1

/-- What a first letter and so many others earn at the beginning of a text, one after the other and
with the case agreeing, if there is no other boundary. -/
def ceiling (w : Weights) (others : Nat) : Int :=
  (others + 1) * (w.base + w.exactCase) + w.start + others * w.consecutive

theorem ceiling_pos (sound : w.Sound) (others : Nat) : 0 < ceiling w others := by
  have hletters : 0 < (others + 1) * (w.base + w.exactCase) :=
    mul_pos (by omega) (by linarith [sound.base_pos, sound.exactCase_nonneg])
  have hsteps : 0 ≤ others * w.consecutive :=
    mul_nonneg (Int.natCast_nonneg others) sound.consecutive_nonneg
  have hstart := sound.start_nonneg
  rw [ceiling]
  linarith

/-! ### No placement in a plain text exceeds the ceiling -/

theorem gainAt_le (sound : w.Sound) (hplain : IsPlain w text) (hfit : Fits text 0 letter p) :
    gainAt w text letter p ≤ w.base + w.exactCase + if p = 0 then w.start else 0 := by
  obtain ⟨-, hlt, -⟩ := hfit
  obtain ⟨hlongest, hlength⟩ := lt_min_iff.mp hlt
  have hexact := sound.exactCase_nonneg
  have hget := List.getElem?_eq_getElem hlength
  have hbonus : w.bonus (Boundary.between (charBefore text p) text[p]) =
      if p = 0 then w.start else 0 := by
    cases p with
    | zero => rfl
    | succ p => exact hplain _ _ p.succ_pos hlongest hget
  simp only [gainAt, hget, hbonus]
  split_ifs <;> omega

/-- Away from the first position, every letter gains at most the base and the bonus for its case. -/
theorem sum_gains_le (sound : w.Sound) (hplain : IsPlain w text)
    (hfits : List.Forall₂ (Fits text 0) letters ps) (hpos : ∀ p ∈ ps, 0 < p) :
    (List.zipWith (gainAt w text) letters ps).sum ≤ letters.length * (w.base + w.exactCase) := by
  induction hfits with
  | nil => simp
  | @cons letter p letters ps hfit _ ih =>
    obtain ⟨hp, hps⟩ := List.forall_mem_cons.mp hpos
    have hgain := gainAt_le sound hplain hfit
    rw [if_neg (Nat.ne_of_gt hp)] at hgain
    have hrest := ih hps
    simp only [List.zipWith_cons_cons, List.sum_cons, List.length_cons, Nat.cast_add, Nat.cast_one]
    linarith

/-- All letters together gain the bonus of the first position at most once. -/
theorem sum_gains_cons_le (sound : w.Sound) (hplain : IsPlain w text)
    (h : IsPlacement text 0 (letter :: letters) (p :: ps)) :
    (List.zipWith (gainAt w text) (letter :: letters) (p :: ps)).sum ≤
      (letters.length + 1) * (w.base + w.exactCase) + w.start := by
  obtain ⟨hfirst, hrest⟩ := List.forall₂_cons.mp h.fits
  have hpos : ∀ q ∈ ps, 0 < q := fun q hq =>
    Nat.lt_of_le_of_lt p.zero_le ((List.pairwise_cons.mp h.ascending).1 q hq)
  have hgain := gainAt_le sound hplain hfirst
  have hgains := sum_gains_le sound hplain hrest hpos
  have hstart := sound.start_nonneg
  rw [List.zipWith_cons_cons, List.sum_cons]
  split_ifs at hgain <;> linarith

/-- A gap costs at least the penalty of the lowest tier. -/
theorem gapSmall_le_gapPenalty (sound : w.Sound) {gap : Nat} (h : 0 < gap) :
    w.gapSmall ≤ w.gapPenalty gap := by
  have hmedium := sound.gapSmall_le_gapMedium
  have hlarge := sound.gapMedium_le_gapLarge
  unfold Weights.gapPenalty
  split_ifs <;> omega

/-- A step earns at most what going on without a gap earns. -/
theorem steps_le (sound : w.Sound) (p : Nat) (ps : List Nat) :
    steps w (p :: ps) ≤ ps.length * w.consecutive := by
  induction ps generalizing p with
  | nil => simp [steps]
  | cons q ps ih =>
    have hrest := ih q
    have hconsecutive := sound.consecutive_nonneg
    have hpenalty := sound.gapPenalty_nonneg (q - p - 1)
    simp only [steps, List.length_cons, Nat.cast_add, Nat.cast_one]
    split_ifs <;> linarith

/-- Where there is a gap, a step is lost and a penalty is paid. -/
theorem steps_add_le (sound : w.Sound) (hascending : (p :: ps).Pairwise (· < ·))
    (hgap : ¬ IsRun (p :: ps)) :
    steps w (p :: ps) + (w.consecutive + w.gapSmall) ≤ ps.length * w.consecutive := by
  induction ps generalizing p with
  | nil => exact absurd (List.isChain_singleton p) hgap
  | cons q ps ih =>
    obtain ⟨hp, hps⟩ := List.pairwise_cons.mp hascending
    have hpq : p < q := hp q List.mem_cons_self
    simp only [steps, List.length_cons, Nat.cast_add, Nat.cast_one]
    by_cases hnext : q = p + 1
    · have hrun : ¬ IsRun (q :: ps) := fun hrun => hgap (List.isChain_cons_cons.mpr ⟨hnext, hrun⟩)
      have hrest := ih hps hrun
      rw [if_pos hnext]
      linarith
    · have hpenalty := gapSmall_le_gapPenalty sound (show 0 < q - p - 1 by omega)
      have hrest := steps_le sound q ps
      rw [if_neg hnext]
      linarith

/-- **No placement in a plain text is worth more than the ceiling.** -/
theorem total_le_ceiling (sound : w.Sound) (hplain : IsPlain w text)
    (h : IsPlacement text 0 (letter :: letters) ps) :
    total w text 0 (letter :: letters) ps ≤ ceiling w letters.length := by
  cases ps with
  | nil => exact absurd h.length_eq (by simp)
  | cons p ps =>
    have hlength : ps.length = letters.length := by simpa using h.length_eq
    have hgains := sum_gains_cons_le sound hplain h
    have hsteps := steps_le sound p ps
    have hpenalty := sound.gapPenalty_nonneg ((p :: ps).headD 0 - 0)
    rw [hlength] at hsteps
    rw [total, ceiling]
    linarith

/-- **A placement with a gap falls short of the ceiling**, by the step that is lost and the penalty
of the gap at least. -/
theorem total_add_le_ceiling (sound : w.Sound) (hplain : IsPlain w text)
    (h : IsPlacement text 0 (letter :: letters) ps) (hgap : ¬ IsRun ps) :
    total w text 0 (letter :: letters) ps + (w.consecutive + w.gapSmall) ≤
      ceiling w letters.length := by
  cases ps with
  | nil => exact absurd h.length_eq (by simp)
  | cons p ps =>
    have hlength : ps.length = letters.length := by simpa using h.length_eq
    have hgains := sum_gains_cons_le sound hplain h
    have hsteps := steps_add_le sound h.ascending hgap
    have hpenalty := sound.gapPenalty_nonneg ((p :: ps).headD 0 - 0)
    rw [hlength] at hsteps
    rw [total, ceiling]
    linarith

/-! ### A query at the beginning of a text reaches it -/

/-- Characters stand in a text from a position on. -/
def StandAt (text : List Char) (p : Nat) (chars : List Char) : Prop :=
  ∀ i c, chars[i]? = some c → text[p + i]? = some c

theorem StandAt.tail {c : Char} {chars : List Char} (h : StandAt text p (c :: chars)) :
    StandAt text (p + 1) chars := by
  intro i d hd
  rw [Nat.add_assoc, Nat.add_comm 1 i]
  exact h (i + 1) d hd

theorem standAt_append (chars rest : List Char) : StandAt (chars ++ rest) 0 chars := by
  intro i c hc
  rw [Nat.zero_add, List.getElem?_append_left (List.getElem?_eq_some_iff.mp hc).1, hc]

/-- A character that is matched with itself gains the base, the bonus for its case, and the bonus of
the boundary that it stands at. -/
theorem le_gainAt (sound : w.Sound) {c : Char} (hget : text[p]? = some c) :
    w.base + w.exactCase + (if p = 0 then w.start else 0) ≤ gainAt w text (Letter.of c) p := by
  have hbonus : (if p = 0 then w.start else 0) ≤
      w.bonus (Boundary.between (charBefore text p) c) := by
    split_ifs with hp
    · subst hp
      exact le_rfl
    · exact sound.bonus_nonneg _
  simp only [gainAt, hget, Letter.of, if_pos]
  linarith

/-- Characters that stand in a text, matched where they stand, gain as much each. -/
theorem le_sum_gains (sound : w.Sound) {chars : List Char} (h : StandAt text p chars) :
    chars.length * (w.base + w.exactCase) ≤
      (List.zipWith (gainAt w text) (chars.map Letter.of) (List.range' p chars.length)).sum := by
  induction chars generalizing p with
  | nil => simp
  | cons c chars ih =>
    have hgain := le_gainAt (w := w) sound (h 0 c rfl)
    have hrest := ih h.tail
    have hstart : (0 : Int) ≤ if p + 0 = 0 then w.start else 0 := by
      have := sound.start_nonneg
      split_ifs <;> omega
    simp only [List.map_cons, List.length_cons, List.range'_succ, List.zipWith_cons_cons,
      List.sum_cons, Nat.cast_add, Nat.cast_one, Nat.add_zero] at hgain hstart ⊢
    linarith

/-- Positions that follow one another earn the most that steps can earn. -/
theorem steps_range' (p n : Nat) : steps w (List.range' p (n + 1)) = n * w.consecutive := by
  induction n generalizing p with
  | zero => simp [steps]
  | succ n ih =>
    rw [List.range'_succ, List.range'_succ, steps, if_pos rfl, ← List.range'_succ, ih]
    push_cast
    linarith

/-- A query is placed where a text begins with it. -/
theorem isPlacement_range' {chars : List Char} (hshort : chars.length ≤ Haystack.longest)
    (h : StandAt text 0 chars) :
    IsPlacement text 0 (chars.map Letter.of) (List.range' 0 chars.length) := by
  refine ⟨List.pairwise_lt_range', List.forall₂_iff_get.mpr ⟨by simp, fun i hi hi' => ?_⟩⟩
  have hchars : i < chars.length := by simpa using hi
  have hget : text[i]? = some chars[i] := by
    simpa using h i chars[i] (List.getElem?_eq_getElem hchars)
  have htext : i < text.length := (List.getElem?_eq_some_iff.mp hget).1
  simp only [List.get_eq_getElem, List.getElem_map, List.getElem_range', Nat.one_mul, Nat.zero_add]
  exact ⟨i.zero_le, lt_min (by omega) htext, by simp [hget, Letter.of]⟩

/-- **A query at the beginning of a text is worth the ceiling**, or more where the query itself has
inner boundaries. -/
theorem ceiling_le_total (sound : w.Sound) {c : Char} {chars : List Char}
    (h : StandAt text 0 (c :: chars)) :
    ceiling w chars.length ≤
      total w text 0 ((c :: chars).map Letter.of) (List.range' 0 (chars.length + 1)) := by
  have hgain := le_gainAt (w := w) sound (h 0 c rfl)
  have hgains := le_sum_gains (w := w) sound h.tail
  rw [total, steps_range', ceiling, List.range'_succ, List.map_cons, List.zipWith_cons_cons,
    List.sum_cons]
  have hpenalty : w.gapPenalty ((0 :: List.range' (0 + 1) chars.length).headD 0 - 0) = 0 := rfl
  rw [Nat.add_zero, if_pos rfl] at hgain
  rw [hpenalty]
  linarith

end Alignment

/-! ### Scores -/

namespace Scorer

open Typeahead.Alignment

/-- A needle does not match, or its score is the greatest total of its placements, clamped. -/
theorem scoreLetters_cases (s : Scorer) {letters : List Letter} (hne : letters ≠ [])
    (text : List Char) (offset : Nat) :
    (s.scoreLetters letters text offset = Score.noMatch ∧
      ∀ ps, ¬ IsPlacement text offset letters ps) ∨
    ∃ best, IsGreatest (totals s.weights text offset letters) best ∧
      s.scoreLetters letters text offset = Score.clamp best := by
  obtain ⟨first, later, rfl⟩ := List.exists_cons_of_ne_nil hne
  by_cases h : Haystack.occursFrom (first :: later) text offset = true
  · obtain ⟨best, hbest, hscore⟩ := s.isBest_of_occursFrom {} first later text offset h
    obtain ⟨ps, hps⟩ := Haystack.occursFrom_iff.mp h
    have hreach : unreachable < best := hbest.lt_iff.mpr ⟨_, ps, hps, rfl⟩
    rw [if_pos hreach] at hscore
    exact .inr ⟨best, hbest.isGreatest hreach, hscore⟩
  · refine .inl ⟨?_, fun ps hps => h (Haystack.occursFrom_iff.mpr ⟨ps, hps⟩)⟩
    rw [scoreLetters, scoreLettersIn, if_neg h]

/-- A query that is short enough is kept as it is. -/
theorem primary_prepare {query : String} (hlength : query.length ≤ Needle.longest) :
    (Needle.prepare query).primary = query.toList.map Letter.of := by
  rw [Needle.prepare, Needle.ofChars]
  dsimp only
  rw [List.take_of_length_le (by rwa [String.length_toList])]

/-- The score of a query against a text that begins with it. -/
theorem exists_score_append (s : Scorer) {query : String} {c : Char} {chars : List Char}
    (hchars : query.toList = c :: chars) (hlength : query.length ≤ Needle.longest)
    (suffix : String) :
    ∃ best, ceiling s.weights chars.length ≤ best ∧
      s.score (.prepare query) (query ++ suffix) = Score.clamp best := by
  have hstands : StandAt (query ++ suffix).toList 0 (c :: chars) := by
    rw [String.toList_append, hchars]
    exact standAt_append _ _
  have hshort : (c :: chars).length ≤ Haystack.longest := by
    rw [← hchars, String.length_toList]
    exact hlength.trans (by decide)
  have hplaced := isPlacement_range' hshort hstands
  rw [score, primary_prepare hlength, hchars]
  rcases s.scoreLetters_cases (List.cons_ne_nil (Letter.of c) (chars.map Letter.of))
    (query ++ suffix).toList 0 with ⟨-, hnone⟩ | ⟨best, hbest, hscore⟩
  · exact absurd hplaced (hnone _)
  · have hceiling := ceiling_le_total s.sound_weights hstands
    exact ⟨best, hceiling.trans (hbest.2 ⟨_, hplaced, rfl⟩), hscore⟩

/-- **Nothing matches better than the beginning of a text.** A text that begins with the query has
at least the score of any text that no boundary inside earns a bonus for, however long the two are.
It has a better one if that other text has the letters of the query in no one piece, a gap costs
something, and the score of the other text is not the greatest one already. The query must not be
longer than queries are kept. -/
theorem beginning_matches_best (s : Scorer) {query : String} (hne : query ≠ "")
    (hlength : query.length ≤ Needle.longest) (suffix text : String)
    (hplain : IsPlain s.weights text.toList) :
    s.score (.prepare query) text ≤ s.score (.prepare query) (query ++ suffix) ∧
    (0 < s.weights.consecutive + s.weights.gapSmall →
      (∀ ps, IsPlacement text.toList 0 (Needle.prepare query).primary ps → ¬ IsRun ps) →
      s.score (.prepare query) text < Score.greatest →
      s.score (.prepare query) text < s.score (.prepare query) (query ++ suffix)) := by
  obtain ⟨c, chars, hchars⟩ : ∃ c chars, query.toList = c :: chars :=
    List.exists_cons_of_ne_nil (by simpa using hne)
  obtain ⟨best, hceiling, hbest⟩ := s.exists_score_append hchars hlength suffix
  have hpositive : 0 < best := lt_of_lt_of_le (ceiling_pos s.sound_weights _) hceiling
  have hcount : (chars.map Letter.of).length = chars.length := List.length_map _
  rw [hbest, score, primary_prepare hlength, hchars, List.map_cons]
  rcases s.scoreLetters_cases (List.cons_ne_nil (Letter.of c) (chars.map Letter.of)) text.toList 0
    with ⟨hnone, -⟩ | ⟨best', ⟨⟨ps, hps, htotal⟩, -⟩, hscore⟩
  · rw [hnone]
    exact ⟨Int.le_of_lt (Score.noMatch_lt_clamp best), fun _ _ _ => Score.noMatch_lt_clamp best⟩
  · rw [hscore]
    have hle := total_le_ceiling s.sound_weights hplain hps
    rw [hcount] at hle
    refine ⟨Score.clamp_le_clamp (by omega), fun hcosts hgaps hbelow => ?_⟩
    have hlt := total_add_le_ceiling s.sound_weights hplain hps (hgaps ps hps)
    rw [hcount] at hlt
    exact Score.clamp_lt_clamp (by omega) hpositive hbelow

/-- In a text of small letters only, with a gap between the two that are looked for. -/
theorem beginning_matches_best_small_letters :
    "ab" ≠ "" ∧ "ab".length ≤ Needle.longest ∧ IsPlain standard.weights "xaxb".toList ∧
      (0 < standard.weights.consecutive + standard.weights.gapSmall ∧
        (∀ ps, IsPlacement "xaxb".toList 0 (Needle.prepare "ab").primary ps → ¬ IsRun ps) ∧
        standard.score (.prepare "ab") "xaxb" < Score.greatest) ∧
      standard.score (.prepare "ab") "xaxb" < standard.score (.prepare "ab") ("ab" ++ "/C") := by
  have hplain : IsPlain standard.weights "xaxb".toList := by decide +kernel
  have hgaps : ∀ ps, IsPlacement "xaxb".toList 0 (Needle.prepare "ab").primary ps → ¬ IsRun ps := by
    have hprimary : (Needle.prepare "ab").primary = [Letter.of 'a', Letter.of 'b'] := by
      decide +kernel
    rw [hprimary]
    intro ps hps hrun
    obtain ⟨p, q, rfl⟩ := List.length_eq_two.mp hps.length_eq
    obtain ⟨hp, hrest⟩ := List.forall₂_cons.mp hps.fits
    obtain ⟨hq, -⟩ := List.forall₂_cons.mp hrest
    obtain ⟨rfl, -⟩ := List.isChain_cons_cons.mp hrun
    have hnone : ∀ p < 4, ¬ (Fits "xaxb".toList 0 (Letter.of 'a') p ∧
        Fits "xaxb".toList 0 (Letter.of 'b') (p + 1)) := by
      unfold Fits
      decide +kernel
    exact hnone p hp.2.1 ⟨hp, hq⟩
  have hbelow : standard.score (.prepare "ab") "xaxb" < Score.greatest := by decide +kernel
  have hne : "ab" ≠ "" := by decide
  have hlength : "ab".length ≤ Needle.longest := by decide
  have hcosts : 0 < standard.weights.consecutive + standard.weights.gapSmall := by decide
  obtain ⟨-, hlt⟩ := beginning_matches_best standard hne hlength "/C" "xaxb" hplain
  exact ⟨hne, hlength, hplain, ⟨hcosts, hgaps, hbelow⟩, hlt hcosts hgaps hbelow⟩

end Scorer

end Typeahead
