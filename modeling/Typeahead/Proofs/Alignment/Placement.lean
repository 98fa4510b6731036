import Mathlib.Data.List.Forall2
import Mathlib.Data.List.Induction
import Mathlib.Data.Set.Basic
import Mathlib.Order.Bounds.Basic
import Mathlib.Tactic.Linarith
import Typeahead.Proofs.Weights
import Typeahead.Scorer

/-!
# Placements and their totals

What scoring is about, said of the text itself and without rows or buffers. A placement puts
every letter of a needle at a position of the text that is in view and whose character folds to
the letter's, each position after the one before. Its total adds the gains of the matches and
what the steps between them earn or cost, and takes off what the characters skipped in front of
the first match cost.

Placements are built from left to right. The totals of the placements that end at a position
come from those of the needle without its last letter (`mem_endTotals_concat`), and no total of a
sound set of weights is so low that it could be taken for the mark of an unreachable position
(`floor_le_total`).
-/

namespace Typeahead.Alignment

/-! ### Placements -/

/-- The character before a position of a text, if there is one. -/
def charBefore (text : List Char) : Nat → Option Char
  | 0 => none
  | p + 1 => text[p]?

/-- What matching a letter at a position of a text gains: the base, the bonus of the boundary
there, and more if the case agrees as well. -/
def gainAt (w : Weights) (text : List Char) (letter : Letter) (p : Nat) : Int :=
  match text[p]? with
  | some c =>
    w.base + w.bonus (Boundary.between (charBefore text p) c)
      + if letter.char = c then w.exactCase else 0
  | none => 0

/-- A letter may be matched at a position: the position is in view, and the character there folds
to the letter's. -/
def Fits (text : List Char) (offset : Nat) (letter : Letter) (p : Nat) : Prop :=
  offset ≤ p ∧ p < min Haystack.longest text.length ∧
    text[p]?.map Text.foldCase = some letter.folded

/-- Positions for the letters of a needle: strictly ascending, and every letter fits at its own. -/
structure IsPlacement (text : List Char) (offset : Nat) (letters : List Letter) (ps : List Nat) :
    Prop where
  /-- The positions ascend. -/
  ascending : ps.Pairwise (· < ·)
  /-- There is a position for every letter, and the letter fits there. -/
  fits : List.Forall₂ (Fits text offset) letters ps

/-- What the steps from match to match earn and cost. -/
def steps (w : Weights) : List Nat → Int
  | p :: q :: rest =>
    (if q = p + 1 then w.consecutive else -w.gapPenalty (q - p - 1)) + steps w (q :: rest)
  | _ => 0

/-- The total of a placement. -/
def total (w : Weights) (text : List Char) (offset : Nat) (letters : List Letter)
    (ps : List Nat) : Int :=
  (List.zipWith (gainAt w text) letters ps).sum - w.gapPenalty (ps.headD offset - offset)
    + steps w ps

/-- The totals of all placements of a needle. -/
def totals (w : Weights) (text : List Char) (offset : Nat) (letters : List Letter) : Set Int :=
  {t | ∃ ps, IsPlacement text offset letters ps ∧ total w text offset letters ps = t}

/-- The totals of the placements that end at a position. -/
def endTotals (w : Weights) (text : List Char) (offset : Nat) (letters : List Letter) (p : Nat) :
    Set Int :=
  {t | ∃ front, IsPlacement text offset letters (front ++ [p]) ∧
    total w text offset letters (front ++ [p]) = t}

section

variable {w : Weights} {text : List Char} {offset : Nat} {letters : List Letter}
  {letter : Letter} {ps front : List Nat} {p q : Nat}

theorem IsPlacement.length_eq (h : IsPlacement text offset letters ps) :
    ps.length = letters.length :=
  h.fits.length_eq.symm

theorem isPlacement_nil : IsPlacement text offset [] ps ↔ ps = [] := by
  constructor
  · intro h
    exact List.eq_nil_of_length_eq_zero h.length_eq
  · rintro rfl
    exact ⟨List.Pairwise.nil, List.Forall₂.nil⟩

theorem isPlacement_singleton :
    IsPlacement text offset [letter] [p] ↔ Fits text offset letter p := by
  constructor
  · intro h
    exact (List.forall₂_cons.mp h.fits).1
  · intro h
    exact ⟨List.pairwise_singleton _ _, List.Forall₂.cons h List.Forall₂.nil⟩

/-- A placement with a letter more at its end. -/
theorem isPlacement_concat : IsPlacement text offset (letters ++ [letter]) (ps ++ [q]) ↔
    IsPlacement text offset letters ps ∧ Fits text offset letter q ∧ ∀ p ∈ ps, p < q := by
  constructor
  · intro h
    have hlen : letters.length = ps.length := by
      have := h.length_eq
      simp only [List.length_append, List.length_singleton] at this
      omega
    obtain ⟨hps, -, hlt⟩ := List.pairwise_append.mp h.ascending
    have hfits := h.fits
    rw [List.forall₂_iff_get] at hfits
    obtain ⟨hl, hfit⟩ := hfits
    refine ⟨⟨hps, List.forall₂_iff_get.mpr ⟨hlen, fun i h₁ h₂ => ?_⟩⟩, ?_, ?_⟩
    · have := hfit i (by simp; omega) (by simp; omega)
      simpa [List.getElem_append_left h₁, List.getElem_append_left h₂] using this
    · have := hfit letters.length (by simp) (by simp [hlen])
      simpa [List.getElem_append_right, hlen] using this
    · intro p hp
      exact hlt p hp q (List.mem_singleton_self q)
  · rintro ⟨h, hq, hlt⟩
    refine ⟨List.pairwise_append.mpr ⟨h.ascending, List.pairwise_singleton _ _, ?_⟩, ?_⟩
    · intro a ha b hb
      rw [List.mem_singleton] at hb
      exact hb ▸ hlt a ha
    · exact List.rel_append h.fits (List.Forall₂.cons hq List.Forall₂.nil)

/-- The last position of a placement is its greatest. -/
theorem IsPlacement.lt_last (h : IsPlacement text offset letters (front ++ [p])) :
    ∀ a ∈ front, a < p := by
  intro a ha
  exact (List.pairwise_append.mp h.ascending).2.2 a ha p (List.mem_singleton_self p)

theorem isPlacement_concat_concat :
    IsPlacement text offset (letters ++ [letter]) (front ++ [p] ++ [q]) ↔
      IsPlacement text offset letters (front ++ [p]) ∧ Fits text offset letter q ∧ p < q := by
  rw [isPlacement_concat]
  constructor
  · rintro ⟨h, hq, hlt⟩
    exact ⟨h, hq, hlt p (by simp)⟩
  · rintro ⟨h, hq, hpq⟩
    refine ⟨h, hq, fun a ha => ?_⟩
    rcases List.mem_append.mp ha with ha | ha
    · exact (h.lt_last a ha).trans hpq
    · rw [List.mem_singleton] at ha
      exact ha ▸ hpq

theorem Fits.exists_eq_add (h : Fits text offset letter p) : ∃ k, p = offset + k :=
  ⟨p - offset, by have := h.1; omega⟩

/-- The letter that fits at the last position. -/
theorem IsPlacement.fits_last (h : IsPlacement text offset letters (front ++ [p])) :
    ∃ letter, Fits text offset letter p := by
  have hlen : (front ++ [p]).length = letters.length := h.length_eq
  have hi : front.length < letters.length := by simp at hlen; omega
  have hfit := (List.forall₂_iff_get.mp h.fits).2 front.length hi (by simp)
  simp only [List.get_eq_getElem, List.getElem_concat_length] at hfit
  exact ⟨_, hfit⟩

/-- A placement of at least one letter ends somewhere. -/
theorem IsPlacement.exists_last (h : IsPlacement text offset letters ps) (hne : letters ≠ []) :
    ∃ front p, ps = front ++ [p] := by
  have hps : ps ≠ [] := by
    rintro rfl
    exact hne (List.eq_nil_of_length_eq_zero h.length_eq.symm)
  exact ⟨ps.dropLast, ps.getLast hps, (List.dropLast_append_getLast hps).symm⟩

theorem mem_totals_iff (hne : letters ≠ []) {t : Int} :
    t ∈ totals w text offset letters ↔ ∃ p, t ∈ endTotals w text offset letters p := by
  constructor
  · rintro ⟨ps, h, rfl⟩
    obtain ⟨front, p, rfl⟩ := h.exists_last hne
    exact ⟨p, front, h, rfl⟩
  · rintro ⟨p, front, h, rfl⟩
    exact ⟨front ++ [p], h, rfl⟩

/-! ### Totals -/

theorem steps_concat_concat (hpq : p < q) :
    steps w (front ++ [p] ++ [q]) = steps w (front ++ [p]) + step w (q - p - 1) := by
  induction front with
  | nil =>
    have hgap : q - p - 1 = 0 ↔ q = p + 1 := by omega
    simp only [List.nil_append, List.singleton_append, steps, step, hgap]
    omega
  | cons a front ih =>
    cases front with
    | nil =>
      simp only [List.nil_append, List.cons_append] at ih ⊢
      rw [steps, ih, steps]
      omega
    | cons b front =>
      simp only [List.cons_append] at ih ⊢
      rw [steps, ih, steps]
      omega

theorem total_singleton :
    total w text offset [letter] [p] = gainAt w text letter p - w.gapPenalty (p - offset) := by
  simp [total, steps]

/-- A letter more adds its gain and the step to it. -/
theorem total_concat_concat (hlen : (front ++ [p]).length = letters.length) (hpq : p < q) :
    total w text offset (letters ++ [letter]) (front ++ [p] ++ [q]) =
      total w text offset letters (front ++ [p]) + step w (q - p - 1) + gainAt w text letter q := by
  have hzip : (List.zipWith (gainAt w text) (letters ++ [letter]) (front ++ [p] ++ [q])).sum =
      (List.zipWith (gainAt w text) letters (front ++ [p])).sum + gainAt w text letter q := by
    rw [List.zipWith_append hlen.symm, List.sum_append]
    simp
  have hhead : (front ++ [p] ++ [q]).headD offset = (front ++ [p]).headD offset := by
    cases front <;> rfl
  rw [total, total, hzip, hhead, steps_concat_concat hpq]
  omega

theorem mem_endTotals_singleton {t : Int} : t ∈ endTotals w text offset [letter] p ↔
    Fits text offset letter p ∧ t = gainAt w text letter p - w.gapPenalty (p - offset) := by
  constructor
  · rintro ⟨front, h, rfl⟩
    obtain rfl : front = [] := by
      have := h.length_eq
      simpa using this
    exact ⟨isPlacement_singleton.mp h, total_singleton⟩
  · rintro ⟨h, rfl⟩
    exact ⟨[], isPlacement_singleton.mpr h, total_singleton⟩

/-- The placements that end at `q` are those of the needle without its last letter that end
before `q`, if the last letter fits at `q`. -/
theorem mem_endTotals_concat (hne : letters ≠ []) {t : Int} :
    t ∈ endTotals w text offset (letters ++ [letter]) q ↔
      Fits text offset letter q ∧ ∃ p < q, ∃ s ∈ endTotals w text offset letters p,
        t = s + step w (q - p - 1) + gainAt w text letter q := by
  constructor
  · rintro ⟨ps, h, rfl⟩
    obtain ⟨hps, -⟩ := isPlacement_concat.mp h
    obtain ⟨front, p, rfl⟩ := hps.exists_last hne
    obtain ⟨-, hq, hpq⟩ := isPlacement_concat_concat.mp h
    exact ⟨hq, p, hpq, _, ⟨front, hps, rfl⟩, total_concat_concat hps.length_eq hpq⟩
  · rintro ⟨hq, p, hpq, s, ⟨front, h, rfl⟩, rfl⟩
    exact ⟨front ++ [p], isPlacement_concat_concat.mpr ⟨h, hq, hpq⟩,
      total_concat_concat h.length_eq hpq⟩

/-! ### Bounds -/

/-- A placement has no more letters than positions up to its last. -/
theorem length_le_of_mem_endTotals {t : Int} (h : t ∈ endTotals w text offset letters p) :
    letters.length ≤ p + 1 := by
  induction letters using List.reverseRecOn generalizing p t with
  | nil => exact Nat.zero_le _
  | append_singleton letters letter ih =>
    by_cases hne : letters = []
    · subst hne
      simp
    · obtain ⟨-, q, hq, s, hs, -⟩ := (mem_endTotals_concat hne).mp h
      have := ih hs
      simp only [List.length_append, List.length_singleton]
      omega

theorem gainAt_bounds (sound : w.Sound) (h : Fits text offset letter p) :
    0 < gainAt w text letter p ∧ gainAt w text letter p ≤ 3 * Weights.largest := by
  obtain ⟨-, hlt, -⟩ := h
  have hp : p < text.length := lt_of_lt_of_le hlt (min_le_right _ _)
  have h₁ := sound.base_pos
  have h₂ := sound.base_le
  have h₃ := sound.bonus_nonneg (Boundary.between (charBefore text p) text[p])
  have h₄ := sound.bonus_le (Boundary.between (charBefore text p) text[p])
  have h₅ := sound.exactCase_nonneg
  have h₆ := sound.exactCase_le
  simp only [gainAt, List.getElem?_eq_getElem hp]
  split_ifs <;> omega

theorem step_bounds (sound : w.Sound) (gap : Nat) :
    -Weights.largest ≤ step w gap ∧ step w gap ≤ Weights.largest := by
  have h₁ := sound.consecutive_nonneg
  have h₂ := sound.consecutive_le
  have h₃ := sound.gapPenalty_nonneg gap
  have h₄ := sound.gapPenalty_le gap
  unfold step
  split_ifs <;> omega

/-- Every letter costs at most the largest weight, and is worth at most four times as much. -/
theorem bounds_of_mem_endTotals (sound : w.Sound) {t : Int}
    (h : t ∈ endTotals w text offset letters p) :
    -(Weights.largest * letters.length) ≤ t ∧ t ≤ 4 * Weights.largest * letters.length := by
  induction letters using List.reverseRecOn generalizing p t with
  | nil =>
    obtain ⟨front, hp, -⟩ := h
    exact absurd (isPlacement_nil.mp hp) (by simp)
  | append_singleton letters letter ih =>
    have hlargest : (0 : Int) < Weights.largest := by decide
    by_cases hne : letters = []
    · subst hne
      obtain ⟨hfit, rfl⟩ := mem_endTotals_singleton.mp h
      obtain ⟨h₁, h₂⟩ := gainAt_bounds sound hfit
      have h₃ := sound.gapPenalty_nonneg (p - offset)
      have h₄ := sound.gapPenalty_le (p - offset)
      simp only [List.nil_append, List.length_singleton, Nat.cast_one, mul_one]
      omega
    · obtain ⟨hfit, q, hq, s, hs, rfl⟩ := (mem_endTotals_concat hne).mp h
      obtain ⟨h₁, h₂⟩ := gainAt_bounds sound hfit
      obtain ⟨h₃, h₄⟩ := step_bounds sound (p - q - 1)
      obtain ⟨h₅, h₆⟩ := ih hs
      simp only [List.length_append, List.length_singleton, Nat.cast_add, Nat.cast_one, mul_add,
        mul_one]
      omega

/-- The value under which no total falls, whatever the needle and the text. -/
def floor : Int := -(Weights.largest * Haystack.longest)

theorem lt_longest_of_mem_endTotals {t : Int} (h : t ∈ endTotals w text offset letters p) :
    p < Haystack.longest := by
  obtain ⟨front, hp, -⟩ := h
  obtain ⟨letter, -, hlt, -⟩ := hp.fits_last
  exact lt_of_lt_of_le hlt (min_le_left _ _)

/-- No total falls below the floor. -/
theorem floor_le_total (sound : w.Sound) {t : Int}
    (h : t ∈ endTotals w text offset letters p) : floor ≤ t := by
  have h₁ := length_le_of_mem_endTotals h
  have h₂ := lt_longest_of_mem_endTotals h
  obtain ⟨h₃, -⟩ := bounds_of_mem_endTotals sound h
  have hlen : (letters.length : Int) ≤ Haystack.longest := by exact_mod_cast h₁.trans h₂
  have hlargest : (0 : Int) ≤ Weights.largest := by decide
  exact le_trans (neg_le_neg (mul_le_mul_of_nonneg_left hlen hlargest)) h₃

/-- The floor lies well above the mark of an unreachable position. -/
theorem unreachable_lt_floor : unreachable + 2 * Weights.largest < floor := by decide

end

end Typeahead.Alignment
