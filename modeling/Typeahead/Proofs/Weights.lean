import Mathlib.Tactic.SplitIfs
import Typeahead.CharClass

/-!
# Sound weights

What the check of the weights guarantees, one inequality a field, and the bounds on gains and
penalties that follow. Scoring relies on nothing else.
-/

namespace Typeahead.Weights

/-- The promises that scoring relies on. -/
structure Sound (w : Weights) : Prop where
  /-- Every match is worth something. -/
  base_pos : 0 < w.base
  base_le : w.base ≤ largest
  consecutive_nonneg : 0 ≤ w.consecutive
  consecutive_le : w.consecutive ≤ largest
  pathBoundary_nonneg : 0 ≤ w.pathBoundary
  pathBoundary_le : w.pathBoundary ≤ largest
  wordBoundary_nonneg : 0 ≤ w.wordBoundary
  wordBoundary_le : w.wordBoundary ≤ largest
  camelBoundary_nonneg : 0 ≤ w.camelBoundary
  camelBoundary_le : w.camelBoundary ≤ largest
  start_nonneg : 0 ≤ w.start
  start_le : w.start ≤ largest
  exactCase_nonneg : 0 ≤ w.exactCase
  exactCase_le : w.exactCase ≤ largest
  /-- The penalties ascend. -/
  gapSmall_nonneg : 0 ≤ w.gapSmall
  gapSmall_le_gapMedium : w.gapSmall ≤ w.gapMedium
  gapMedium_le_gapLarge : w.gapMedium ≤ w.gapLarge
  gapLarge_le : w.gapLarge ≤ largest
  /-- The limits ascend, and not too far. -/
  smallLimit_pos : 0 < w.smallLimit
  smallLimit_lt : w.smallLimit < w.mediumLimit
  mediumLimit_le : w.mediumLimit ≤ largestLimit

/-- No weight is too large if and only if each of them is at most the largest. -/
theorem find_named_eq_none_iff (w : Weights) :
    w.named.find? (fun (_, value) => largest < value) = none ↔
      ∀ entry ∈ w.named, entry.2 ≤ largest := by
  simp [List.find?_eq_none]

/-- The check accepts exactly the sound weights. -/
theorem fault?_eq_none_iff (w : Weights) : w.fault? = none ↔ w.Sound := by
  constructor
  · intro h
    unfold fault? at h
    split at h
    · exact absurd h (by simp)
    · next hsmall =>
      rw [find_named_eq_none_iff] at hsmall
      simp only [named, List.forall_mem_cons, List.not_mem_nil, false_implies, implies_true,
        and_true] at hsmall
      obtain ⟨hb, hc, hp, hw, hm, hs, he, -, -, hl⟩ := hsmall
      split_ifs at h with h₁ h₂ h₃ h₄
      simp only [bonuses, List.any_cons, List.any_nil, Bool.or_false, Bool.or_eq_true,
        decide_eq_true_eq, not_or, Int.not_lt] at h₂
      obtain ⟨nc, np, nw, nm, ns, ne⟩ := h₂
      exact ⟨by omega, hb, nc, hc, np, hp, nw, hw, nm, hm, ns, hs, ne, he, by omega, by omega,
        by omega, hl, by omega, by omega, by omega⟩
  · intro h
    have hfind : w.named.find? (fun (_, value) => largest < value) = none := by
      rw [find_named_eq_none_iff]
      have h₁ := h.gapSmall_le_gapMedium
      have h₂ := h.gapMedium_le_gapLarge
      have h₃ := h.gapLarge_le
      simp only [named, List.forall_mem_cons, List.not_mem_nil, false_implies, implies_true,
        and_true]
      exact ⟨h.base_le, h.consecutive_le, h.pathBoundary_le, h.wordBoundary_le,
        h.camelBoundary_le, h.start_le, h.exactCase_le, by omega, by omega, h₃⟩
    have hbonus : w.bonuses.any (· < 0) = false := by
      simp only [bonuses, List.any_cons, List.any_nil, Bool.or_false, Bool.or_eq_false_iff,
        decide_eq_false_iff_not, Int.not_lt]
      exact ⟨h.consecutive_nonneg, h.pathBoundary_nonneg, h.wordBoundary_nonneg,
        h.camelBoundary_nonneg, h.start_nonneg, h.exactCase_nonneg⟩
    obtain ⟨hb, -, -, -, -, -, -, -, -, -, -, -, -, -, g₁, g₂, g₃, -, l₁, l₂, l₃⟩ := h
    unfold fault?
    rw [hfind]
    simp only [hbonus]
    rw [if_neg (by omega), if_neg (by simp), if_neg (by omega), if_neg (by omega)]

section

variable {w : Weights} (sound : w.Sound)

include sound

theorem Sound.gapPenalty_nonneg (gap : Nat) : 0 ≤ w.gapPenalty gap := by
  have h₁ := sound.gapSmall_nonneg
  have h₂ := sound.gapSmall_le_gapMedium
  have h₃ := sound.gapMedium_le_gapLarge
  unfold gapPenalty
  split_ifs <;> omega

theorem Sound.gapPenalty_le (gap : Nat) : w.gapPenalty gap ≤ largest := by
  have h₁ := sound.gapSmall_nonneg
  have h₂ := sound.gapSmall_le_gapMedium
  have h₃ := sound.gapMedium_le_gapLarge
  have h₄ := sound.gapLarge_le
  unfold gapPenalty
  split_ifs <;> omega

/-- A gap above the middle limit pays the penalty of the largest tier. -/
theorem Sound.gapPenalty_of_lt {gap : Nat} (h : w.mediumLimit < gap) :
    w.gapPenalty gap = w.gapLarge := by
  have := sound.smallLimit_lt
  rw [gapPenalty, if_neg (by omega), if_neg (by omega), if_neg (by omega)]

theorem Sound.bonus_nonneg (b : Boundary) : 0 ≤ w.bonus b := by
  cases b
  · exact sound.start_nonneg
  · exact sound.pathBoundary_nonneg
  · exact sound.wordBoundary_nonneg
  · exact sound.camelBoundary_nonneg
  · exact Int.le_refl 0

theorem Sound.bonus_le (b : Boundary) : w.bonus b ≤ largest := by
  cases b
  · exact sound.start_le
  · exact sound.pathBoundary_le
  · exact sound.wordBoundary_le
  · exact sound.camelBoundary_le
  · exact (by decide : (0 : Int) ≤ largest)

end

end Typeahead.Weights
