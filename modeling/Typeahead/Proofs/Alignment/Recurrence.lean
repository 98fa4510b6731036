import Mathlib.Order.Bounds.Basic
import Typeahead.Proofs.Alignment.Placement

/-!
# The recurrence behind a row

A row is filled by looking at a window of near predecessors and at one number that stands for
all the far ones. This module shows that nothing is lost that way: every position gets the best
way to come there from any reachable predecessor (`isBest_bestBefore`), whatever the buffer held
that the row is written into (`getElem?_fillRow`).

A number stands for a set of totals when it is their greatest, or the mark of an unreachable
position if there are none (`IsBest`). The maxima that the code takes are unions of such sets,
the steps and gains that it adds are translations of them.
-/

namespace Typeahead.Alignment

/-! ### The best of a set of totals -/

/-- The number stands for the set: all totals of the set lie above `unreachable`, and the number
is the greatest of them, or `unreachable` if there are none. -/
structure IsBest (s : Set Int) (v : Int) : Prop where
  /-- No total of the set could be taken for the mark. -/
  reachable : ∀ t ∈ s, unreachable < t
  /-- The number is the greatest one. -/
  greatest : IsGreatest (insert unreachable s) v

namespace IsBest

variable {s s' : Set Int} {v v' : Int}

theorem le (h : IsBest s v) {t : Int} (ht : t ∈ s) : t ≤ v :=
  h.greatest.2 (Set.mem_insert_of_mem _ ht)

theorem unreachable_le (h : IsBest s v) : unreachable ≤ v :=
  h.greatest.2 (Set.mem_insert _ _)

/-- A number above the mark is one of the totals. -/
theorem mem (h : IsBest s v) (hv : unreachable < v) : v ∈ s := by
  rcases h.greatest.1 with rfl | hm
  · exact absurd hv (lt_irrefl _)
  · exact hm

theorem lt_iff (h : IsBest s v) : unreachable < v ↔ s.Nonempty := by
  constructor
  · intro hv
    exact ⟨v, h.mem hv⟩
  · rintro ⟨t, ht⟩
    exact lt_of_lt_of_le (h.reachable t ht) (h.le ht)

theorem unique (h : IsBest s v) (h' : IsBest s v') : v = v' := h.greatest.unique h'.greatest

theorem isGreatest (h : IsBest s v) (hv : unreachable < v) : IsGreatest s v :=
  ⟨h.mem hv, fun _ ht => h.le ht⟩

theorem empty : IsBest ∅ unreachable := by
  refine ⟨fun _ ht => absurd ht (Set.notMem_empty _), ?_⟩
  rw [insert_empty_eq]
  exact isGreatest_singleton

theorem eq_unreachable (h : IsBest s v) (hs : s = ∅) : v = unreachable := by
  rcases h.greatest.1 with rfl | hm
  · rfl
  · exact absurd hm (hs ▸ Set.notMem_empty v)

/-- The greater of two numbers stands for the union of their sets. -/
theorem union (h : IsBest s v) (h' : IsBest s' v') : IsBest (s ∪ s') (max v v') := by
  refine ⟨?_, ?_, ?_⟩
  · rintro t (ht | ht)
    · exact h.reachable t ht
    · exact h'.reachable t ht
  · rcases max_choice v v' with hmax | hmax
    · rw [hmax]
      rcases h.greatest.1 with rfl | hm
      · exact Set.mem_insert _ _
      · exact Set.mem_insert_of_mem _ (Or.inl hm)
    · rw [hmax]
      rcases h'.greatest.1 with rfl | hm
      · exact Set.mem_insert _ _
      · exact Set.mem_insert_of_mem _ (Or.inr hm)
  · rintro t (rfl | ht | ht)
    · exact h.unreachable_le.trans (le_max_left _ _)
    · exact (h.le ht).trans (le_max_left _ _)
    · exact (h'.le ht).trans (le_max_right _ _)

/-- Adding a number to all totals moves the best one along, unless there is none. -/
theorem translate (h : IsBest s v) (c : Int) (hc : ∀ t ∈ s, unreachable < t + c) :
    IsBest ((· + c) '' s) (if unreachable < v then v + c else unreachable) := by
  refine ⟨?_, ?_, ?_⟩
  · rintro _ ⟨t, ht, rfl⟩
    exact hc t ht
  · split_ifs with hv
    · exact Set.mem_insert_of_mem _ ⟨v, h.mem hv, rfl⟩
    · exact Set.mem_insert _ _
  · rintro t (rfl | ⟨t, ht, rfl⟩)
    · split_ifs with hv
      · exact (hc v (h.mem hv)).le
      · exact le_refl _
    · rw [if_pos (h.lt_iff.mpr ⟨t, ht⟩)]
      exact Int.add_le_add_right (h.le ht) c

/-- The best of a set stays the best when totals are added that do not exceed it. -/
theorem extend (h : IsBest s v) (hsub : s ⊆ s') (hle : ∀ t ∈ s', unreachable < t ∧ t ≤ v) :
    IsBest s' v := by
  refine ⟨fun t ht => (hle t ht).1, ?_, ?_⟩
  · exact Set.insert_subset_insert hsub h.greatest.1
  · rintro t (rfl | ht)
    · exact h.unreachable_le
    · exact (hle t ht).2

theorem congr (h : IsBest s v) (hs : s = s') : IsBest s' v := hs ▸ h

end IsBest

/-! ### Rows as buffers -/

/-- The value of a row at a position; positions past its end are unreachable. -/
def valueAt (row : Array Int) (k : Nat) : Int := row.getD k unreachable

/-- The values of a row are totals no lower than the floor, or marks. -/
def IsRow (row : Array Int) : Prop := ∀ k, valueAt row k = unreachable ∨ floor ≤ valueAt row k

theorem IsRow.isBest {row : Array Int} (h : IsRow row) (k : Nat) :
    IsBest {t | unreachable < valueAt row k ∧ t = valueAt row k} (valueAt row k) := by
  refine ⟨?_, ?_, ?_⟩
  · rintro t ⟨hk, rfl⟩
    exact hk
  · rcases h k with hk | hk
    · exact Or.inl hk
    · have := unreachable_lt_floor
      exact Or.inr ⟨by simp only [Weights.largest] at this; omega, rfl⟩
  · rintro t (rfl | ⟨-, rfl⟩)
    · rcases h k with hk | hk
      · exact hk.ge
      · have := unreachable_lt_floor
        simp only [Weights.largest] at this
        omega
    · exact le_refl _

/-- The value of a far predecessor when the sweep comes to a position. -/
def farBefore (w : Weights) (row : Array Int) : Nat → Int
  | 0 => unreachable
  | k + 1 => farNext w row k (farBefore w row k)

section

variable {w : Weights} {hay : Array Cell} {letter : Letter} {row out : Array Int}

/-- What a sweep over the first `n` positions leaves: they are written, each from the row before
and its far predecessors, and the buffer is as it was behind them. -/
theorem sweep_spec (n : Nat) (hn : n ≤ out.size) :
    (sweep w hay letter row out n).1 = farBefore w row n ∧
      (sweep w hay letter row out n).2.size = out.size ∧
      ∀ k, (sweep w hay letter row out n).2[k]? =
        if k < n then some (laterValue w hay letter row (farBefore w row (k + 1)) k)
        else out[k]? := by
  induction n with
  | zero =>
    refine ⟨rfl, rfl, fun k => ?_⟩
    rw [if_neg (Nat.not_lt_zero k)]
    rfl
  | succ n ih =>
    obtain ⟨hfar, hsize, hget⟩ := ih (by omega)
    simp only [sweep]
    refine ⟨?_, ?_, fun k => ?_⟩
    · rw [hfar, farBefore]
    · rw [Array.size_setIfInBounds, hsize]
    · rw [Array.getElem?_setIfInBounds, hsize, hfar, ← farBefore]
      by_cases hk : n = k
      · subst hk
        rw [if_pos rfl, if_pos (by omega), if_pos (by omega)]
      · rw [if_neg hk, hget]
        split_ifs <;> first | rfl | omega

/-- A row that has been written holds nothing of what the buffer held. -/
theorem getElem?_fillRow (k : Nat) (hk : k < out.size) : (fillRow w hay letter row out)[k]? =
    some (laterValue w hay letter row (farBefore w row (k + 1)) k) := by
  rw [fillRow, (sweep_spec out.size (le_refl _)).2.2, if_pos hk]

@[simp] theorem size_fillRow : (fillRow w hay letter row out).size = out.size :=
  (sweep_spec out.size (le_refl _)).2.1

/-- Every position of a row that has been written, also those past its end. -/
theorem valueAt_fillRow (hsize : out.size = hay.size) (k : Nat) :
    valueAt (fillRow w hay letter row out) k =
      laterValue w hay letter row (farBefore w row (k + 1)) k := by
  by_cases hk : k < out.size
  · rw [valueAt, Array.getD_eq_getD_getElem?, getElem?_fillRow k hk, Option.getD_some]
  · rw [valueAt, Array.getD_eq_getD_getElem?, Array.getElem?_eq_none (by simpa using hk),
      laterValue, Array.getElem?_eq_none (by omega)]
    rfl

/-! ### Near and far predecessors -/

/-- The ways to come to position `k` from a reachable predecessor that meets a condition. -/
def arrivals (w : Weights) (row : Array Int) (k : Nat) (admits : Nat → Prop) : Set Int :=
  {t | ∃ p < k, admits p ∧ unreachable < valueAt row p ∧ t = valueAt row p + step w (k - p - 1)}

theorem IsRow.lt_add_step (hrow : IsRow row) (sound : w.Sound) {p : Nat}
    (hp : unreachable < valueAt row p) (gap : Nat) :
    unreachable < valueAt row p + step w gap := by
  have h₁ := (step_bounds sound gap).1
  have h₂ := unreachable_lt_floor
  rcases hrow p with h | h
  · exact absurd h hp.ne'
  · simp only [Weights.largest] at h₁ h₂
    omega

/-- The near predecessors looked at one by one. -/
theorem isBest_nearBest (sound : w.Sound) (hrow : IsRow row) (k : Nat) (gaps : Nat)
    (hgaps : gaps ≤ k) :
    IsBest (arrivals w row k fun p => k ≤ p + gaps) (nearBest w row k gaps) := by
  induction gaps with
  | zero =>
    refine IsBest.empty.congr (Set.eq_empty_of_forall_notMem ?_).symm
    rintro t ⟨p, hpk, hp, -⟩
    omega
  | succ gap ih =>
    have hgap : k - (k - 1 - gap) - 1 = gap := by omega
    have hnew := ((hrow.isBest (k - 1 - gap)).translate (step w gap) (by
      rintro t ⟨hp, rfl⟩
      exact hrow.lt_add_step sound hp gap))
    have hunion := (ih (by omega)).union hnew
    have hval : nearBest w row k (gap + 1) = max (nearBest w row k gap)
        (if unreachable < valueAt row (k - 1 - gap) then valueAt row (k - 1 - gap) + step w gap
          else unreachable) := by
      rw [nearBest]
      change (if unreachable < valueAt row (k - 1 - gap) then _ else _) = _
      split_ifs
      · rfl
      · exact (max_eq_left (ih (by omega)).unreachable_le).symm
    rw [hval]
    refine hunion.congr (Set.ext fun t => ?_)
    constructor
    · rintro (⟨p, hpk, hp, hv, rfl⟩ | ⟨_, ⟨hv, rfl⟩, rfl⟩)
      · exact ⟨p, hpk, by omega, hv, rfl⟩
      · exact ⟨k - 1 - gap, by omega, by omega, hv, by rw [hgap]⟩
    · rintro ⟨p, hpk, hp, hv, rfl⟩
      by_cases hlt : k ≤ p + gap
      · exact Or.inl ⟨p, hpk, hlt, hv, rfl⟩
      · obtain rfl : p = k - 1 - gap := by omega
        exact Or.inr ⟨_, ⟨hv, rfl⟩, by simp only [hgap]⟩

/-- The running maximum holds exactly the predecessors that have left the window. -/
theorem isBest_farBefore (hrow : IsRow row) (k : Nat) :
    IsBest {t | ∃ p, p + (w.mediumLimit + 2) < k ∧ unreachable < valueAt row p ∧
      t = valueAt row p} (farBefore w row k) := by
  induction k with
  | zero =>
    refine IsBest.empty.congr (Set.eq_empty_of_forall_notMem ?_).symm
    rintro t ⟨p, hp, -⟩
    exact absurd hp (Nat.not_lt_zero _)
  | succ k ih =>
    rw [farBefore, farNext]
    split_ifs with hk
    · refine (ih.union (hrow.isBest (k - (w.mediumLimit + 2)))).congr (Set.ext fun t => ?_)
      constructor
      · rintro (⟨p, hp, hv, rfl⟩ | ⟨hv, rfl⟩)
        · exact ⟨p, by omega, hv, rfl⟩
        · exact ⟨_, by omega, hv, rfl⟩
      · rintro ⟨p, hp, hv, rfl⟩
        by_cases hlt : p + (w.mediumLimit + 2) < k
        · exact Or.inl ⟨p, hlt, hv, rfl⟩
        · obtain rfl : p = k - (w.mediumLimit + 2) := by omega
          exact Or.inr ⟨hv, rfl⟩
    · refine ih.congr (Set.ext fun t => ?_)
      constructor
      · rintro ⟨p, hp, h⟩
        exact ⟨p, by omega, h⟩
      · rintro ⟨p, hp, h⟩
        exact ⟨p, by omega, h⟩

/-- Predecessors outside the window pay the penalty of the largest tier. -/
theorem step_of_far (sound : w.Sound) {gap : Nat} (h : w.mediumLimit < gap) :
    step w gap = -w.gapLarge := by
  rw [step, if_neg (by omega), sound.gapPenalty_of_lt h]

/-- The window and the running maximum together miss no predecessor and invent none. -/
theorem isBest_bestBefore (sound : w.Sound) (hrow : IsRow row) (k : Nat) :
    IsBest (arrivals w row k fun _ => True)
      (bestBefore w row (farBefore w row (k + 1)) k) := by
  have hnear := isBest_nearBest sound hrow k (min (w.mediumLimit + 1) k) (min_le_right _ _)
  have hfar := (isBest_farBefore (w := w) hrow (k + 1)).translate (-w.gapLarge) (by
    rintro _ ⟨p, hp, hv, rfl⟩
    rw [← step_of_far sound (Nat.lt_succ_self w.mediumLimit)]
    exact hrow.lt_add_step sound hv _)
  have hval : bestBefore w row (farBefore w row (k + 1)) k =
      max (nearBest w row k (min (w.mediumLimit + 1) k))
        (if unreachable < farBefore w row (k + 1) then farBefore w row (k + 1) + -w.gapLarge
          else unreachable) := by
    rw [bestBefore]
    split_ifs
    · rfl
    · exact (max_eq_left hnear.unreachable_le).symm
  rw [hval]
  refine (hnear.union hfar).congr (Set.ext fun t => ?_)
  constructor
  · rintro (⟨p, hpk, -, hv, rfl⟩ | ⟨_, ⟨p, hp, hv, rfl⟩, rfl⟩)
    · exact ⟨p, hpk, trivial, hv, rfl⟩
    · refine ⟨p, by omega, trivial, hv, ?_⟩
      rw [step_of_far sound (by omega : w.mediumLimit < k - p - 1)]
  · rintro ⟨p, hpk, -, hv, rfl⟩
    by_cases hwindow : k ≤ p + (w.mediumLimit + 1)
    · exact Or.inl ⟨p, hpk, by omega, hv, rfl⟩
    · refine Or.inr ⟨_, ⟨p, by omega, hv, rfl⟩, ?_⟩
      rw [step_of_far sound (by omega : w.mediumLimit < k - p - 1)]

/-- The value of a cell whose folded character is the letter's. -/
theorem laterValue_of_matches (sound : w.Sound) (hrow : IsRow row) {k : Nat} {cell : Cell}
    (hcell : hay[k]? = some cell) (hfold : letter.folded = cell.folded) :
    laterValue w hay letter row (farBefore w row (k + 1)) k =
      if unreachable < bestBefore w row (farBefore w row (k + 1)) k then
        bestBefore w row (farBefore w row (k + 1)) k + gain w letter cell
      else unreachable := by
  rw [laterValue, hcell]
  simp only
  by_cases hk : k = 0
  · subst hk
    have hnone : arrivals w row 0 (fun _ => True) = ∅ := by
      refine Set.eq_empty_of_forall_notMem ?_
      rintro t ⟨p, hp, -⟩
      exact absurd hp (Nat.not_lt_zero p)
    rw [if_pos (Or.inl rfl), (isBest_bestBefore sound hrow 0).eq_unreachable hnone,
      if_neg (lt_irrefl _)]
  · rw [if_neg (by simp [hk, hfold])]

/-- The value of a cell with any other character, and past the end. -/
theorem laterValue_of_not_matches {far : Int} {k : Nat}
    (h : ∀ cell, hay[k]? = some cell → letter.folded ≠ cell.folded) :
    laterValue w hay letter row far k = unreachable := by
  rw [laterValue]
  split
  · next cell hcell => rw [if_pos (Or.inr (h cell hcell))]
  · rfl

end

end Typeahead.Alignment
