import Mathlib.Data.List.NodupEquivFin
import Typeahead.Proofs.Alignment.Placement

/-!
# What is in view

The cells of a haystack are the characters in view, with what they need to be matched, and a
buffer that is filled with them keeps nothing of what it held (`getElem?_fill`). Looking for the
characters of a needle one after the other, each as early as possible, finds a placement whenever
there is one (`occursFrom_iff`).
-/

namespace Typeahead.Haystack

open Typeahead.Alignment

variable {w : Weights} {text : List Char} {offset : Nat} {letters : List Letter}
  {letter : Letter}

theorem getElem?_visible (text : List Char) (offset k : Nat) :
    (visible text offset)[k]? = (text.take longest)[offset + k]? := by
  rw [visible, List.getElem?_drop]

/-- A letter fits at a position if its folded character is what is seen there. -/
theorem fits_iff {k : Nat} : Fits text offset letter (offset + k) ↔
    ((visible text offset)[k]?).map Text.foldCase = some letter.folded := by
  rw [getElem?_visible, List.getElem?_take, Fits]
  constructor
  · rintro ⟨-, hlt, hfold⟩
    rw [if_pos (lt_of_lt_of_le hlt (min_le_left _ _)), hfold]
  · intro h
    split_ifs at h with hk
    · refine ⟨Nat.le_add_right _ _, lt_min hk ?_, h⟩
      by_contra hlen
      rw [List.getElem?_eq_none (Nat.le_of_not_lt hlen)] at h
      exact absurd h (by simp)
    · exact absurd h (by simp)

/-! ### Cells -/

/-- The cell of a character of a text. -/
def cellAt (w : Weights) (text : List Char) (p : Nat) (c : Char) : Cell :=
  ⟨c, Text.foldCase c, w.bonus (Boundary.between (charBefore text p) c)⟩

@[simp] theorem folded_cellAt {p : Nat} {c : Char} :
    (cellAt w text p c).folded = Text.foldCase c := by rw [cellAt]

theorem charBefore_take {n p : Nat} (hp : p < n) :
    charBefore (text.take n) p = charBefore text p := by
  cases p with
  | zero => rfl
  | succ p => rw [charBefore, charBefore, List.getElem?_take, if_pos (by omega)]

theorem cellAt_take {n p : Nat} (hp : p < n) : cellAt w (text.take n) p = cellAt w text p := by
  funext c
  rw [cellAt, cellAt, charBefore_take hp]

/-- The cells that are added are those of the characters from `offset` on. -/
theorem getElem?_addCells (rest : List Char) (position : Nat) (buffer : Array Cell)
    (hrest : rest = text.drop position) (k : Nat) :
    (addCells w offset rest position (charBefore text position) buffer)[k]? =
      if k < buffer.size then buffer[k]?
      else (text[max position offset + (k - buffer.size)]?).map
        (cellAt w text (max position offset + (k - buffer.size))) := by
  induction rest generalizing position buffer with
  | nil =>
    have hlen : text.length ≤ position := List.drop_eq_nil_iff.mp hrest.symm
    rw [addCells, List.getElem?_eq_none (by omega), Option.map_none]
    split_ifs with hk
    · rfl
    · exact Array.getElem?_eq_none (by omega)
  | cons c rest ih =>
    have hc : text[position]? = some c := by
      rw [← List.head?_drop, ← hrest, List.head?_cons]
    have hnext : rest = text.drop (position + 1) := by
      rw [← List.tail_drop, ← hrest, List.tail_cons]
    have hbefore : charBefore text (position + 1) = some c := hc
    rw [addCells, ← hbefore]
    by_cases hle : offset ≤ position
    · rw [if_pos hle, ih (position + 1) _ hnext, Array.size_push, max_eq_left hle,
        max_eq_left (by omega)]
      by_cases hlt : k < buffer.size
      · rw [if_pos (by omega), if_pos hlt, Array.getElem?_push, if_neg (by omega)]
      · rw [if_neg hlt]
        by_cases heq : k = buffer.size
        · subst heq
          rw [if_pos (by omega), Array.getElem?_push, if_pos rfl, Nat.sub_self, Nat.add_zero, hc]
          rfl
        · rw [if_neg (by omega)]
          have : position + 1 + (k - (buffer.size + 1)) = position + (k - buffer.size) := by omega
          rw [this]
    · rw [if_neg hle, ih (position + 1) _ hnext, max_eq_right (by omega : position + 1 ≤ offset),
        max_eq_right (by omega : position ≤ offset)]

/-- A filled buffer holds the cells in view and nothing else. -/
theorem getElem?_fill (buffer : Array Cell) (k : Nat) : (fill buffer w text offset)[k]? =
    ((visible text offset)[k]?).map (cellAt w text (offset + k)) := by
  have hempty : (buffer.shrink 0).size = 0 := by simp
  rw [fill]
  refine (getElem?_addCells (text.take longest) 0 (buffer.shrink 0) rfl k).trans ?_
  rw [hempty, if_neg (Nat.not_lt_zero k), Nat.zero_max, Nat.sub_zero, getElem?_visible,
    List.getElem?_take]
  split_ifs with hk
  · rw [cellAt_take hk]
  · rfl

theorem fill_eq (buffer : Array Cell) : fill buffer w text offset =
    ((visible text offset).mapIdx fun k => cellAt w text (offset + k)).toArray := by
  refine Array.ext_getElem? fun k => ?_
  rw [getElem?_fill, List.getElem?_toArray, List.getElem?_mapIdx]

/-- What a buffer held does not show in the cells it is filled with. -/
theorem fill_eq_prepare (buffer : Array Cell) :
    fill buffer w text offset = prepare w text offset := by
  rw [prepare, fill_eq, fill_eq]

theorem getElem?_prepare (k : Nat) : (prepare w text offset)[k]? =
    ((visible text offset)[k]?).map (cellAt w text (offset + k)) :=
  getElem?_fill #[] k

/-- What a cell gains is what its position of the text gains. -/
theorem gain_of_getElem? {cell : Cell} {k : Nat} (h : (prepare w text offset)[k]? = some cell) :
    gain w letter cell = gainAt w text letter (offset + k) := by
  rw [getElem?_prepare] at h
  obtain ⟨c, hc, rfl⟩ := Option.map_eq_some_iff.mp h
  rw [getElem?_visible, List.getElem?_take] at hc
  split_ifs at hc
  simp only [gainAt, hc]
  rfl

/-- The cells whose folded character is the letter's are those where the letter fits. -/
theorem fits_iff_cell {k : Nat} : Fits text offset letter (offset + k) ↔
    ∃ cell, (prepare w text offset)[k]? = some cell ∧ letter.folded = cell.folded := by
  rw [fits_iff, getElem?_prepare, Option.map_eq_some_iff]
  constructor
  · rintro ⟨c, hc, hfold⟩
    refine ⟨cellAt w text (offset + k) c, by rw [hc, Option.map_some], ?_⟩
    rw [folded_cellAt, hfold]
  · rintro ⟨cell, hcell, hfold⟩
    obtain ⟨c, hc, rfl⟩ := Option.map_eq_some_iff.mp hcell
    rw [folded_cellAt] at hfold
    exact ⟨c, hc, hfold.symm⟩

/-! ### Looking for a needle -/

/-- Taking every character as early as possible decides whether the needle is a subsequence. -/
theorem occursIn_iff (letters : List Letter) (seen : List Char) : occursIn letters seen = true ↔
    (letters.map Letter.folded).Sublist (seen.map Text.foldCase) := by
  rw [← List.isSublist_iff_sublist]
  suffices h : occursIn letters seen =
      (letters.map Letter.folded).isSublist (seen.map Text.foldCase) by rw [h]
  induction seen generalizing letters with
  | nil => cases letters <;> rfl
  | cons c seen ih =>
    cases letters with
    | nil => rfl
    | cons letter letters =>
      rw [occursIn, List.map_cons, List.map_cons, List.isSublist]
      by_cases h : Text.foldCase c = letter.folded
      · rw [if_pos h, if_pos (by simpa using h.symm), ih]
      · rw [if_neg h, if_neg (by simpa using Ne.symm h), ih, List.map_cons]

/-- A subsequence can be found at ascending positions. -/
theorem sublist_iff_exists_positions {α : Type} {l seen : List α} : l.Sublist seen ↔
    ∃ is : List Nat, is.Pairwise (· < ·) ∧ List.Forall₂ (fun a i => seen[i]? = some a) l is := by
  constructor
  · intro h
    induction h with
    | slnil => exact ⟨[], List.Pairwise.nil, List.Forall₂.nil⟩
    | cons a _ ih =>
      obtain ⟨is, hasc, hget⟩ := ih
      refine ⟨is.map (· + 1), List.pairwise_map.mpr (hasc.imp fun h => by omega), ?_⟩
      rw [List.forall₂_map_right_iff]
      exact hget.imp fun _ _ h => by simpa using h
    | cons_cons a _ ih =>
      obtain ⟨is, hasc, hget⟩ := ih
      refine ⟨0 :: is.map (· + 1), List.pairwise_cons.mpr ⟨?_, ?_⟩, List.Forall₂.cons rfl ?_⟩
      · intro i hi
        obtain ⟨j, -, rfl⟩ := List.mem_map.mp hi
        exact Nat.succ_pos j
      · exact List.pairwise_map.mpr (hasc.imp fun h => by omega)
      · rw [List.forall₂_map_right_iff]
        exact hget.imp fun _ _ h => by simpa using h
  · rintro ⟨is, hasc, hget⟩
    obtain ⟨hlen, hget⟩ := List.forall₂_iff_get.mp hget
    have hbound (i : Fin l.length) : is.get (i.cast hlen) < seen.length :=
      (List.getElem?_eq_some_iff.mp (hget i i.2 (hlen ▸ i.2))).1
    refine List.sublist_iff_exists_fin_orderEmbedding_get_eq.mpr
      ⟨OrderEmbedding.ofStrictMono (fun i => ⟨is.get (i.cast hlen), hbound i⟩) ?_, ?_⟩
    · intro i j hij
      exact List.pairwise_iff_getElem.mp hasc i j _ _ hij
    · intro i
      exact (List.getElem?_eq_some_iff.mp (hget i i.2 (hlen ▸ i.2))).2.symm

/-- A needle is found in a text exactly if it has a placement there. -/
theorem occursFrom_iff :
    occursFrom letters text offset = true ↔ ∃ ps, IsPlacement text offset letters ps := by
  rw [occursFrom, occursIn_iff, sublist_iff_exists_positions]
  constructor
  · rintro ⟨is, hasc, hget⟩
    refine ⟨is.map (offset + ·), List.pairwise_map.mpr (hasc.imp fun h => by omega), ?_⟩
    rw [List.forall₂_map_right_iff]
    rw [List.forall₂_map_left_iff] at hget
    refine hget.imp fun letter i h => fits_iff.mpr ?_
    rwa [List.getElem?_map] at h
  · rintro ⟨ps, hasc, hfits⟩
    have hoffset : ∀ p ∈ ps, offset ≤ p := by
      intro p hp
      obtain ⟨i, hi, rfl⟩ := List.getElem_of_mem hp
      obtain ⟨hlen, hget⟩ := List.forall₂_iff_get.mp hfits
      exact (hget i (hlen ▸ hi) hi).1
    refine ⟨ps.map (· - offset), ?_, ?_⟩
    · rw [List.pairwise_map]
      refine hasc.imp_of_mem fun {p q} hp hq hlt => ?_
      have := hoffset p hp
      omega
    · rw [List.forall₂_map_left_iff, List.forall₂_map_right_iff]
      refine hfits.imp fun letter p h => ?_
      obtain ⟨k, rfl⟩ := h.exists_eq_add
      rw [Nat.add_sub_cancel_left, List.getElem?_map]
      exact fits_iff.mp h

end Typeahead.Haystack
