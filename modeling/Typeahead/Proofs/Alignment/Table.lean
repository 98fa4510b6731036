import Typeahead.Proofs.Alignment.Optimum

/-!
# The table of all rows

A table that holds the rows of a needle one after the other: what is written as a row is read as
that row again and changes no other (`rowAt_setRow_self`, `rowAt_setRow_of_ne`). So a table that is
filled row by row holds, as row `i`, the best totals of the needle up to its letter `i`
(`tabulates_tabulate`).
-/

namespace Typeahead.Alignment

/-! ### Reading and writing rows -/

section

variable {table row : Array Int} {width i i' start count k : Nat}

/-- A row that is not cut short by the end of the table has its full width. -/
theorem size_rowAt (h : i * width + width ≤ table.size) : (rowAt table width i).size = width := by
  rw [rowAt, Array.size_extract]
  omega

theorem getElem?_rowAt (h : i * width + width ≤ table.size) :
    (rowAt table width i)[k]? = if k < width then table[i * width + k]? else none := by
  rw [rowAt, Array.getElem?_extract]
  congr 1
  exact propext (by omega)

theorem valueAt_rowAt (h : i * width + width ≤ table.size) (hk : k < width) :
    valueAt (rowAt table width i) k = table.getD (i * width + k) unreachable := by
  rw [valueAt, Array.getD_eq_getD_getElem?, getElem?_rowAt h, if_pos hk,
    Array.getD_eq_getD_getElem?]

@[simp] theorem size_copyInto : (copyInto table row start count).size = table.size := by
  induction count with
  | zero => rfl
  | succ count ih => rw [copyInto, Array.size_setIfInBounds, ih]

/-- What has been copied is there, and everything else is as it was. -/
theorem getElem?_copyInto (h : start + count ≤ table.size) :
    (copyInto table row start count)[k]? =
      if start ≤ k ∧ k < start + count then some (row.getD (k - start) unreachable)
      else table[k]? := by
  induction count with
  | zero => rw [copyInto, if_neg (by omega)]
  | succ count ih =>
    rw [copyInto, Array.getElem?_setIfInBounds, size_copyInto, ih (by omega)]
    by_cases hk : start + count = k
    · subst hk
      rw [if_pos rfl, if_pos (by omega), if_pos (by omega), Nat.add_sub_cancel_left]
    · rw [if_neg hk]
      refine if_congr ?_ rfl rfl
      omega

@[simp] theorem size_setRow : (setRow table i row).size = table.size := size_copyInto

/-- A row that has been written is read again. -/
theorem rowAt_setRow_self (h : i * row.size + row.size ≤ table.size) :
    rowAt (setRow table i row) row.size i = row := by
  refine Array.ext_getElem? fun k => ?_
  rw [getElem?_rowAt (by simpa using h), setRow, getElem?_copyInto h]
  split_ifs with hk hin
  · rw [Nat.add_sub_cancel_left, Array.getD_eq_getD_getElem?, Array.getElem?_eq_getElem hk,
      Option.getD_some]
  · omega
  · exact (Array.getElem?_eq_none (Nat.le_of_not_lt hk)).symm

/-- The other rows are as they were. -/
theorem rowAt_setRow_of_ne (h : i * row.size + row.size ≤ table.size)
    (h' : i' * row.size + row.size ≤ table.size) (hne : i' ≠ i) :
    rowAt (setRow table i row) row.size i' = rowAt table row.size i' := by
  refine Array.ext_getElem? fun k => ?_
  rw [getElem?_rowAt (by simpa using h'), getElem?_rowAt h', setRow, getElem?_copyInto h]
  split_ifs with hk hin
  · exfalso
    rcases Nat.lt_or_gt_of_ne hne with hlt | hlt
    · have := Nat.mul_le_mul_right row.size (Nat.succ_le_of_lt hlt)
      rw [Nat.succ_mul] at this
      omega
    · have := Nat.mul_le_mul_right row.size (Nat.succ_le_of_lt hlt)
      rw [Nat.succ_mul] at this
      omega
  · rfl
  · rfl

/-- A row of a table of so many rows ends within the table. -/
theorem row_le_size (h : table.size = count * width) (hi : i < count) :
    i * width + width ≤ table.size := by
  rw [h, ← Nat.succ_mul]
  exact Nat.mul_le_mul_right width hi

end

/-! ### Rows of best totals -/

/-- A table with a row for every letter of a needle, of which the first ones are filled. -/
structure Tabulates (w : Weights) (text : List Char) (offset : Nat) (letters : List Letter)
    (filled : Nat) (table : Array Int) : Prop where
  /-- There is a row for every letter. -/
  size_eq : table.size = letters.length * (Haystack.prepare w text offset).size
  /-- A row that is filled holds the best totals of the needle up to its letter. -/
  rows : ∀ i < filled, HoldsBest w text offset (letters.take (i + 1))
    (rowAt table (Haystack.prepare w text offset).size i)

variable {w : Weights} {text : List Char} {offset filled : Nat} {letters : List Letter}
  {table row : Array Int}

/-- One more row is filled. -/
theorem Tabulates.setRow (h : Tabulates w text offset letters filled table)
    (hfilled : filled < letters.length)
    (hrow : HoldsBest w text offset (letters.take (filled + 1)) row) :
    Tabulates w text offset letters (filled + 1) (setRow table filled row) := by
  have hfits := row_le_size h.size_eq hfilled
  refine ⟨size_setRow.trans h.size_eq, fun i hi => ?_⟩
  rw [← hrow.size_eq] at hfits ⊢
  by_cases heq : i = filled
  · subst heq
    rwa [rowAt_setRow_self hfits]
  · have hlt : i < filled := by omega
    rw [rowAt_setRow_of_ne hfits (hrow.size_eq ▸ row_le_size h.size_eq (hlt.trans hfilled)) heq,
      hrow.size_eq]
    exact h.rows i hlt

theorem take_ne_nil {α : Type} {l : List α} {n : Nat} (hpos : 0 < n) (hn : n ≤ l.length) :
    l.take n ≠ [] := by
  rw [ne_eq, List.take_eq_nil_iff, not_or]
  exact ⟨by omega, List.ne_nil_of_length_pos (by omega)⟩

/-- The row made from the last one that is filled holds the best totals with a letter more. -/
theorem Tabulates.holdsBest_next (sound : w.Sound)
    (h : Tabulates w text offset letters filled table) (hpos : 0 < filled)
    (hfilled : filled < letters.length) :
    HoldsBest w text offset (letters.take (filled + 1))
      (fillRow w (Haystack.prepare w text offset) letters[filled]
        (rowAt table (Haystack.prepare w text offset).size (filled - 1))
        (rowAt table (Haystack.prepare w text offset).size filled)) := by
  have hne : letters.take filled ≠ [] := take_ne_nil hpos (Nat.le_of_lt hfilled)
  have hbefore := h.rows (filled - 1) (by omega)
  rw [Nat.sub_add_cancel hpos] at hbefore
  rw [List.take_succ_eq_append_getElem hfilled]
  exact hbefore.fillRow sound hne (size_rowAt (row_le_size h.size_eq hfilled))

/-- The first of the letters that are left. -/
theorem getElem_of_drop_eq_cons {letter : Letter} {later : List Letter}
    (h : letters.drop filled = letter :: later) :
    ∃ hlt : filled < letters.length, letters[filled] = letter ∧
      letters.drop (filled + 1) = later := by
  have hlt : filled < letters.length := by
    by_contra hle
    rw [List.drop_eq_nil_of_le (Nat.le_of_not_lt hle)] at h
    exact List.cons_ne_nil _ _ h.symm
  rw [List.drop_eq_getElem_cons hlt] at h
  exact ⟨hlt, List.cons_eq_cons.mp h⟩

/-- The rows of the letters that are left are filled in turn. -/
theorem Tabulates.fillTable (sound : w.Sound) {later : List Letter}
    (h : Tabulates w text offset letters filled table) (hpos : 0 < filled)
    (hlater : letters.drop filled = later) :
    Tabulates w text offset letters letters.length
      (fillTable w (Haystack.prepare w text offset) later filled table) := by
  induction later generalizing filled table with
  | nil =>
    have hle : letters.length ≤ filled := List.drop_eq_nil_iff.mp hlater
    exact ⟨h.size_eq, fun i hi => h.rows i (Nat.lt_of_lt_of_le hi hle)⟩
  | cons letter later ih =>
    obtain ⟨hlt, rfl, hrest⟩ := getElem_of_drop_eq_cons hlater
    exact ih (h.setRow hlt (h.holdsBest_next sound hpos hlt)) (Nat.succ_pos filled) hrest

/-- A table of which no row is filled. -/
theorem tabulates_blank (w : Weights) (text : List Char) (offset : Nat) (letters : List Letter) :
    Tabulates w text offset letters 0 (Array.replicate
      (letters.length * (Haystack.prepare w text offset).size) unreachable) :=
  ⟨Array.size_replicate, fun i hi => absurd hi (Nat.not_lt_zero i)⟩

/-- **The table of a needle** holds the best totals of each of its beginnings. -/
theorem tabulates_tabulate (sound : w.Sound) (text : List Char) (offset : Nat)
    (letters : List Letter) : Tabulates w text offset letters letters.length
      (tabulate w (Haystack.prepare w text offset) letters) := by
  cases letters with
  | nil => exact ⟨by simp [tabulate], fun i hi => absurd hi (Nat.not_lt_zero i)⟩
  | cons first later =>
    have hblank := tabulates_blank w text offset (first :: later)
    have hfirst : HoldsBest w text offset [first] _ := holdsBest_fillFirst sound
      (size_rowAt (row_le_size hblank.size_eq (Nat.succ_pos later.length)))
    exact (hblank.setRow (Nat.succ_pos _) hfirst).fillTable sound Nat.one_pos rfl

/-- The last row of a needle's table. -/
def lastRow (w : Weights) (hay : Array Cell) (letters : List Letter) : Array Int :=
  rowAt (tabulate w hay letters) hay.size (letters.length - 1)

theorem holdsBest_lastRow (sound : w.Sound) (hne : letters ≠ []) :
    HoldsBest w text offset letters (lastRow w (Haystack.prepare w text offset) letters) := by
  have hpos := List.length_pos_of_ne_nil hne
  have hlast := (tabulates_tabulate sound text offset letters).rows _
    (Nat.sub_lt hpos Nat.one_pos)
  rwa [Nat.sub_add_cancel hpos, List.take_length] at hlast

end Typeahead.Alignment
