import Typeahead.Proofs.Alignment.Traceback

/-!
# Scoring under guard

The rows once more, with every number that is worked out for a position where some alignment ends
held against fixed bounds, and every index against the size of the table. The guard stops at the
first number that is out of bounds. With sound weights and a needle of at most 512 letters it never
does (`guarded`), so that the rows are the same with numbers of 32 bits.

The bounds come from those of the totals. A number that the code works out on the way to a total of
so many letters is a total of one letter less and at most one step and one gain away from it.
-/

namespace Typeahead.Alignment.Guarded

/-- What the guard stops at. -/
inductive Trap where
  /-- A number out of bounds. -/
  | number (value : Int)
  /-- An index behind the end of a table. -/
  | index (i : Nat)

/-- The least number that passes. -/
def least : Int := -8388608

/-- The greatest number that passes. -/
def greatest : Int := 33554432

/-- Lets a number pass if it is within the bounds. -/
def number (v : Int) : Except Trap Int :=
  if least ≤ v ∧ v ≤ greatest then .ok v else .error (.number v)

/-! ### Numbers -/

/-- What matching a letter at a cell gains. -/
def gain (w : Weights) (letter : Letter) (cell : Cell) : Except Trap Int := do
  let worth ← number (w.base + cell.bonus)
  number (worth + if letter.char = cell.char then w.exactCase else 0)

/-- What going on to the next match earns or costs, across `gap` skipped characters. -/
def step (w : Weights) (gap : Nat) : Except Trap Int :=
  number (if gap = 0 then w.consecutive else -w.gapPenalty gap)

/-- The value of a position in the row of the first letter. -/
def firstValue (w : Weights) (hay : Array Cell) (letter : Letter) (k : Nat) : Except Trap Int :=
  match hay[k]? with
  | some cell =>
    if letter.folded = cell.folded then do number ((← gain w letter cell) - w.gapPenalty k)
    else .ok unreachable
  | none => .ok unreachable

/-- The best way to come to position `k` from a predecessor across a gap below `gaps`. -/
def nearBest (w : Weights) (row : Array Int) (k : Nat) : Nat → Except Trap Int
  | 0 => .ok unreachable
  | gap + 1 => do
    let near ← nearBest w row k gap
    let before := row.getD (k - 1 - gap) unreachable
    if unreachable < before then return max near (← number (before + (← step w gap)))
    else return near

/-- The best way to come to position `k` from any predecessor, given the greatest value of the
far ones. -/
def bestBefore (w : Weights) (row : Array Int) (far : Int) (k : Nat) : Except Trap Int := do
  let near ← nearBest w row k (min (w.mediumLimit + 1) k)
  if unreachable < far then return max near (← number (far - w.gapLarge)) else return near

/-- The value of a position in the row of a later letter. -/
def laterValue (w : Weights) (hay : Array Cell) (letter : Letter) (row : Array Int) (far : Int)
    (k : Nat) : Except Trap Int :=
  match hay[k]? with
  | some cell =>
    if k = 0 ∨ letter.folded ≠ cell.folded then .ok unreachable
    else do
      let best ← bestBefore w row far k
      if unreachable < best then number (best + (← gain w letter cell)) else return unreachable
  | none => .ok unreachable

/-! ### Rows -/

/-- Writes the first positions of the row of the first letter into a buffer. -/
def sweepFirst (w : Weights) (hay : Array Cell) (letter : Letter) (out : Array Int) :
    Nat → Except Trap (Array Int)
  | 0 => .ok out
  | k + 1 => do
    let out ← sweepFirst w hay letter out k
    return out.setIfInBounds k (← firstValue w hay letter k)

/-- Writes the row of the first letter into a buffer. -/
def fillFirst (w : Weights) (hay : Array Cell) (letter : Letter) (out : Array Int) :
    Except Trap (Array Int) :=
  sweepFirst w hay letter out out.size

/-- Writes the first positions of the row of a later letter into a buffer. Answers the greatest
value of a far predecessor as well. -/
def sweep (w : Weights) (hay : Array Cell) (letter : Letter) (row out : Array Int) :
    Nat → Except Trap (Int × Array Int)
  | 0 => .ok (unreachable, out)
  | k + 1 => do
    let (far, out) ← sweep w hay letter row out k
    let far := farNext w row k far
    return (far, out.setIfInBounds k (← laterValue w hay letter row far k))

/-- Writes the row of a later letter into a buffer, from the row of the letter before it. -/
def fillRow (w : Weights) (hay : Array Cell) (letter : Letter) (row out : Array Int) :
    Except Trap (Array Int) := do
  return (← sweep w hay letter row out out.size).2

/-- Writes the rows of the later letters in turn, each over the row before the last. -/
def fillRows (w : Weights) (hay : Array Cell) : List Letter → Array Int → Array Int →
    Except Trap (Array Int × Array Int)
  | [], row, spare => .ok (row, spare)
  | letter :: letters, row, spare => do
    fillRows w hay letters (← fillRow w hay letter row spare) row

/-! ### The table -/

/-- The number at an index of a table. -/
def entryAt (table : Array Int) (i : Nat) : Except Trap Int :=
  match table[i]? with
  | some v => .ok v
  | none => .error (.index i)

/-- Row `i` of a table, which must not end behind the end of the table. -/
def rowAt (table : Array Int) (width i : Nat) : Except Trap (Array Int) :=
  if i * width + width ≤ table.size then .ok (Alignment.rowAt table width i)
  else .error (.index (i * width + width))

/-- Overwrites row `i` of a table. -/
def setRow (table : Array Int) (i : Nat) (row : Array Int) : Except Trap (Array Int) :=
  if i * row.size + row.size ≤ table.size then .ok (Alignment.setRow table i row)
  else .error (.index (i * row.size + row.size))

/-- Writes the rows of the later letters into a table, the first of them as row `i`, each from the
row before it. -/
def fillTable (w : Weights) (hay : Array Cell) : List Letter → Nat → Array Int →
    Except Trap (Array Int)
  | [], _, table => .ok table
  | letter :: letters, i, table => do
    let row ← fillRow w hay letter (← rowAt table hay.size (i - 1)) (← rowAt table hay.size i)
    fillTable w hay letters (i + 1) (← setRow table i row)

/-- The rows of a needle in one table. -/
def tabulate (w : Weights) (hay : Array Cell) : List Letter → Except Trap (Array Int)
  | [] => .ok #[]
  | first :: later => do
    let table := Array.replicate ((later.length + 1) * hay.size) unreachable
    let row ← fillFirst w hay first (← rowAt table hay.size 0)
    fillTable w hay later 1 (← setRow table 0 row)

/-- The nearest position before `j`, looking at the positions below `k`, whose value explains
`target`. -/
def predecessor (w : Weights) (row : Array Int) (j : Nat) (target : Int) :
    Nat → Except Trap (Option Nat)
  | 0 => .ok none
  | k + 1 => do
    let before ← entryAt row k
    if unreachable < before then
      if (← number (before + (← step w (j - k - 1)))) = target then return some k
      else predecessor w row j target k
    else predecessor w row j target k

/-- The positions of the best alignment whose match of letter `i` is at `j`, in front of the
positions found already. -/
def traceFrom (w : Weights) (hay : Array Cell) (letters : List Letter) (table : Array Int) :
    Nat → Nat → List Nat → Except Trap (Option (List Nat))
  | 0, j, found => .ok (some (j :: found))
  | i + 1, j, found =>
    match letters[i + 1]?, hay[j]? with
    | some letter, some cell => do
      let total ← entryAt table ((i + 1) * hay.size + j)
      let target ← number (total - (← gain w letter cell))
      match ← predecessor w (← rowAt table hay.size i) j target j with
      | some k => traceFrom w hay letters table i k (j :: found)
      | none => return none
    | _, _ => .ok none

/-- The best total of a needle's alignments and the positions that reach it. -/
def trace (w : Weights) (hay : Array Cell) (letters : List Letter) :
    Except Trap (Option (Int × List Nat)) := do
  let table ← tabulate w hay letters
  let last := letters.length - 1
  match earliestBest (← rowAt table hay.size last) with
  | some (j, total) =>
    return (← traceFrom w hay letters table last j []).map fun positions => (total, positions)
  | none => return none

/-! ### Numbers within bounds -/

theorem number_eq_ok {v : Int} (hlow : -8388608 ≤ v) (hhigh : v ≤ 33554432) :
    number v = .ok v := if_pos ⟨hlow, hhigh⟩

/-- The bonuses of a haystack are those of sound weights. -/
def Worthy (hay : Array Cell) : Prop :=
  ∀ (k : Nat) (cell : Cell), hay[k]? = some cell → 0 ≤ cell.bonus ∧ cell.bonus ≤ Weights.largest

/-- The values of a row are totals of so many letters, or marks. -/
def Bounded (n : Nat) (row : Array Int) : Prop :=
  ∀ k, unreachable < valueAt row k →
    -(Weights.largest * n) ≤ valueAt row k ∧ valueAt row k ≤ 4 * Weights.largest * n

section

variable {w : Weights} {hay : Array Cell} {letter : Letter} {cell : Cell} {row out : Array Int}
  {text : List Char} {offset n : Nat} {letters : List Letter}

theorem worthy_prepare (sound : w.Sound) (text : List Char) (offset : Nat) :
    Worthy (Haystack.prepare w text offset) := by
  intro k cell hcell
  rw [Haystack.getElem?_prepare] at hcell
  obtain ⟨c, -, rfl⟩ := Option.map_eq_some_iff.mp hcell
  exact ⟨sound.bonus_nonneg _, sound.bonus_le _⟩

theorem bounded_of_holdsBest (sound : w.Sound) (h : HoldsBest w text offset letters row) :
    Bounded letters.length row := fun k hk => bounds_of_mem_endTotals sound ((h.best k).mem hk)

theorem gain_bounds (sound : w.Sound) (letter : Letter)
    (hworth : 0 ≤ cell.bonus ∧ cell.bonus ≤ Weights.largest) :
    0 < Alignment.gain w letter cell ∧ Alignment.gain w letter cell ≤ 3 * Weights.largest := by
  have h₁ := sound.base_pos
  have h₂ := sound.base_le
  have h₃ := sound.exactCase_nonneg
  have h₄ := sound.exactCase_le
  rw [Alignment.gain]
  split_ifs <;> omega

theorem gain_eq (sound : w.Sound) (hworth : 0 ≤ cell.bonus ∧ cell.bonus ≤ Weights.largest) :
    gain w letter cell = .ok (Alignment.gain w letter cell) := by
  have h₁ := sound.base_pos
  have h₂ := sound.base_le
  have hgain := gain_bounds sound letter hworth
  simp only [Weights.largest] at h₂ hworth hgain
  have hfirst : number (w.base + cell.bonus) = .ok (w.base + cell.bonus) :=
    number_eq_ok (by omega) (by omega)
  have hsecond : number (Alignment.gain w letter cell) = .ok (Alignment.gain w letter cell) :=
    number_eq_ok (by omega) (by omega)
  rw [gain, hfirst]
  exact hsecond

theorem step_eq (sound : w.Sound) (gap : Nat) : step w gap = .ok (Alignment.step w gap) := by
  obtain ⟨h₁, h₂⟩ := step_bounds sound gap
  simp only [Weights.largest] at h₁ h₂
  rw [step, ← Alignment.step]
  exact number_eq_ok (by omega) (by omega)

theorem firstValue_eq (sound : w.Sound) (hworthy : Worthy hay) (k : Nat) :
    firstValue w hay letter k = .ok (Alignment.firstValue w hay letter k) := by
  rw [firstValue, Alignment.firstValue]
  cases hcell : hay[k]? with
  | none => rfl
  | some cell =>
    by_cases hfold : letter.folded = cell.folded
    · have hgain := gain_bounds sound letter (hworthy k cell hcell)
      have h₁ := sound.gapPenalty_nonneg k
      have h₂ := sound.gapPenalty_le k
      simp only [Weights.largest] at hgain h₂
      simp only [if_pos hfold, gain_eq sound (hworthy k cell hcell)]
      exact number_eq_ok (by omega) (by omega)
    · simp only [if_neg hfold]

/-! ### Later rows within bounds -/

/-- A number that is a step away from a total of so many letters, fewer than a needle may have. -/
theorem number_add_step (sound : w.Sound) (hn : n < Needle.longest) {v : Int} (gap : Nat)
    (hv : -(Weights.largest * n) ≤ v ∧ v ≤ 4 * Weights.largest * n) :
    number (v + Alignment.step w gap) = .ok (v + Alignment.step w gap) := by
  obtain ⟨h₁, h₂⟩ := step_bounds sound gap
  simp only [Weights.largest, Needle.longest] at h₁ h₂ hv hn
  exact number_eq_ok (by omega) (by omega)

theorem nearBest_eq (sound : w.Sound) (hrow : Bounded n row) (hn : n < Needle.longest)
    (k gaps : Nat) : nearBest w row k gaps = .ok (Alignment.nearBest w row k gaps) := by
  induction gaps with
  | zero => rfl
  | succ gap ih =>
    have hbefore := hrow (k - 1 - gap)
    rw [valueAt] at hbefore
    rw [nearBest, ih, Alignment.nearBest]
    simp only [step_eq sound]
    change (if _ then _ else _) = _
    split_ifs with hreach
    · change (number _ >>= _) = _
      rw [number_add_step sound hn gap (hbefore hreach)]
      rfl
    · rfl

theorem bestBefore_eq (sound : w.Sound) (hisRow : IsRow row) (hrow : Bounded n row)
    (hn : n < Needle.longest) (k : Nat) :
    bestBefore w row (farBefore w row (k + 1)) k =
      .ok (Alignment.bestBefore w row (farBefore w row (k + 1)) k) := by
  rw [bestBefore, nearBest_eq sound hrow hn, Alignment.bestBefore]
  change (if _ then _ else _) = _
  split_ifs with hfar
  · obtain ⟨p, -, hp, heq⟩ := (isBest_farBefore hisRow (k + 1)).mem hfar
    have hstep := number_add_step sound hn (w.mediumLimit + 1) (hrow p hp)
    rw [step_of_far sound (Nat.lt_succ_self _), ← heq, ← Int.sub_eq_add_neg] at hstep
    rw [hstep]
    rfl
  · rfl

theorem laterValue_eq (sound : w.Sound) (hworthy : Worthy hay) (hisRow : IsRow row)
    (hrow : Bounded n row) (hn : n < Needle.longest) (k : Nat) :
    laterValue w hay letter row (farBefore w row (k + 1)) k =
      .ok (Alignment.laterValue w hay letter row (farBefore w row (k + 1)) k) := by
  rw [laterValue, Alignment.laterValue]
  cases hcell : hay[k]? with
  | none => rfl
  | some cell =>
    simp only
    by_cases hskip : k = 0 ∨ letter.folded ≠ cell.folded
    · rw [if_pos hskip, if_pos hskip]
    · rw [if_neg hskip, if_neg hskip, bestBefore_eq sound hisRow hrow hn,
        gain_eq sound (hworthy k cell hcell)]
      change (if _ then _ else _) = _
      split_ifs with hbest
      · obtain ⟨p, -, -, hp, heq⟩ := (isBest_bestBefore sound hisRow k).mem hbest
        have hgain := gain_bounds sound letter (hworthy k cell hcell)
        have hstep := step_bounds sound (k - p - 1)
        have hvalue := hrow p hp
        simp only [Weights.largest, Needle.longest] at hgain hstep hvalue hn
        exact number_eq_ok (by omega) (by omega)
      · rfl

/-! ### Rows -/

theorem sweepFirst_spec (sound : w.Sound) (hworthy : Worthy hay) (count : Nat)
    (hcount : count ≤ out.size) : ∃ filled, sweepFirst w hay letter out count = .ok filled ∧
      filled.size = out.size ∧ ∀ k, filled[k]? =
        if k < count then some (Alignment.firstValue w hay letter k) else out[k]? := by
  induction count with
  | zero => exact ⟨out, rfl, rfl, fun k => by rw [if_neg (Nat.not_lt_zero k)]⟩
  | succ count ih =>
    obtain ⟨filled, heq, hsize, hget⟩ := ih (by omega)
    refine ⟨filled.setIfInBounds count (Alignment.firstValue w hay letter count), ?_, ?_, ?_⟩
    · rw [sweepFirst, heq, firstValue_eq sound hworthy]
      rfl
    · rw [Array.size_setIfInBounds, hsize]
    · intro k
      rw [Array.getElem?_setIfInBounds, hsize, hget]
      by_cases hk : count = k
      · subst hk
        rw [if_pos rfl, if_pos (by omega), if_pos (by omega)]
      · rw [if_neg hk]
        refine if_congr ?_ rfl rfl
        omega

theorem fillFirst_eq (sound : w.Sound) (hworthy : Worthy hay) :
    fillFirst w hay letter out = .ok (Alignment.fillFirst w hay letter out) := by
  obtain ⟨filled, heq, hsize, hget⟩ := sweepFirst_spec sound hworthy out.size (Nat.le_refl _)
  rw [fillFirst, heq]
  refine congrArg Except.ok (Array.ext_getElem? fun k => ?_)
  rw [hget, Alignment.fillFirst, Array.getElem?_mapIdx]
  split_ifs with hk
  · rw [Array.getElem?_eq_getElem hk, Option.map_some]
  · rw [Array.getElem?_eq_none (Nat.le_of_not_lt hk), Option.map_none]

theorem sweep_eq (sound : w.Sound) (hworthy : Worthy hay) (hisRow : IsRow row)
    (hrow : Bounded n row) (hn : n < Needle.longest) (count : Nat) (hcount : count ≤ out.size) :
    sweep w hay letter row out count = .ok (Alignment.sweep w hay letter row out count) := by
  induction count with
  | zero => rfl
  | succ count ih =>
    have hfar : (Alignment.sweep w hay letter row out count).1 = farBefore w row count :=
      (sweep_spec count (Nat.le_of_succ_le hcount)).1
    rw [sweep, ih (Nat.le_of_succ_le hcount), Alignment.sweep]
    change (laterValue w hay letter row (farNext w row count _) count >>= _) =
      .ok (farNext w row count _, Array.setIfInBounds _ count _)
    rw [hfar, ← farBefore, laterValue_eq sound hworthy hisRow hrow hn]
    rfl

theorem fillRow_eq (sound : w.Sound) (hworthy : Worthy hay) (hisRow : IsRow row)
    (hrow : Bounded n row) (hn : n < Needle.longest) :
    fillRow w hay letter row out = .ok (Alignment.fillRow w hay letter row out) := by
  rw [fillRow, sweep_eq sound hworthy hisRow hrow hn out.size (Nat.le_refl _)]
  rfl

/-- The rows of the later letters of a needle that is not too long. -/
theorem fillRows_eq (sound : w.Sound) {later : List Letter} {spare : Array Int}
    (h : HoldsBest w text offset letters row) (hne : letters ≠ [])
    (hsize : spare.size = (Haystack.prepare w text offset).size)
    (hlen : (letters ++ later).length ≤ Needle.longest) :
    fillRows w (Haystack.prepare w text offset) later row spare =
      .ok (Alignment.fillRows w (Haystack.prepare w text offset) later row spare) := by
  induction later generalizing letters row spare with
  | nil => rfl
  | cons letter later ih =>
    rw [List.append_cons] at hlen
    have hcount : letters.length < Needle.longest := by
      rw [List.length_append, List.length_append, List.length_singleton] at hlen
      omega
    rw [fillRows, fillRow_eq sound (worthy_prepare sound text offset) (h.isRow sound)
      (bounded_of_holdsBest sound h) hcount]
    exact ih (h.fillRow sound hne hsize) (List.append_ne_nil_of_left_ne_nil hne _) h.size_eq hlen

/-! ### The table -/

theorem entryAt_eq {i : Nat} (hi : i < row.size) : entryAt row i = .ok (valueAt row i) := by
  rw [entryAt, valueAt, Array.getD_eq_getD_getElem?, Array.getElem?_eq_getElem hi]
  rfl

theorem rowAt_eq {table : Array Int} {width i : Nat} (h : i * width + width ≤ table.size) :
    rowAt table width i = .ok (Alignment.rowAt table width i) := if_pos h

theorem setRow_eq {table : Array Int} {i : Nat} (h : i * row.size + row.size ≤ table.size) :
    setRow table i row = .ok (Alignment.setRow table i row) := if_pos h

/-- Filling the rows of the letters that are left reads and writes nothing behind the table. -/
theorem fillTable_eq (sound : w.Sound) {later : List Letter} {filled : Nat} {table : Array Int}
    (h : Tabulates w text offset letters filled table) (hpos : 0 < filled)
    (hlater : letters.drop filled = later) (hlen : letters.length ≤ Needle.longest) :
    fillTable w (Haystack.prepare w text offset) later filled table =
      .ok (Alignment.fillTable w (Haystack.prepare w text offset) later filled table) := by
  induction later generalizing filled table with
  | nil => rfl
  | cons letter later ih =>
    obtain ⟨hlt, rfl, hrest⟩ := getElem_of_drop_eq_cons hlater
    have hnext := h.holdsBest_next sound hpos hlt
    have hbefore := h.rows (filled - 1) (by omega)
    have hbounded := bounded_of_holdsBest sound hbefore
    have hcount : (letters.take (filled - 1 + 1)).length < Needle.longest := by
      rw [List.length_take]
      omega
    have hread : ∀ i ≤ filled, rowAt table (Haystack.prepare w text offset).size i =
        .ok (Alignment.rowAt table (Haystack.prepare w text offset).size i) := fun i hi =>
      rowAt_eq (row_le_size h.size_eq (Nat.lt_of_le_of_lt hi hlt))
    have hwrite := setRow_eq (hnext.size_eq ▸ row_le_size h.size_eq hlt)
    simp only [fillTable, hread _ (Nat.sub_le _ _), hread _ (Nat.le_refl _), bind, Except.bind,
      fillRow_eq sound (worthy_prepare sound text offset) (hbefore.isRow sound) hbounded hcount,
      hwrite]
    exact ih (h.setRow hlt hnext) (Nat.succ_pos filled) hrest

theorem tabulate_eq (sound : w.Sound) (hlen : letters.length ≤ Needle.longest) :
    tabulate w (Haystack.prepare w text offset) letters =
      .ok (Alignment.tabulate w (Haystack.prepare w text offset) letters) := by
  cases letters with
  | nil => rfl
  | cons first later =>
    have hblank := tabulates_blank w text offset (first :: later)
    rw [List.length_cons] at hblank
    have hfits := row_le_size hblank.size_eq (Nat.succ_pos later.length)
    have hfirst : HoldsBest w text offset [first] _ :=
      holdsBest_fillFirst sound (size_rowAt hfits)
    simp only [tabulate, rowAt_eq hfits, bind, Except.bind,
      fillFirst_eq sound (worthy_prepare sound text offset)]
    rw [setRow_eq (by rw [hfirst.size_eq]; exact hfits)]
    exact fillTable_eq sound (hblank.setRow (Nat.succ_pos _) hfirst) Nat.one_pos rfl hlen

/-! ### The walk back -/

theorem predecessor_eq (sound : w.Sound) (hrow : Bounded n row) (hn : n < Needle.longest) {j : Nat}
    (target : Int) (k : Nat) (hk : k ≤ row.size) :
    predecessor w row j target k = .ok (Alignment.predecessor w row j target k) := by
  induction k with
  | zero => rfl
  | succ k ih =>
    rw [predecessor, entryAt_eq hk, Alignment.predecessor]
    change (if _ then _ else _) =
      Except.ok (if _ < valueAt row k ∧ valueAt row k + _ = _ then _ else _)
    by_cases hreach : unreachable < valueAt row k
    · rw [if_pos hreach, step_eq sound]
      change (number _ >>= _) = _
      rw [number_add_step sound hn _ (hrow k hreach)]
      change (if _ then _ else _) = _
      by_cases htarget : valueAt row k + Alignment.step w (j - k - 1) = target
      · rw [if_pos htarget, if_pos ⟨hreach, htarget⟩]
        rfl
      · rw [if_neg htarget, if_neg fun h => htarget h.2, ih (Nat.le_of_succ_le hk)]
    · rw [if_neg hreach, if_neg fun h => hreach h.1, ih (Nat.le_of_succ_le hk)]

/-- A predecessor that is found is reachable and comes before. -/
theorem of_predecessor_eq_some {j k count : Nat} {target : Int}
    (h : Alignment.predecessor w row j target count = some k) :
    k < count ∧ unreachable < valueAt row k := by
  induction count with
  | zero => exact absurd h nofun
  | succ count ih =>
    rw [Alignment.predecessor] at h
    by_cases hfound : unreachable < valueAt row count ∧
        valueAt row count + Alignment.step w (j - count - 1) = target
    · obtain rfl := Option.some.inj ((if_pos hfound).symm.trans h)
      exact ⟨Nat.lt_succ_self _, hfound.1⟩
    · obtain ⟨hlt, hreach⟩ := ih ((if_neg hfound).symm.trans h)
      exact ⟨Nat.lt_succ_of_lt hlt, hreach⟩

/-- The walk back from a reachable position of any row keeps to the bounds and to the table. -/
theorem traceFrom_eq (sound : w.Sound) {table : Array Int}
    (h : Tabulates w text offset letters letters.length table)
    (hlen : letters.length ≤ Needle.longest) {i : Nat} (hi : i < letters.length) {j : Nat}
    (hj : unreachable < valueAt
      (Alignment.rowAt table (Haystack.prepare w text offset).size i) j) (found : List Nat) :
    traceFrom w (Haystack.prepare w text offset) letters table i j found =
      .ok (Alignment.traceFrom w (Haystack.prepare w text offset) letters table i j found) := by
  induction i generalizing j found with
  | zero => rfl
  | succ i ih =>
    have hbefore := h.rows i (Nat.lt_of_succ_lt hi)
    have htop := h.rows (i + 1) hi
    have hcount : (letters.take (i + 1)).length < Needle.longest := by
      rw [List.length_take]
      omega
    rw [List.take_succ_eq_append_getElem hi] at htop
    obtain ⟨hfit, p, -, s, hs, heq⟩ := (mem_endTotals_concat
      (take_ne_nil (Nat.succ_pos i) (Nat.le_of_lt hi))).mp ((htop.best j).mem hj)
    obtain ⟨cell, hcell, -⟩ := (Haystack.fits_iff_cell (w := w)).mp hfit
    have hgain : Alignment.gain w letters[i + 1] cell = gainAt w text letters[i + 1] (offset + j) :=
      Haystack.gain_of_getElem? hcell
    have hlt := (Array.getElem?_eq_some_iff.mp hcell).1
    have hfits := row_le_size h.size_eq hi
    have hread : entryAt table ((i + 1) * (Haystack.prepare w text offset).size + j) = .ok _ :=
      entryAt_eq (by omega)
    rw [valueAt_rowAt hfits hlt] at heq
    have htarget : ∀ v, v = s + Alignment.step w (offset + j - p - 1) +
        gainAt w text letters[i + 1] (offset + j) →
        number (v - Alignment.gain w letters[i + 1] cell) =
          .ok (v - Alignment.gain w letters[i + 1] cell) := by
      rintro v rfl
      rw [hgain, Int.add_sub_cancel]
      exact number_add_step sound hcount _ (bounds_of_mem_endTotals sound hs)
    have hpred := fun target => predecessor_eq (j := j) sound (bounded_of_holdsBest sound hbefore)
      hcount target j (hlt.le.trans hbefore.size_eq.ge)
    rw [valueAt] at hread
    simp only [traceFrom, Alignment.traceFrom, List.getElem?_eq_getElem hi, hcell, hread,
      gain_eq sound (worthy_prepare sound text offset j cell hcell), htarget _ heq, bind,
      Except.bind, rowAt_eq (row_le_size h.size_eq (Nat.lt_of_succ_lt hi)), Option.bind, hpred]
    cases hfound : Alignment.predecessor w
        (Alignment.rowAt table (Haystack.prepare w text offset).size i) j _ j with
    | none => rfl
    | some k => exact ih (Nat.lt_of_succ_lt hi) (of_predecessor_eq_some hfound).2 (j :: found)

theorem trace_eq (sound : w.Sound) (hne : letters ≠ []) (hlen : letters.length ≤ Needle.longest) :
    trace w (Haystack.prepare w text offset) letters =
      .ok (Alignment.trace w (Haystack.prepare w text offset) letters) := by
  have htable := tabulates_tabulate sound text offset letters
  have hlast : letters.length - 1 < letters.length :=
    Nat.sub_lt (List.length_pos_of_ne_nil hne) Nat.one_pos
  simp only [trace, Alignment.trace, tabulate_eq sound hlen, bind, Except.bind,
    rowAt_eq (row_le_size htable.size_eq hlast)]
  cases hfound : earliestBest (Alignment.rowAt _ (Haystack.prepare w text offset).size _) with
  | none => rfl
  | some found =>
    obtain ⟨heq, hreach, -⟩ := (foundUpTo_earliestBest _).of_some found.1 found.2 hfound
    rw [heq] at hreach
    simp only [traceFrom_eq sound htable hlen hlast hreach, Option.bind]
    cases Alignment.traceFrom w _ letters _ _ found.1 [] <;> rfl

end

end Typeahead.Alignment.Guarded

namespace Typeahead.Scorer.Guarded

open Typeahead.Alignment

/-- The score of a needle's letters against a text from `offset` on, with buffers to work in,
which are given back. -/
def scoreLettersIn (s : Scorer) (scratch : Scratch) (letters : List Letter) (text : List Char)
    (offset : Nat) : Except Guarded.Trap (Score × Scratch) :=
  match letters with
  | [] => .ok (Score.zero, scratch)
  | first :: later =>
    if Haystack.occursFrom (first :: later) text offset then do
      let { hay, row, spare } := scratch
      let hay := Haystack.fill hay s.weights text offset
      let row ← Guarded.fillFirst s.weights hay first (blank row hay.size)
      let (row, spare) ← Guarded.fillRows s.weights hay later row (blank spare hay.size)
      let best := best row
      return (if unreachable < best then Score.clamp best else Score.noMatch, { hay, row, spare })
    else .ok (Score.noMatch, scratch)

/-- The score of a needle and the positions of its best alignment, if it matches. -/
def positions (s : Scorer) (needle : Needle) (text : String) :
    Except Guarded.Trap (Option (Score × List Nat)) :=
  if needle.primary.isEmpty then .ok (some (Score.zero, []))
  else if Haystack.occursFrom needle.primary text.toList 0 then do
    let hay := Haystack.prepare s.weights text.toList 0
    return (← Guarded.trace s.weights hay needle.primary).map fun (total, found) =>
      (Score.clamp total, found)
  else .ok none

theorem scoreLettersIn_eq (s : Scorer) (scratch : Scratch) {letters : List Letter}
    (text : List Char) (offset : Nat) (hlen : letters.length ≤ Needle.longest) :
    scoreLettersIn s scratch letters text offset =
      .ok (s.scoreLettersIn scratch letters text offset) := by
  cases letters with
  | nil => rfl
  | cons first later =>
    rw [scoreLettersIn, Scorer.scoreLettersIn]
    by_cases h : Haystack.occursFrom (first :: later) text offset = true
    · have hfirst : HoldsBest s.weights text offset [first] _ :=
        holdsBest_fillFirst s.sound_weights
          (size_blank scratch.row (Haystack.prepare s.weights text offset).size)
      rw [if_pos h, if_pos h]
      simp only [Haystack.fill_eq_prepare, bind, Except.bind,
        Guarded.fillFirst_eq s.sound_weights (Guarded.worthy_prepare s.sound_weights text offset),
        Guarded.fillRows_eq s.sound_weights hfirst (List.cons_ne_nil _ _)
          (size_blank scratch.spare _) hlen]
      rfl
    · rw [if_neg h, if_neg h]

theorem positions_eq (s : Scorer) (needle : Needle) (text : String)
    (hlen : needle.primary.length ≤ Needle.longest) :
    positions s needle text = .ok (s.positions needle text) := by
  rw [positions, Scorer.positions]
  by_cases hne : needle.primary = []
  · simp [hne]
  · have hsome : ¬ needle.primary.isEmpty = true := by simpa using hne
    rw [if_neg hsome, if_neg hsome]
    by_cases h : Haystack.occursFrom needle.primary text.toList 0 = true
    · rw [if_pos h, if_pos h]
      simp only [Guarded.trace_eq s.sound_weights hne hlen, bind, Except.bind]
      cases trace s.weights (Haystack.prepare s.weights text.toList 0) needle.primary <;> rfl
    · rw [if_neg h, if_neg h]

/-- A row tells where the placements of a needle end: there its value is within the bounds and
above the mark, and anywhere else it is the mark. -/
def Tells (text : List Char) (offset : Nat) (letters : List Letter) (row : Array Int) : Prop :=
  ∀ k, (∃ front, IsPlacement text offset letters (front ++ [offset + k])) ∧
      unreachable < valueAt row k ∧
      Guarded.least ≤ valueAt row k ∧ valueAt row k ≤ Guarded.greatest ∨
    (¬ ∃ front, IsPlacement text offset letters (front ++ [offset + k])) ∧
      valueAt row k = unreachable

theorem tells_of_holdsBest {w : Weights} {text : List Char} {offset : Nat} {letters : List Letter}
    {row : Array Int} (sound : w.Sound) (h : HoldsBest w text offset letters row)
    (hlen : letters.length ≤ Needle.longest) : Tells text offset letters row := by
  intro k
  by_cases hends : ∃ front, IsPlacement text offset letters (front ++ [offset + k])
  · obtain ⟨front, hplaced⟩ := hends
    have hreach : unreachable < valueAt row k := (h.best k).lt_iff.mpr ⟨_, front, hplaced, rfl⟩
    have hbounds := Guarded.bounded_of_holdsBest sound h k hreach
    simp only [Weights.largest, Needle.longest] at hbounds hlen
    simp only [Guarded.least, Guarded.greatest]
    exact .inl ⟨⟨front, hplaced⟩, hreach, by omega, by omega⟩
  · refine .inr ⟨hends, (h.best k).eq_unreachable (Set.eq_empty_of_forall_notMem ?_)⟩
    rintro t ⟨front, hplaced, -⟩
    exact hends ⟨front, hplaced⟩

/-- **What holds of every number of a scorer** for a needle with these letters. -/
structure InBounds (s : Scorer) (letters : List Letter) : Prop where
  /-- The bounds are those of numbers of 32 bits, and the mark lies below them. -/
  fits : -2 ^ 31 ≤ unreachable ∧ unreachable < Guarded.least ∧ Guarded.greatest < 2 ^ 31
  /-- No number leaves the bounds while a text is scored. -/
  score_ok : ∀ scratch text offset, scoreLettersIn s scratch letters text offset =
    .ok (s.scoreLettersIn scratch letters text offset)
  /-- None does while positions are looked for, and no index points behind the table. -/
  positions_ok : ∀ needle text, needle.primary = letters →
    positions s needle text = .ok (s.positions needle text)
  /-- Every row that is written into the buffers tells where placements end. -/
  rows_tell : ∀ text offset row spare, ∀ i < letters.length,
    Tells text offset (letters.take (i + 1))
      (rowIn s.weights (Haystack.prepare s.weights text offset) row spare (letters.take (i + 1)))
  /-- So does every row of the table. -/
  table_tells : ∀ text, ∀ i < letters.length, Tells text 0 (letters.take (i + 1))
    (rowAt (tabulate s.weights (Haystack.prepare s.weights text 0) letters)
      (Haystack.prepare s.weights text 0).size i)

/-- **Nothing overflows.** By whatever weights are accepted, with a needle of at most 512 letters,
every number that is worked out for a position where an alignment ends lies between -2^23 and 2^25,
so that none is mistaken for the mark, and every index into the table lies within it. -/
theorem inBounds (s : Scorer) {letters : List Letter} (hlen : letters.length ≤ Needle.longest) :
    InBounds s letters where
  fits := by decide
  score_ok scratch text offset := scoreLettersIn_eq s scratch text offset hlen
  positions_ok needle text heq := positions_eq s needle text (heq ▸ hlen)
  rows_tell text offset row spare i hi :=
    tells_of_holdsBest s.sound_weights
      (holdsBest_rowIn s.sound_weights (take_ne_nil (Nat.succ_pos i) hi) row spare)
      (Nat.le_trans (List.length_take_le' _ _) hlen)
  table_tells text i hi :=
    tells_of_holdsBest s.sound_weights
      ((tabulates_tabulate s.sound_weights text 0 letters).rows i hi)
      (Nat.le_trans (List.length_take_le' _ _) hlen)

/-- The scorer with the largest weights that are accepted. -/
def heaviest : Scorer where
  weights :=
    { base := 16384, consecutive := 16384, pathBoundary := 16384, wordBoundary := 16384
      camelBoundary := 16384, start := 16384, exactCase := 16384, gapSmall := 16384
      gapMedium := 16384, gapLarge := 16384, smallLimit := 63, mediumLimit := 64 }
  sound := by decide

/-- The longest needle by the largest weights. -/
theorem inBounds_heaviest :
    (List.replicate 512 (Letter.of 'a')).length ≤ Needle.longest ∧
      InBounds heaviest (List.replicate 512 (Letter.of 'a')) := by
  have hlen : (List.replicate 512 (Letter.of 'a')).length ≤ Needle.longest :=
    Nat.le_of_eq List.length_replicate
  exact ⟨hlen, inBounds heaviest hlen⟩

end Typeahead.Scorer.Guarded
