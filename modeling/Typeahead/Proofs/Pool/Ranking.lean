import Mathlib.Data.List.Nodup
import Mathlib.Data.List.Perm.Subperm
import Typeahead.Proofs.Pool.Packing
import Typeahead.Proofs.Pool.Roster

/-!
# Picking the best candidates

Candidates of different places never rank the same, so there is only one way to sort them, and the
`k` best are the first `k` of it: selecting them before sorting makes no difference. What decides
is where a candidate stands, which the pool and its roster know alike.
-/

namespace Typeahead

namespace Candidate

variable {a b c pivot : Candidate} {better rest l l' : List Candidate}

/-- What ranks a candidate: how relevant it is, its number and its place. -/
def standing (c : Candidate) : Standing := ⟨c.relevancy, c.identity.toNat, c.location.number⟩

/-- What it means to rank no worse, comparison by comparison. -/
theorem isLE_rank_iff : (a.rank b).isLE = true ↔
    b.relevancy.value < a.relevancy.value ∨ b.relevancy.value = a.relevancy.value ∧
      (a.identity.toNat < b.identity.toNat ∨ a.identity.toNat = b.identity.toNat ∧
        (a.location.sheet < b.location.sheet ∨ a.location.sheet = b.location.sheet ∧
          a.location.item ≤ b.location.item)) := by
  simp only [rank, Ordering.isLE_then_iff_or, Std.compare_eq_lt, Std.compare_eq_iff_eq,
    Std.isLE_compare, UInt32.lt_iff_toNat_lt, ← UInt32.toNat_inj]

/-- What it means to rank better. -/
theorem isLT_rank_iff : (a.rank b).isLT = true ↔ ¬ (b.rank a).isLE = true := by
  rw [isLE_rank_iff]
  simp only [rank, Ordering.isLT_then, Bool.or_eq_true, Bool.and_eq_true, Ordering.isLT_iff_eq_lt,
    Ordering.isEq_iff_eq_eq, Std.compare_eq_lt, Std.compare_eq_iff_eq,
    UInt32.lt_iff_toNat_lt, ← UInt32.toNat_inj]
  omega

theorem isLE_rank_trans (hab : (a.rank b).isLE = true) (hbc : (b.rank c).isLE = true) :
    (a.rank c).isLE = true := by
  rw [isLE_rank_iff] at hab hbc ⊢
  omega

theorem isLE_rank_total (a b : Candidate) : ((a.rank b).isLE || (b.rank a).isLE) = true := by
  rw [Bool.or_eq_true, isLE_rank_iff, isLE_rank_iff]
  omega

/-- Two candidates of which neither ranks better are at the same place. -/
theorem location_eq_of_isLE (hab : (a.rank b).isLE = true) (hba : (b.rank a).isLE = true) :
    a.location = b.location := by
  rw [isLE_rank_iff] at hab hba
  have hsheet : a.location.sheet = b.location.sheet := by omega
  have hitem : a.location.item = b.location.item := by omega
  cases ha : a.location
  cases hb : b.location
  rw [ha, hb] at hsheet hitem
  exact Location.mk.injEq .. ▸ ⟨hsheet, hitem⟩

/-! ### Sorting -/

theorem sort_perm (l : List Candidate) : (sort l).Perm l := List.mergeSort_perm l _

theorem pairwise_sort (l : List Candidate) :
    (sort l).Pairwise fun a b => (a.rank b).isLE = true := by
  have htrans : ∀ a b c : Candidate, (a.rank b).isLE = true → (b.rank c).isLE = true →
      (a.rank c).isLE = true := fun _ _ _ => isLE_rank_trans
  exact List.pairwise_mergeSort htrans isLE_rank_total l

/-- There is only one way to sort candidates of different places. -/
theorem eq_of_perm_of_pairwise (hplaces : (l.map location).Nodup) (hperm : l.Perm l')
    (hl : l.Pairwise fun a b => (a.rank b).isLE = true)
    (hl' : l'.Pairwise fun a b => (a.rank b).isLE = true) : l = l' := by
  refine List.Perm.eq_of_pairwise ?_ hl hl' hperm
  intro a b ha hb hab hba
  exact List.inj_on_of_nodup_map hplaces ha (hperm.mem_iff.mpr hb) (location_eq_of_isLE hab hba)

/-- If a candidate parts others, sorting sorts each part. -/
theorem sort_parted (hplaces : ((better ++ pivot :: rest).map location).Nodup)
    (hbetter : ∀ a ∈ better, (a.rank pivot).isLE = true)
    (hrest : ∀ b ∈ rest, (pivot.rank b).isLE = true) (h : l.Perm (better ++ pivot :: rest)) :
    sort l = sort better ++ pivot :: sort rest := by
  have hparts : (better ++ pivot :: rest).Perm (sort better ++ pivot :: sort rest) :=
    (sort_perm better).symm.append ((sort_perm rest).symm.cons pivot)
  refine eq_of_perm_of_pairwise ?_ (((sort_perm l).trans h).trans hparts) (pairwise_sort l) ?_
  · exact (((sort_perm l).trans h).map location).nodup_iff.mpr hplaces
  · rw [List.pairwise_append, List.pairwise_cons]
    refine ⟨pairwise_sort better, ⟨?_, pairwise_sort rest⟩, ?_⟩
    · intro b hb
      exact hrest b ((sort_perm rest).mem_iff.mp hb)
    · intro a ha b hb
      have ha' := hbetter a ((sort_perm better).mem_iff.mp ha)
      rcases List.mem_cons.mp hb with rfl | hb
      · exact ha'
      · exact isLE_rank_trans ha' (hrest b ((sort_perm rest).mem_iff.mp hb))

/-! ### Selecting -/

/-- A candidate parts others into those that rank better and those that do not. -/
theorem perm_parted (pivot : Candidate) (others : List Candidate) :
    (pivot :: others).Perm (betterThan pivot others ++ pivot :: noBetterThan pivot others) :=
  ((List.filter_append_perm _ others).symm.cons pivot).trans List.perm_middle.symm

theorem isLE_of_mem_betterThan (h : a ∈ betterThan pivot l) : (a.rank pivot).isLE = true := by
  have hlt := isLT_rank_iff.mp (List.mem_filter.mp h).2
  rcases (Bool.or_eq_true _ _).mp (isLE_rank_total a pivot) with hle | hle
  · exact hle
  · exact absurd hle hlt

theorem isLE_of_mem_noBetterThan (h : b ∈ noBetterThan pivot l) :
    (pivot.rank b).isLE = true := by
  have hnlt := (List.mem_filter.mp h).2
  by_contra hle
  rw [isLT_rank_iff.mpr hle] at hnlt
  cases hnlt

/-- The selected candidates are among all candidates. -/
theorem select_subperm (k : Nat) (l : List Candidate) : (select k l).Subperm l := by
  fun_induction select k l with
  | case1 => exact List.nil_subperm
  | case2 k pivot others better hle ih =>
    exact ih.trans (List.filter_sublist.trans (List.sublist_cons_self _ _)).subperm
  | case3 k pivot others better hgt ih =>
    exact ((List.subperm_append_left better).mpr ((List.subperm_cons pivot).mpr ih)).trans
      (perm_parted pivot others).symm.subperm

/-- The selected candidates, once they are sorted, are the first ones of all candidates. -/
theorem sort_select (k : Nat) (l : List Candidate) (hplaces : (l.map location).Nodup) :
    sort (select k l) = (sort l).take k := by
  fun_induction select k l with
  | case1 => simp [sort]
  | case2 k pivot others better hle ih =>
    have hparts : (pivot :: others).Perm (better ++ pivot :: noBetterThan pivot others) :=
      perm_parted pivot others
    have hnodup := (hparts.map location).nodup_iff.mp hplaces
    have hsort := sort_parted hnodup (fun _ => isLE_of_mem_betterThan)
      (fun _ => isLE_of_mem_noBetterThan) hparts
    have hle' : k ≤ (sort better).length := by rwa [(sort_perm better).length_eq]
    rw [List.map_append] at hnodup
    rw [hsort, List.take_append_of_le_length hle', ih hnodup.of_append_left]
  | case3 k pivot others better hgt ih =>
    have hparts : (pivot :: others).Perm (better ++ pivot :: noBetterThan pivot others) :=
      perm_parted pivot others
    have hnodup := (hparts.map location).nodup_iff.mp hplaces
    have hsort := sort_parted hnodup (fun _ => isLE_of_mem_betterThan)
      (fun _ => isLE_of_mem_noBetterThan) hparts
    obtain ⟨j, rfl⟩ : ∃ j, k = better.length + (j + 1) := ⟨k - better.length - 1, by omega⟩
    rw [Nat.add_sub_cancel_left, Nat.add_sub_cancel] at ih ⊢
    have hselect := select_subperm j (noBetterThan pivot others)
    obtain ⟨fewer, hperm, hsub⟩ :=
      (List.subperm_append_left better).mpr ((List.subperm_cons pivot).mpr hselect)
    have hfewer := (hperm.map location).nodup_iff.mp ((hsub.map location).nodup hnodup)
    have hsort' := sort_parted hfewer (fun _ => isLE_of_mem_betterThan)
      (fun b hb => isLE_of_mem_noBetterThan (hselect.subset hb)) (List.Perm.refl _)
    rw [List.map_append, List.map_cons] at hnodup
    have hrest := (List.nodup_cons.mp hnodup.of_append_right).2
    have hlength : (sort better).length = better.length := (sort_perm better).length_eq
    rw [hsort', hsort, ih hrest, ← hlength, List.take_length_add_append, List.take_succ_cons]

/-- Picking the `k` best candidates yields the first `k` of all of them in order. -/
theorem best_eq_take (k : Nat) (l : List Candidate) (hplaces : (l.map location).Nodup) :
    best k l = (sort l).take k := by
  unfold best
  split
  · exact sort_select k l hplaces
  · next hle => rw [List.take_of_length_le (by rw [(sort_perm l).length_eq]; omega)]

/-- On the places of a pool, candidates rank as they stand. -/
theorem isLE_rank_eq_before {i j : Nat} (ha : a.location = .ofNumber i)
    (hb : b.location = .ofNumber j) : (a.rank b).isLE = a.standing.before b.standing := by
  have hscore : b.relevancy.value = a.relevancy.value ↔ a.relevancy = b.relevancy :=
    ⟨fun h => Score.ext h.symm, fun h => by rw [h]⟩
  have hlt : b.relevancy.value < a.relevancy.value ↔ b.relevancy < a.relevancy := Iff.rfl
  have hplace : (i / Sheets.placesPerSheet < j / Sheets.placesPerSheet ∨
      i / Sheets.placesPerSheet = j / Sheets.placesPerSheet ∧
        i % Sheets.placesPerSheet ≤ j % Sheets.placesPerSheet) ↔ i ≤ j := by
    unfold Sheets.placesPerSheet
    omega
  rw [Bool.eq_iff_iff, isLE_rank_iff, ha, hb, Location.ofNumber, Location.ofNumber, hplace, hscore,
    hlt]
  simp only [Standing.before, standing, ha, hb, Location.number_ofNumber, Bool.or_eq_true,
    Bool.and_eq_true, decide_eq_true_eq]

/-- The places of the `k` best candidates of a pool are the slots of those that stand first. -/
theorem location_best (k : Nat) (l : List Candidate)
    (hnumbered : ∀ c ∈ l, c.location = .ofNumber c.location.number)
    (hplaces : (l.map location).Nodup) :
    (best k l).map location =
      (((l.map standing).mergeSort Standing.before).take k).map fun s => .ofNumber s.slot := by
  have hsort : (sort l).map standing = (l.map standing).mergeSort Standing.before := by
    refine List.map_mergeSort ?_
    intro a ha b hb
    exact isLE_rank_eq_before (hnumbered a ha) (hnumbered b hb)
  rw [best_eq_take k l hplaces, ← hsort, ← List.map_take, List.map_map]
  refine List.map_congr_left ?_
  intro c hc
  exact hnumbered c ((sort_perm l).mem_iff.mp (List.mem_of_mem_take hc))

end Candidate

end Typeahead
