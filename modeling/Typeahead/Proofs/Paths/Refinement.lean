import Mathlib.Algebra.BigOperators.Fin
import Mathlib.Algebra.Order.BigOperators.Group.Finset
import Typeahead.Proofs.Paths.PathSet
import Typeahead.Proofs.Paths.Storage

/-!
# A path index is a set of paths

An index represents a set when each of its shards holds the paths of the set that belong to it.
Every request keeps the index and the set in step, and both answer the same; so they answer the
same to any number of requests. Which common directory there is does not show in any answer.

There need not be room for a path: the set is told when there is none. If memory is ample, there is
room for every path until an arena is full.
-/

namespace Typeahead

/-! ### The relation -/

/-- **An index represents a set** when each shard holds the paths that belong to it. -/
structure PathIndex.Represents (ix : PathIndex) (set : PathSet) : Prop where
  /-- There are as many shards. -/
  count_eq : ix.shards.size = set.shardCount
  /-- There are some. -/
  count_pos : 0 < set.shardCount
  /-- Paths are told apart in the same way. -/
  digest_eq : ix.digest = set.digest
  /-- Both have been shut down, or neither. -/
  isShutdown_eq : ix.isShutdown = set.isShutdown
  /-- What has been shut down is empty. -/
  paths_eq : set.isShutdown = true → set.paths = ∅
  /-- Only what can be a path is one. -/
  ne_empty : "" ∉ set.paths
  /-- Every shard holds its paths. -/
  lists : ∀ shard, (h : shard < ix.shards.size) → ∃ paths,
    ix.shards[shard].Lists ix.common ix.hashOf paths ∧
      ∀ path, path ∈ paths ↔ path ∈ set.paths ∧ set.shardFor path = shard

/-! ### One shard after the other -/

namespace PathIndex

variable {ix : PathIndex} {set : PathSet} {paths : List String} {path directory : String}
variable {shard : Nat} {s : Shard}

/-- The index with another shard in place of one. -/
def withShard (ix : PathIndex) (shard : Nat) (s : Shard) : PathIndex :=
  { ix with shards := ix.shards.setIfInBounds shard s }

theorem changeShard_of_lt {β : Type} (hlt : shard < ix.shards.size)
    (change : Shard → Shard × β) :
    ix.changeShard shard change =
      (ix.withShard shard (change ix.shards[shard]).1, some (change ix.shards[shard]).2) := by
  rw [changeShard, Array.getElem?_eq_getElem hlt]
  dsimp only
  rw [Array.setIfInBounds_setIfInBounds, withShard]

theorem changeShard_of_not_lt {β : Type} (hlt : ¬ shard < ix.shards.size)
    (change : Shard → Shard × β) : ix.changeShard shard change = (ix, none) := by
  rw [changeShard, Array.getElem?_eq_none (Nat.not_lt.mp hlt)]

namespace Represents

theorem shardFor_eq (h : ix.Represents set) (path : String) :
    ix.shardFor path = set.shardFor path := by
  rw [PathIndex.shardFor, hashOf, shardCount, h.digest_eq, h.count_eq]
  rfl

theorem shardFor_lt (h : ix.Represents set) (path : String) :
    set.shardFor path < ix.shards.size := by
  rw [h.count_eq]
  exact Nat.mod_lt _ h.count_pos

/-- A change of one shard, and of the paths that belong to it. -/
theorem withShard (h : ix.Represents set) (hrunning : set.isShutdown = false)
    (hlists : s.Lists ix.common ix.hashOf paths)
    {P : Finset String} (hmem : ∀ path, path ∈ paths ↔ path ∈ P ∧ set.shardFor path = shard)
    (hothers : ∀ path, set.shardFor path ≠ shard → (path ∈ P ↔ path ∈ set.paths))
    (hempty : "" ∉ P) :
    (ix.withShard shard s).Represents { set with paths := P } := by
  have hsize : (ix.withShard shard s).shards.size = ix.shards.size := Array.size_setIfInBounds
  refine {
    count_eq := hsize.trans h.count_eq
    count_pos := h.count_pos
    digest_eq := h.digest_eq
    isShutdown_eq := h.isShutdown_eq
    paths_eq := fun hdown => absurd (hrunning.symm.trans hdown) Bool.false_ne_true
    ne_empty := hempty
    lists := ?_ }
  intro other hother
  have hlt : other < ix.shards.size := Nat.lt_of_lt_of_eq hother hsize
  have hget : (ix.withShard shard s).shards[other] =
      if shard = other then s else ix.shards[other] :=
    Array.getElem_setIfInBounds hlt
  rw [hget]
  by_cases heq : shard = other
  · rw [if_pos heq]
    subst heq
    exact ⟨paths, hlists, hmem⟩
  · rw [if_neg heq]
    obtain ⟨paths', hlists', hmem'⟩ := h.lists other hlt
    refine ⟨paths', hlists', fun path => (hmem' path).trans (and_congr_left fun hshard => ?_)⟩
    exact (hothers path (hshard ▸ Ne.symm heq)).symm

/-! ### Adding and removing a path -/

theorem refusal?_eq (h : ix.Represents set) (path : String) :
    set.refusal? path =
      if ix.isShutdown then some .indexShutdown else (pathFault? path).map .invalidPath := by
  rw [PathSet.refusal?, h.isShutdown_eq, pathFault?]
  by_cases hempty : path = ""
  · rw [if_pos hempty, if_pos (String.isEmpty_iff.mpr hempty)]
    rfl
  · rw [if_neg hempty, if_neg (mt String.isEmpty_iff.mp hempty)]
    by_cases hlong : 65535 < path.utf8ByteSize
    · rw [if_pos hlong, if_pos (show Arena.longestText < _ from hlong)]
      rfl
    · rw [if_neg hlong, if_neg (show ¬ Arena.longestText < _ from hlong)]
      rfl

/-- A change of a path is refused, or else changes the shard that the path belongs to. -/
theorem changeOwner_cases {β : Type} (h : ix.Represents set) (path : String)
    (change : UInt32 → StoredPath → Shard → Shard × Except Fault β)
    (hlt : set.shardFor path < ix.shards.size) :
    (∃ fault, set.refusal? path = some fault ∧
        ix.changeOwner path change = (ix, .error fault)) ∨
      set.refusal? path = none ∧ set.isShutdown = false ∧ path ≠ "" ∧
        path.utf8ByteSize ≤ Arena.longestText ∧
        ix.changeOwner path change =
          let changed := change (ix.hashOf path) (.of ix.common path)
            ix.shards[set.shardFor path]
          (ix.withShard (set.shardFor path) changed.1, changed.2) := by
  rw [h.refusal?_eq, ← h.isShutdown_eq, changeOwner]
  by_cases hdown : ix.isShutdown = true
  · rw [if_pos hdown, if_pos hdown]
    exact .inl ⟨_, rfl, rfl⟩
  · rw [if_neg hdown, if_neg hdown]
    cases hfault : pathFault? path with
    | some why => exact .inl ⟨_, rfl, rfl⟩
    | none =>
      rw [pathFault?] at hfault
      split_ifs at hfault with hempty hlong
      refine .inr ⟨rfl, Bool.eq_false_iff.mpr hdown, mt String.isEmpty_iff.mpr hempty,
        Nat.not_lt.mp hlong, ?_⟩
      dsimp only
      rw [h.shardFor_eq, changeShard_of_lt hlt]
      rfl

/-- What an index answers and becomes, beside what the set answers and becomes. -/
def Agrees {β : Type} (x : PathIndex × β) (y : PathSet × β) : Prop :=
  x.2 = y.2 ∧ x.1.Represents y.1

/-- **Adding a path adds it to the set.** -/
theorem tryAdd [Memory] (h : ix.Represents set) (path : String) :
    Agrees (ix.tryAdd path) (set.add path (ix.shortageFor? (.add path))) := by
  have hlt := h.shardFor_lt path
  obtain ⟨paths, hlists, hmem⟩ := h.lists _ hlt
  have hshortage : ix.shortageFor? (.add path) = ix.shards[set.shardFor path].shortage? := by
    rw [shortageFor?, h.shardFor_eq, Array.getElem?_eq_getElem hlt, Option.bind_some]
  rw [PathIndex.tryAdd, PathSet.add.eq_def, hshortage]
  rcases h.changeOwner_cases path
    (fun hash stored shard => shard.insert hash stored.absolute stored.text) hlt with
    ⟨fault, hrefused, hchange⟩ | ⟨hallowed, hrunning, hempty, hlong, hchange⟩
  · rw [hrefused, hchange]
    exact ⟨rfl, h⟩
  rw [hallowed, hchange]
  dsimp only
  have hothers : ∀ other, set.shardFor other ≠ set.shardFor path →
      (other ∈ insert path set.paths ↔ other ∈ set.paths) := by
    intro other hother
    rw [Finset.mem_insert, or_iff_right]
    rintro rfl
    exact hother rfl
  by_cases hthere : path ∈ set.paths
  · rw [if_pos hthere, hlists.insert_of_mem ((hmem path).mpr ⟨hthere, rfl⟩)]
    exact ⟨rfl, h.withShard hrunning hlists hmem (fun _ _ => .rfl) h.ne_empty⟩
  · have hnew : path ∉ paths := fun hpath => hthere ((hmem path).mp hpath).1
    rw [if_neg hthere]
    cases hshort : ix.shards[set.shardFor path].shortage? with
    | some fault =>
      obtain ⟨s', hinsert, hlists'⟩ := hlists.insert_of_shortage hnew hlong hshort
      rw [hinsert]
      exact ⟨rfl, h.withShard hrunning hlists' hmem (fun _ _ => .rfl) h.ne_empty⟩
    | none =>
      obtain ⟨s', hinsert, hlists'⟩ := hlists.insert_of_room hnew hlong hshort
      rw [hinsert]
      refine ⟨rfl, h.withShard hrunning hlists' (fun other => ?_) hothers ?_⟩
      · rw [List.mem_append, List.mem_singleton, hmem, Finset.mem_insert]
        constructor
        · rintro (⟨hother, hshard⟩ | rfl)
          · exact ⟨.inr hother, hshard⟩
          · exact ⟨.inl rfl, rfl⟩
        · rintro ⟨rfl | hother, hshard⟩
          · exact .inr rfl
          · exact .inl ⟨hother, hshard⟩
      · rw [Finset.mem_insert, not_or]
        exact ⟨Ne.symm hempty, h.ne_empty⟩

/-- What removing a path does to the shard that the path belongs to. -/
def removal [Memory] (hash : UInt32) (stored : StoredPath) (s : Shard) :
    Shard × Except Fault Bool :=
  ((s.remove hash stored.absolute stored.text).1,
    .ok (s.remove hash stored.absolute stored.text).2)

/-- **Removing a path removes it from the set.** -/
theorem tryRemove [Memory] (h : ix.Represents set) (path : String) :
    Agrees (ix.tryRemove path) (set.remove path) := by
  have hlt := h.shardFor_lt path
  obtain ⟨paths, hlists, hmem⟩ := h.lists _ hlt
  have hremoval : ix.tryRemove path = ix.changeOwner path removal := rfl
  rw [hremoval, PathSet.remove]
  rcases h.changeOwner_cases path removal hlt with
    ⟨fault, hrefused, hchange⟩ | ⟨hallowed, hrunning, hempty, hlong, hchange⟩
  · rw [hrefused, hchange]
    exact ⟨rfl, h⟩
  obtain ⟨s', hremove, hlists'⟩ := hlists.remove path
  rw [hallowed, hchange, removal, hremove]
  refine ⟨?_, h.withShard hrunning hlists' (fun other => ?_) (fun other hother => ?_) ?_⟩
  · change Except.ok (decide (path ∈ paths)) = .ok (decide (path ∈ set.paths))
    exact congrArg _ (decide_eq_decide.mpr ((hmem path).trans (and_iff_left rfl)))
  · rw [List.mem_filter, hmem, decide_eq_true_iff, Finset.mem_erase]
    constructor
    · exact fun hother => ⟨⟨hother.2, hother.1.1⟩, hother.1.2⟩
    · exact fun hother => ⟨⟨hother.1.2, hother.2⟩, hother.1.1⟩
  · rw [Finset.mem_erase, and_iff_right]
    rintro rfl
    exact hother rfl
  · exact fun hmem => h.ne_empty (Finset.mem_of_mem_erase hmem)

/-! ### Removing what lies below a directory -/

theorem without_eq_self {meets : String → Bool} (h : ∀ path ∈ set.paths, meets path = false) :
    set.without meets = set := by
  rw [PathSet.without, Finset.filter_true_of_mem h]

/-- **Removing from a shard what lies below a directory removes it from the set.** -/
theorem tryRemoveBelow [Memory] (h : ix.Represents set) (shard : Nat) (directory : String) :
    Agrees (ix.tryRemoveBelow shard directory) (set.removeBelow shard directory) := by
  rw [PathIndex.tryRemoveBelow, PathSet.removeBelow, h.isShutdown_eq]
  by_cases hdown : set.isShutdown = true
  · rw [if_pos hdown, if_pos hdown]
    exact ⟨rfl, h⟩
  rw [if_neg hdown, if_neg hdown]
  have hrunning := Bool.eq_false_iff.mpr hdown
  dsimp only
  by_cases hshard : shard < set.shardCount
  · have hlt : shard < ix.shards.size := h.count_eq ▸ hshard
    obtain ⟨paths, hlists, hmem⟩ := h.lists shard hlt
    obtain ⟨s', hremove, hlists'⟩ := hlists.removeWhere (trimSlashes directory ++ "/")
    rw [if_pos hshard, changeShard_of_lt hlt, hremove]
    refine ⟨congrArg Except.ok ?_, h.withShard hrunning hlists' (fun other => ?_)
      (fun other hother => ?_) ?_⟩
    · change List.countP _ paths = set.count _
      rw [PathSet.count, List.countP_eq_length_filter,
        ← List.toFinset_card_of_nodup (hlists.nodup.filter _)]
      refine congrArg Finset.card (Finset.ext fun other => ?_)
      rw [List.mem_toFinset, List.mem_filter, hmem, Finset.mem_filter, PathSet.liesBelowIn,
        Bool.and_eq_true, beq_iff_eq, and_assoc]
      rfl
    · rw [List.mem_filter, hmem, Finset.mem_filter, PathSet.liesBelowIn, Bool.and_eq_false_iff,
        Bool.not_eq_true']
      constructor
      · rintro ⟨⟨hother, hin⟩, hbelow⟩
        exact ⟨⟨hother, .inr hbelow⟩, hin⟩
      · rintro ⟨⟨hother, hout | hbelow⟩, hin⟩
        · exact absurd hin (beq_eq_false_iff_ne.mp hout)
        · exact ⟨⟨hother, hin⟩, hbelow⟩
    · rw [Finset.mem_filter]
      refine and_iff_left ?_
      rw [PathSet.liesBelowIn, beq_false_of_ne hother, Bool.false_and]
    · exact fun hmem => h.ne_empty (Finset.mem_of_mem_filter _ hmem)
  · rw [if_neg hshard, changeShard_of_not_lt (h.count_eq ▸ hshard), shardCount, h.count_eq]
    exact ⟨rfl, h⟩

theorem removeBelow [Memory] (h : ix.Represents set) (hshard : shard < set.shardCount)
    (directory : String) :
    Agrees (ix.removeBelow shard directory)
      (set.without (set.liesBelowIn shard directory),
        set.count (set.liesBelowIn shard directory)) := by
  obtain ⟨hreply, hrepresents⟩ := h.tryRemoveBelow shard directory
  rw [PathIndex.removeBelow]
  rw [PathSet.removeBelow] at hreply hrepresents
  generalize ix.tryRemoveBelow shard directory = x at hreply hrepresents ⊢
  obtain ⟨ix', reply⟩ := x
  by_cases hdown : set.isShutdown = true
  · rw [if_pos hdown] at hreply hrepresents
    obtain rfl := hreply
    have hnone : ∀ path ∈ set.paths, set.liesBelowIn shard directory path = false := by
      rw [h.paths_eq hdown]
      exact fun path hpath => absurd hpath (Finset.notMem_empty path)
    refine ⟨?_, ?_⟩
    · rw [PathSet.count, h.paths_eq hdown]
      rfl
    · rw [without_eq_self hnone]
      exact hrepresents
  · rw [if_neg hdown, if_pos hshard] at hreply hrepresents
    obtain rfl := hreply
    exact ⟨rfl, hrepresents⟩

theorem without_without (set : PathSet) (meets meets' : String → Bool) :
    (set.without meets).without meets' = set.without fun path => meets path || meets' path := by
  simp only [PathSet.without, Finset.filter_filter, Bool.or_eq_false_iff]

theorem count_add_count_without (set : PathSet) (meets meets' : String → Bool) :
    set.count meets + (set.without meets).count meets' =
      set.count fun path => meets path || meets' path := by
  simp only [PathSet.count, PathSet.without, Finset.filter_filter]
  rw [← Finset.card_union_of_disjoint]
  · refine congrArg Finset.card (Finset.ext fun path => ?_)
    rw [Finset.mem_union, Finset.mem_filter, Finset.mem_filter, Finset.mem_filter,
      Bool.or_eq_true]
    cases meets path <;> simp
  · refine Finset.disjoint_filter.mpr fun path _ hmeets hnot => ?_
    exact Bool.false_ne_true (hnot.1.symm.trans hmeets)

/-- Going through the shards up to one. -/
theorem foldl_removeBelow [Memory] (h : ix.Represents set) (directory : String) {m : Nat}
    (hm : m ≤ set.shardCount) :
    Agrees ((List.range m).foldl (fun (ix, total) shard =>
        let (ix, removed) := ix.removeBelow shard directory
        (ix, total + removed)) (ix, 0))
      (set.without (fun path => set.shardFor path < m && PathSet.liesBelow directory path),
        set.count fun path => set.shardFor path < m && PathSet.liesBelow directory path) := by
  induction m with
  | zero =>
    refine ⟨?_, ?_⟩
    · rw [PathSet.count, Finset.filter_false_of_mem]
      · rfl
      · exact fun path _ => by simp
    · rw [without_eq_self]
      · exact h
      · exact fun path _ => by simp
  | succ m ih =>
    obtain ⟨htotal, hset⟩ := ih (Nat.le_of_succ_le hm)
    obtain ⟨hremoved, hset'⟩ := hset.removeBelow (show m < _ from hm) directory
    have hmeets : (fun path =>
        (decide (set.shardFor path < m) && PathSet.liesBelow directory path) ||
          set.liesBelowIn m directory path) =
        fun path => set.shardFor path < m + 1 && PathSet.liesBelow directory path := by
      funext path
      rw [PathSet.liesBelowIn, ← Bool.and_or_distrib_right, Bool.eq_iff_iff, Bool.and_eq_true,
        Bool.and_eq_true, Bool.or_eq_true, decide_eq_true_iff, decide_eq_true_iff, beq_iff_eq,
        Nat.lt_succ_iff_lt_or_eq]
    rw [List.range_succ, List.foldl_append, List.foldl_cons, List.foldl_nil]
    refine ⟨?_, ?_⟩
    · rw [← hmeets, ← count_add_count_without]
      exact congrArg₂ (· + ·) htotal hremoved
    · rw [← hmeets, ← without_without]
      exact hset'

/-- **Removing everything below a directory.** -/
theorem removeAllBelow [Memory] (h : ix.Represents set) (directory : String) :
    Agrees (ix.removeAllBelow directory)
      (set.without (PathSet.liesBelow directory), set.count (PathSet.liesBelow directory)) := by
  have hall : (fun path => decide (set.shardFor path < set.shardCount) &&
      PathSet.liesBelow directory path) = PathSet.liesBelow directory := by
    funext path
    have hlt : set.shardFor path < set.shardCount := Nat.mod_lt _ h.count_pos
    rw [decide_eq_true hlt, Bool.true_and]
  have hagrees := h.foldl_removeBelow directory (Nat.le_refl set.shardCount)
  rw [hall, ← h.count_eq] at hagrees
  exact hagrees

/-! ### Asking -/

theorem contains (h : ix.Represents set) (path : String) :
    ix.contains path = decide (path ∈ set.paths) := by
  have hlt := h.shardFor_lt path
  obtain ⟨paths, hlists, hmem⟩ := h.lists _ hlt
  rw [PathIndex.contains, h.isShutdown_eq]
  split_ifs with hrefused
  · refine (decide_eq_false fun hpath => ?_).symm
    rcases (Bool.or_eq_true _ _).mp hrefused with hempty | hdown
    · exact h.ne_empty (String.isEmpty_iff.mp hempty ▸ hpath)
    · rw [h.paths_eq hdown] at hpath
      exact Finset.notMem_empty path hpath
  · rw [h.shardFor_eq, Array.getElem?_eq_getElem hlt]
    dsimp only
    rw [hlists.find?]
    exact decide_eq_decide.mpr ((hmem path).trans (and_iff_left rfl))

/-- A shard has as many paths as belong to it. -/
theorem size_getElem (h : ix.Represents set) (hlt : shard < ix.shards.size) :
    ix.shards[shard].size = set.count fun path => set.shardFor path == shard := by
  obtain ⟨paths, hlists, hmem⟩ := h.lists shard hlt
  rw [hlists.size_eq, ← List.toFinset_card_of_nodup hlists.nodup, PathSet.count]
  refine congrArg Finset.card (Finset.ext fun path => ?_)
  rw [List.mem_toFinset, hmem, Finset.mem_filter, beq_iff_eq]

theorem shardSize (h : ix.Represents set) (shard : Nat) :
    ix.shardSize shard = set.count fun path => set.shardFor path == shard := by
  rw [PathIndex.shardSize]
  by_cases hlt : shard < ix.shards.size
  · rw [Array.getElem?_eq_getElem hlt]
    exact h.size_getElem hlt
  · rw [Array.getElem?_eq_none (Nat.not_lt.mp hlt), PathSet.count, Finset.filter_false_of_mem]
    · rfl
    · intro path _ hshard
      exact hlt (beq_iff_eq.mp hshard ▸ h.shardFor_lt path)

/-- **The sizes of the shards add up to the size of the set.** -/
theorem size (h : ix.Represents set) : ix.size = set.paths.card := by
  have hfibers : set.paths.card =
      ∑ shard ∈ Finset.range ix.shards.size, (set.paths.filter (set.shardFor · = shard)).card :=
    Finset.card_eq_sum_card_fiberwise fun path _ =>
      Finset.mem_coe.mpr (Finset.mem_range.mpr (h.shardFor_lt path))
  have hsizes : ∀ shard : Fin ix.shards.size, ix.shards[shard].size =
      (set.paths.filter (set.shardFor · = shard.1)).card := by
    intro shard
    refine (h.size_getElem shard.2).trans ?_
    simp only [PathSet.count, beq_iff_eq]
  rw [hfibers, Finset.sum_range, ← Finset.sum_congr rfl fun shard _ => hsizes shard,
    PathIndex.size, ← Array.foldl_toList, ← List.foldl_map, ← List.sum_eq_foldl]
  exact (Fin.sum_univ_fun_getElem ix.shards.toList Shard.size).symm

/-! ### Shutting down -/

theorem shutdown (h : ix.Represents set) :
    ix.shutdown.Represents { set with paths := ∅, isShutdown := true } := by
  rw [PathIndex.shutdown]
  split_ifs with hdown
  · have hempty := h.paths_eq (h.isShutdown_eq ▸ hdown)
    exact { h with
      isShutdown_eq := hdown
      paths_eq := fun _ => rfl
      ne_empty := Finset.notMem_empty _
      lists := fun shard hlt => hempty ▸ h.lists shard hlt }
  · refine { h with
      count_eq := (Array.size_map ..).trans h.count_eq
      isShutdown_eq := rfl
      paths_eq := fun _ => rfl
      ne_empty := Finset.notMem_empty _
      lists := fun shard hlt => ⟨[], ?_, fun path => ?_⟩ }
    · dsimp only
      rw [Array.getElem_map]
      exact .empty ProbeTable.sound_empty rfl _ _
    · exact ⟨fun hpath => absurd hpath List.not_mem_nil,
        fun hpath => absurd hpath.1 (Finset.notMem_empty path)⟩

/-! ### Whole runs -/

section Runs

variable [Memory]

/-- **What one request does to an index, it does to the set.** -/
theorem respond (h : ix.Represents set) (request : PathRequest) :
    Agrees (ix.respond request) (set.respond (ix.shortageFor? request) request) := by
  cases request with
  | add path => exact ⟨congrArg PathReply.changed (h.tryAdd path).1, (h.tryAdd path).2⟩
  | remove path => exact ⟨congrArg PathReply.changed (h.tryRemove path).1, (h.tryRemove path).2⟩
  | removeBelow shard directory =>
    obtain ⟨hreply, hset⟩ := h.tryRemoveBelow shard directory
    exact ⟨congrArg PathReply.removed hreply, hset⟩
  | removeAllBelow directory =>
    obtain ⟨hreply, hset⟩ := h.removeAllBelow directory
    exact ⟨congrArg PathReply.number hreply, hset⟩
  | contains path => exact ⟨congrArg PathReply.holds (h.contains path), h⟩
  | size => exact ⟨congrArg PathReply.number h.size, h⟩
  | shardSize shard => exact ⟨congrArg PathReply.number (h.shardSize shard), h⟩
  | shutdown => exact ⟨rfl, h.shutdown⟩

theorem respondAll (h : ix.Represents set) (requests : List PathRequest) :
    ix.respondAll requests = set.respondAll (ix.noted requests) := by
  induction requests generalizing ix set with
  | nil => rfl
  | cons request requests ih =>
    obtain ⟨hreply, hset⟩ := h.respond request
    rw [PathIndex.respondAll, noted, PathSet.respondAll, hreply, ih hset]

end Runs

end Represents

/-! ### New indexes -/

section New

variable [Memory] {config : IndexConfig} {scorer : Scorer} {digest : String → UInt64}

/-- An index with as many shards as are asked for, each with so many free slots and no entry. -/
def blank (config : IndexConfig) (scorer : Scorer) (digest : String → UInt64) (slots : Nat) :
    PathIndex where
  shards := Array.replicate config.shardCount { table := { slots := Array.replicate slots none } }
  common := config.commonPrefix.bind CommonDirectory.ofText?
  isShutdown := false
  scorer
  threshold := Score.clamp config.minRelevancy
  digest

/-- **A new index** is blank. There is one if the configuration is valid, the number of slots has 64
bits when it is rounded up, and there is memory for the shards, an arena and a table. -/
theorem create_eq_ok_iff : create config scorer digest = .ok ix ↔
    config.check = .ok () ∧ Memory.grants (config.shardCount * shardBytes) = true ∧
      Memory.grants config.arenaBytes = true ∧
      ProbeTable.doubled config.initialSlots ProbeTable.fewestSlots < UInt64.size ∧
      Memory.grants (ProbeTable.doubled config.initialSlots ProbeTable.fewestSlots *
        ProbeTable.slotBytes) = true ∧
      ix = blank config scorer digest
        (ProbeTable.doubled config.initialSlots ProbeTable.fewestSlots) := by
  rw [create]
  constructor
  · intro h
    obtain ⟨⟨⟩, hcheck, h⟩ := exists_of_bind_eq_ok h
    cases hshards : Memory.grants (config.shardCount * shardBytes) with
    | false =>
      rw [hshards] at h
      exact absurd h nofun
    | true =>
      rw [hshards] at h
      obtain ⟨shard, hshard, h⟩ := exists_of_bind_eq_ok h
      obtain ⟨hbytes, table, htable, rfl⟩ := Shard.empty_eq_ok_iff.mp hshard
      obtain ⟨hlt, hslots, rfl⟩ := ProbeTable.withSlots_eq_ok_iff.mp htable
      exact ⟨hcheck, rfl, hbytes, hlt, hslots, (Except.ok.inj h).symm⟩
  · rintro ⟨hcheck, hshards, hbytes, hlt, hslots, rfl⟩
    have hempty := Shard.empty_eq_ok_iff.mpr
      ⟨hbytes, _, ProbeTable.withSlots_eq_ok_iff.mpr ⟨hlt, hslots, rfl⟩, rfl⟩
    rw [hcheck, hshards, hempty]
    rfl

/-- A new index represents the empty set. -/
theorem represents_of_create (h : create config scorer digest = .ok ix) :
    ix.Represents { shardCount := config.shardCount, digest } := by
  obtain ⟨hcheck, -, -, hlt, hslots, rfl⟩ := create_eq_ok_iff.mp h
  obtain ⟨hsound, hempty, -⟩ :=
    ProbeTable.sound_withSlots (ProbeTable.withSlots_eq_ok_iff.mpr ⟨hlt, hslots, rfl⟩)
  refine {
    count_eq := Array.size_replicate
    count_pos := ?_
    digest_eq := rfl
    isShutdown_eq := rfl
    paths_eq := fun _ => rfl
    ne_empty := Finset.notMem_empty _
    lists := fun k hlt => ⟨[], ?_, fun path => ?_⟩ }
  · rw [IndexConfig.check] at hcheck
    split_ifs at hcheck with hcount hslots
    change 0 < config.shardCount
    omega
  · simp only [blank, Array.getElem_replicate]
    exact .empty hsound hempty _ _
  · exact ⟨fun hpath => absurd hpath List.not_mem_nil,
      fun hpath => absurd hpath.1 (Finset.notMem_empty path)⟩

end New

section AddressSpace

open scoped Typeahead.Memory.AddressSpace

/-- An index with one slot a shard to begin with has tables of eight. -/
theorem create_of_one_slot {config : IndexConfig} {scorer : Scorer} {digest : String → UInt64}
    (hcheck : config.check = .ok ()) (hone : config.initialSlots = 1)
    (hshards : Memory.grants (config.shardCount * shardBytes) = true)
    (hbytes : Memory.grants config.arenaBytes = true) :
    create config scorer digest = .ok (blank config scorer digest 8) := by
  have hslots : ProbeTable.doubled 1 ProbeTable.fewestSlots = 8 := by decide +kernel
  rw [create_eq_ok_iff, hone, hslots]
  exact ⟨hcheck, hshards, hbytes, by decide, by decide, rfl⟩

end AddressSpace

end PathIndex

end Typeahead
