import Typeahead.Proofs.Paths.Refinement

/-!
# The order of the paths

A set of paths has no order, but an index has one: each shard keeps its paths in the order in which
they were added, and a path that was removed and is added again comes last. Nothing that happens
to a shard changes that, writing its entries anew included. So the paths of an index can be listed
in the order in which they were added, and the paths of a shard are a part of that list, in the
same order.
-/

namespace Typeahead

/-! ### Listing a set -/

/-- The path that a request is to add. -/
def PathRequest.added? : PathRequest → Option String
  | .add path => some path
  | _ => none

namespace PathSet

/-- The listed paths of a set after a request: those that are still there keep their order, and one
that has been added comes last. -/
def relist (set : PathSet) (shortage : Option Fault) (paths : List String) (request : PathRequest) :
    List String :=
  let after := (set.respond shortage request).1
  paths.filter (· ∈ after.paths) ++
    (request.added?.filter fun path => path ∈ after.paths ∧ path ∉ paths).toList

/-- The paths of a set after some requests, in the order in which they were added. -/
def listing (set : PathSet) (paths : List String) : List (PathRequest × Option Fault) → List String
  | [] => paths
  | (request, shortage) :: requests =>
    (set.respond shortage request).1.listing (set.relist shortage paths request) requests

theorem nodup_relist {set : PathSet} {shortage : Option Fault} {paths : List String}
    {request : PathRequest} (hnodup : paths.Nodup) : (set.relist shortage paths request).Nodup := by
  rw [relist]
  refine List.nodup_append.mpr ⟨hnodup.filter _, ?_, ?_⟩
  · cases request.added?.filter _ <;> simp
  · rintro path hpath other hother rfl
    obtain ⟨-, hnew⟩ := Option.filter_eq_some_iff.mp (Option.mem_toList.mp hother)
    exact (of_decide_eq_true hnew).2 (List.mem_of_mem_filter hpath)

end PathSet

/-- An index after some requests. -/
def PathIndex.after [Memory] (ix : PathIndex) : List PathRequest → PathIndex
  | [] => ix
  | request :: requests => (ix.respond request).1.after requests

namespace PathIndex

variable {ix ix' ix'' : PathIndex} {set set' : PathSet} {paths : List String} {path : String}
variable {R : List String → List String → Prop} {shard : Nat} {s : Shard}

/-! ### What becomes of the shards -/

/-- Two indexes that are laid out in the same way. -/
structure Alike (ix ix' : PathIndex) : Prop where
  size_eq : ix'.shards.size = ix.shards.size
  common_eq : ix'.common = ix.common
  digest_eq : ix'.digest = ix.digest
  scorer_eq : ix'.scorer = ix.scorer
  threshold_eq : ix'.threshold = ix.threshold

/-- Two indexes that are laid out in the same way, such that the listed paths of each shard of the
one are related to those of the same shard of the other. -/
structure Turned (R : List String → List String → Prop) (ix ix' : PathIndex) : Prop extends
    Alike ix ix' where
  lists : ∀ shard (h : shard < ix.shards.size) (h' : shard < ix'.shards.size) paths,
    ix.shards[shard].Lists ix.common ix.hashOf paths →
      ∃ paths', ix'.shards[shard].Lists ix'.common ix'.hashOf paths' ∧ R paths paths'

/-- Some paths are left out. -/
def Loses (paths paths' : List String) : Prop :=
  ∃ keeps : String → Bool, paths' = paths.filter keeps

/-- A path comes last, or nothing changes. -/
def Gains (path : String) (paths paths' : List String) : Prop :=
  paths' = paths ∨ paths' = paths ++ [path]

theorem Loses.refl (paths : List String) : Loses paths paths :=
  ⟨fun _ => true, (List.filter_eq_self.mpr fun _ _ => rfl).symm⟩

theorem Alike.refl (ix : PathIndex) : Alike ix ix := ⟨rfl, rfl, rfl, rfl, rfl⟩

theorem Alike.trans (h : Alike ix ix') (h' : Alike ix' ix'') : Alike ix ix'' :=
  ⟨h'.size_eq.trans h.size_eq, h'.common_eq.trans h.common_eq, h'.digest_eq.trans h.digest_eq,
    h'.scorer_eq.trans h.scorer_eq, h'.threshold_eq.trans h.threshold_eq⟩

theorem Alike.shardFor_eq (h : Alike ix ix') (path : String) :
    ix'.shardFor path = ix.shardFor path := by
  rw [shardFor, shardFor, hashOf, hashOf, shardCount, shardCount, h.digest_eq, h.size_eq]

theorem Turned.refl (hrefl : ∀ paths, R paths paths) (ix : PathIndex) : Turned R ix ix where
  toAlike := .refl ix
  lists _ _ _ paths hlists := ⟨paths, hlists, hrefl paths⟩

/-- What loses paths twice loses paths. -/
theorem Turned.trans (h : Turned Loses ix ix') (h' : Turned Loses ix' ix'') :
    Turned Loses ix ix'' where
  toAlike := h.toAlike.trans h'.toAlike
  lists shard hlt hlt'' paths hlists := by
    have hlt' : shard < ix'.shards.size := h.size_eq.symm ▸ hlt
    obtain ⟨-, hlists', keeps, rfl⟩ := h.lists shard hlt hlt' paths hlists
    obtain ⟨-, hlists'', keeps', rfl⟩ := h'.lists shard hlt' hlt'' _ hlists'
    exact ⟨_, hlists'', fun path => keeps path && keeps' path, by
      rw [List.filter_filter]
      exact List.filter_congr fun path _ => Bool.and_comm ..⟩

theorem turned_withShard (hrefl : ∀ paths, R paths paths) (hlt : shard < ix.shards.size)
    (hshard : ∀ paths, ix.shards[shard].Lists ix.common ix.hashOf paths →
      ∃ paths', s.Lists ix.common ix.hashOf paths' ∧ R paths paths') :
    Turned R ix (ix.withShard shard s) where
  toAlike := ⟨Array.size_setIfInBounds, rfl, rfl, rfl, rfl⟩
  lists other hother hother' paths hlists := by
    have hget : (ix.withShard shard s).shards[other] =
        if shard = other then s else ix.shards[other] := Array.getElem_setIfInBounds hother
    rw [hget]
    split_ifs with heq
    · subst heq
      exact hshard paths hlists
    · exact ⟨paths, hlists, hrefl paths⟩

/-- A change of one shard relates the listed paths of all shards as it relates those of one. -/
theorem turned_changeShard {β : Type} (hrefl : ∀ paths, R paths paths)
    (change : Shard → Shard × β)
    (hchange : ∀ s paths, Shard.Lists s ix.common ix.hashOf paths →
      ∃ paths', (change s).1.Lists ix.common ix.hashOf paths' ∧ R paths paths') :
    Turned R ix (ix.changeShard shard change).1 := by
  by_cases hlt : shard < ix.shards.size
  · rw [changeShard_of_lt hlt]
    exact turned_withShard hrefl hlt (hchange _)
  · rw [changeShard_of_not_lt hlt]
    exact .refl hrefl ix

theorem turned_changeOwner {β : Type} (hrefl : ∀ paths, R paths paths)
    (change : UInt32 → StoredPath → Shard → Shard × Except Fault β)
    (hchange : path.utf8ByteSize ≤ Arena.longestText → ∀ s paths,
      Shard.Lists s ix.common ix.hashOf paths →
        ∃ paths', (change (ix.hashOf path) (.of ix.common path) s).1.Lists ix.common ix.hashOf
          paths' ∧ R paths paths') :
    Turned R ix (ix.changeOwner path change).1 := by
  rw [changeOwner]
  split_ifs with hdown
  · exact .refl hrefl ix
  cases hfault : pathFault? path with
  | some why => exact .refl hrefl ix
  | none =>
    have hlong : path.utf8ByteSize ≤ Arena.longestText := by
      rw [pathFault?] at hfault
      split_ifs at hfault with hempty hlong
      exact Nat.not_lt.mp hlong
    exact turned_changeShard hrefl _ (hchange hlong)

/-! ### Requests -/

theorem turned_shutdown (ix : PathIndex) : Turned Loses ix ix.shutdown := by
  rw [shutdown]
  split_ifs with hdown
  · exact .refl Loses.refl ix
  · refine ⟨⟨Array.size_map .., rfl, rfl, rfl, rfl⟩, fun shard hlt hlt' paths _ => ⟨[], ?_, ?_⟩⟩
    · dsimp only
      rw [Array.getElem_map]
      exact .empty ProbeTable.sound_empty rfl _ _
    · exact ⟨fun _ => false, (List.filter_eq_nil_iff.mpr fun _ _ => Bool.false_ne_true).symm⟩

section Requests

variable [Memory]

theorem turned_tryAdd (ix : PathIndex) (path : String) :
    Turned (Gains path) ix (ix.tryAdd path).1 := by
  refine turned_changeOwner (fun _ => .inl rfl) _ fun hlong s paths hlists => ?_
  by_cases hmem : path ∈ paths
  · rw [hlists.insert_of_mem hmem]
    exact ⟨paths, hlists, .inl rfl⟩
  · cases hshortage : s.shortage? with
    | some fault =>
      obtain ⟨s', hinsert, hlists'⟩ := hlists.insert_of_shortage hmem hlong hshortage
      rw [hinsert]
      exact ⟨paths, hlists', .inl rfl⟩
    | none =>
      obtain ⟨s', hinsert, hlists'⟩ := hlists.insert_of_room hmem hlong hshortage
      rw [hinsert]
      exact ⟨paths ++ [path], hlists', .inr rfl⟩

theorem turned_tryRemove (ix : PathIndex) (path : String) :
    Turned Loses ix (ix.tryRemove path).1 := by
  refine turned_changeOwner Loses.refl _ fun _ s paths hlists => ?_
  obtain ⟨s', hremove, hlists'⟩ := hlists.remove path
  dsimp only
  rw [hremove]
  exact ⟨_, hlists', _, rfl⟩

theorem turned_tryRemoveBelow (ix : PathIndex) (shard : Nat) (directory : String) :
    Turned Loses ix (ix.tryRemoveBelow shard directory).1 := by
  rw [tryRemoveBelow]
  split_ifs with hdown
  · exact .refl Loses.refl ix
  refine turned_changeShard Loses.refl _ fun s paths hlists => ?_
  obtain ⟨s', hremove, hlists'⟩ := hlists.removeWhere (trimSlashes directory ++ "/")
  rw [hremove]
  exact ⟨_, hlists', _, rfl⟩

theorem removeBelow_fst (ix : PathIndex) (shard : Nat) (directory : String) :
    (ix.removeBelow shard directory).1 = (ix.tryRemoveBelow shard directory).1 := by
  rw [removeBelow]
  rcases ix.tryRemoveBelow shard directory with ⟨ix', _ | removed⟩ <;> rfl

theorem turned_removeAllBelow (ix : PathIndex) (directory : String) :
    Turned Loses ix (ix.removeAllBelow directory).1 := by
  rw [removeAllBelow]
  generalize List.range ix.shardCount = shards, 0 = total
  induction shards generalizing ix total with
  | nil => exact .refl Loses.refl ix
  | cons shard shards ih =>
    have hfirst := ix.turned_tryRemoveBelow shard directory
    rw [← removeBelow_fst] at hfirst
    exact hfirst.trans (ih _ _)

/-- **No request changes the order of the paths that are there.** One that adds a path puts it last,
and every other one leaves paths out. -/
theorem turned_respond (ix : PathIndex) (request : PathRequest) :
    (∃ path, request.added? = some path ∧ Turned (Gains path) ix (ix.respond request).1) ∨
      request.added? = none ∧ Turned Loses ix (ix.respond request).1 := by
  cases request with
  | add path => exact .inl ⟨path, rfl, ix.turned_tryAdd path⟩
  | remove path => exact .inr ⟨rfl, ix.turned_tryRemove path⟩
  | removeBelow shard directory => exact .inr ⟨rfl, ix.turned_tryRemoveBelow shard directory⟩
  | removeAllBelow directory => exact .inr ⟨rfl, ix.turned_removeAllBelow directory⟩
  | contains path => exact .inr ⟨rfl, .refl Loses.refl ix⟩
  | size => exact .inr ⟨rfl, .refl Loses.refl ix⟩
  | shardSize shard => exact .inr ⟨rfl, .refl Loses.refl ix⟩
  | shutdown => exact .inr ⟨rfl, ix.turned_shutdown⟩

end Requests

/-! ### Listing an index -/

/-- **An index represents a set whose paths are listed in the order in which they were added.** -/
structure Listed (ix : PathIndex) (set : PathSet) (paths : List String) : Prop where
  /-- The index represents the set. -/
  represents : ix.Represents set
  /-- No path is listed twice. -/
  nodup : paths.Nodup
  /-- The paths of the set are listed. -/
  mem_iff : ∀ path, path ∈ paths ↔ path ∈ set.paths
  /-- Every shard holds its paths in the order of the list. -/
  lists : ∀ shard, (h : shard < ix.shards.size) →
    ix.shards[shard].Lists ix.common ix.hashOf (paths.filter (set.shardFor · = shard))

/-- What the shards hold after a request that relates the listed paths of each of them, if it is
known how the relation and the paths of the set determine the rest. -/
theorem Listed.turned (h : ix.Listed set paths) (hrepresents : ix'.Represents set')
    (hturned : Turned R ix ix') {paths' : List String}
    (hlists : ∀ shard before after, before = paths.filter (set.shardFor · = shard) →
      (∀ path, path ∈ after ↔ path ∈ set'.paths ∧ set.shardFor path = shard) → after.Nodup →
      R before after → after = paths'.filter (set.shardFor · = shard))
    (hnodup : paths'.Nodup) : ix'.Listed set' paths' := by
  have hshardFor : ∀ path, set'.shardFor path = set.shardFor path := by
    intro path
    rw [← hrepresents.shardFor_eq, ← h.represents.shardFor_eq, hturned.shardFor_eq]
  have hshards : ∀ shard (hlt : shard < ix'.shards.size),
      ix'.shards[shard].Lists ix'.common ix'.hashOf (paths'.filter (set'.shardFor · = shard)) ∧
        ∀ path, path ∈ paths'.filter (set'.shardFor · = shard) ↔
          path ∈ set'.paths ∧ set'.shardFor path = shard := by
    intro shard hlt
    obtain ⟨after, hafter, hmem⟩ := hrepresents.lists shard hlt
    obtain ⟨other, hother, hR⟩ :=
      hturned.lists shard (hturned.size_eq ▸ hlt) hlt _ (h.lists shard (hturned.size_eq ▸ hlt))
    obtain rfl := hother.unique hafter
    simp only [hshardFor] at hmem ⊢
    rw [← hlists shard _ _ rfl hmem hafter.nodup hR]
    exact ⟨hafter, hmem⟩
  refine ⟨hrepresents, hnodup, fun path => ?_, fun shard hlt => (hshards shard hlt).1⟩
  have hmem := (hshards (set'.shardFor path) (hrepresents.shardFor_lt path)).2 path
  rw [List.mem_filter, decide_eq_true_iff] at hmem
  exact ⟨fun hpath => (hmem.mp ⟨hpath, rfl⟩).1, fun hpath => (hmem.mpr ⟨hpath, rfl⟩).1⟩

/-- What a request leaves of the listed paths of a shard, and what it adds to them. -/
theorem filter_relist (set : PathSet) (shortage : Option Fault) (paths : List String)
    (request : PathRequest) (shard : Nat) :
    (set.relist shortage paths request).filter (set.shardFor · = shard) =
      (paths.filter (set.shardFor · = shard)).filter
          (· ∈ (set.respond shortage request).1.paths) ++
        (request.added?.filter fun path =>
          path ∈ (set.respond shortage request).1.paths ∧ path ∉ paths).toList.filter
            (set.shardFor · = shard) := by
  rw [PathSet.relist, List.filter_append, List.filter_filter, List.filter_filter]
  refine congrArg (· ++ _) (List.filter_congr fun path _ => Bool.and_comm ..)

theorem mem_filter_shardFor {path : String} :
    path ∈ paths.filter (set.shardFor · = shard) ↔ path ∈ paths ∧ set.shardFor path = shard := by
  rw [List.mem_filter, decide_eq_true_iff]

section Runs

variable [Memory]

/-- A request that adds a path: the list follows it. -/
theorem Listed.gain (h : ix.Listed set paths) {request : PathRequest}
    (hadded : request.added? = some path)
    (hturned : Turned (Gains path) ix (ix.respond request).1) :
    (ix.respond request).1.Listed (set.respond (ix.shortageFor? request) request).1
      (set.relist (ix.shortageFor? request) paths request) := by
  refine h.turned (h.represents.respond request).2 hturned
    (fun shard before after hbefore hmem hnodup hR => ?_) (PathSet.nodup_relist h.nodup)
  subst hbefore
  rw [filter_relist, hadded]
  generalize (set.respond (ix.shortageFor? request) request).1.paths = P at hmem
  have hstays : (∀ other ∈ paths.filter (set.shardFor · = shard), other ∈ after) →
      (paths.filter (set.shardFor · = shard)).filter (· ∈ P) =
        paths.filter (set.shardFor · = shard) := by
    intro hafter
    rw [List.filter_eq_self]
    exact fun other hother => decide_eq_true ((hmem other).mp (hafter other hother)).1
  rcases hR with rfl | rfl
  · have hold : (Option.filter (fun path => path ∈ P ∧ path ∉ paths) (some path)).toList.filter
        (set.shardFor · = shard) = [] := by
      refine List.filter_eq_nil_iff.mpr fun other hother hin => ?_
      obtain ⟨-, hnew⟩ := Option.filter_eq_some_iff.mp (Option.mem_toList.mp hother)
      obtain ⟨hP, hnew⟩ := of_decide_eq_true hnew
      exact hnew (mem_filter_shardFor.mp ((hmem other).mpr ⟨hP, of_decide_eq_true hin⟩)).1
    rw [hold, List.append_nil, hstays fun _ hother => hother]
  · obtain ⟨hP, hin⟩ := (hmem path).mp (List.mem_append_right _ (List.mem_singleton_self path))
    have hnew : path ∉ paths := fun hpath =>
      (List.nodup_append.mp hnodup).2.2 path (mem_filter_shardFor.mpr ⟨hpath, hin⟩) path
        (List.mem_singleton_self path) rfl
    rw [Option.filter_some, if_pos (decide_eq_true ⟨hP, hnew⟩), Option.toList_some,
      List.filter_singleton, decide_eq_true hin, hstays fun _ => List.mem_append_left _]
    rfl

/-- A request that adds no path: the list follows it. -/
theorem Listed.lose (h : ix.Listed set paths) {request : PathRequest}
    (hnone : request.added? = none) (hturned : Turned Loses ix (ix.respond request).1) :
    (ix.respond request).1.Listed (set.respond (ix.shortageFor? request) request).1
      (set.relist (ix.shortageFor? request) paths request) := by
  refine h.turned (h.represents.respond request).2 hturned
    (fun shard before after hbefore hmem hnodup hR => ?_) (PathSet.nodup_relist h.nodup)
  obtain ⟨keeps, rfl⟩ := hR
  subst hbefore
  rw [filter_relist, hnone]
  refine (List.filter_congr fun path hpath => ?_).trans (List.append_nil _).symm
  have hkeeps := hmem path
  rw [List.mem_filter, and_iff_right hpath, and_iff_left (mem_filter_shardFor.mp hpath).2] at hkeeps
  rw [Bool.eq_iff_iff, hkeeps, decide_eq_true_iff]

/-- **One request**: the list of the paths follows it. -/
theorem Listed.respond (h : ix.Listed set paths) (request : PathRequest) :
    (ix.respond request).1.Listed (set.respond (ix.shortageFor? request) request).1
      (set.relist (ix.shortageFor? request) paths request) := by
  rcases ix.turned_respond request with ⟨path, hadded, hturned⟩ | ⟨hnone, hturned⟩
  · exact h.gain hadded hturned
  · exact h.lose hnone hturned

/-- **Any number of requests**: the index keeps the paths in the order of the list. -/
theorem Listed.after (h : ix.Listed set paths) (requests : List PathRequest) :
    ∃ set', (ix.after requests).Listed set' (set.listing paths (ix.noted requests)) := by
  induction requests generalizing ix set paths with
  | nil => exact ⟨set, h⟩
  | cons request requests ih => exact ih (h.respond request)

/-- A new index keeps no paths. -/
theorem listed_of_create {config : IndexConfig} {scorer : Scorer} {digest : String → UInt64}
    (h : create config scorer digest = .ok ix) :
    ix.Listed { shardCount := config.shardCount, digest } [] where
  represents := represents_of_create h
  nodup := .nil
  mem_iff path := ⟨fun hpath => absurd hpath List.not_mem_nil,
    fun hpath => absurd hpath (Finset.notMem_empty path)⟩
  lists shard hlt := by
    obtain ⟨paths, hlists, hmem⟩ := (represents_of_create h).lists shard hlt
    have hnil : paths = [] := List.eq_nil_iff_forall_not_mem.mpr fun path hpath =>
      Finset.notMem_empty path ((hmem path).mp hpath).1
    rw [hnil] at hlists
    exact hlists

/-- An index keeps its layout. -/
theorem alike_after (ix : PathIndex) (requests : List PathRequest) :
    Alike ix (ix.after requests) := by
  induction requests generalizing ix with
  | nil => exact .refl ix
  | cons request requests ih =>
    refine .trans ?_ (ih _)
    rcases ix.turned_respond request with
      ⟨path, hadded, hturned⟩ | ⟨hnone, hturned⟩ <;>
    exact hturned.toAlike

end Runs

end PathIndex

end Typeahead
