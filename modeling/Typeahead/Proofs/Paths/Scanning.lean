import Typeahead.Proofs.Paths.Search

/-!
# Scanning finds what a search of the paths finds

A scan offers the hits of one shard after the other to a pool. If the pool has room for all hashes
and is not superseded, every scan is completed, and the pool keeps the hits that lead. Paths with
the same hash belong to the same shard, where they come in the order in which they were added. So
to lead among the hits is to be kept by a search of the list of all paths, whatever the shards, in
whichever order they are scanned and whatever has happened to them, and what is shown is what the
search finds.
-/

namespace Typeahead

namespace PathIndex

variable {ix : PathIndex} {q : Search} {set : PathSet} {paths : List String}
variable {outside : Callback → Bool} {factory : Callback} {room : Nat} {d : Desk}
variable {hits done : List Hit}

/-! ### Scans -/

/-- A hit at which the scan is not stopped is followed by the others. -/
theorem offerHits_cons_of_goesOn {hit : Hit} (scanned inserted : Nat)
    (hasked : ¬ (0 < inserted ∧ d.pool.token.isStaleAt d.generations inserted = true))
    (hgoes : Pool.goesOn (d.offer outside (hit.offer factory)).2 = true) :
    offerHits outside factory scanned (hit :: hits) inserted d =
      offerHits outside factory scanned hits (inserted + 1)
        (d.offer outside (hit.offer factory)).1 := by
  rw [offerHits, if_neg hasked]
  exact if_pos hgoes

/-- A hit that is taken is followed by the others. -/
theorem offerHits_cons {hit : Hit} (scanned inserted : Nat) (hfresh : d.isStale = false)
    (htaken : (d.offer outside (hit.offer factory)).2 = .ok ()) :
    offerHits outside factory scanned (hit :: hits) inserted d =
      offerHits outside factory scanned hits (inserted + 1)
        (d.offer outside (hit.offer factory)).1 := by
  have hgoes : d.pool.token.isStaleAt d.generations inserted = false := by
    rw [Token.isStaleAt, show d.pool.token.isStale d.generations = false from hfresh,
      Bool.and_false]
  refine offerHits_cons_of_goesOn scanned inserted ?_ (by rw [htaken]; rfl)
  rw [hgoes]
  exact fun h => Bool.false_ne_true h.2

/-- Some hits have no more hashes than they have together with others. -/
theorem card_hashes_le (hits others : List Hit) :
    (hits.map Hit.hash).toFinset.card ≤ ((hits ++ others).map Hit.hash).toFinset.card := by
  rw [List.map_append, List.toFinset_append]
  exact Finset.card_le_card Finset.subset_union_left

/-- The hits of a list, offered one after the other, are all taken. -/
theorem gathered_offerHits (hrole : factory.role = .factory) (scanned inserted : Nat)
    (h : d.Gathered outside factory room done)
    (hroom : ((done ++ hits).map Hit.hash).toFinset.card ≤ room) :
    (offerHits outside factory scanned hits inserted d).2 =
        ⟨.completed, scanned, inserted + hits.length⟩ ∧
      (offerHits outside factory scanned hits inserted d).1.Gathered outside factory room
        (done ++ hits) := by
  induction hits generalizing d done inserted with
  | nil =>
    rw [List.append_nil]
    exact ⟨rfl, h⟩
  | cons hit hits ih =>
    rw [List.append_cons] at hroom ⊢
    obtain ⟨htaken, hgathered⟩ := h.offer hrole ((card_hashes_le _ hits).trans hroom)
    rw [offerHits_cons scanned inserted h.fresh htaken, List.length_cons, Nat.add_comm hits.length,
      ← Nat.add_assoc]
    exact ih (inserted + 1) hgathered hroom

/-- Work that is not superseded scores all paths. -/
theorem collectHits_of_fresh (hfresh : d.isStale = false) (needle : Needle) (number : Nat)
    (entries : List (Nat × Entry)) (scanned : Nat) :
    ix.collectHits needle number d entries scanned = (scanned + entries.length,
      some (entries.filterMap fun (offset, entry) => ix.hit? needle number offset entry)) := by
  have hgoes : ∀ count, d.pool.token.isStaleAt d.generations count = false := fun count => by
    rw [Token.isStaleAt, show d.pool.token.isStale d.generations = false from hfresh,
      Bool.and_false]
  induction entries generalizing scanned with
  | nil => rfl
  | cons x entries ih =>
    rw [collectHits, hgoes, if_neg (fun h => Bool.false_ne_true h.2), ih, List.length_cons]
    dsimp only
    rw [Nat.add_assoc, Nat.add_comm 1, Option.map_some, List.filterMap_cons]
    cases ix.hit? needle number x.1 x.2 <;> rfl

/-- A scan that is not superseded when it begins scores all paths of the shard and offers the
hits. -/
theorem tryScan_of_fresh (outside : Callback → Bool) (factory : Callback) (needle : Needle)
    (hrunning : ix.isShutdown = false) {shard : Nat} (hnumber : shard ≤ 65535)
    (hfresh : d.isStale = false) {store : Shard} (hstore : ix.shards[shard]? = some store) :
    ix.tryScan outside factory needle shard d =
      (offerHits outside factory store.entries.length (ix.hits needle shard store) 0 d).map
        id .ok := by
  rw [tryScan, hrunning, if_neg Bool.false_ne_true, if_neg (Nat.not_lt.mpr hnumber), hfresh,
    if_neg Bool.false_ne_true, hstore]
  dsimp only
  rw [collectHits_of_fresh hfresh, Nat.zero_add]
  rfl

/-- The hits of a shard with a number. -/
def hitsOf (ix : PathIndex) (needle : Needle) (shard : Nat) : List Hit :=
  (ix.shards[shard]?.map (ix.hits needle shard)).getD []

/-- The entries of a shard with a number. -/
def entriesOf (ix : PathIndex) (shard : Nat) : List (Nat × Entry) :=
  (ix.shards[shard]?.map Shard.entries).getD []

/-- **A scan of a shard is completed**: all hits go into the pool. -/
theorem gathered_scan (hrole : factory.role = .factory) (needle : Needle)
    (hrunning : ix.isShutdown = false) {shard : Nat} (hlt : shard < ix.shards.size)
    (hcount : ix.shards.size ≤ 65535) (h : d.Gathered outside factory room done)
    (hroom : ((done ++ ix.hitsOf needle shard).map Hit.hash).toFinset.card ≤ room) :
    (ix.scan outside factory needle shard d).2 =
        ⟨.completed, (ix.entriesOf shard).length, (ix.hitsOf needle shard).length⟩ ∧
      (ix.scan outside factory needle shard d).1.Gathered outside factory room
        (done ++ ix.hitsOf needle shard) := by
  have hget := Array.getElem?_eq_getElem hlt
  rw [hitsOf, hget, Option.map_some, Option.getD_some] at hroom ⊢
  rw [scan, tryScan_of_fresh outside factory needle hrunning (by omega) h.fresh hget, entriesOf,
    hget]
  have hoffered := gathered_offerHits hrole ix.shards[shard].entries.length 0 h hroom
  rw [Nat.zero_add] at hoffered
  exact hoffered

/-- **Scans of several shards, one after the other.** -/
theorem gathered_scanShards (hrole : factory.role = .factory) (needle : Needle)
    (hrunning : ix.isShutdown = false) (hcount : ix.shards.size ≤ 65535) {shards : List Nat}
    (hlt : ∀ shard ∈ shards, shard < ix.shards.size) (h : d.Gathered outside factory room done)
    (hroom : ((done ++ shards.flatMap (ix.hitsOf needle)).map Hit.hash).toFinset.card ≤ room) :
    (ix.scanShards outside factory needle shards d).2 = shards.map (fun shard =>
        ⟨.completed, (ix.entriesOf shard).length, (ix.hitsOf needle shard).length⟩) ∧
      (ix.scanShards outside factory needle shards d).1.Gathered outside factory room
        (done ++ shards.flatMap (ix.hitsOf needle)) := by
  induction shards generalizing d done with
  | nil =>
    rw [List.flatMap_nil, List.append_nil]
    exact ⟨rfl, h⟩
  | cons shard shards ih =>
    rw [List.flatMap_cons, ← List.append_assoc] at hroom ⊢
    obtain ⟨houtcome, hgathered⟩ := gathered_scan hrole needle hrunning
      (hlt shard List.mem_cons_self) hcount h ((card_hashes_le _ _).trans hroom)
    obtain ⟨houtcomes, hgathered⟩ :=
      ih (fun other hother => hlt other (List.mem_cons_of_mem _ hother)) hgathered hroom
    rw [scanShards, List.map_cons, ← houtcome, ← houtcomes]
    exact ⟨rfl, hgathered⟩

/-! ### What is kept of the hits -/

/-- **Hits that lead to paths**, with the scores and the hashes of these. Those with one hash come
in the order of their paths; those with different hashes may come in any order. -/
structure LeadTo (q : Search) (shown : Hit → String) (hits : List Hit) (found : List String) :
    Prop where
  relevancy_eq : ∀ hit ∈ hits, hit.relevancy = q.score (shown hit)
  hash_eq : ∀ hit ∈ hits, hit.hash = q.hash (shown hit)
  filter_eq : ∀ hash, (hits.filter (·.hash = hash)).map shown = found.filter (q.hash · = hash)

variable {shown : Hit → String} {found : List String} {best : List Hit} {hit : Hit}

theorem LeadTo.mem (h : LeadTo q shown hits found) (hmem : hit ∈ hits) : shown hit ∈ found := by
  have hin : shown hit ∈ found.filter (q.hash · = hit.hash) := by
    rw [← h.filter_eq]
    exact List.mem_map_of_mem (List.mem_filter.mpr ⟨hmem, decide_eq_true rfl⟩)
  exact List.mem_of_mem_filter hin

theorem LeadTo.exists_of_mem (h : LeadTo q shown hits found) {path : String}
    (hmem : path ∈ found) : ∃ hit ∈ hits, shown hit = path := by
  have hin : path ∈ found.filter (q.hash · = q.hash path) :=
    List.mem_filter.mpr ⟨hmem, decide_eq_true rfl⟩
  rw [← h.filter_eq] at hin
  obtain ⟨hit, hhit, hshown⟩ := List.mem_map.mp hin
  exact ⟨hit, List.mem_of_mem_filter hhit, hshown⟩

/-- A hit leads if its path is kept. -/
theorem LeadTo.leads_iff (h : LeadTo q shown hits found) (hnodup : found.Nodup)
    (hmem : hit ∈ hits) : hit.Leads hits ↔ q.isKept found (shown hit) = true := by
  let alike := hits.filter (·.hash = hit.hash)
  have hmax : (alike.map shown).argmax q.score = (alike.argmax Hit.relevancy).map shown :=
    argmax_map fun other hother =>
      (h.relevancy_eq other (List.mem_of_mem_filter hother)).symm
  have hinj : (alike.map shown).Nodup := by
    rw [h.filter_eq]
    exact hnodup.filter _
  rw [Search.isKept, ← h.hash_eq hit hmem, ← h.filter_eq, hmax, decide_eq_true_iff, Hit.Leads]
  constructor
  · intro hlead
    exact congrArg (Option.map shown) hlead
  · intro hkept
    obtain ⟨lead, hlead, hshown⟩ := Option.map_eq_some_iff.mp hkept
    have hin : hit ∈ alike := List.mem_filter.mpr ⟨hmem, decide_eq_true rfl⟩
    obtain rfl := List.inj_on_of_nodup_map hinj (List.argmax_mem hlead) hin hshown
    exact hlead

/-- **The hits that lead, in order, are the paths that are kept, in order.** -/
theorem LeadTo.sorted (h : LeadTo q shown hits found) (hnodup : found.Nodup)
    {slots : Roster Payload} (hgathers : Gathers factory hits slots best) :
    (best.mergeSort Hit.before).map shown =
      (found.filter (q.isKept found)).mergeSort q.before := by
  have hhits : ∀ hit ∈ best, hit ∈ hits := fun hit hhit => ((hgathers.mem_iff hit).mp hhit).mem
  have hhashes : ((best.map shown).map q.hash).Nodup := by
    have heq : best.map (q.hash ∘ shown) = best.map Hit.hash :=
      List.map_congr_left fun hit hhit => (h.hash_eq hit (hhits hit hhit)).symm
    rw [List.map_map, heq]
    exact hgathers.nodup
  have hperm : (best.map shown).Perm (found.filter (q.isKept found)) := by
    refine (List.perm_ext_iff_of_nodup hhashes.of_map (hnodup.filter _)).mpr fun path => ?_
    rw [List.mem_map, List.mem_filter]
    constructor
    · rintro ⟨hit, hhit, rfl⟩
      exact ⟨h.mem (hhits hit hhit),
        (h.leads_iff hnodup (hhits hit hhit)).mp ((hgathers.mem_iff hit).mp hhit)⟩
    · rintro ⟨hpath, hkept⟩
      obtain ⟨hit, hhit, rfl⟩ := h.exists_of_mem hpath
      exact ⟨hit, (hgathers.mem_iff hit).mpr ((h.leads_iff hnodup hhit).mpr hkept), rfl⟩
  have hbefore : ∀ a ∈ best, ∀ b ∈ best, a.before b = q.before (shown a) (shown b) := by
    intro a ha b hb
    rw [Hit.before, Search.before, h.relevancy_eq a (hhits a ha), h.relevancy_eq b (hhits b hb),
      h.hash_eq a (hhits a ha), h.hash_eq b (hhits b hb)]
  rw [List.map_mergeSort hbefore]
  exact q.mergeSort_before_eq hperm hhashes

/-! ### Going through the shards -/

theorem flatMap_eq_of_mem {α β : Type} {l : List α} {f : α → List β} {x : α} (hnodup : l.Nodup)
    (hmem : x ∈ l) (h : ∀ y ∈ l, y ≠ x → f y = []) : l.flatMap f = f x := by
  obtain ⟨before, after, rfl⟩ := List.append_of_mem hmem
  obtain ⟨-, hcons, hdisjoint⟩ := List.nodup_append.mp hnodup
  have hbefore : before.flatMap f = [] := List.flatMap_eq_nil_iff.mpr fun y hy =>
    h y (List.mem_append_left _ hy) (hdisjoint y hy x List.mem_cons_self)
  have hafter : after.flatMap f = [] := List.flatMap_eq_nil_iff.mpr fun y hy =>
    h y (List.mem_append_right _ (List.mem_cons_of_mem _ hy)) (by
      rintro rfl
      exact (List.nodup_cons.mp hcons).1 hy)
  rw [List.flatMap_append, List.flatMap_cons, hbefore, hafter, List.nil_append, List.append_nil]

theorem Listed.shardFor_eq (h : ix.Listed set paths) (hfits : ix.Fits q) (path : String) :
    set.shardFor path = q.shardFor path := by
  rw [← h.represents.shardFor_eq, shardFor, hashOf, hfits.digest_eq, shardCount, hfits.count_eq]
  rfl

/-- **The hits of one shard.** -/
theorem Listed.hitsOf (h : ix.Listed set paths) (hfits : ix.Fits q) {shard : Nat}
    (hlt : shard < ix.shards.size) :
    (ix.hitsOf q.needle shard).map (fun hit => ix.shownPath hit.ref) =
        (paths.filter q.isHit).filter (q.shardFor · = shard) ∧
      ∀ hit ∈ ix.hitsOf q.needle shard, ix.IsHitFor q hit := by
  obtain ⟨hpaths, hhits⟩ := hfits.hits hlt (h.lists shard hlt)
  rw [PathIndex.hitsOf, Array.getElem?_eq_getElem hlt, Option.map_some, Option.getD_some, hpaths]
  refine ⟨?_, hhits⟩
  rw [List.filter_filter, List.filter_filter]
  exact List.filter_congr fun path _ => by rw [h.shardFor_eq hfits, Bool.and_comm]

/-- What a shard has of the hits with a hash. -/
theorem Listed.filter_hitsOf (h : ix.Listed set paths) (hfits : ix.Fits q) {shard : Nat}
    (hlt : shard < ix.shards.size) (hash : UInt32) :
    ((ix.hitsOf q.needle shard).filter (·.hash = hash)).map (fun hit => ix.shownPath hit.ref) =
      ((paths.filter q.isHit).filter (q.hash · = hash)).filter (q.shardFor · = shard) := by
  obtain ⟨hpaths, hhits⟩ := h.hitsOf hfits hlt
  rw [List.filter_comm, ← hpaths, List.filter_map]
  refine congrArg _ (List.filter_congr fun hit hhit => ?_)
  rw [Function.comp_apply, ← (hhits hit hhit).hash_eq]
  rfl

/-- **The hits of all shards lead to the paths that match**, whatever the order of the shards. -/
theorem Listed.leadTo (h : ix.Listed set paths) (hfits : ix.Fits q) {order : List Nat}
    (horder : order.Perm (List.range ix.shards.size)) :
    LeadTo q (fun hit => ix.shownPath hit.ref) (order.flatMap (ix.hitsOf q.needle))
      (paths.filter q.isHit) := by
  have hlt : ∀ shard ∈ order, shard < ix.shards.size := fun shard hshard =>
    List.mem_range.mp (horder.mem_iff.mp hshard)
  have hhits : ∀ hit ∈ order.flatMap (ix.hitsOf q.needle), ix.IsHitFor q hit := by
    intro hit hhit
    obtain ⟨shard, hshard, hhit⟩ := List.mem_flatMap.mp hhit
    exact (h.hitsOf hfits (hlt shard hshard)).2 hit hhit
  refine ⟨fun hit hhit => (hhits hit hhit).relevancy_eq,
    fun hit hhit => (hhits hit hhit).hash_eq, fun hash => ?_⟩
  have howner : hash.toNat % q.config.shardCount < ix.shards.size := by
    rw [← hfits.count_eq, h.represents.count_eq]
    exact Nat.mod_lt _ h.represents.count_pos
  rw [List.filter_flatMap, List.map_flatMap,
    flatMap_eq_of_mem (horder.nodup_iff.mpr List.nodup_range)
      (horder.mem_iff.mpr (List.mem_range.mpr howner))]
  · rw [h.filter_hitsOf hfits howner, q.filter_shardFor, if_pos rfl]
  · intro shard hshard hne
    rw [h.filter_hitsOf hfits (hlt shard hshard), q.filter_shardFor, if_neg (Ne.symm hne)]

theorem shardCount_le_of_create [Memory] {config : IndexConfig} {scorer : Scorer}
    {digest : String → UInt64} (h : create config scorer digest = .ok ix) :
    config.shardCount ≤ 65535 := by
  have hcheck := (create_eq_ok_iff.mp h).1
  rw [IndexConfig.check] at hcheck
  split_ifs at hcheck
  omega

theorem fits_of_create [Memory] (h : create q.config q.scorer q.digest = .ok ix) : ix.Fits q := by
  obtain ⟨-, -, -, -, -, rfl⟩ := create_eq_ok_iff.mp h
  exact ⟨rfl, rfl, rfl, rfl, Array.size_replicate⟩

theorem Fits.alike (h : ix.Fits q) {ix' : PathIndex} (halike : Alike ix ix') : ix'.Fits q where
  common_eq := halike.common_eq.trans h.common_eq
  scorer_eq := halike.scorer_eq.trans h.scorer_eq
  threshold_eq := halike.threshold_eq.trans h.threshold_eq
  digest_eq := halike.digest_eq.trans h.digest_eq
  count_eq := halike.size_eq.trans h.count_eq

theorem LeadTo.card_le (h : LeadTo q shown hits found) :
    (hits.map Hit.hash).toFinset.card ≤ (found.map q.hash).toFinset.card := by
  refine Finset.card_le_card fun hash hhash => ?_
  rw [List.mem_toFinset, List.mem_map] at hhash ⊢
  obtain ⟨hit, hhit, rfl⟩ := hhash
  exact ⟨shown hit, h.mem hhit, (h.hash_eq hit hhit).symm⟩

/-- A desk with a new pool has gathered nothing. -/
theorem gathered_nil {token : Token} {generations : Generations} {registry : Registry}
    (hfresh : token.isStale generations = false) (number : RegistryId) (limits : PoolLimits)
    (hadmits : (registry.register (fun c => c == factory || outside c) factory).2.isSome = true) :
    Desk.Gathered { pool := .empty token number limits, registry, generations } outside factory
      (Pool.empty token number limits : Pool Payload).capacity [] where
  roster :=
    have hsheets : max 1 (min limits.maxSheets 65535) ≤ 65535 := by omega
    ⟨[], [], represents_nil hsheets registry, gathers_nil factory⟩
  admits := by
    have hpinned : ∀ c, (Pool.empty token number limits : Pool Payload).isPinned c = false :=
      fun c => Array.contains_empty
    rw [Pool.admits_iff]
    simp only [hpinned, Bool.or_false]
    exact hadmits
  fresh := hfresh

/-- What is noticed when a hit is shown: its path. -/
theorem filterMap_showing {resolve : IndexId → PathRef → Option String} {index : IndexId}
    (hresolve : ∀ ref, resolve index ref = ix.resolve? ref) (id : Nat) (label : String)
    (hit : Hit) :
    (hit.showing ⟨id, .showPath index label⟩).filterMap (fun call => (call.make resolve).1) =
      [.shown label (ix.shownPath hit.ref)] := by
  rw [shownPath, ← hresolve]
  rfl

end PathIndex

/-- The paths that an index keeps after some requests, in the order in which they were added. -/
def Search.pathsAfter [Memory] (q : Search) (ix : PathIndex) (requests : List PathRequest) :
    List String :=
  PathSet.listing { shardCount := q.config.shardCount, digest := q.digest } []
    (ix.noted requests)

section AddressSpace

open scoped Typeahead.Memory.AddressSpace

end AddressSpace

end Typeahead
