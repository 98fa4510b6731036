import Typeahead.Proofs.Alignment.Optimum
import Typeahead.Proofs.Paths.Resolving
import Typeahead.Proofs.Pool.Gathering
import Typeahead.Session.Event

/-!
# Searching a list of paths

What a query finds in an index, said without the index: go through all paths in the order in which
they were added, score each of them, keep of those with one hash the best, and sort. There are no
shards, no entries, no offsets and no pool here.

An index that holds the paths finds, shard by shard, hits for those of them that match, in order.
A hit leads back to its path as long as the index does not change.
-/

namespace Typeahead

/-! ### The reference -/

/-- **A search**: how an index is laid out, and the query. -/
structure Search where
  /-- The layout. -/
  config : IndexConfig
  /-- Scores the paths. -/
  scorer : Scorer
  /-- What tells paths apart. -/
  digest : String → UInt64
  /-- The query. -/
  needle : Needle

namespace Search

variable (q : Search)

/-- The directory that most paths lie under. -/
def common : Option CommonDirectory := q.config.commonPrefix.bind CommonDirectory.ofText?

/-- The hash of a path. -/
def hash (path : String) : UInt32 := (q.digest path).toUInt32

/-- The shard that a path belongs to. -/
def shardFor (path : String) : Nat := (q.hash path).toNat % q.config.shardCount

/-- The score of a path: that of the query as typed, from the end of the common directory on, and
if that does not match, that of the query without its blanks. -/
def score (path : String) : Score :=
  let typed := q.scorer.scoreLetters q.needle.primary path.toList (startIn q.common path)
  if typed.isMatch then typed
  else
    match q.needle.spaceless with
    | some letters => q.scorer.scoreLetters letters path.toList (startIn q.common path)
    | none => typed

/-- Whether a path matches, with a score above the configured one. -/
def isHit (path : String) : Bool :=
  (q.score path).isMatch && Score.clamp q.config.minRelevancy < q.score path

/-- Whether a path has the best score of those with its hash, and is the first of them. -/
def isKept (found : List String) (path : String) : Bool :=
  (found.filter fun other => q.hash other = q.hash path).argmax q.score = some path

/-- Whether a path comes before another one: it has the better score, or else the smaller hash. -/
def before (a b : String) : Bool :=
  q.score b < q.score a || q.score a = q.score b && q.hash a ≤ q.hash b

/-- **What is found among some paths**, the best first. -/
def ranked (paths : List String) : List String :=
  let found := paths.filter q.isHit
  (found.filter (q.isKept found)).mergeSort q.before

/-- **Paths with one hash are all in one shard.** -/
theorem filter_shardFor (found : List String) (hash : UInt32) (shard : Nat) :
    (found.filter (q.hash · = hash)).filter (q.shardFor · = shard) =
      if hash.toNat % q.config.shardCount = shard then found.filter (q.hash · = hash) else [] := by
  have howner : ∀ path ∈ found.filter (q.hash · = hash),
      q.shardFor path = hash.toNat % q.config.shardCount := by
    intro path hpath
    rw [shardFor, of_decide_eq_true (List.mem_filter.mp hpath).2]
  split_ifs with heq
  · rw [List.filter_eq_self]
    exact fun path hpath => decide_eq_true ((howner path hpath).trans heq)
  · rw [List.filter_eq_nil_iff]
    exact fun path hpath hin => heq ((howner path hpath).symm.trans (of_decide_eq_true hin))

/-- Paths with different hashes can be sorted in one way only. -/
theorem mergeSort_before_eq {paths others : List String} (hperm : paths.Perm others)
    (hnodup : (paths.map q.hash).Nodup) :
    paths.mergeSort q.before = others.mergeSort q.before := by
  refine mergeSort_eq_of_perm q.score (fun path => (q.hash path).toNat) (fun a b => ?_) hperm
    fun a ha b hb hnumber => ?_
  · rw [before, Bool.or_eq_true, Bool.and_eq_true, decide_eq_true_iff, decide_eq_true_iff,
      decide_eq_true_iff, UInt32.le_iff_toNat_le]
  · exact List.inj_on_of_nodup_map hnodup ha hb (UInt32.toNat_inj.mp hnumber)

end Search

/-! ### The hits of an index -/

namespace PathIndex

variable {ix : PathIndex} {q : Search} {set : PathSet} {paths : List String} {path : String}
variable {shard offset : Nat} {hash : UInt32} {es : List Entry}

/-- An index is laid out as a search expects it. -/
structure Fits (ix : PathIndex) (q : Search) : Prop where
  common_eq : ix.common = q.common
  scorer_eq : ix.scorer = q.scorer
  threshold_eq : ix.threshold = Score.clamp q.config.minRelevancy
  digest_eq : ix.digest = q.digest
  count_eq : ix.shards.size = q.config.shardCount

/-- The path that is shown for a reference. -/
def shownPath (ix : PathIndex) (ref : PathRef) : String := (ix.resolve? ref).getD rootPath

theorem Fits.scoreEither_eq (h : ix.Fits q) (path : String) :
    ix.scorer.scoreEither q.needle path (startIn ix.common path) = q.score path := by
  rw [Scorer.scoreEither_eq, h.scorer_eq, h.common_eq]
  rfl

theorem isMatch_of_clamp_lt {total : Int} {s : Score} (h : Score.clamp total < s) :
    s.isMatch = true := by
  have hlt : (Score.clamp total).value < s.value := h
  rw [Score.isMatch, bne_iff_ne]
  rw [Score.clamp] at hlt
  dsimp only at hlt
  omega

/-- The entry of a path is a hit if the path is one. -/
theorem Fits.hit?_entryOf (h : ix.Fits q) (shard offset : Nat) (hash : UInt32) (path : String) :
    ix.hit? q.needle shard offset (entryOf ix.common hash path) =
      if q.isHit path then some ⟨q.score path, shard, offset, q.digest path⟩ else none := by
  rw [hit?, path?_entryOf, Option.bind_eq_bind, Option.bind_some]
  dsimp only
  rw [h.scoreEither_eq, h.threshold_eq, h.digest_eq, Search.isHit]
  by_cases habove : Score.clamp q.config.minRelevancy < q.score path
  · rw [if_pos habove, isMatch_of_clamp_lt habove, decide_eq_true habove, Bool.and_self, if_pos rfl]
  · rw [if_neg habove, decide_eq_false habove, Bool.and_false, if_neg Bool.false_ne_true]

/-- A reference to the entry of a path leads back to the path. -/
theorem resolve?_of_mem (hlt : shard < ix.shards.size) (h : ix.shards[shard].Spells es)
    (hmem : (offset, entryOf ix.common (ix.hashOf path) path) ∈ Arena.alive 0 es) :
    ix.resolve? ⟨shard, offset, ix.digest path⟩ = some path := by
  refine Option.bind_eq_some_iff.mpr ⟨_, Array.getElem?_eq_getElem hlt,
    Option.bind_eq_some_iff.mpr ⟨_, h.resolve?_of_mem hmem ?_,
      Option.bind_eq_some_iff.mpr ⟨_, path?_entryOf .., rfl⟩⟩⟩
  dsimp only
  rw [path?_entryOf]
  exact beq_self_eq_true _

/-- A hit that leads to a path of the index, with the score and the hash of that path. -/
structure IsHitFor (ix : PathIndex) (q : Search) (hit : Hit) : Prop where
  resolves : ix.resolve? hit.ref = some (ix.shownPath hit.ref)
  relevancy_eq : hit.relevancy = q.score (ix.shownPath hit.ref)
  hash_eq : hit.ref.hash = q.hash (ix.shownPath hit.ref)

/-- The hits of some entries of a shard are those of their paths that match. -/
theorem Fits.filterMap_hit? (h : ix.Fits q) (hlt : shard < ix.shards.size)
    (hspells : ix.shards[shard].Spells es) {entries : List (Nat × Entry)}
    (hsub : ∀ x ∈ entries, x ∈ Arena.alive 0 es)
    (hpaths : entries.map Prod.snd =
      paths.map fun path => entryOf ix.common (ix.hashOf path) path) :
    (entries.filterMap fun (offset, entry) => ix.hit? q.needle shard offset entry).map
        (fun hit => ix.shownPath hit.ref) = paths.filter q.isHit ∧
      ∀ hit ∈ entries.filterMap fun (offset, entry) => ix.hit? q.needle shard offset entry,
        ix.IsHitFor q hit := by
  induction entries generalizing paths with
  | nil =>
    obtain rfl := List.map_eq_nil_iff.mp hpaths.symm
    exact ⟨rfl, by rintro hit ⟨⟩⟩
  | cons x entries ih =>
    obtain ⟨path, rest, rfl, hentry, hrest⟩ := List.map_eq_cons_iff.mp hpaths.symm
    obtain ⟨offset, entry⟩ := x
    obtain rfl : entryOf ix.common (ix.hashOf path) path = entry := hentry
    obtain ⟨hmap, hhits⟩ := ih (fun x hx => hsub x (List.mem_cons_of_mem _ hx)) hrest.symm
    have hresolve := resolve?_of_mem hlt hspells (hsub _ List.mem_cons_self)
    have hshown : ix.shownPath ⟨shard, offset, ix.digest path⟩ = path := by
      rw [shownPath, hresolve, Option.getD_some]
    rw [h.digest_eq] at hresolve hshown
    have hhead := h.hit?_entryOf shard offset (ix.hashOf path) path
    rw [List.filterMap_cons, List.filter_cons]
    dsimp only
    rw [hhead]
    split_ifs with hhit
    · refine ⟨by rw [List.map_cons, hmap, hshown], List.forall_mem_cons.mpr ⟨?_, hhits⟩⟩
      exact ⟨by rw [hshown, hresolve], by rw [hshown], by rw [hshown]; rfl⟩
    · exact ⟨hmap, hhits⟩

/-- **The hits of a shard are those of its paths that match**, in order. -/
theorem Fits.hits (h : ix.Fits q) (hlt : shard < ix.shards.size)
    (hlists : ix.shards[shard].Lists ix.common ix.hashOf paths) :
    (ix.hits q.needle shard ix.shards[shard]).map (fun hit => ix.shownPath hit.ref) =
        paths.filter q.isHit ∧
      ∀ hit ∈ ix.hits q.needle shard ix.shards[shard], ix.IsHitFor q hit := by
  obtain ⟨es, hspells⟩ := hlists.valid
  rw [PathIndex.hits, hspells.entries_eq]
  exact h.filterMap_hit? hlt hspells (fun _ hx => hx)
    (hspells.contents_eq.symm.trans hlists.contents_eq)

end PathIndex

end Typeahead
