import Typeahead.Proofs.Paths.Scanning

/-!
# Paths that hide others

An index holds paths with the same hash side by side. But a scan offers each path under its hash,
and a pool takes offers for the same thing to be rivals. So of the paths with one hash that match
only one is shown, the one with the best score, or the first of these. The others are hidden.
Nothing else hides a path: if the pool has room for all paths and everything is asked for, then
every path that matches and is not hidden is shown, once.
-/

namespace Typeahead

theorem idxOf_filter_le_iff {α : Type} [DecidableEq α] {l : List α} {p : α → Bool} {a b : α}
    (ha : p a = true) (hb : p b = true) :
    (l.filter p).idxOf a ≤ (l.filter p).idxOf b ↔ l.idxOf a ≤ l.idxOf b := by
  induction l with
  | nil => rfl
  | cons x l ih =>
    rw [List.filter_cons]
    by_cases hxa : x = a
    · subst hxa
      simp [ha]
    by_cases hxb : x = b
    · subst hxb
      simp [hb, List.idxOf_cons_ne _ hxa]
    split_ifs
    · rw [List.idxOf_cons_ne _ hxa, List.idxOf_cons_ne _ hxb, List.idxOf_cons_ne _ hxa,
        List.idxOf_cons_ne _ hxb, Nat.succ_le_succ_iff, Nat.succ_le_succ_iff, ih]
    · rw [List.idxOf_cons_ne _ hxa, List.idxOf_cons_ne _ hxb, Nat.succ_le_succ_iff, ih]

namespace Search

variable {q : Search} {paths found : List String} {path other : String}

/-- **A path hides another one with its hash**: it matches, and it has the better score, or the same
score and was there earlier. -/
def Hides (q : Search) (paths : List String) (other path : String) : Prop :=
  other ∈ paths ∧ q.isHit other = true ∧ q.hash other = q.hash path ∧
    (q.score path < q.score other ∨
      q.score other = q.score path ∧ paths.idxOf other < paths.idxOf path)

instance : Decidable (q.Hides paths other path) :=
  inferInstanceAs (Decidable (other ∈ paths ∧ q.isHit other = true ∧ _ ∧ (_ ∨ _)))

theorem isKept_iff : q.isKept found path = true ↔
    path ∈ found ∧ ∀ other ∈ found, q.hash other = q.hash path →
      (q.score other).value ≤ (q.score path).value ∧
        ((q.score path).value ≤ (q.score other).value →
          found.idxOf path ≤ found.idxOf other) := by
  have hvalue : ∀ l : List String, l.argmax q.score = l.argmax fun path => (q.score path).value :=
    fun _ => rfl
  let alike (other : String) : Bool := q.hash other = q.hash path
  have hself : alike path = true := decide_eq_true rfl
  rw [isKept, decide_eq_true_iff, hvalue, List.argmax_eq_some_iff]
  constructor
  · rintro ⟨hmem, hbest, hfirst⟩
    refine ⟨List.mem_of_mem_filter hmem, fun other hother hhash => ?_⟩
    have halike : alike other = true := decide_eq_true hhash
    have hin := List.mem_filter.mpr ⟨hother, halike⟩
    exact ⟨hbest other hin, fun hle =>
      (idxOf_filter_le_iff hself halike).mp (hfirst other hin hle)⟩
  · rintro ⟨hmem, hbest⟩
    refine ⟨List.mem_filter.mpr ⟨hmem, hself⟩, fun other hin => ?_, fun other hin hle => ?_⟩
    all_goals
      obtain ⟨hother, halike⟩ := List.mem_filter.mp hin
      obtain ⟨hle', hfirst⟩ := hbest other hother (of_decide_eq_true halike)
    · exact hle'
    · exact (idxOf_filter_le_iff hself halike).mpr (hfirst hle)

/-- **What is found are the paths that match and are not hidden.** -/
theorem mem_ranked_iff : path ∈ q.ranked paths ↔
    path ∈ paths ∧ q.isHit path = true ∧ ∀ other, ¬ q.Hides paths other path := by
  rw [ranked, List.mem_mergeSort, List.mem_filter, isKept_iff, List.mem_filter]
  constructor
  · rintro ⟨-, ⟨hpath, hhit⟩, hbest⟩
    refine ⟨hpath, hhit, ?_⟩
    rintro other ⟨hother, hother', hhash, hbetter⟩
    obtain ⟨hle, hfirst⟩ := hbest other (List.mem_filter.mpr ⟨hother, hother'⟩) hhash
    rcases hbetter with hlt | ⟨hsame, hearlier⟩
    · exact Int.not_lt.mpr hle hlt
    · have hlater := (idxOf_filter_le_iff hhit hother').mp (hfirst (by rw [hsame]))
      exact Nat.not_lt.mpr hlater hearlier
  · rintro ⟨hpath, hhit, hhidden⟩
    refine ⟨⟨hpath, hhit⟩, ⟨hpath, hhit⟩, fun other hin hhash => ?_⟩
    obtain ⟨hother, hother'⟩ := List.mem_filter.mp hin
    have hle : (q.score other).value ≤ (q.score path).value :=
      Int.not_lt.mp fun hlt => hhidden other ⟨hother, hother', hhash, .inl hlt⟩
    refine ⟨hle, fun hle' => (idxOf_filter_le_iff hhit hother').mpr (Nat.not_lt.mp fun hlt => ?_)⟩
    exact hhidden other
      ⟨hother, hother', hhash, .inr ⟨Score.ext (Int.le_antisymm hle hle'), hlt⟩⟩

theorem nodup_ranked (hnodup : paths.Nodup) : (q.ranked paths).Nodup :=
  (List.mergeSort_perm ..).nodup_iff.mpr ((hnodup.filter _).filter _)

theorem length_ranked_le (q : Search) (paths : List String) :
    (q.ranked paths).length ≤ paths.length := by
  rw [ranked, List.length_mergeSort]
  exact (List.length_filter_le ..).trans (List.length_filter_le ..)

end Search

namespace PathIndex

variable {ix : PathIndex} {q : Search} {set : PathSet} {paths : List String}
variable {outside : Callback → Bool} {registry : Registry} {token : Token}
variable {generations : Generations} {id : Nat} {index : IndexId} {label : String}
variable {resolve : IndexId → PathRef → Option String}

/-- An index has as many paths as are listed. -/
theorem Listed.size_eq (h : ix.Listed set paths) : ix.size = paths.length := by
  rw [h.represents.size, ← List.toFinset_card_of_nodup h.nodup]
  refine congrArg Finset.card (Finset.ext fun path => ?_)
  rw [List.mem_toFinset, h.mem_iff]

/-- **All that a search of the paths finds is shown** if a new pool has room for all paths. -/
theorem Listed.show_all (h : ix.Listed set paths) (hfits : ix.Fits q)
    (hcount : ix.shards.size ≤ 65535) (hrunning : ix.isShutdown = false)
    (hfresh : token.isStale generations = false) (number : RegistryId) (limits : PoolLimits)
    (hroom : ix.size ≤ (Pool.empty token number limits : Pool Payload).capacity)
    (hadmits : (registry.register (fun c => c == ⟨id, .showPath index label⟩ || outside c)
      ⟨id, .showPath index label⟩).2.isSome = true)
    (hresolve : ∀ ref, resolve index ref = ix.resolve? ref) {order : List Nat}
    (horder : order.Perm (List.range ix.shards.size)) :
    ((ix.scanShards outside ⟨id, .showPath index label⟩ q.needle order
        { pool := .empty token number limits, registry, generations }).1.materialize
          (2 ^ 64 - 1)).2.filterMap (fun call => (call.make resolve).1) =
      (q.ranked paths).map (.shown label ·) := by
  have hlead := h.leadTo hfits horder
  rw [h.size_eq] at hroom
  have hhashes := calc
    _ ≤ ((paths.filter q.isHit).map q.hash).toFinset.card := hlead.card_le
    _ ≤ (paths.filter q.isHit).length := by
      simpa using List.toFinset_card_le ((paths.filter q.isHit).map q.hash)
    _ ≤ paths.length := List.length_filter_le ..
  obtain ⟨-, ⟨slots, best, hrepresents, hgathers⟩, -, -⟩ :=
    gathered_scanShards rfl q.needle hrunning hcount
      (fun shard hshard => List.mem_range.mp (horder.mem_iff.mp hshard))
      (gathered_nil hfresh number limits hadmits) (hhashes.trans hroom)
  have hranked : q.ranked paths =
      (best.mergeSort Hit.before).map fun hit => ix.shownPath hit.ref :=
    (hlead.sorted (h.nodup.filter _) hgathers).symm
  have hmany : (best.mergeSort Hit.before).length ≤ 2 ^ 64 - 1 := by
    have hlength : (q.ranked paths).length = (best.mergeSort Hit.before).length := by
      rw [hranked, List.length_map]
    have hcapacity : (Pool.empty token number limits : Pool Payload).capacity ≤ 65535 * 512 :=
      Nat.mul_le_mul_right 512 (by omega : max 1 (min limits.maxSheets 65535) ≤ 65535)
    have hle := q.length_ranked_le paths
    omega
  have hcalls := (hrepresents.materialize (2 ^ 64 - 1)).2.trans (hgathers.materialize (2 ^ 64 - 1))
  rw [List.take_of_length_le hmany] at hcalls
  rw [hranked, List.map_map]
  refine (congrArg (List.filterMap _) hcalls).trans ?_
  rw [List.filterMap_flatMap]
  simp only [filterMap_showing hresolve]
  exact List.flatMap_pure_eq_map _ _

/-- **Every path that matches is shown, unless another path with its hash hides it.** Whatever has
been asked of an index that has not been shut down, all its shards are scanned, in any order, into a
new pool that has room for all paths and is not superseded, and the registry has a slot for the
callback that shows. If then everything is shown, these are the paths of the index that match and
are not hidden, each once. So a path is always shown if no other path that matches has its hash. -/
theorem shows_all_but_hidden [Memory] (hcreate : create q.config q.scorer q.digest = .ok ix)
    (requests : List PathRequest) (hrunning : (ix.after requests).isShutdown = false)
    (hfresh : token.isStale generations = false) (number : RegistryId) (limits : PoolLimits)
    (hroom : (ix.after requests).size ≤ (Pool.empty token number limits : Pool Payload).capacity)
    (hadmits : (registry.register (fun c => c == ⟨id, .showPath index label⟩ || outside c)
      ⟨id, .showPath index label⟩).2.isSome = true)
    (hresolve : ∀ ref, resolve index ref = (ix.after requests).resolve? ref) :
    let paths := q.pathsAfter ix requests
    let desk : Desk := { pool := .empty token number limits, registry, generations }
    let scan (order : List Nat) :=
      (ix.after requests).scanShards outside ⟨id, .showPath index label⟩ q.needle order desk
    (∀ path, path ∈ paths ↔ (ix.after requests).contains path = true) ∧
      (ix.after requests).scanAll outside ⟨id, .showPath index label⟩ q.needle desk =
        scan (List.range q.config.shardCount) ∧
      ∃ found : List String,
        (∀ order : List Nat, order.Perm (List.range q.config.shardCount) →
          ((scan order).1.materialize (2 ^ 64 - 1)).2.filterMap
            (fun call => (call.make resolve).1) = found.map (.shown label ·)) ∧
        found.Nodup ∧
        ∀ path, path ∈ found ↔
          path ∈ paths ∧ q.isHit path = true ∧ ∀ other, ¬ q.Hides paths other path := by
  intro paths desk scan
  obtain ⟨set, hlisted⟩ := (listed_of_create hcreate).after requests
  have hfits : (ix.after requests).Fits q :=
    (fits_of_create hcreate).alike (ix.alike_after requests)
  have hcount : (ix.after requests).shards.size ≤ 65535 :=
    hfits.count_eq ▸ shardCount_le_of_create hcreate
  refine ⟨fun path => ?_, ?_, q.ranked paths, fun order horder => ?_,
    Search.nodup_ranked hlisted.nodup, fun path => Search.mem_ranked_iff⟩
  · rw [hlisted.represents.contains, decide_eq_true_iff]
    exact hlisted.mem_iff path
  · rw [scanAll, shardCount, hfits.count_eq]
  · exact hlisted.show_all hfits hcount hrunning hfresh number limits hroom hadmits hresolve
      (hfits.count_eq ▸ horder)

section AddressSpace

open scoped Typeahead.Memory.AddressSpace

/-- Three paths match, and two of them have one hash. -/
theorem shows_all_but_hidden_small :
    let ix := small.after [.add "/mu", .add "/dmcmu", .add "/muzof"]
    let factory : Callback := ⟨0, .showPath 0 "m"⟩
    let scanned := ix.scanAll (fun _ => false) factory (.prepare "mu")
      { pool := .empty .never 0 ⟨1⟩, registry := .standard, generations := {} }
    ∃ found : List String,
      (scanned.1.materialize (2 ^ 64 - 1)).2.filterMap
          (fun call => (call.make fun _ => ix.resolve?).1) = found.map (.shown "m" ·) ∧
        found.Nodup ∧ "/mu" ∈ found ∧ "/dmcmu" ∉ found := by
  intro ix factory scanned
  let q : Search :=
    ⟨{ shardCount := 1, initialSlots := 1 }, .standard, fingerprint, .prepare "mu"⟩
  have hpaths : q.pathsAfter small [.add "/mu", .add "/dmcmu", .add "/muzof"] =
      ["/mu", "/dmcmu", "/muzof"] := by
    decide +kernel
  have hadmits :
      (Registry.standard.register (fun c => c == factory || false) factory).2.isSome = true := by
    decide +kernel
  have hcreate : create q.config q.scorer q.digest = .ok small := create_small
  have hfresh : Token.never.isStale {} = false := rfl
  let resolve : IndexId → PathRef → Option String := fun _ => ix.resolve?
  have hresolve : ∀ ref, resolve 0 ref = ix.resolve? ref := fun _ => rfl
  obtain ⟨-, hall, found, hscans, hnodup, hmem⟩ := shows_all_but_hidden hcreate _
    (by decide +kernel) hfresh 0 ⟨1⟩ (by decide +kernel) hadmits hresolve
  have hevents := hscans _ (.refl _)
  rw [← hall] at hevents
  rw [hpaths] at hmem
  have hfree : ∀ other ∈ ["/mu", "/dmcmu", "/muzof"],
      ¬ q.Hides ["/mu", "/dmcmu", "/muzof"] other "/mu" := by
    decide +kernel
  have hhides : q.Hides ["/mu", "/dmcmu", "/muzof"] "/muzof" "/dmcmu" := by decide +kernel
  refine ⟨found, hevents, hnodup, (hmem "/mu").mpr ⟨by decide, by decide +kernel, ?_⟩, ?_⟩
  · exact fun other hother => hfree other hother.1 hother
  · exact fun hfound => ((hmem "/dmcmu").mp hfound).2.2 _ hhides

/-- Two paths match and have one hash. Only the one with the better score is shown, although the
pool has room for both. -/
theorem hides_match :
    let ix := small.after [.add "/dmcmu", .add "/muzof"]
    let factory : Callback := ⟨0, .showPath 0 "m"⟩
    let pool : Pool Payload := .empty .never 0 ⟨1⟩
    let scanned := ix.scanAll (fun _ => false) factory (.prepare "mu")
      { pool, registry := .standard, generations := {} }
    ix.contains "/dmcmu" = true ∧ ix.contains "/muzof" = true ∧ ix.size ≤ pool.capacity ∧
      ix.threshold < ix.scorer.scoreEither (.prepare "mu") "/dmcmu" 0 ∧
      ix.threshold < ix.scorer.scoreEither (.prepare "mu") "/muzof" 0 ∧
      (scanned.1.materialize (2 ^ 64 - 1)).2.filterMap
          (fun call => (call.make fun _ => ix.resolve?).1) = [.shown "m" "/muzof"] := by
  intro ix factory pool scanned
  let q : Search :=
    ⟨{ shardCount := 1, initialSlots := 1 }, .standard, fingerprint, .prepare "mu"⟩
  have hpaths : q.pathsAfter small [.add "/dmcmu", .add "/muzof"] = ["/dmcmu", "/muzof"] := by
    decide +kernel
  obtain ⟨set, hlisted⟩ : ∃ set, ix.Listed set ["/dmcmu", "/muzof"] := by
    rw [← hpaths]
    exact (listed_of_create create_small).after _
  have hfound : ["/dmcmu", "/muzof"].filter q.isHit = ["/dmcmu", "/muzof"] := by decide +kernel
  have hkept : ["/dmcmu", "/muzof"].filter (q.isKept ["/dmcmu", "/muzof"]) = ["/muzof"] := by
    decide +kernel
  have hranked : q.ranked ["/dmcmu", "/muzof"] = ["/muzof"] := by
    rw [Search.ranked, hfound, hkept]
    exact List.mergeSort_of_pairwise (List.pairwise_singleton ..)
  have hadmits :
      (Registry.standard.register (fun c => c == factory || false) factory).2.isSome = true := by
    decide +kernel
  have hfits : ix.Fits q := (fits_of_create create_small).alike (small.alike_after _)
  have hfresh : Token.never.isStale {} = false := rfl
  have hsize : ix.size ≤ pool.capacity := by decide +kernel
  let resolve : IndexId → PathRef → Option String := fun _ => ix.resolve?
  have hresolve : ∀ ref, resolve 0 ref = ix.resolve? ref := fun _ => rfl
  have hshown := hlisted.show_all hfits (by decide +kernel) (by decide +kernel) hfresh 0 ⟨1⟩ hsize
    hadmits hresolve (.refl _)
  rw [hranked] at hshown
  exact ⟨by decide +kernel, by decide +kernel, hsize, by decide +kernel, by decide +kernel, hshown⟩

end AddressSpace

end PathIndex

end Typeahead
