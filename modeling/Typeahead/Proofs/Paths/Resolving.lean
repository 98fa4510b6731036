import Typeahead.Paths.Scan
import Typeahead.Proofs.Paths.Order

/-!
# Resolving references

A reference remembers where the entry of a path was and the fingerprint of the path. Where an entry
begins, reading gives that entry, so a reference that is looked up there, or in the table, yields a
path that is in the index or nothing. But entries move when a shard is written anew, and then the
remembered offset may lie inside an entry. Whatever the bytes there spell is taken for an entry, if
only it is not marked as removed and its path has the fingerprint. So a path with bytes chosen to
spell the entry of another path brings that one back after it has been removed.
-/

namespace Typeahead

/-! ### Where entries begin -/

/-- An entry begins at an offset, or the last one ends there. -/
inductive Arena.BeginsAt (a : Arena) : Nat → Prop where
  /-- The first entry begins at the beginning. -/
  | first : a.BeginsAt 0
  /-- The next entry begins where an entry ends. -/
  | next {offset : Nat} {e : Entry} (before : a.BeginsAt offset)
      (read : a.entryAt? offset = some e) : a.BeginsAt (offset + e.size)

namespace Arena

variable {a : Arena} {es : List Entry} {e : Entry} {offset : Nat}

/-- What is read where entries end is the next one, if there is any. -/
theorem Spells.exists_of_read {pre post : List Entry} (h : a.Spells (pre ++ post))
    (hread : a.entryAt? (extent pre) = some e) : ∃ post', post = e :: post' := by
  cases post with
  | nil =>
    rw [List.append_nil] at h
    rw [← h.size_bytes, entryAt?_size] at hread
    cases hread
  | cons e' post =>
    obtain rfl :=
      Option.some.inj (hread.symm.trans (h.entryAt?_eq (mem_located_extent pre post e')))
    exact ⟨post, rfl⟩

/-- Entries begin where the entries before them end. -/
theorem Spells.beginsAt_iff (h : a.Spells es) :
    a.BeginsAt offset ↔ ∃ pre post, es = pre ++ post ∧ offset = extent pre := by
  constructor
  · intro hbegins
    induction hbegins with
    | first => exact ⟨[], es, rfl, rfl⟩
    | @next offset e _ hread ih =>
      obtain ⟨pre, post, rfl, rfl⟩ := ih
      obtain ⟨post', rfl⟩ := h.exists_of_read hread
      refine ⟨pre ++ [e], post', by rw [List.append_cons], ?_⟩
      rw [extent_append, extent_cons, extent_nil, Nat.add_zero]
  · rintro ⟨pre, post, rfl, rfl⟩
    induction pre using List.reverseRecOn generalizing post with
    | nil => exact .first
    | append_singleton pre e ih =>
      rw [List.append_assoc] at h
      rw [extent_append, extent_cons, extent_nil, Nat.add_zero]
      exact .next (ih _ h) (h.entryAt?_eq (mem_located_extent pre post e))

/-- **What is read where an entry begins is one of the entries.** -/
theorem Spells.mem_located_of_beginsAt (h : a.Spells es) (hbegins : a.BeginsAt offset)
    (hread : a.entryAt? offset = some e) : (offset, e) ∈ located 0 es := by
  obtain ⟨pre, post, rfl, rfl⟩ := h.beginsAt_iff.mp hbegins
  obtain ⟨post', rfl⟩ := h.exists_of_read hread
  exact mem_located_extent pre post' e

end Arena

/-! ### Resolving in a shard -/

namespace Shard

open Typeahead.Arena

variable {s : Shard} {es : List Entry} {e : Entry} {offset : Nat} {hash : UInt32}
variable {test : Entry → Bool}

/-- Whether what is read at an offset is a live entry that has the hash and passes a test. -/
def passesAt (s : Shard) (hash : UInt32) (test : Entry → Bool) (offset : Nat) : Bool :=
  match s.arena.entryAt? offset with
  | none => false
  | some entry => !entry.dead && entry.hash == hash && test entry

theorem passesAt_iff (hread : s.arena.entryAt? offset = some e) :
    s.passesAt hash test offset = true ↔ e.dead = false ∧ e.hash = hash ∧ test e = true := by
  rw [passesAt, hread]
  simp [and_assoc]

theorem resolve?_eq (s : Shard) (hash : UInt32) (offset : Nat) (test : Entry → Bool) :
    s.resolve? hash offset test =
      if s.passesAt hash test offset then s.arena.entryAt? offset
      else (s.table.find? hash (s.passesAt hash test)).bind s.arena.entryAt? := rfl

/-- A live entry that passes is found where it is. -/
theorem Spells.resolve?_of_mem (h : s.Spells es) (hmem : (offset, e) ∈ alive 0 es)
    (htest : test e = true) : s.resolve? e.hash offset test = some e := by
  have hread := h.entryAt?_eq hmem
  rw [resolve?_eq, if_pos ((passesAt_iff hread).mpr ⟨(mem_alive.mp hmem).2, rfl, htest⟩), hread]

/-- What is read where an entry begins is listed if it is live. -/
theorem Spells.mem_entries_of_beginsAt (h : s.Spells es) (hbegins : s.arena.BeginsAt offset)
    (hread : s.arena.entryAt? offset = some e) (hlive : e.dead = false) :
    (offset, e) ∈ s.entries := by
  rw [h.entries_eq, mem_alive]
  exact ⟨h.arena.mem_located_of_beginsAt hbegins hread, hlive⟩

/-- What is found passes. It is one of the entries, unless it was read from where none begins. -/
theorem Spells.resolve?_eq_some (h : s.Spells es) (hfound : s.resolve? hash offset test = some e) :
    test e = true ∧ e.hash = hash ∧ (e ∈ s.contents ∨ ¬ s.arena.BeginsAt offset) := by
  rw [resolve?_eq] at hfound
  split_ifs at hfound with hthere
  · obtain ⟨hlive, hhash, htest⟩ := (passesAt_iff hfound).mp hthere
    refine ⟨htest, hhash, or_iff_not_imp_right.mpr fun hbegins => ?_⟩
    have hmem := h.arena.mem_located_of_beginsAt (not_not.mp hbegins) hfound
    exact h.mem_contents.mpr ⟨offset, mem_alive.mpr ⟨hmem, hlive⟩⟩
  · obtain ⟨offset', hfind, hread⟩ := Option.bind_eq_some_iff.mp hfound
    rcases ProbeTable.find?_cases h.sound.linked hash _ with
      ⟨hnone, -⟩ | ⟨offset'', hsome, hmem, haccept⟩
    · rw [hnone] at hfind
      cases hfind
    · obtain rfl := Option.some.inj (hsome.symm.trans hfind)
      obtain ⟨hlive, hhash, htest⟩ := (passesAt_iff hread).mp haccept
      obtain ⟨e', halive, -⟩ := h.exists_of_mem_table hmem
      obtain rfl := Option.some.inj (hread.symm.trans (h.entryAt?_eq halive))
      exact ⟨htest, hhash, .inl (h.mem_contents.mpr ⟨_, halive⟩)⟩

end Shard

/-! ### Resolving in an index -/

/-- Where the part of a path begins that is not common: after the common directory if the path
lies under it, and otherwise at the beginning. -/
def startIn (d : Option CommonDirectory) (path : String) : Nat :=
  match d with
  | none => 0
  | some directory =>
    if (directory.path ++ "/").toList.isPrefixOf path.toList then directory.length else 0

theorem rest?_append (start text : List Char) :
    CommonDirectory.rest? start (start ++ text) = some text := by
  induction start with
  | nil => cases text <;> rfl
  | cons c start ih => rw [List.cons_append, CommonDirectory.rest?, if_pos rfl, ih]

/-- A path has a rest under a directory exactly if it lies under it. -/
theorem CommonDirectory.isSome_strip? (d : CommonDirectory) (path : String) :
    (d.strip? path).isSome = (d.path ++ "/").toList.isPrefixOf path.toList := by
  rw [Bool.eq_iff_iff, List.isPrefixOf_iff_prefix, String.toList_append, strip?]
  constructor
  · intro hsome
    split at hsome
    · rename_i rest hrest
      refine ⟨rest, ?_⟩
      rw [rest?_eq_some hrest, List.append_assoc]
      rfl
    · cases hsome
  · rintro ⟨rest, hrest⟩
    rw [← hrest, List.append_assoc, rest?_append]
    rfl

theorem fromUTF8?_toUTF8 (text : String) : String.fromUTF8? text.toUTF8 = some text :=
  dif_pos text.isValidUTF8

/-- **The path of an entry is the path that was stored**, with the number of characters in front of
its stored part. -/
theorem path?_entryOf (d : Option CommonDirectory) (hash : UInt32) (path : String) :
    (entryOf d hash path).path? d = some (path, startIn d path) := by
  have hwhole : (Shard.live hash true path.toUTF8).path? d = some (path, 0) := by
    rw [Entry.path?, Shard.live, fromUTF8?_toUTF8]
    rfl
  rw [entryOf, StoredPath.of]
  cases d with
  | none => exact hwhole
  | some directory =>
    have hsome := directory.isSome_strip? path
    rw [Option.bind_some, startIn]
    cases hstrip : directory.strip? path with
    | none =>
      rw [hstrip] at hsome
      rw [← hsome]
      exact hwhole
    | some rest =>
      rw [hstrip] at hsome
      rw [← hsome, Entry.path?, Shard.live, fromUTF8?_toUTF8]
      change some (directory.path ++ rest, directory.length) = _
      rw [directory.append_of_strip? hstrip]
      rfl

namespace PathIndex

variable {ix : PathIndex} {set : PathSet} {path : String} {ref : PathRef}

/-- What is resolved has the fingerprint of its reference. It is in the set, unless the reference
goes to a place where no entry begins. -/
theorem Represents.resolve?_eq_some (h : ix.Represents set)
    (hresolve : ix.resolve? ref = some path) :
    ix.digest path = ref.fingerprint ∧ (path ∈ set.paths ∨
      ∃ shard, ix.shards[ref.shard]? = some shard ∧ ¬ shard.arena.BeginsAt ref.offset) := by
  obtain ⟨shard, hshard, hentry⟩ := Option.bind_eq_some_iff.mp hresolve
  obtain ⟨e, hfound, hpath⟩ := Option.bind_eq_some_iff.mp hentry
  obtain ⟨⟨path', start⟩, hpath?, hpath⟩ := Option.bind_eq_some_iff.mp hpath
  obtain rfl : path' = path := Option.some.inj hpath
  obtain ⟨hlt, rfl⟩ := Array.getElem?_eq_some_iff.mp hshard
  obtain ⟨paths, hlists, hmem⟩ := h.lists ref.shard hlt
  obtain ⟨es, hspells⟩ := hlists.valid
  obtain ⟨htest, -, hplace⟩ := hspells.resolve?_eq_some hfound
  rw [hpath?] at htest
  refine ⟨eq_of_beq htest, hplace.imp (fun hcontents => ?_) fun hno => ⟨_, hshard, hno⟩⟩
  rw [hlists.contents_eq] at hcontents
  obtain ⟨stored, hstored, rfl⟩ := List.mem_map.mp hcontents
  rw [path?_entryOf] at hpath?
  obtain ⟨rfl, -⟩ := Prod.mk.inj (Option.some.inj hpath?)
  exact ((hmem stored).mp hstored).1

/-- **A path that is resolved has the fingerprint of its reference**, whatever has been asked of the
index before and wherever the reference comes from. It is in the index, unless the reference goes
to a place where no entry begins. -/
theorem contains_of_resolve? [Memory] {config : IndexConfig} {scorer : Scorer}
    {digest : String → UInt64} (h : create config scorer digest = .ok ix)
    (requests : List PathRequest)
    (hresolve : (ix.after requests).resolve? ref = some path) :
    digest path = ref.fingerprint ∧ ((ix.after requests).contains path = true ∨
      ∃ shard, (ix.after requests).shards[ref.shard]? = some shard ∧
        ¬ shard.arena.BeginsAt ref.offset) := by
  obtain ⟨set, hlisted⟩ := (listed_of_create h).after requests
  obtain ⟨hdigest, hplace⟩ := hlisted.represents.resolve?_eq_some hresolve
  have hsame : (ix.after requests).digest = digest :=
    (ix.alike_after requests).digest_eq.trans (represents_of_create h).digest_eq
  rw [hsame] at hdigest
  refine ⟨hdigest, hplace.imp_left fun hpath => ?_⟩
  rw [hlisted.represents.contains]
  exact decide_eq_true hpath

/-- An index with one shard of eight slots. -/
def small : PathIndex where
  shards := #[{ table := { slots := Array.replicate 8 none } }]
  common := none
  isShutdown := false
  scorer := .standard
  threshold := .zero

section AddressSpace

open scoped Typeahead.Memory.AddressSpace

theorem create_small : create { shardCount := 1, initialSlots := 1 } .standard = .ok small :=
  create_of_one_slot rfl rfl rfl rfl

/-- A reference to the second of two paths, after the first one has been removed. -/
theorem contains_of_resolve?_small :
    let requests := [.add "/", .add "/mu", .remove "/"]
    let ref : PathRef := ⟨0, 8, 11087706599641791590⟩
    (small.after requests).resolve? ref = some "/mu" ∧
      fingerprint "/mu" = 11087706599641791590 ∧ ((small.after requests).contains "/mu" = true ∨
        ∃ shard, (small.after requests).shards[0]? = some shard ∧ ¬ shard.arena.BeginsAt 8) := by
  intro requests ref
  have hresolve : (small.after requests).resolve? ref = some "/mu" := by decide +kernel
  exact ⟨hresolve, contains_of_resolve? create_small requests hresolve⟩

/-- The hit of a scan, and then requests after which the bytes at its offset are those in the middle
of another path: they spell an entry with the path of the hit, which has been removed. -/
theorem resolve?_removed :
    let earlier := small.after [.add "/", .add "/mu"]
    let later := earlier.after [.remove "/mu", .remove "/", .add "/f<g=\x01\x03\x00/mu"]
    ∃ shard hit, earlier.shards[0]? = some shard ∧ hit ∈ earlier.hits (.prepare "mu") 0 shard ∧
      later.resolve? hit.ref = some "/mu" ∧ later.contains "/mu" = false := by
  intro earlier later
  obtain ⟨set, hlisted⟩ := (listed_of_create create_small).after [.add "/", .add "/mu"]
  have hlt : 0 < earlier.shards.size := by decide +kernel
  obtain ⟨es, hspells⟩ := (hlisted.lists 0 hlt).valid
  have hread : ∀ offset, earlier.shards[0].arena.entryAt? offset =
      earlier.shards[0]?.bind fun shard => shard.arena.entryAt? offset := by
    intro offset
    rw [Array.getElem?_eq_getElem hlt, Option.bind_some]
  have hfirst : earlier.shards[0].arena.entryAt? 0 = some (entryOf none (hashPath "/") "/") := by
    rw [hread]
    decide +kernel
  have hsecond : earlier.shards[0].arena.entryAt? 8 =
      some (entryOf none (hashPath "/mu") "/mu") := by
    rw [hread]
    decide +kernel
  have hbegins : earlier.shards[0].arena.BeginsAt 8 := .next .first hfirst
  have hmem := hspells.mem_entries_of_beginsAt hbegins hsecond rfl
  have hhit : earlier.hit? (.prepare "mu") 0 8 (entryOf none (hashPath "/mu") "/mu") =
      some ⟨Score.clamp 95, 0, 8, fingerprint "/mu"⟩ := by
    have hscore : earlier.scorer.scoreEither (.prepare "mu") "/mu" 0 = Score.clamp 95 := by
      decide +kernel
    have halike : Alike small earlier := small.alike_after _
    have habove : earlier.threshold < Score.clamp 95 := by
      rw [halike.threshold_eq]
      decide
    rw [hit?, halike.common_eq, halike.digest_eq]
    change ((entryOf none _ _).path? none).bind _ = _
    rw [path?_entryOf, Option.bind_some]
    dsimp only [startIn]
    rw [hscore, if_pos habove]
    rfl
  refine ⟨_, _, Array.getElem?_eq_getElem hlt, List.mem_filterMap.mpr ⟨_, hmem, hhit⟩, ?_, ?_⟩
  · decide +kernel
  · decide +kernel

end AddressSpace

end PathIndex

end Typeahead
