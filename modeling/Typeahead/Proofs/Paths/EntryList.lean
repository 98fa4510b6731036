import Typeahead.Proofs.Paths.Compaction

/-!
# A shard is a list of entries in the order of their arrival

What a shard can be asked, and what a list of entries would answer. The list knows nothing of
offsets, tables and removed entries, and writing it anew means nothing to it. What it has to be told
is when an arena is full, and when there is no memory: a shard refuses a request then, and the list
does too.

Both answer the same to any requests, with any hashes and any conditions. Behind the answers, the
table and the arena stay in step: the table holds the hash and the offset of each live entry and
nothing else. If memory is ample, none is ever wanting, and removed entries never take more than
half of the arena.
-/

namespace Typeahead

/-! ### Requests -/

/-- What a shard is asked to do. -/
inductive ShardRequest where
  /-- Add an entry. -/
  | insert (hash : UInt32) (absolute : Bool) (stored : ByteArray)
  /-- Remove an entry. -/
  | remove (hash : UInt32) (absolute : Bool) (stored : ByteArray)
  /-- Remove the entries that meet a condition. -/
  | removeWhere (meets : Entry → Bool)
  /-- Write the entries anew. -/
  | compact
  /-- Find an entry. -/
  | find (hash : UInt32) (absolute : Bool) (stored : ByteArray)
  /-- List the entries. -/
  | entries
  /-- Count the entries. -/
  | size

/-- What it answers. -/
inductive ShardReply where
  /-- Whether an entry was new. -/
  | inserted (result : Except Fault Bool)
  /-- Whether an entry was there. -/
  | removed (was : Bool)
  /-- How many entries were removed. -/
  | lost (count : Nat)
  /-- Whether there was memory for the entries. -/
  | compacted (result : Except Fault Unit)
  /-- What there is at the offset that was found, if one was. -/
  | found (there : Option (Option Entry))
  /-- The entries. -/
  | listed (entries : List Entry)
  /-- How many entries there are. -/
  | counted (count : Nat)
  deriving DecidableEq

/-- What a shard may be short of. -/
structure Shortage where
  /-- Why there is no memory, if there is none. -/
  memory : Option Fault := none
  /-- Whether the arena is full. -/
  isFull : Bool := false

namespace Shard

section Requests

variable [Memory]

/-- Serves a request. -/
def respond (s : Shard) : ShardRequest → Shard × ShardReply
  | .insert hash absolute stored =>
    ((s.insert hash absolute stored).1, .inserted (s.insert hash absolute stored).2)
  | .remove hash absolute stored =>
    ((s.remove hash absolute stored).1, .removed (s.remove hash absolute stored).2)
  | .removeWhere meets => ((s.removeWhere meets).1, .lost (s.removeWhere meets).2)
  | .compact =>
    match s.compact with
    | .ok fresh => (fresh, .compacted (.ok ()))
    | .error fault => (s, .compacted (.error fault))
  | .find hash absolute stored =>
    (s, .found ((s.find? hash absolute stored).map s.arena.entryAt?))
  | .entries => (s, .listed (s.entries.map Prod.snd))
  | .size => (s, .counted s.size)

/-- Serves requests one after the other. -/
def respondAll (s : Shard) : List ShardRequest → List ShardReply
  | [] => []
  | request :: requests => (s.respond request).2 :: (s.respond request).1.respondAll requests

/-- The shard after some requests. -/
def after (s : Shard) (requests : List ShardRequest) : Shard :=
  requests.foldl (fun s request => (s.respond request).1) s

/-- What a shard is short of for a request. -/
def shortageFor (s : Shard) : ShardRequest → Shortage
  | .insert _ _ _ =>
    { memory := s.table.refusal? 1, isFull := Arena.offsetLimit ≤ s.arena.bytes.size }
  | .compact =>
    match s.compact with
    | .ok _ => {}
    | .error fault => { memory := some fault }
  | _ => {}

/-- Requests, each with what the shard is short of when they are served in turn. -/
def noted (s : Shard) : List ShardRequest → List (ShardRequest × Shortage)
  | [] => []
  | request :: requests =>
    (request, s.shortageFor request) :: (s.respond request).1.noted requests

/-- Whether a shard has just been made. -/
def IsNew (s : Shard) : Prop := s = {} ∨ ∃ bytes slots, Shard.empty bytes slots = .ok s

end Requests

end Shard

/-! ### The reference -/

/-- **Entries in the order of their arrival.** -/
abbrev EntryList := List Entry

namespace EntryList

/-- Adds an entry at the end, unless it is there. A new one needs memory, has to be short enough to
be written down, and needs room. -/
def insert (es : EntryList) (shortage : Shortage) (e : Entry) : EntryList × Except Fault Bool :=
  if e ∈ es then (es, .ok false)
  else
    match shortage.memory with
    | some fault => (es, .error fault)
    | none =>
      if 65535 < e.stored.size then (es, .error (.invalidPath (.tooLong e.stored.size)))
      else if shortage.isFull then (es, .error (.allocation "path arena is full"))
      else (es ++ [e], .ok true)

/-- Serves a request, knowing what is short. -/
def respond (es : EntryList) (shortage : Shortage) : ShardRequest → EntryList × ShardReply
  | .insert hash absolute stored =>
    ((es.insert shortage ⟨hash, absolute, false, stored⟩).1,
      .inserted (es.insert shortage ⟨hash, absolute, false, stored⟩).2)
  | .remove hash absolute stored =>
    (es.filter (· ≠ ⟨hash, absolute, false, stored⟩),
      .removed (⟨hash, absolute, false, stored⟩ ∈ es))
  | .removeWhere meets => (es.filter fun e => !meets e, .lost (es.countP meets))
  | .compact => (es, .compacted (match shortage.memory with
    | some fault => .error fault
    | none => .ok ()))
  | .find hash absolute stored =>
    (es, .found (if ⟨hash, absolute, false, stored⟩ ∈ es then
      some (some ⟨hash, absolute, false, stored⟩) else none))
  | .entries => (es, .listed es)
  | .size => (es, .counted es.length)

/-- Serves requests one after the other. -/
def respondAll (es : EntryList) : List (ShardRequest × Shortage) → List ShardReply
  | [] => []
  | (request, shortage) :: requests =>
    (es.respond shortage request).2 ::
      EntryList.respondAll (es.respond shortage request).1 requests

/-- The entries after some requests. -/
def after (es : EntryList) (requests : List (ShardRequest × Shortage)) : EntryList :=
  requests.foldl (fun es (request, shortage) => (EntryList.respond es shortage request).1) es

end EntryList

/-! ### One request -/

namespace Shard

open Typeahead.Arena

variable {s s' : Shard} {es : EntryList} {hash : UInt32} {absolute : Bool} {stored : ByteArray}

/-- **A shard holds a list of entries**, and if memory is ample, not too many removed ones beside
them. -/
structure Holds [Memory] (s : Shard) (es : EntryList) : Prop where
  /-- The table and the arena are in step. -/
  valid : s.Valid
  /-- The live entries are those of the list. -/
  contents_eq : s.contents = es
  /-- Removed entries take at most half of the arena. -/
  thrifty : Memory.Ample → s.arena.isWasteful = false

theorem refusal?_eq (a : Arena) (stored : ByteArray) : a.refusal? stored =
    if 65535 < stored.size then some (.invalidPath (.tooLong stored.size))
    else if Arena.offsetLimit ≤ a.bytes.size then some (.allocation "path arena is full")
    else none := rfl

section Requests

variable [Memory]

theorem IsNew.holds (h : s.IsNew) : s.Holds [] := by
  obtain ⟨table, rfl, hsound, hempty⟩ :
      ∃ table, s = { table } ∧ table.Sound ∧ table.contents = [] := by
    rcases h with rfl | ⟨bytes, slots, h⟩
    · exact ⟨{}, rfl, ProbeTable.sound_empty, rfl⟩
    · exact exists_of_empty_eq_ok h
  have hspells := spells_empty hsound hempty
  exact ⟨⟨_, hspells⟩, hspells.contents_eq, fun _ => rfl⟩

/-- A shard that has been tidied holds what it held before. -/
theorem Valid.holds_tidy (h : s.Valid) (hcontents : s.contents = es) : s.tidy.Holds es :=
  ⟨h.tidy.1, h.tidy.2.trans hcontents, fun _ => h.isWasteful_tidy⟩

/-- Adding an entry removes none. -/
theorem deadBytes_insert (s : Shard) (hash : UInt32) (absolute : Bool) (stored : ByteArray) :
    (s.insert hash absolute stored).1.arena.deadBytes = s.arena.deadBytes ∧
      s.arena.bytes.size ≤ (s.insert hash absolute stored).1.arena.bytes.size := by
  have hpush : s.arena.bytes.size ≤ (s.arena.push hash absolute stored).bytes.size := by
    rw [← length_toList_data, ← length_toList_data, bytes_push, List.length_append]
    omega
  unfold Shard.insert
  split
  · exact ⟨rfl, Nat.le_refl _⟩
  · split
    · exact ⟨rfl, Nat.le_refl _⟩
    · split
      · exact ⟨rfl, Nat.le_refl _⟩
      · exact ⟨rfl, hpush⟩

/-- What a shard answers to a new entry is what a list answers that is told what is short. -/
theorem insert_shortageFor (s : Shard) (hash : UInt32) (absolute : Bool) {e : Entry}
    (hnew : e ∉ es) :
    es.insert (s.shortageFor (.insert hash absolute e.stored)) e =
      match s.refusal? e.stored with
      | some fault => (es, .error fault)
      | none => (es ++ [e], .ok true) := by
  rw [EntryList.insert, if_neg hnew, shortageFor, Shard.refusal?]
  cases s.table.refusal? 1 with
  | some fault => rfl
  | none =>
    dsimp only
    rw [Option.none_or, refusal?_eq]
    by_cases hlong : 65535 < e.stored.size
    · rw [if_pos hlong, if_pos hlong]
    · rw [if_neg hlong, if_neg hlong]
      by_cases hfull : Arena.offsetLimit ≤ s.arena.bytes.size
      · rw [if_pos hfull, if_pos (decide_eq_true hfull)]
      · rw [if_neg hfull, if_neg (by rwa [decide_eq_true_iff])]

namespace Holds

theorem insert (h : s.Holds es) (hash : UInt32) (absolute : Bool) (stored : ByteArray) :
    let e := Shard.live hash absolute stored
    let shortage := s.shortageFor (.insert hash absolute stored)
    (s.insert hash absolute stored).2 = (es.insert shortage e).2 ∧
      (s.insert hash absolute stored).1.Holds (es.insert shortage e).1 := by
  intro e shortage
  have hthrifty : Memory.Ample → (s.insert hash absolute stored).1.arena.isWasteful = false := by
    intro hample
    obtain ⟨hdead, hsize⟩ := s.deadBytes_insert hash absolute stored
    have hbefore := h.thrifty hample
    simp only [isWasteful, decide_eq_false_iff_not] at hbefore ⊢
    omega
  by_cases hmem : e ∈ es
  · rw [EntryList.insert, if_pos hmem, h.valid.insert_of_mem (h.contents_eq ▸ hmem)]
    exact ⟨rfl, h⟩
  · obtain ⟨s', hvalid, hinsert, hcontents⟩ :=
      h.valid.insert_of_not_mem (h.contents_eq ▸ hmem)
    rw [hinsert] at hthrifty ⊢
    rw [h.contents_eq] at hcontents
    have hreference : es.insert shortage e = match s.refusal? stored with
      | some fault => (es, .error fault)
      | none => (es ++ [e], .ok true) := s.insert_shortageFor hash absolute hmem
    rw [hreference]
    cases hrefusal : s.refusal? stored with
    | some fault =>
      rw [hrefusal] at hcontents
      exact ⟨rfl, hvalid, hcontents, hthrifty⟩
    | none =>
      rw [hrefusal] at hcontents
      exact ⟨rfl, hvalid, hcontents, hthrifty⟩

theorem remove (h : s.Holds es) (hash : UInt32) (absolute : Bool) (stored : ByteArray) :
    (s.remove hash absolute stored).2 = decide (Shard.live hash absolute stored ∈ es) ∧
      (s.remove hash absolute stored).1.Holds
        (es.filter (· ≠ Shard.live hash absolute stored)) := by
  obtain rfl := h.contents_eq
  rcases h.valid.remove_cases hash absolute stored with
    ⟨hmem, hremove⟩ | ⟨hmem, rest, hrest, hremove, hcontents⟩
  · rw [hremove, decide_eq_false hmem, List.filter_eq_self.mpr]
    · exact ⟨rfl, h⟩
    · exact fun e he => decide_eq_true fun heq => hmem (heq ▸ he)
  · rw [hremove, decide_eq_true hmem]
    exact ⟨rfl, hrest.holds_tidy hcontents⟩

theorem removeWhere (h : s.Holds es) (meets : Entry → Bool) :
    (s.removeWhere meets).2 = es.countP meets ∧
      (s.removeWhere meets).1.Holds (es.filter fun e => !meets e) := by
  obtain rfl := h.contents_eq
  rcases h.valid.removeWhere_cases meets with
    ⟨hnone, hremove⟩ | ⟨rest, hrest, hremove, hcontents⟩
  · rw [hremove, List.countP_eq_zero.mpr fun e he => by simp [hnone e he],
      List.filter_eq_self.mpr fun e he => by simp [hnone e he]]
    exact ⟨rfl, h⟩
  · rw [hremove]
    exact ⟨rfl, hrest.holds_tidy hcontents⟩

theorem compact {fresh : Shard} (h : s.Holds es) (hcompact : s.compact = .ok fresh) :
    fresh.Holds es := by
  obtain ⟨hvalid, hcontents⟩ := h.valid.compact hcompact
  refine ⟨hvalid, hcontents.trans h.contents_eq, fun _ => ?_⟩
  obtain ⟨fresh', hcompact', hzero⟩ := h.valid.exists_compact_eq_ok
  obtain rfl := Except.ok.inj (hcompact.symm.trans hcompact')
  simp [isWasteful, hzero]

theorem find? (h : s.Holds es) (hash : UInt32) (absolute : Bool) (stored : ByteArray) :
    (s.find? hash absolute stored).map s.arena.entryAt? =
      if Shard.live hash absolute stored ∈ es then some (some (Shard.live hash absolute stored))
      else none := by
  obtain ⟨all, hspells⟩ := h.valid
  rw [← h.contents_eq]
  rcases hspells.find?_cases hash absolute stored with ⟨hnone, hmem⟩ | ⟨offset, hsome, hmem⟩
  · rw [hnone, if_neg hmem]
    rfl
  · rw [hsome, if_pos (hspells.mem_contents.mpr ⟨offset, hmem⟩), Option.map_some,
      hspells.entryAt?_eq hmem]

/-- **A shard serves a request as the list that it holds does.** -/
theorem respond (h : s.Holds es) (request : ShardRequest) :
    (s.respond request).2 = (EntryList.respond es (s.shortageFor request) request).2 ∧
      (s.respond request).1.Holds (EntryList.respond es (s.shortageFor request) request).1 := by
  cases request with
  | insert hash absolute stored =>
    obtain ⟨hreply, hnext⟩ := h.insert hash absolute stored
    exact ⟨congrArg ShardReply.inserted hreply, hnext⟩
  | remove hash absolute stored =>
    obtain ⟨hreply, hnext⟩ := h.remove hash absolute stored
    exact ⟨congrArg ShardReply.removed hreply, hnext⟩
  | removeWhere meets =>
    obtain ⟨hreply, hnext⟩ := h.removeWhere meets
    exact ⟨congrArg ShardReply.lost hreply, hnext⟩
  | compact =>
    unfold Shard.respond shortageFor EntryList.respond
    cases hcompact : s.compact with
    | ok fresh => exact ⟨rfl, h.compact hcompact⟩
    | error fault => exact ⟨rfl, h⟩
  | find hash absolute stored => exact ⟨congrArg ShardReply.found (h.find? hash absolute stored), h⟩
  | entries => exact ⟨congrArg ShardReply.listed h.contents_eq, h⟩
  | size =>
    refine ⟨congrArg ShardReply.counted ?_, h⟩
    rw [h.valid.size_eq, h.contents_eq]

/-- What holds after one request holds after any. -/
theorem after (h : s.Holds es) (requests : List ShardRequest) :
    s.respondAll requests = EntryList.respondAll es (s.noted requests) ∧
      (s.after requests).Holds (EntryList.after es (s.noted requests)) := by
  induction requests generalizing s es with
  | nil => exact ⟨rfl, h⟩
  | cons request requests ih =>
    obtain ⟨hreply, hnext⟩ := h.respond request
    obtain ⟨hreplies, hafter⟩ := ih hnext
    refine ⟨?_, hafter⟩
    rw [respondAll, noted, EntryList.respondAll, hreply, hreplies]

section Ample

variable [Memory.Ample]

/-- With ample memory, none is wanting. -/
theorem memory_shortageFor (h : s.Holds es) (request : ShardRequest) :
    (s.shortageFor request).memory = none := by
  obtain ⟨all, hspells⟩ := h.valid
  cases request with
  | insert hash absolute stored => exact ProbeTable.refusal?_eq_none hspells.size_table_lt
  | compact =>
    obtain ⟨fresh, hcompact, -⟩ := h.valid.exists_compact_eq_ok
    rw [shortageFor, hcompact]
  | _ => rfl

theorem memory_noted (h : s.Holds es) (requests : List ShardRequest) :
    ∀ note ∈ s.noted requests, note.2.memory = none := by
  induction requests generalizing s es with
  | nil => exact nofun
  | cons request requests ih =>
    exact List.forall_mem_cons.mpr ⟨h.memory_shortageFor request, ih (h.respond request).2⟩

/-- With ample memory, removed entries take at most half of the arena. -/
theorem deadBytes_le (h : s.Holds es) : s.arena.deadBytes ≤ s.arena.bytes.size / 2 := by
  have hthrifty := h.thrifty ‹_›
  simp only [isWasteful, decide_eq_false_iff_not] at hthrifty
  omega

end Ample

end Holds

end Requests

/-! ### All requests -/

/-- The table holds the hash and the offset of each live entry, and these decode to it. -/
theorem Valid.in_step (h : s.Valid) :
    s.table.contents.Perm (s.entries.map fun x => ⟨x.2.hash, x.1⟩) ∧
      ∀ x ∈ s.entries, s.arena.entryAt? x.1 = some x.2 := by
  obtain ⟨all, hspells⟩ := h
  rw [hspells.entries_eq]
  exact ⟨hspells.agree, fun x hx => hspells.entryAt?_eq hx⟩

/-- **A shard answers any requests as a list of entries does**, if the list is told when the shard
is short of memory or its arena is full. Afterwards the shard lists the entries of the list, of
which no two are equal; and its table holds the hash and the offset of each of them, and nothing
else. If memory is ample, none is ever wanting, and removed entries take at most half of the
arena. -/
theorem respondAll_eq_entryList [Memory] (hnew : s.IsNew) (requests : List ShardRequest) :
    s.respondAll requests = EntryList.respondAll [] (s.noted requests) ∧
      (s.after requests).contents = EntryList.after [] (s.noted requests) ∧
      (s.after requests).contents.Nodup ∧
      (s.after requests).table.contents.Perm
        ((s.after requests).entries.map fun x => ⟨x.2.hash, x.1⟩) ∧
      (∀ x ∈ (s.after requests).entries,
        (s.after requests).arena.entryAt? x.1 = some x.2) ∧
      (Memory.Ample → (∀ note ∈ s.noted requests, note.2.memory = none) ∧
        (s.after requests).arena.deadBytes ≤ (s.after requests).arena.bytes.size / 2) := by
  obtain ⟨hreplies, hafter⟩ := hnew.holds.after requests
  obtain ⟨hagree, hdecode⟩ := hafter.valid.in_step
  exact ⟨hreplies, hafter.contents_eq, hafter.valid.nodup_contents, hagree, hdecode,
    fun _ => ⟨hnew.holds.memory_noted requests, hafter.deadBytes_le⟩⟩

section AddressSpace

open scoped Typeahead.Memory.AddressSpace

/-- Of two entries with one hash the first is removed, and the other is found where it has been
written anew. -/
theorem respondAll_eq_entryList_one_hash :
    IsNew {} ∧ ∃ requests : List ShardRequest,
      requests = [.insert 5 true "/one".toUTF8, .insert 5 true "/two".toUTF8,
        .insert 5 true "/two".toUTF8, .remove 5 true "/one".toUTF8, .compact,
        .find 5 true "/two".toUTF8, .removeWhere fun e => e.absolute, .entries, .size] ∧
      ({} : Shard).respondAll requests =
        EntryList.respondAll [] (({} : Shard).noted requests) ∧
      EntryList.respondAll [] (({} : Shard).noted requests) =
        [.inserted (.ok true), .inserted (.ok true), .inserted (.ok false), .removed true,
          .compacted (.ok ()), .found (some (some (live 5 true "/two".toUTF8))), .lost 1,
          .listed [], .counted 0] := by
  refine ⟨.inl rfl, _, rfl, ?_, ?_⟩
  · exact (respondAll_eq_entryList (.inl rfl) _).1
  · decide +kernel

end AddressSpace

end Shard

end Typeahead
