import Mathlib.Data.List.Nodup
import Typeahead.Paths.Shard
import Typeahead.Proofs.Paths.Encoding
import Typeahead.Proofs.Paths.Multimap

/-!
# A shard is an ordered set

The contents of a shard are its live entries in the order in which they were added. No two are
equal, and the table holds the hash and the offset of each of them and nothing else. With that,
looking in the table decides whether an entry is there; and adding, removing and writing anew
are, on the contents, appending, filtering and nothing at all.
-/

namespace Typeahead.Shard

open Typeahead.Arena

variable {s s' fresh : Shard} {es pre post : List Entry} {e : Entry} {offset : Nat}
variable {hash : UInt32} {absolute : Bool} {stored : ByteArray} {table : ProbeTable}
variable {arena : Arena}

/-! ### The invariant -/

/-- What the table holds about an entry at an offset. -/
def probeOf (x : Nat × Entry) : ProbeEntry := ⟨x.2.hash, x.1⟩

/-- A shard and the entries that its arena spells, the removed ones as well. -/
structure Spells (s : Shard) (es : List Entry) : Prop where
  /-- The arena spells the entries. -/
  arena : s.arena.Spells es
  /-- Looking in the table finds what is there. -/
  sound : s.table.Sound
  /-- The table holds the live entries. -/
  agree : s.table.contents.Perm ((alive 0 es).map probeOf)
  /-- No two live entries are equal. -/
  nodup : ((alive 0 es).map Prod.snd).Nodup

/-- **The invariant of a shard.** -/
def Valid (s : Shard) : Prop := ∃ es, s.Spells es

/-- The entries of a shard in order. -/
def contents (s : Shard) : List Entry := s.entries.map Prod.snd

/-- A live entry. -/
def live (hash : UInt32) (absolute : Bool) (stored : ByteArray) : Entry :=
  ⟨hash, absolute, false, stored⟩

theorem Spells.entries_eq (h : s.Spells es) : s.entries = alive 0 es := h.arena.entries_eq

theorem Spells.contents_eq (h : s.Spells es) : s.contents = (alive 0 es).map Prod.snd := by
  rw [contents, h.entries_eq]

theorem Valid.nodup_contents (h : s.Valid) : s.contents.Nodup := by
  obtain ⟨es, h⟩ := h
  rw [h.contents_eq]
  exact h.nodup

theorem Spells.mem_contents (h : s.Spells es) :
    e ∈ s.contents ↔ ∃ offset, (offset, e) ∈ alive 0 es := by
  rw [h.contents_eq, List.mem_map]
  constructor
  · rintro ⟨x, hx, rfl⟩
    exact ⟨x.1, hx⟩
  · rintro ⟨offset, hx⟩
    exact ⟨_, hx, rfl⟩

/-- Entries of a shard are live. -/
theorem Valid.dead_eq_false (h : s.Valid) (he : e ∈ s.contents) : e.dead = false := by
  obtain ⟨es, h⟩ := h
  obtain ⟨offset, hmem⟩ := h.mem_contents.mp he
  exact (mem_alive.mp hmem).2

theorem eq_live_of_dead (h : e.dead = false) : e = live e.hash e.absolute e.stored := by
  cases e
  dsimp only at h
  rw [h]
  rfl

/-- The size of a shard is the number of its entries. -/
theorem Valid.size_eq (h : s.Valid) : s.size = s.contents.length := by
  obtain ⟨es, h⟩ := h
  rw [h.contents_eq, List.length_map]
  exact h.arena.liveEntries_eq

/-! ### Looking -/

theorem Spells.entryAt?_eq (h : s.Spells es) (hmem : (offset, e) ∈ alive 0 es) :
    s.arena.entryAt? offset = some e :=
  h.arena.entryAt?_eq (mem_alive.mp hmem).1

/-- What the table holds are live entries. -/
theorem Spells.exists_of_mem_table (h : s.Spells es) (hmem : ⟨hash, offset⟩ ∈ s.table.contents) :
    ∃ e, (offset, e) ∈ alive 0 es ∧ e.hash = hash := by
  obtain ⟨x, hx, heq⟩ := List.mem_map.mp (h.agree.mem_iff.mp hmem)
  obtain ⟨rfl, rfl⟩ := ProbeEntry.mk.inj heq
  exact ⟨x.2, hx, rfl⟩

theorem Spells.mem_table (h : s.Spells es) (hmem : (offset, e) ∈ alive 0 es) :
    ⟨e.hash, offset⟩ ∈ s.table.contents :=
  h.agree.mem_iff.mpr (List.mem_map.mpr ⟨_, hmem, rfl⟩)

theorem Spells.holdsAt_iff (h : s.Spells es) (hmem : (offset, e) ∈ alive 0 es) :
    holdsAt s.arena absolute stored offset = true ↔
      e.absolute = absolute ∧ e.stored = stored := by
  rw [holdsAt, h.entryAt?_eq hmem]
  dsimp only
  rw [(mem_alive.mp hmem).2, Bool.not_false, Bool.true_and, Bool.and_eq_true, beq_iff_eq,
    beq_bytes_iff]

/-- What a search for a text comes to is an entry with that text. -/
theorem Spells.mem_alive_of_wanted (h : s.Spells es)
    (hmem : ⟨hash, offset⟩ ∈ s.table.contents)
    (haccept : holdsAt s.arena absolute stored offset = true) :
    (offset, live hash absolute stored) ∈ alive 0 es := by
  obtain ⟨e, halive, rfl⟩ := h.exists_of_mem_table hmem
  obtain ⟨rfl, rfl⟩ := (h.holdsAt_iff halive).mp haccept
  rwa [← eq_live_of_dead (mem_alive.mp halive).2]

/-- A search that comes to nothing was for an entry that is not there. -/
theorem Spells.not_mem_of_unwanted (h : s.Spells es)
    (hnone : ∀ p ∈ s.table.contents,
      ¬ ProbeTable.Wanted hash (holdsAt s.arena absolute stored) p) :
    live hash absolute stored ∉ s.contents := by
  intro hmem
  obtain ⟨offset, hmem⟩ := h.mem_contents.mp hmem
  exact hnone _ (h.mem_table hmem) ⟨rfl, (h.holdsAt_iff hmem).mpr ⟨rfl, rfl⟩⟩

/-- **Looking finds an entry if and only if it is there**, and then where it is. -/
theorem Spells.find?_cases (h : s.Spells es) (hash : UInt32) (absolute : Bool)
    (stored : ByteArray) :
    s.find? hash absolute stored = none ∧ live hash absolute stored ∉ s.contents ∨
      ∃ offset, s.find? hash absolute stored = some offset ∧
        (offset, live hash absolute stored) ∈ alive 0 es := by
  rcases ProbeTable.find?_cases h.sound.linked hash (holdsAt s.arena absolute stored) with
    ⟨hnone, hunwanted⟩ | ⟨offset, hsome, hmem, haccept⟩
  · exact .inl ⟨hnone, h.not_mem_of_unwanted hunwanted⟩
  · exact .inr ⟨offset, hsome, h.mem_alive_of_wanted hmem haccept⟩

theorem Valid.isSome_find? (h : s.Valid) (hash : UInt32) (absolute : Bool) (stored : ByteArray) :
    (s.find? hash absolute stored).isSome = decide (live hash absolute stored ∈ s.contents) := by
  obtain ⟨es, h⟩ := h
  rcases h.find?_cases hash absolute stored with ⟨hnone, hmem⟩ | ⟨offset, hsome, hmem⟩
  · rw [hnone, decide_eq_false hmem]
    rfl
  · rw [hsome, decide_eq_true (h.mem_contents.mpr ⟨offset, hmem⟩)]
    rfl

/-! ### Adding -/

theorem spells_empty (h : table.Sound) (hempty : table.contents = []) :
    Spells { table } [] :=
  ⟨Arena.spells_empty, h, by rw [hempty]; exact .refl _, List.nodup_nil⟩

/-- An empty shard is made of an empty arena and a new table. -/
theorem empty_eq_ok_iff [Memory] {bytes slots : Nat} :
    empty bytes slots = .ok s ↔ Memory.grants bytes = true ∧
      ∃ table, ProbeTable.withSlots slots = .ok table ∧ s = { table } := by
  rw [empty]
  cases Memory.grants bytes with
  | false => exact ⟨nofun, nofun⟩
  | true =>
    constructor
    · intro h
      obtain ⟨table, htable, h⟩ := exists_of_bind_eq_ok h
      exact ⟨rfl, table, htable, (Except.ok.inj h).symm⟩
    · rintro ⟨-, table, htable, rfl⟩
      rw [htable]
      rfl

theorem exists_of_empty_eq_ok [Memory] {bytes slots : Nat} (h : empty bytes slots = .ok s) :
    ∃ table : ProbeTable, s = { table } ∧ table.Sound ∧ table.contents = [] := by
  obtain ⟨-, table, htable, rfl⟩ := empty_eq_ok_iff.mp h
  obtain ⟨hsound, hempty, -⟩ := ProbeTable.sound_withSlots htable
  exact ⟨table, rfl, hsound, hempty⟩

/-- There are fewer entries than offsets. -/
theorem Spells.size_table_lt (h : s.Spells es) : s.table.size < 0x100000000 := by
  have hlength : s.table.size ≤ es.length := by
    rw [← h.sound.counted, h.agree.length_eq, List.length_map]
    refine Nat.le_trans (List.length_filter_le _ _) (Nat.le_of_eq ?_)
    exact length_located 0 es
  have hbound := length_le_of_located_lt h.arena.offset_lt
  rw [Nat.zero_add, Nat.zero_max] at hbound
  exact Nat.lt_of_le_of_lt (Nat.le_trans hlength hbound) (by decide)

/-- Room in the table changes nothing. -/
theorem Spells.with_table (h : s.Spells es) (hsound : table.Sound)
    (hperm : table.contents.Perm s.table.contents) :
    Spells { arena := s.arena, table } es :=
  ⟨h.arena, hsound, hperm.trans h.agree, h.nodup⟩

/-- Appending a new entry to the arena and to the table. -/
theorem Spells.push (h : s.Spells es) (hnew : live hash absolute stored ∉ s.contents)
    (hallowed : s.arena.refusal? stored = none) (hsound : table.Sound)
    (hperm : table.contents.Perm (⟨hash, s.arena.bytes.size⟩ :: s.table.contents)) :
    Spells { arena := s.arena.push hash absolute stored, table }
      (es ++ [live hash absolute stored]) := by
  have halive : alive 0 (es ++ [live hash absolute stored]) =
      alive 0 es ++ [(s.arena.bytes.size, live hash absolute stored)] := by
    rw [alive_append, alive_cons_of_live rfl, Nat.zero_add, ← h.arena.size_bytes]
    rfl
  refine ⟨h.arena.push hash absolute hallowed, hsound, ?_, ?_⟩
  · rw [halive, List.map_append]
    exact hperm.trans ((h.agree.cons _).trans (List.perm_append_singleton _ _).symm)
  · rw [halive, List.map_append, ← h.contents_eq]
    refine (List.perm_append_singleton _ _).nodup_iff.mpr (List.nodup_cons.mpr ⟨hnew, ?_⟩)
    rw [h.contents_eq]
    exact h.nodup

/-- What keeps a shard from adding a new entry with a text: its table has no room and cannot make
any, or the arena refuses the text. -/
def refusal? [Memory] (s : Shard) (stored : ByteArray) : Option Fault :=
  (s.table.refusal? 1).or (s.arena.refusal? stored)

/-- What keeps a shard from adding a new entry with any text that is short enough: there is no room
in the table, or the arena is full. -/
def shortage? [Memory] (s : Shard) : Option Fault :=
  (s.table.refusal? 1).or
    (if offsetLimit ≤ s.arena.bytes.size then some (.allocation "path arena is full") else none)

theorem refusal?_eq_shortage? [Memory] (hshort : stored.size ≤ longestText) :
    s.refusal? stored = s.shortage? := by
  rw [refusal?, shortage?, Arena.refusal?, if_neg (Nat.not_lt.mpr hshort)]

/-- **Adding an entry that is there changes nothing.** -/
theorem Valid.insert_of_mem [Memory] (h : s.Valid) (hmem : live hash absolute stored ∈ s.contents) :
    s.insert hash absolute stored = (s, .ok false) := by
  rw [insert, h.isSome_find?, if_pos (decide_eq_true hmem)]

/-- **Adding a new entry appends it, or else is refused and changes no entry.** -/
theorem Valid.insert_of_not_mem [Memory] (h : s.Valid)
    (hnew : live hash absolute stored ∉ s.contents) :
    ∃ s', s'.Valid ∧ s.insert hash absolute stored =
        (s', match s.refusal? stored with
          | some fault => .error fault
          | none => .ok true) ∧
      s'.contents = match s.refusal? stored with
        | some _ => s.contents
        | none => s.contents ++ [live hash absolute stored] := by
  have hfind := h.isSome_find? hash absolute stored
  rw [decide_eq_false hnew] at hfind
  have hvalid := h
  obtain ⟨es, h⟩ := h
  rw [refusal?, insert, hfind, if_neg Bool.false_ne_true]
  rcases h.sound.reserve_cases 1 with ⟨fault, hrefusal, hreserve⟩ | ⟨hrefusal, roomy, hreserve⟩
  · rw [hreserve, hrefusal]
    exact ⟨s, hvalid, rfl, rfl⟩
  obtain ⟨hsound, hperm, hsize', hload⟩ := ProbeTable.reserve_spec h.sound hreserve
  rw [hreserve, hrefusal, Option.none_or]
  dsimp only
  cases hrefusal : s.arena.refusal? stored with
  | some fault =>
    have h' := h.with_table hsound hperm
    refine ⟨{ s with table := roomy }, ⟨es, h'⟩, rfl, ?_⟩
    exact h'.contents_eq.trans h.contents_eq.symm
  | none =>
    obtain ⟨hplaced, hperm', -⟩ := ProbeTable.sound_place hsound (hsize' ▸ hload) hash
      s.arena.bytes.size
    have h' := h.push hnew hrefusal hplaced (hperm'.trans (hperm.cons _))
    refine ⟨_, ⟨_, h'⟩, rfl, ?_⟩
    rw [h'.contents_eq, alive_append, List.map_append, ← h.contents_eq, alive_cons_of_live rfl]
    rfl

section Writing

variable [Memory]

/-- Writes an entry at the end of a shard that is being written anew. -/
def rewrite (fresh : Shard) (x : Nat × Entry) : Except Fault Shard :=
  match fresh.arena.refusal? x.2.stored with
  | some fault => throw fault
  | none => do
    let table ← fresh.table.insert x.2.hash fresh.arena.bytes.size
    return { arena := fresh.arena.push x.2.hash x.2.absolute x.2.stored, table }

theorem compact_eq (s : Shard) :
    s.compact = empty s.arena.liveBytes (ProbeTable.demandFor s.arena.liveEntries) >>=
      fun fresh => s.entries.foldlM rewrite fresh := rfl

theorem Spells.rewrite (hfresh : fresh.Spells pre) (hlive : ∀ e ∈ pre, e.dead = false)
    (hdead : e.dead = false) (hnew : e ∉ pre) (h : rewrite fresh (offset, e) = .ok s') :
    s'.Spells (pre ++ [e]) := by
  rw [Shard.rewrite] at h
  dsimp only at h
  split at h
  · exact absurd h nofun
  · rename_i hallowed
    obtain ⟨table, hinsert, h⟩ := exists_of_bind_eq_ok h
    obtain rfl := Except.ok.inj h
    obtain ⟨hsound, hperm⟩ := ProbeTable.insert_spec hfresh.sound hinsert
    rw [eq_live_of_dead hdead] at hnew ⊢
    refine hfresh.push ?_ hallowed hsound hperm
    rwa [hfresh.contents_eq, map_snd_alive hlive]

theorem Spells.foldlM_rewrite (xs : List (Nat × Entry)) (hfresh : fresh.Spells pre)
    (hlive : ∀ e ∈ pre ++ xs.map Prod.snd, e.dead = false)
    (hnodup : (pre ++ xs.map Prod.snd).Nodup) (h : xs.foldlM Shard.rewrite fresh = .ok s') :
    s'.Spells (pre ++ xs.map Prod.snd) := by
  induction xs generalizing fresh pre with
  | nil =>
    obtain rfl := Except.ok.inj h
    rwa [List.map_nil, List.append_nil]
  | cons x xs ih =>
    rw [List.foldlM_cons] at h
    obtain ⟨next, hnext, h⟩ := exists_of_bind_eq_ok h
    rw [List.map_cons] at hlive hnodup ⊢
    have hnew : x.2 ∉ pre := by
      intro hmem
      exact (List.nodup_append.mp hnodup).2.2 _ hmem _ List.mem_cons_self rfl
    have hstep := hfresh.rewrite (fun e he => hlive e (List.mem_append_left _ he))
      (hlive x.2 (List.mem_append_right _ List.mem_cons_self)) hnew hnext
    rw [List.append_cons] at hlive hnodup ⊢
    exact ih hstep hlive hnodup h

/-- **Writing the entries anew keeps them and their order.** -/
theorem Valid.compact (h : s.Valid) (hcompact : s.compact = .ok fresh) :
    fresh.Valid ∧ fresh.contents = s.contents := by
  have hdead : ∀ e ∈ s.contents, e.dead = false := fun e he => h.dead_eq_false he
  rw [compact_eq] at hcompact
  obtain ⟨start, hstart, hfold⟩ := exists_of_bind_eq_ok hcompact
  obtain ⟨table, rfl, hsound, hempty⟩ := exists_of_empty_eq_ok hstart
  have hfresh := Spells.foldlM_rewrite s.entries (spells_empty hsound hempty) hdead
    h.nodup_contents hfold
  rw [List.nil_append] at hfresh
  refine ⟨⟨_, hfresh⟩, ?_⟩
  rw [hfresh.contents_eq]
  exact map_snd_alive hdead

/-- **Tidying up is invisible.** -/
theorem Valid.tidy (h : s.Valid) : s.tidy.Valid ∧ s.tidy.contents = s.contents := by
  rw [Shard.tidy]
  split_ifs
  · cases hcompact : s.compact with
    | ok fresh => exact h.compact hcompact
    | error fault => exact ⟨h, rfl⟩
  · exact ⟨h, rfl⟩

end Writing

/-! ### Removing -/

/-- Taking a live entry out of the arena and out of the table. -/
theorem Spells.kill (h : s.Spells es) (hmem : (offset, e) ∈ alive 0 es) (hsound : table.Sound)
    (hperm : s.table.contents.Perm (⟨e.hash, offset⟩ :: table.contents)) :
    ∃ es', Spells { arena := (s.arena.kill offset).1, table } es' ∧
      alive 0 es' = (alive 0 es).filter fun x => x.1 != offset := by
  obtain ⟨hlocated, hlive⟩ := mem_alive.mp hmem
  obtain ⟨pre, post, rfl, hoffset⟩ := exists_of_mem_located hlocated
  rw [Nat.zero_add] at hoffset
  subst hoffset
  have hkept : alive 0 (pre ++ e.bury :: post) =
      (alive 0 (pre ++ e :: post)).filter fun x => x.1 != extent pre :=
    alive_bury hlive pre post
  have hsplit : alive 0 (pre ++ e :: post) =
      alive 0 pre ++ (extent pre, e) :: alive (extent pre + e.size) post := by
    rw [alive_append, Nat.zero_add, alive_cons_of_live hlive]
  refine ⟨pre ++ e.bury :: post, ⟨(h.arena.kill hlive).1, hsound, ?_, ?_⟩, hkept⟩
  · have hagree := hperm.symm.trans h.agree
    rw [hsplit, List.map_append, List.map_cons] at hagree
    have hrest := (hagree.trans List.perm_middle).cons_inv
    rwa [alive_append, Nat.zero_add, alive_cons_of_dead rfl, List.map_append]
  · rw [hkept]
    exact h.nodup.sublist (List.filter_sublist.map _)

/-- Entries are equal only if their offsets are. -/
theorem Spells.offset_inj (h : s.Spells es) {x y : Nat × Entry} (hx : x ∈ alive 0 es)
    (hy : y ∈ alive 0 es) : x.1 = y.1 ↔ x.2 = y.2 := by
  constructor
  · intro heq
    have hx : s.arena.entryAt? x.1 = some x.2 := h.entryAt?_eq hx
    have hy : s.arena.entryAt? y.1 = some y.2 := h.entryAt?_eq hy
    rw [heq, hy] at hx
    exact (Option.some.inj hx).symm
  · intro heq
    rw [List.inj_on_of_nodup_map h.nodup hx hy heq]

/-- Leaving out an offset leaves out the entry there. -/
theorem Spells.map_filter_offset (h : s.Spells es) (hmem : (offset, e) ∈ alive 0 es) :
    ((alive 0 es).filter fun x => x.1 != offset).map Prod.snd = s.contents.filter (· ≠ e) := by
  rw [h.contents_eq, List.filter_map]
  refine congrArg _ (List.filter_congr fun x hx => ?_)
  rw [Bool.eq_iff_iff, bne_iff_ne, Function.comp, decide_eq_true_iff]
  exact not_congr (h.offset_inj hx hmem)

/-- Removing an entry that is not there changes nothing; another one is taken out, and then the
shard is tidied. -/
theorem Valid.remove_cases [Memory] (h : s.Valid) (hash : UInt32) (absolute : Bool)
    (stored : ByteArray) :
    live hash absolute stored ∉ s.contents ∧ s.remove hash absolute stored = (s, false) ∨
      live hash absolute stored ∈ s.contents ∧ ∃ rest : Shard, rest.Valid ∧
        s.remove hash absolute stored = (rest.tidy, true) ∧
        rest.contents = s.contents.filter (· ≠ live hash absolute stored) := by
  obtain ⟨es, h⟩ := h
  obtain ⟨arena, table⟩ := s
  rw [Shard.remove]
  rcases ProbeTable.remove_cases h.sound hash (holdsAt arena absolute stored) with
    ⟨hremove, hunwanted⟩ | ⟨offset, table', hremove, haccept, hsound, hperm⟩
  · rw [hremove]
    exact .inl ⟨h.not_mem_of_unwanted hunwanted, rfl⟩
  · have hmem := h.mem_alive_of_wanted (hperm.mem_iff.mpr List.mem_cons_self) haccept
    obtain ⟨es', h', halive⟩ := h.kill hmem hsound hperm
    rw [hremove]
    refine .inr ⟨h.mem_contents.mpr ⟨offset, hmem⟩, _, ⟨es', h'⟩, rfl, ?_⟩
    rw [h'.contents_eq, halive, h.map_filter_offset hmem]

/-- **Removing an entry takes it out if it is there, and answers whether it was.** -/
theorem Valid.remove [Memory] (h : s.Valid) (hash : UInt32) (absolute : Bool) (stored : ByteArray) :
    ∃ s', s'.Valid ∧ s.remove hash absolute stored =
        (s', decide (live hash absolute stored ∈ s.contents)) ∧
      s'.contents = s.contents.filter (· ≠ live hash absolute stored) := by
  rcases h.remove_cases hash absolute stored with
    ⟨hmem, hremove⟩ | ⟨hmem, rest, hrest, hremove, hcontents⟩
  · rw [hremove, decide_eq_false hmem]
    refine ⟨s, h, rfl, (List.filter_eq_self.mpr fun e he => ?_).symm⟩
    exact decide_eq_true fun heq => hmem (heq ▸ he)
  · rw [hremove, decide_eq_true hmem]
    exact ⟨rest.tidy, hrest.tidy.1, rfl, hrest.tidy.2.trans hcontents⟩

/-- Erasing an entry where it is. -/
theorem Spells.erase (h : s.Spells es) (hmem : (offset, e) ∈ alive 0 es) :
    ∃ es', (s.erase offset e).Spells es' ∧
      alive 0 es' = (alive 0 es).filter fun x => x.1 != offset := by
  obtain ⟨arena, table⟩ := s
  rw [Shard.erase]
  rcases ProbeTable.remove_cases h.sound e.hash (· == offset) with
    ⟨-, hunwanted⟩ | ⟨offset', table', hremove, haccept, hsound, hperm⟩
  · exact absurd ⟨rfl, beq_self_eq_true offset⟩ (hunwanted _ (h.mem_table hmem))
  · obtain rfl := beq_iff_eq.mp haccept
    rw [hremove]
    exact h.kill hmem hsound hperm

/-- Erasing entries where they are, one after the other. -/
theorem Spells.foldl_erase (doomed : List (Nat × Entry)) (h : s.Spells es)
    (hdoomed : ∀ x ∈ doomed, x ∈ alive 0 es) (hpairwise : doomed.Pairwise fun x y => x.1 < y.1) :
    ∃ es', (doomed.foldl (fun s x => s.erase x.1 x.2) s).Spells es' ∧
      alive 0 es' = (alive 0 es).filter fun x => x.1 ∉ doomed.map Prod.fst := by
  induction doomed generalizing s es with
  | nil =>
    refine ⟨es, h, (List.filter_eq_self.mpr fun x _ => ?_).symm⟩
    exact decide_eq_true List.not_mem_nil
  | cons x doomed ih =>
    obtain ⟨hfirst, hpairwise⟩ := List.pairwise_cons.mp hpairwise
    obtain ⟨es₁, h₁, halive₁⟩ := h.erase (hdoomed x List.mem_cons_self)
    have hdoomed₁ : ∀ y ∈ doomed, y ∈ alive 0 es₁ := by
      intro y hy
      rw [halive₁, List.mem_filter, bne_iff_ne]
      exact ⟨hdoomed y (List.mem_cons_of_mem x hy), Nat.ne_of_gt (hfirst y hy)⟩
    obtain ⟨es', h', halive⟩ := ih h₁ hdoomed₁ hpairwise
    refine ⟨es', h', ?_⟩
    rw [halive, halive₁, List.filter_filter]
    refine List.filter_congr fun y _ => ?_
    rw [Bool.eq_iff_iff, Bool.and_eq_true, decide_eq_true_iff, decide_eq_true_iff, bne_iff_ne,
      List.map_cons, List.mem_cons, not_or, and_comm]

/-- If no entry meets a condition, removing those that do changes nothing; else they are taken out,
and then the shard is tidied. -/
theorem Valid.removeWhere_cases [Memory] (h : s.Valid) (meets : Entry → Bool) :
    (∀ e ∈ s.contents, meets e = false) ∧ s.removeWhere meets = (s, 0) ∨
      ∃ rest : Shard, rest.Valid ∧
        s.removeWhere meets = (rest.tidy, s.contents.countP meets) ∧
        rest.contents = s.contents.filter fun e => !meets e := by
  obtain ⟨es, h⟩ := h
  let doomed := (alive 0 es).filter fun x => meets x.2
  have hdoomed : ∀ x ∈ doomed, x ∈ alive 0 es := fun x hx => (List.mem_filter.mp hx).1
  obtain ⟨es', h', halive⟩ := h.foldl_erase doomed hdoomed ((pairwise_alive 0 es).filter _)
  have hrest : ((alive 0 es).filter fun x => x.1 ∉ doomed.map Prod.fst).map Prod.snd =
      s.contents.filter fun e => !meets e := by
    rw [h.contents_eq, List.filter_map]
    refine congrArg _ (List.filter_congr fun x hx => ?_)
    rw [Bool.eq_iff_iff, decide_eq_true_iff, Function.comp, Bool.not_eq_true']
    constructor
    · intro hkept
      refine Bool.eq_false_iff.mpr fun hmeets => hkept ?_
      exact List.mem_map.mpr ⟨x, List.mem_filter.mpr ⟨hx, hmeets⟩, rfl⟩
    · intro hmeets hgone
      obtain ⟨y, hy, heq⟩ := List.mem_map.mp hgone
      obtain ⟨hy, hmeets'⟩ := List.mem_filter.mp hy
      rw [(h.offset_inj hy hx).mp heq, hmeets] at hmeets'
      exact Bool.false_ne_true hmeets'
  have hcount : doomed.length = s.contents.countP meets := by
    rw [h.contents_eq, List.countP_map, List.countP_eq_length_filter]
    rfl
  rw [Shard.removeWhere, h.entries_eq, ← hcount]
  dsimp only
  change _ ∧ ((if doomed.isEmpty then doomed.foldl (fun s x => s.erase x.1 x.2) s else
    (doomed.foldl (fun s x => s.erase x.1 x.2) s).tidy), doomed.length) = (s, 0) ∨ _
  by_cases hnone : doomed = []
  · left
    have hzero : s.contents.countP meets = 0 := by rw [← hcount, hnone, List.length_nil]
    rw [hnone]
    exact ⟨fun e he => Bool.eq_false_iff.mpr (List.countP_eq_zero.mp hzero e he), rfl⟩
  · right
    rw [if_neg (mt List.isEmpty_iff.mp hnone)]
    refine ⟨_, ⟨es', h'⟩, rfl, ?_⟩
    rw [h'.contents_eq, halive, hrest]

/-- **Removing the entries that meet a condition takes out exactly those**, and answers how many
they were. -/
theorem Valid.removeWhere [Memory] (h : s.Valid) (meets : Entry → Bool) :
    ∃ s', s'.Valid ∧ s.removeWhere meets = (s', s.contents.countP meets) ∧
      s'.contents = s.contents.filter fun e => !meets e := by
  rcases h.removeWhere_cases meets with ⟨hnone, hsame⟩ | ⟨rest, hrest, hremove, hcontents⟩
  · refine ⟨s, h, ?_, ?_⟩
    · rw [hsame, List.countP_eq_zero.mpr fun e he => by simp [hnone e he]]
    · exact (List.filter_eq_self.mpr fun e he => by simp [hnone e he]).symm
  · exact ⟨rest.tidy, hrest.tidy.1, hremove, hrest.tidy.2.trans hcontents⟩

end Typeahead.Shard
