import Mathlib.Algebra.Ring.Nat
import Mathlib.Data.List.Basic
import Typeahead.Paths.Arena

/-!
# What an arena spells

The bytes of an arena are the encodings of its entries, one after the other, of those that have
been removed as well. Everything an arena does is said here in terms of that list of entries:
reading at the offset where an entry begins gives the entry, pushing appends one, killing marks
one, and walking the arena lists those that are not marked.
-/

namespace Typeahead

/-! ### Bytes -/

/-- The `count` lowest bytes of a number, little-endian. -/
def littleEndian (n : Nat) : Nat → List UInt8
  | 0 => []
  | count + 1 => n.toUInt8 :: littleEndian (n / 256) count

@[simp] theorem length_littleEndian (n count : Nat) : (littleEndian n count).length = count := by
  induction count generalizing n with
  | zero => rfl
  | succ count ih => rw [littleEndian, List.length_cons, ih]

theorem toList_data_push (bytes : ByteArray) (byte : UInt8) :
    (bytes.push byte).data.toList = bytes.data.toList ++ [byte] :=
  Array.toList_push

theorem toList_data_append (bytes bytes' : ByteArray) :
    (bytes ++ bytes').data.toList = bytes.data.toList ++ bytes'.data.toList := by
  rw [ByteArray.data_append, Array.toList_append]

theorem length_toList_data (bytes : ByteArray) : bytes.data.toList.length = bytes.size := by
  rw [Array.length_toList, ByteArray.size_data]

theorem beq_bytes_iff {bytes bytes' : ByteArray} : (bytes == bytes') = true ↔ bytes = bytes' := by
  rw [ByteArray.ext_iff]
  exact beq_iff_eq (a := bytes.data)

namespace Arena

variable {bytes : ByteArray} {before after part : List UInt8}

theorem byteAt_of_toList {byte : UInt8} (h : bytes.data.toList = before ++ byte :: after) :
    byteAt bytes before.length = byte.toNat := by
  have hlt : before.length < bytes.size := by
    rw [← length_toList_data, h, List.length_append, List.length_cons]
    omega
  have hget : bytes.data.toList[before.length]? = some byte := by
    rw [h, List.getElem?_append_right (Nat.le_refl _), Nat.sub_self, List.getElem?_cons_zero]
  obtain ⟨hlt', hget⟩ := List.getElem?_eq_some_iff.mp hget
  rw [byteAt, dif_pos hlt, ← hget]
  rfl

theorem numberAt_of_toList {n count : Nat}
    (h : bytes.data.toList = before ++ (littleEndian n count ++ after)) :
    numberAt bytes before.length count = n % 256 ^ count := by
  induction count generalizing before n with
  | zero => rw [numberAt, Nat.pow_zero, Nat.mod_one]
  | succ count ih =>
    rw [littleEndian, List.cons_append] at h
    have hrest : bytes.data.toList =
        (before ++ [n.toUInt8]) ++ (littleEndian (n / 256) count ++ after) := by
      rw [h, List.append_assoc, List.singleton_append]
    have hnumber := ih hrest
    rw [List.length_append, List.length_singleton] at hnumber
    rw [numberAt, byteAt_of_toList h, hnumber, Nat.pow_succ', Nat.mod_mul]
    rfl

theorem toList_pushNumber (bytes : ByteArray) (n count : Nat) :
    (pushNumber bytes n count).data.toList = bytes.data.toList ++ littleEndian n count := by
  induction count generalizing bytes n with
  | zero => rw [pushNumber, littleEndian, List.append_nil]
  | succ count ih =>
    rw [pushNumber, ih, toList_data_push, List.append_assoc, List.singleton_append, littleEndian]

theorem extract_of_toList {stored : ByteArray}
    (h : bytes.data.toList = before ++ (stored.data.toList ++ after)) :
    bytes.extract before.length (before.length + stored.size) = stored := by
  refine ByteArray.ext (Array.toList_inj.mp ?_)
  rw [ByteArray.data_extract, Array.toList_extract, h, List.extract_eq_take_drop,
    List.drop_left, Nat.add_sub_cancel_left, ← length_toList_data, List.take_left]

/-! ### Entries -/

end Arena

namespace Entry

instance : DecidableEq Entry := fun e e' =>
  decidable_of_iff
    (e.hash = e'.hash ∧ e.absolute = e'.absolute ∧ e.dead = e'.dead ∧
      (e.stored == e'.stored) = true) (by
    rw [beq_bytes_iff]
    cases e
    cases e'
    rw [mk.injEq])

/-- Two flags in a byte. -/
def flagByte (absolute dead : Bool) : UInt8 :=
  (if absolute then 1 else 0) ||| (if dead then 2 else 0)

/-- The flags of an entry. -/
def flags (e : Entry) : UInt8 := flagByte e.absolute e.dead

/-- The bytes of an entry. -/
def encode (e : Entry) : List UInt8 :=
  littleEndian e.hash.toNat 4 ++ (e.flags :: (littleEndian e.stored.size 2 ++
    e.stored.data.toList))

/-- The entry once it has been removed. -/
def bury (e : Entry) : Entry := { e with dead := true }

@[simp] theorem length_encode (e : Entry) : e.encode.length = e.size := by
  rw [encode, List.length_append, length_littleEndian, List.length_cons, List.length_append,
    length_littleEndian, length_toList_data, size, headerSize]
  omega

@[simp] theorem size_bury (e : Entry) : e.bury.size = e.size := rfl

theorem size_pos (e : Entry) : 0 < e.size := Nat.lt_of_lt_of_le (by decide) (Nat.le_add_right 7 _)

theorem absolute_of_flags (e : Entry) : (e.flags.toNat % 2 == 1) = e.absolute := by
  rw [flags]
  generalize e.absolute = absolute, e.dead = dead
  revert absolute dead
  decide

theorem dead_of_flags (e : Entry) : (e.flags.toNat / 2 % 2 == 1) = e.dead := by
  rw [flags]
  generalize e.absolute = absolute, e.dead = dead
  revert absolute dead
  decide

/-- Burying sets one flag. -/
theorem flags_bury (e : Entry) : e.bury.flags = e.flags.toNat.toUInt8 ||| 2 := by
  change flagByte e.absolute true = (flagByte e.absolute e.dead).toNat.toUInt8 ||| 2
  generalize e.absolute = absolute, e.dead = dead
  revert absolute dead
  decide

end Entry

namespace Arena

/-- How many bytes some entries take. -/
def extent : List Entry → Nat
  | [] => 0
  | e :: es => e.size + extent es

/-- Entries with their offsets, the first of which is given. -/
def located (offset : Nat) : List Entry → List (Nat × Entry)
  | [] => []
  | e :: es => (offset, e) :: located (offset + e.size) es

/-- Those of some entries that have not been removed, with their offsets. -/
def alive (offset : Nat) (es : List Entry) : List (Nat × Entry) :=
  (located offset es).filter fun x => !x.2.dead

/-- **An arena and the entries it spells.** -/
structure Spells (a : Arena) (es : List Entry) : Prop where
  /-- The bytes are those of the entries. -/
  bytes_eq : a.bytes.data.toList = es.flatMap Entry.encode
  /-- No text is too long for its length to be written down. -/
  stored_le : ∀ e ∈ es, e.stored.size ≤ longestText
  /-- Every offset is a number of 32 bits and not the last of them. -/
  offset_lt : ∀ x ∈ located 0 es, x.1 < offsetLimit
  /-- The live entries are counted. -/
  liveEntries_eq : a.liveEntries = (alive 0 es).length
  /-- So are the bytes of the others. -/
  deadBytes_eq : a.deadBytes = extent (es.filter Entry.dead)

variable {a : Arena} {e e' : Entry} {es es' pre post : List Entry} {offset offset' : Nat}

/-! ### Offsets -/

@[simp] theorem extent_nil : extent [] = 0 := rfl

@[simp] theorem extent_cons (e : Entry) (es : List Entry) :
    extent (e :: es) = e.size + extent es := rfl

@[simp] theorem extent_append (es es' : List Entry) :
    extent (es ++ es') = extent es + extent es' := by
  induction es with
  | nil => rw [List.nil_append, extent_nil, Nat.zero_add]
  | cons e es ih => rw [List.cons_append, extent_cons, ih, extent_cons, Nat.add_assoc]

theorem length_flatMap_encode (es : List Entry) :
    (es.flatMap Entry.encode).length = extent es := by
  induction es with
  | nil => rfl
  | cons e es ih => rw [List.flatMap_cons, List.length_append, Entry.length_encode, ih, extent_cons]

theorem Spells.size_bytes (h : a.Spells es) : a.bytes.size = extent es := by
  rw [← length_toList_data, h.bytes_eq, length_flatMap_encode]

theorem located_append (offset : Nat) (es es' : List Entry) :
    located offset (es ++ es') = located offset es ++ located (offset + extent es) es' := by
  induction es generalizing offset with
  | nil => rw [List.nil_append, located, List.nil_append, extent_nil, Nat.add_zero]
  | cons e es ih => rw [List.cons_append, located, located, ih, List.cons_append, extent_cons,
      Nat.add_assoc]

theorem alive_append (offset : Nat) (es es' : List Entry) :
    alive offset (es ++ es') = alive offset es ++ alive (offset + extent es) es' := by
  rw [alive, located_append, List.filter_append, alive, alive]

theorem alive_cons_of_dead (h : e.dead = true) (offset : Nat) (es : List Entry) :
    alive offset (e :: es) = alive (offset + e.size) es := by
  rw [alive, located, List.filter_cons_of_neg (by simp [h]), alive]

theorem alive_cons_of_live (h : e.dead = false) (offset : Nat) (es : List Entry) :
    alive offset (e :: es) = (offset, e) :: alive (offset + e.size) es := by
  rw [alive, located, List.filter_cons_of_pos (by simp [h]), alive]

theorem le_of_mem_located {x : Nat × Entry} (h : x ∈ located offset es) : offset ≤ x.1 := by
  induction es generalizing offset with
  | nil => exact absurd h List.not_mem_nil
  | cons e es ih =>
    rcases List.mem_cons.mp h with rfl | h
    · exact Nat.le_refl _
    · exact Nat.le_trans (Nat.le_add_right offset e.size) (ih h)

theorem mem_of_mem_located {x : Nat × Entry} (h : x ∈ located offset es) : x.2 ∈ es := by
  induction es generalizing offset with
  | nil => exact absurd h List.not_mem_nil
  | cons e es ih =>
    rcases List.mem_cons.mp h with rfl | h
    · exact List.mem_cons_self
    · exact List.mem_cons_of_mem e (ih h)

theorem length_located (offset : Nat) (es : List Entry) :
    (located offset es).length = es.length := by
  induction es generalizing offset with
  | nil => rfl
  | cons e es ih => rw [located, List.length_cons, ih, List.length_cons]

/-- When no entry has been removed, all are alive. -/
theorem map_snd_alive (h : ∀ e ∈ es, e.dead = false) : (alive offset es).map Prod.snd = es := by
  induction es generalizing offset with
  | nil => rfl
  | cons e es ih =>
    rw [alive_cons_of_live (h e List.mem_cons_self), List.map_cons,
      ih fun e' he' => h e' (List.mem_cons_of_mem e he')]

/-- Offsets ascend. -/
theorem pairwise_located (offset : Nat) (es : List Entry) :
    (located offset es).Pairwise fun x y => x.1 < y.1 := by
  induction es generalizing offset with
  | nil => exact .nil
  | cons e es ih =>
    refine .cons (fun y hy => ?_) (ih _)
    exact Nat.lt_of_lt_of_le (Nat.lt_add_of_pos_right e.size_pos) (le_of_mem_located hy)

theorem pairwise_alive (offset : Nat) (es : List Entry) :
    (alive offset es).Pairwise fun x y => x.1 < y.1 :=
  (pairwise_located offset es).filter _

/-- Where an entry begins, the entries before it end. -/
theorem exists_of_mem_located (h : (offset', e) ∈ located offset es) :
    ∃ pre post, es = pre ++ e :: post ∧ offset' = offset + extent pre := by
  induction es generalizing offset with
  | nil => exact absurd h List.not_mem_nil
  | cons e₁ es ih =>
    rcases List.mem_cons.mp h with heq | h
    · obtain ⟨rfl, rfl⟩ := Prod.mk.inj heq
      exact ⟨[], es, rfl, rfl⟩
    · obtain ⟨pre, post, rfl, rfl⟩ := ih h
      exact ⟨e₁ :: pre, post, rfl, by rw [extent_cons, Nat.add_assoc]⟩

theorem mem_located_extent (pre post : List Entry) (e : Entry) :
    (extent pre, e) ∈ located 0 (pre ++ e :: post) := by
  rw [located_append, Nat.zero_add]
  exact List.mem_append_right _ List.mem_cons_self

theorem mem_alive : (offset', e) ∈ alive offset es ↔
    (offset', e) ∈ located offset es ∧ e.dead = false := by
  rw [alive, List.mem_filter, Bool.not_eq_true']

/-- Burying an entry takes its offset out of those of the live entries. -/
theorem alive_bury (h : e.dead = false) (pre post : List Entry) :
    alive 0 (pre ++ e.bury :: post) =
      (alive 0 (pre ++ e :: post)).filter fun x => x.1 != extent pre := by
  have hpairwise := pairwise_alive 0 (pre ++ e :: post)
  rw [alive_append, alive_cons_of_live h] at hpairwise
  obtain ⟨-, hpost, hpre⟩ := List.pairwise_append.mp hpairwise
  obtain ⟨hpost, -⟩ := List.pairwise_cons.mp hpost
  rw [alive_append, alive_cons_of_dead rfl, alive_append, alive_cons_of_live h,
    List.filter_append, List.filter_cons_of_neg (by simp), List.filter_eq_self.mpr,
    List.filter_eq_self.mpr]
  · rfl
  · intro x hx
    have hlt := hpost x hx
    rw [Nat.zero_add] at hlt
    exact bne_iff_ne.mpr (Nat.ne_of_gt hlt)
  · intro x hx
    have hlt := hpre x hx _ List.mem_cons_self
    rw [Nat.zero_add] at hlt
    exact bne_iff_ne.mpr (Nat.ne_of_lt hlt)

/-- No more entries begin below a bound than there are numbers below it. -/
theorem length_le_of_located_lt {limit : Nat} (h : ∀ x ∈ located offset es, x.1 < limit) :
    offset + es.length ≤ max offset limit := by
  induction es generalizing offset with
  | nil => exact Nat.le_max_left offset limit
  | cons e es ih =>
    have hlt : offset < limit := h _ List.mem_cons_self
    have hrest := ih fun x hx => h x (List.mem_cons_of_mem _ hx)
    have hpos := e.size_pos
    rw [List.length_cons]
    omega

/-! ### Reading -/

theorem entryAt?_of_toList {before after : List UInt8} (hfits : e.stored.size ≤ longestText)
    (h : a.bytes.data.toList = before ++ (e.encode ++ after)) :
    a.entryAt? before.length = some e := by
  have hsize : a.bytes.size =
      before.length + (Entry.headerSize + e.stored.size) + after.length := by
    rw [← length_toList_data, h, List.length_append, List.length_append, Entry.length_encode,
      Entry.size]
    omega
  rw [Entry.encode, List.append_assoc, List.cons_append, List.append_assoc] at h
  have hhash : numberAt a.bytes before.length 4 = e.hash.toNat := by
    exact (numberAt_of_toList h).trans (Nat.mod_eq_of_lt e.hash.toNat_lt)
  have hflags : byteAt a.bytes (before.length + 4) = e.flags.toNat := by
    have hbyte := byteAt_of_toList (h.trans (List.append_assoc _ _ _).symm)
    rwa [List.length_append, length_littleEndian] at hbyte
  have hlength : numberAt a.bytes (before.length + 5) 2 = e.stored.size := by
    have h' : a.bytes.data.toList = (before ++ (littleEndian e.hash.toNat 4 ++ [e.flags])) ++
        (littleEndian e.stored.size 2 ++ (e.stored.data.toList ++ after)) := by
      rw [h, List.append_assoc, List.append_assoc, List.singleton_append]
    have hnumber := numberAt_of_toList h'
    rw [List.length_append, List.length_append, length_littleEndian] at hnumber
    rw [show before.length + 5 = before.length + (4 + [e.flags].length) from rfl, hnumber]
    exact Nat.mod_eq_of_lt (Nat.lt_of_le_of_lt hfits (by decide))
  have hstored : a.bytes.extract (before.length + Entry.headerSize)
      (before.length + Entry.headerSize + e.stored.size) = e.stored := by
    have h' : a.bytes.data.toList = (before ++ (littleEndian e.hash.toNat 4 ++ [e.flags] ++
        littleEndian e.stored.size 2)) ++ (e.stored.data.toList ++ after) := by
      rw [h, List.append_assoc, List.append_assoc, List.append_assoc, List.singleton_append]
    have hextract := extract_of_toList h'
    rwa [List.length_append, List.length_append, List.length_append, length_littleEndian,
      length_littleEndian] at hextract
  rw [entryAt?]
  dsimp only
  rw [if_neg (by omega), hlength, if_neg (by omega), hhash, hflags, hstored,
    Entry.absolute_of_flags, Entry.dead_of_flags, Nat.toUInt32, UInt32.ofNat_toNat]

/-- **Reading where an entry begins gives the entry.** -/
theorem Spells.entryAt?_eq (h : a.Spells es) (hmem : (offset, e) ∈ located 0 es) :
    a.entryAt? offset = some e := by
  have hfits := h.stored_le e (mem_of_mem_located hmem)
  obtain ⟨pre, post, rfl, rfl⟩ := exists_of_mem_located hmem
  have hbytes := h.bytes_eq
  rw [List.flatMap_append, List.flatMap_cons] at hbytes
  rw [Nat.zero_add, ← length_flatMap_encode]
  exact entryAt?_of_toList hfits hbytes

theorem entryAt?_size (a : Arena) : a.entryAt? a.bytes.size = none := by
  rw [entryAt?]
  exact if_pos (Nat.lt_add_of_pos_right (by decide))

/-- Past the last entry a walk finds nothing, also where the bytes reach beyond 32 bits. -/
theorem entryAhead?_size (a : Arena) : a.entryAhead? a.bytes.size = none := by
  rw [entryAhead?, entryAt?_size, ite_self]

/-- A walk finds every entry, since all of them begin at offsets of 32 bits. -/
theorem Spells.entryAhead?_eq (h : a.Spells es) (hmem : (offset, e) ∈ located 0 es) :
    a.entryAhead? offset = some e := by
  have hlt : offset < offsetLimit := h.offset_lt _ hmem
  rw [entryAhead?, if_pos (Nat.lt_of_lt_of_le hlt (Nat.sub_le _ 1)), h.entryAt?_eq hmem]

/-- Walking on from where an entry begins lists the entries that are left. -/
theorem Spells.entriesFrom_eq (h : a.Spells (pre ++ es)) :
    a.entriesFrom (extent pre) = alive (extent pre) es := by
  induction es generalizing pre with
  | nil =>
    rw [List.append_nil] at h
    rw [← h.size_bytes, entriesFrom]
    split
    · rfl
    · rename_i heq
      rw [entryAhead?_size] at heq
      exact absurd heq.symm (Option.some_ne_none _)
  | cons e es ih =>
    have hentry := h.entryAhead?_eq (mem_located_extent pre es e)
    rw [List.append_cons] at h
    have hrest := ih h
    rw [extent_append, extent_cons, extent_nil, Nat.add_zero] at hrest
    rw [entriesFrom]
    split
    · rename_i heq
      rw [hentry] at heq
      exact absurd heq (Option.some_ne_none e)
    · rename_i entry heq
      obtain rfl := Option.some.inj (hentry.symm.trans heq)
      split_ifs with hdead
      · rw [hrest, alive_cons_of_dead hdead]
      · rw [hrest, alive_cons_of_live (Bool.eq_false_iff.mpr hdead)]

/-- **Walking an arena lists its live entries**, each with its offset. -/
theorem Spells.entries_eq (h : a.Spells es) : a.entries = alive 0 es := by
  change a.entriesFrom (extent []) = alive (extent []) es
  exact Spells.entriesFrom_eq h

/-! ### Writing -/

theorem spells_empty : Spells {} [] :=
  ⟨rfl, nofun, nofun, rfl, rfl⟩

theorem bytes_push (a : Arena) (hash : UInt32) (absolute : Bool) (stored : ByteArray) :
    (a.push hash absolute stored).bytes.data.toList =
      a.bytes.data.toList ++ Entry.encode ⟨hash, absolute, false, stored⟩ := by
  have hflags : Entry.flags ⟨hash, absolute, false, stored⟩ = if absolute then 1 else 0 := by
    change Entry.flagByte absolute false = _
    revert absolute
    decide
  rw [push, Entry.encode, hflags]
  dsimp only
  rw [toList_data_append, toList_pushNumber, toList_data_push, toList_pushNumber]
  simp only [List.append_assoc, List.cons_append, List.nil_append]

/-- **Pushing appends an entry.** -/
theorem Spells.push {stored : ByteArray} (h : a.Spells es) (hash : UInt32) (absolute : Bool)
    (hallowed : a.refusal? stored = none) :
    (a.push hash absolute stored).Spells (es ++ [⟨hash, absolute, false, stored⟩]) := by
  rw [refusal?] at hallowed
  split_ifs at hallowed with hlong hfull
  have hsize := h.size_bytes
  constructor
  case bytes_eq =>
    rw [bytes_push, h.bytes_eq, List.flatMap_append, List.flatMap_cons, List.flatMap_nil,
      List.append_nil]
  case stored_le =>
    rw [List.forall_mem_append, List.forall_mem_singleton]
    exact ⟨h.stored_le, Nat.not_lt.mp hlong⟩
  case offset_lt =>
    rw [located_append, List.forall_mem_append, located, located, List.forall_mem_singleton]
    refine ⟨h.offset_lt, ?_⟩
    omega
  case liveEntries_eq =>
    rw [alive_append, alive_cons_of_live rfl, List.length_append, ← h.liveEntries_eq]
    rfl
  case deadBytes_eq =>
    rw [List.filter_append, extent_append, ← h.deadBytes_eq]
    rfl

/-- The flags of one entry, and the bytes before and after them. -/
theorem flatMap_encode_eq (pre post : List Entry) (e : Entry) :
    (pre ++ e :: post).flatMap Entry.encode =
      (pre.flatMap Entry.encode ++ littleEndian e.hash.toNat 4) ++ e.flags ::
        (littleEndian e.stored.size 2 ++ e.stored.data.toList ++ post.flatMap Entry.encode) := by
  rw [List.flatMap_append, List.flatMap_cons, Entry.encode, List.append_assoc, List.append_assoc,
    List.cons_append]

/-- Setting the flag of an entry where its flags are buries it. -/
theorem Spells.toList_set_flags (h : a.Spells (pre ++ e :: post)) :
    (a.bytes.set! (extent pre + 4)
      ((byteAt a.bytes (extent pre + 4)).toUInt8 ||| 2)).data.toList =
      (pre ++ e.bury :: post).flatMap Entry.encode := by
  have hbytes := h.bytes_eq
  rw [flatMap_encode_eq] at hbytes
  have hplace : (pre.flatMap Entry.encode ++ littleEndian e.hash.toNat 4).length =
      extent pre + 4 := by
    rw [List.length_append, length_flatMap_encode, length_littleEndian]
  have hflags := byteAt_of_toList hbytes
  rw [hplace] at hflags
  change (a.bytes.data.set! (extent pre + 4) _).toList = _
  rw [hflags, ← e.flags_bury, Array.set!_eq_setIfInBounds, Array.toList_setIfInBounds, hbytes,
    ← hplace, List.set_append_right _ _ (Nat.le_refl _), Nat.sub_self, List.set_cons_zero,
    flatMap_encode_eq]
  rfl

/-- **Killing a live entry marks it.** -/
theorem Spells.kill (h : a.Spells (pre ++ e :: post)) (hlive : e.dead = false) :
    (a.kill (extent pre)).1.Spells (pre ++ e.bury :: post) ∧ (a.kill (extent pre)).2 = true := by
  rw [Arena.kill, h.entryAt?_eq (mem_located_extent pre post e)]
  dsimp only
  rw [if_neg (by rw [hlive]; exact Bool.false_ne_true)]
  refine ⟨?_, rfl⟩
  constructor
  case bytes_eq => exact h.toList_set_flags
  case stored_le =>
    have hstored := h.stored_le
    rw [List.forall_mem_append, List.forall_mem_cons] at hstored ⊢
    exact hstored
  case offset_lt =>
    have hoffset := h.offset_lt
    rw [located_append, located, List.forall_mem_append, List.forall_mem_cons] at hoffset ⊢
    exact hoffset
  case liveEntries_eq =>
    rw [alive_append, alive_cons_of_dead rfl, h.liveEntries_eq, alive_append,
      alive_cons_of_live hlive, List.length_append, List.length_append, List.length_cons,
      Entry.size_bury]
    rfl
  case deadBytes_eq =>
    have hdead := h.deadBytes_eq
    rw [List.filter_append, List.filter_cons_of_neg (by rw [hlive]; exact Bool.false_ne_true),
      extent_append] at hdead
    rw [List.filter_append, List.filter_cons_of_pos rfl, extent_append, extent_cons,
      Entry.size_bury]
    change a.deadBytes + e.size = _
    omega

end Arena

end Typeahead
