import Typeahead.Paths.CommonDirectory
import Typeahead.Proofs.Paths.OrderedSet

/-!
# Storing a path beside a common directory

What is stored of a path determines the path, whether or not there is a common directory and
whether or not the path lies under it. And the test whether a path begins with a pattern, which
compares the pattern with the directory and the stored rest piece by piece, answers what a
comparison with the whole path would.
-/

namespace Typeahead

variable {d : CommonDirectory} {path path' rest : String} {b p : ByteArray}

/-! ### Texts and their bytes -/

/-- The bytes of a text. -/
def bytesOf (text : String) : List UInt8 := text.toUTF8.data.toList

theorem bytesOf_append (text text' : String) :
    bytesOf (text ++ text') = bytesOf text ++ bytesOf text' := by
  rw [bytesOf, String.toUTF8_eq_toByteArray, String.toByteArray_append, toList_data_append]
  rfl

/-- **A text begins with another exactly when its bytes begin with the other's bytes.** -/
theorem bytesOf_prefix_iff (text pattern : String) :
    bytesOf pattern <+: bytesOf text ↔ pattern.toList <+: text.toList := by
  constructor
  · rintro ⟨tail, htail⟩
    refine List.isPrefix_of_utf8Encode_append_eq_utf8Encode tail.toByteArray ?_
    rw [String.utf8Encode_toList, String.utf8Encode_toList]
    refine ByteArray.ext (Array.toList_inj.mp ?_)
    rw [toList_data_append, List.toList_data_toByteArray]
    exact htail
  · rintro ⟨tail, htail⟩
    refine ⟨bytesOf (String.ofList tail), ?_⟩
    rw [← bytesOf_append, ← String.ofList_toList (s := text), ← htail, String.ofList_append,
      String.ofList_toList]

theorem beginsWith_iff (b p : ByteArray) :
    beginsWith b p = true ↔ p.data.toList <+: b.data.toList := by
  rw [beginsWith, Bool.and_eq_true, decide_eq_true_iff, beq_bytes_iff, List.prefix_iff_eq_take,
    length_toList_data, ByteArray.ext_iff, ← Array.toList_inj, ByteArray.data_extract,
    Array.toList_extract, List.extract_eq_take_drop, List.drop_zero, Nat.sub_zero]
  constructor
  · exact fun h => h.2.symm
  · intro h
    refine ⟨?_, h.symm⟩
    have hlength := congrArg List.length h
    rw [List.length_take, length_toList_data, length_toList_data] at hlength
    omega

/-! ### Storing -/

theorem rest?_eq_some {start text tail : List Char}
    (h : CommonDirectory.rest? start text = some tail) : text = start ++ tail := by
  induction start generalizing text with
  | nil =>
    obtain rfl := Option.some.inj h
    rfl
  | cons c start ih =>
    cases text with
    | nil => exact absurd h nofun
    | cons c' text =>
      rw [CommonDirectory.rest?] at h
      split_ifs at h with heq
      rw [heq, ih h, List.cons_append]

/-- The directory and the rest make up the path. -/
theorem CommonDirectory.append_of_strip? (h : d.strip? path = some rest) :
    d.path ++ rest = path := by
  rw [strip?] at h
  split at h
  · rename_i tail heq
    obtain rfl := Option.some.inj h
    rw [← String.ofList_toList (s := path), rest?_eq_some heq, String.ofList_append,
      String.ofList_toList]
  · exact absurd h nofun

/-- A path is stored whole, or relative to the directory. -/
theorem StoredPath.of_cases (d : Option CommonDirectory) (path : String) :
    StoredPath.of d path = ⟨true, path.toUTF8⟩ ∨
      ∃ directory rest, d = some directory ∧ directory.path ++ rest = path ∧
        StoredPath.of d path = ⟨false, rest.toUTF8⟩ := by
  rw [of]
  cases h : d.bind (·.strip? path) with
  | none => exact .inl rfl
  | some rest =>
    obtain ⟨directory, rfl, hstrip⟩ := Option.bind_eq_some_iff.mp h
    exact .inr ⟨directory, rest, rfl, directory.append_of_strip? hstrip, rfl⟩

/-- **Paths are told apart by what is stored of them.** -/
theorem StoredPath.of_inj {d : Option CommonDirectory}
    (h : StoredPath.of d path = StoredPath.of d path') : path = path' := by
  rcases of_cases d path with hwhole | ⟨directory, rest, rfl, rfl, hrest⟩
  · rcases of_cases d path' with hwhole' | ⟨directory', rest', -, -, hrest'⟩
    · rw [hwhole, hwhole'] at h
      exact String.toByteArray_inj.mp (StoredPath.mk.inj h).2
    · rw [hwhole, hrest'] at h
      exact absurd (StoredPath.mk.inj h).1 nofun
  · rcases of_cases (some directory) path' with hwhole' | ⟨directory', rest', heq, rfl, hrest'⟩
    · rw [hrest, hwhole'] at h
      exact absurd (StoredPath.mk.inj h).1 nofun
    · rw [hrest, hrest'] at h
      obtain rfl := Option.some.inj heq
      rw [String.toByteArray_inj.mp (StoredPath.mk.inj h).2]

/-! ### Testing -/

theorem prefix_append_iff_of_length_le {α : Type} {p a b : List α} (h : p.length ≤ a.length) :
    p <+: a ++ b ↔ p <+: a :=
  ⟨fun hp => List.prefix_of_prefix_length_le hp (List.prefix_append a b) h,
    fun hp => hp.trans (List.prefix_append a b)⟩

theorem prefix_append_iff_of_length_ge {α : Type} {p a b : List α} (h : a.length ≤ p.length) :
    p <+: a ++ b ↔ a <+: p ∧ p.drop a.length <+: b := by
  constructor
  · intro hp
    have ha : a <+: p := List.prefix_of_prefix_length_le (List.prefix_append a b) hp h
    obtain ⟨tail, rfl⟩ := ha
    refine ⟨List.prefix_append a tail, ?_⟩
    rw [List.drop_left]
    exact (List.prefix_append_right_inj a).mp hp
  · rintro ⟨⟨tail, rfl⟩, htail⟩
    rw [List.drop_left] at htail
    exact (List.prefix_append_right_inj a).mpr htail

/-- The entry of a path. -/
def entryOf (d : Option CommonDirectory) (hash : UInt32) (path : String) : Entry :=
  Shard.live hash (StoredPath.of d path).absolute (StoredPath.of d path).text

theorem entryOf_inj {d : Option CommonDirectory} {hash hash' : UInt32}
    (h : entryOf d hash path = entryOf d hash' path') : path = path' := by
  obtain ⟨-, habsolute, -, htext⟩ := Entry.mk.inj h
  exact StoredPath.of_inj (congrArg₂ StoredPath.mk habsolute htext)

/-- **The test on a stored path is a comparison of bytes with the whole path.** -/
theorem pathBeginsWith_entryOf (d : Option CommonDirectory) (hash : UInt32) (path : String)
    (pattern : ByteArray) :
    (entryOf d hash path).pathBeginsWith d pattern = beginsWith path.toUTF8 pattern := by
  rw [entryOf]
  rcases StoredPath.of_cases d path with hwhole | ⟨directory, rest, rfl, rfl, hrest⟩
  · rw [hwhole]
    rfl
  · have hbytes : (directory.path ++ rest).toUTF8.data.toList =
        directory.path.toUTF8.data.toList ++ rest.toUTF8.data.toList := bytesOf_append _ _
    rw [hrest, Entry.pathBeginsWith, Bool.eq_iff_iff, beginsWith_iff, hbytes]
    change (if pattern.size ≤ directory.path.toUTF8.size then _ else _) = true ↔ _
    split_ifs with hshort
    · rw [beginsWith_iff, prefix_append_iff_of_length_le]
      rwa [length_toList_data, length_toList_data]
    · rw [Bool.and_eq_true, beginsWith_iff, beginsWith_iff, prefix_append_iff_of_length_ge,
        ByteArray.data_extract, Array.toList_extract, List.extract_eq_take_drop,
        length_toList_data, List.take_of_length_le]
      · rfl
      · refine Nat.le_of_eq ?_
        rw [List.length_drop, length_toList_data]
      · rw [length_toList_data, length_toList_data]
        omega

/-- **Whether the path of an entry begins with a text** is asked of the characters. -/
theorem pathBeginsWith_iff (d : Option CommonDirectory) (hash : UInt32) (path pattern : String) :
    (entryOf d hash path).pathBeginsWith d pattern.toUTF8 = true ↔
      pattern.toList <+: path.toList := by
  rw [pathBeginsWith_entryOf, beginsWith_iff]
  exact bytesOf_prefix_iff path pattern

/-! ### The paths of a shard -/

theorem entryOf_ne {d : Option CommonDirectory} {hash hash' : UInt32} :
    entryOf d hash path ≠ entryOf d hash' path' ↔ path ≠ path' ∨ hash ≠ hash' := by
  rw [← not_and_or, not_iff_not]
  constructor
  · exact fun h => ⟨entryOf_inj h, (Entry.mk.inj h).1⟩
  · rintro ⟨rfl, rfl⟩
    rfl

theorem size_text_le (d : Option CommonDirectory) (path : String) :
    (StoredPath.of d path).text.size ≤ path.utf8ByteSize := by
  rcases StoredPath.of_cases d path with hwhole | ⟨directory, rest, rfl, rfl, hrest⟩
  · rw [hwhole]
    exact Nat.le_refl _
  · rw [hrest, String.utf8ByteSize_append]
    exact Nat.le_add_left _ _

/-- **A shard and the paths that it holds**, in the order in which they were added. -/
structure Shard.Lists (s : Shard) (d : Option CommonDirectory) (hash : String → UInt32)
    (paths : List String) : Prop where
  /-- The shard is sound. -/
  valid : s.Valid
  /-- Its entries are those of the paths. -/
  contents_eq : s.contents = paths.map fun path => entryOf d (hash path) path

namespace Shard.Lists

variable {s : Shard} {d : Option CommonDirectory} {hash : String → UInt32} {paths : List String}
variable {path : String}

theorem empty {table : ProbeTable} (h : table.Sound) (hempty : table.contents = [])
    (d : Option CommonDirectory) (hash : String → UInt32) :
    Lists { table } d hash [] :=
  ⟨⟨[], spells_empty h hempty⟩, (spells_empty h hempty).contents_eq⟩

theorem nodup (h : s.Lists d hash paths) : paths.Nodup :=
  .of_map _ (h.contents_eq ▸ h.valid.nodup_contents)

/-- The paths of a shard are determined by its entries. -/
theorem unique {paths' : List String} (h : s.Lists d hash paths) (h' : s.Lists d hash paths') :
    paths = paths' := by
  have hinj : Function.Injective fun path => entryOf d (hash path) path :=
    fun _ _ heq => entryOf_inj heq
  exact hinj.list_map (h.contents_eq.symm.trans h'.contents_eq)

theorem size_eq (h : s.Lists d hash paths) : s.size = paths.length := by
  rw [h.valid.size_eq, h.contents_eq, List.length_map]

theorem mem_iff (h : s.Lists d hash paths) (path : String) :
    entryOf d (hash path) path ∈ s.contents ↔ path ∈ paths := by
  rw [h.contents_eq, List.mem_map]
  constructor
  · rintro ⟨path', hmem, heq⟩
    rwa [← entryOf_inj heq]
  · exact fun hmem => ⟨path, hmem, rfl⟩

theorem find? (h : s.Lists d hash paths) (path : String) :
    (s.find? (hash path) (StoredPath.of d path).absolute (StoredPath.of d path).text).isSome =
      decide (path ∈ paths) := by
  rw [h.valid.isSome_find?]
  exact decide_eq_decide.mpr (h.mem_iff path)

section Changes

variable [Memory]

theorem insert_of_mem (h : s.Lists d hash paths) (hmem : path ∈ paths) :
    s.insert (hash path) (StoredPath.of d path).absolute (StoredPath.of d path).text =
      (s, .ok false) :=
  h.valid.insert_of_mem ((h.mem_iff path).mpr hmem)

/-- What keeps a shard from adding a path that can be one. -/
theorem refusal?_eq (s : Shard) (d : Option CommonDirectory)
    (hlong : path.utf8ByteSize ≤ Arena.longestText) :
    s.refusal? (StoredPath.of d path).text = s.shortage? :=
  refusal?_eq_shortage? (Nat.le_trans (size_text_le d path) hlong)

theorem insert_of_shortage (h : s.Lists d hash paths) (hnew : path ∉ paths)
    (hlong : path.utf8ByteSize ≤ Arena.longestText) {fault : Fault}
    (hshortage : s.shortage? = some fault) :
    ∃ s', s.insert (hash path) (StoredPath.of d path).absolute (StoredPath.of d path).text =
        (s', .error fault) ∧ s'.Lists d hash paths := by
  obtain ⟨s', hvalid, hinsert, hcontents⟩ :=
    h.valid.insert_of_not_mem (fun hmem => hnew ((h.mem_iff path).mp hmem))
  rw [refusal?_eq s d hlong, hshortage] at hinsert hcontents
  exact ⟨s', hinsert, hvalid, hcontents.trans h.contents_eq⟩

theorem insert_of_room (h : s.Lists d hash paths) (hnew : path ∉ paths)
    (hlong : path.utf8ByteSize ≤ Arena.longestText) (hroom : s.shortage? = none) :
    ∃ s', s.insert (hash path) (StoredPath.of d path).absolute (StoredPath.of d path).text =
        (s', .ok true) ∧ s'.Lists d hash (paths ++ [path]) := by
  obtain ⟨s', hvalid, hinsert, hcontents⟩ :=
    h.valid.insert_of_not_mem (fun hmem => hnew ((h.mem_iff path).mp hmem))
  rw [refusal?_eq s d hlong, hroom] at hinsert hcontents
  refine ⟨s', hinsert, hvalid, ?_⟩
  rw [hcontents, h.contents_eq, List.map_append]
  rfl

theorem remove (h : s.Lists d hash paths) (path : String) :
    ∃ s', s.remove (hash path) (StoredPath.of d path).absolute (StoredPath.of d path).text =
        (s', decide (path ∈ paths)) ∧ s'.Lists d hash (paths.filter (· ≠ path)) := by
  obtain ⟨s', hvalid, hremove, hcontents⟩ := h.valid.remove (hash path)
    (StoredPath.of d path).absolute (StoredPath.of d path).text
  refine ⟨s', ?_, hvalid, ?_⟩
  · rw [hremove]
    exact congrArg _ (decide_eq_decide.mpr (h.mem_iff path))
  · rw [hcontents, h.contents_eq, List.filter_map]
    refine congrArg _ (List.filter_congr fun path' _ => ?_)
    rw [Function.comp, decide_eq_decide]
    exact entryOf_ne.trans ⟨fun hne => hne.elim id fun hhash heq => hhash (heq ▸ rfl), .inl⟩

theorem removeWhere (h : s.Lists d hash paths) (pattern : String) :
    ∃ s', s.removeWhere (fun entry => entry.pathBeginsWith d pattern.toUTF8) =
        (s', paths.countP fun path => pattern.toList.isPrefixOf path.toList) ∧
      s'.Lists d hash (paths.filter fun path => !pattern.toList.isPrefixOf path.toList) := by
  have hmeets : ∀ path, (entryOf d (hash path) path).pathBeginsWith d pattern.toUTF8 =
      pattern.toList.isPrefixOf path.toList := by
    intro path
    rw [Bool.eq_iff_iff, pathBeginsWith_iff, List.isPrefixOf_iff_prefix]
  obtain ⟨s', hvalid, hremove, hcontents⟩ :=
    h.valid.removeWhere fun entry => entry.pathBeginsWith d pattern.toUTF8
  refine ⟨s', ?_, hvalid, ?_⟩
  · rw [hremove, h.contents_eq, List.countP_map]
    exact congrArg _ (List.countP_congr fun path _ => by rw [Function.comp, hmeets])
  · rw [hcontents, h.contents_eq, List.filter_map]
    refine congrArg _ (List.filter_congr fun path _ => ?_)
    rw [Function.comp, hmeets]

end Changes

end Shard.Lists

end Typeahead
