import Mathlib.Data.Finset.Filter
import Mathlib.Logic.Function.Basic
import Typeahead.Config.Document
import Typeahead.Proofs.Config.Settings
import Typeahead.Proofs.Json.Reading

/-!
# Reading a configuration document

Reading an object sets the fields that its keys name, one after the other, on top of the defaults.
After some keys the record is the default one with the fields of these keys replaced, whatever
their order. That is said once for any record; the fields of a part and the parts of a
configuration are two cases of it.
-/

namespace Typeahead

open Typeahead.Json (Literal Member ObjectSpelled RecordField Reads Value)

/-! ### Setting fields in any order -/

/-- Fields by which things are set, each on its own. `state` is the record after some of them have
been set; `IsSet` says of a value that it is what a thing is to be set to. -/
structure Sets {ι α : Type} [DecidableEq ι] (fields : List (RecordField α)) (IsNamed : ι → Prop)
    (name : ι → String) (IsSet : ι → Value → Prop) (state : Finset ι → α) : Prop where
  /-- Different things have different names. -/
  injective : Function.Injective name
  /-- The field of a thing sets it, and leaves the others as they are. -/
  set : ∀ i value used, IsNamed i → IsSet i value → ∃ field,
    fields.find? (fun field => field.name = name i) = some field ∧
      field.set value (state used) = some (state (insert i used))
  /-- There are no other fields. -/
  other : ∀ key, (∀ i, IsNamed i → key ≠ name i) →
    fields.find? (fun field => field.name = key) = none

namespace Sets

variable {ι α : Type} [DecidableEq ι] {fields : List (RecordField α)} {IsNamed : ι → Prop}
  {name : ι → String} {IsSet : ι → Value → Prop} {state : Finset ι → α} {value : Value}
  {names : List String}

theorem setMembers_named (h : Sets fields IsNamed name IsSet state) {i : ι} (hi : IsNamed i)
    (hvalue : IsSet i value) (hunused : name i ∉ names) (rest : List (Option String × Value))
    (used : Finset ι) :
    RecordField.setMembers fields names ((some (name i), value) :: rest) (state used) =
      RecordField.setMembers fields (name i :: names) rest (state (insert i used)) := by
  obtain ⟨field, hfind, hset⟩ := h.set i value used hi hvalue
  have hcontains : names.contains (name i) = false := by simpa using hunused
  rw [RecordField.setMembers]
  simp only [Option.bind_eq_bind, Option.bind_some, hfind, hcontains, hset]
  rfl

theorem setMembers_other (h : Sets fields IsNamed name IsSet state) {key : String}
    (hkey : ∀ i, IsNamed i → key ≠ name i) (rest : List (Option String × Value)) (record : α) :
    RecordField.setMembers fields names ((some key, value) :: rest) record =
      RecordField.setMembers fields names rest record := by
  rw [RecordField.setMembers]
  simp only [Option.bind_eq_bind, Option.bind_some, h.other key hkey]

/-- **Fields are set in any order**, as long as no name is used twice. -/
theorem exists_setMembers_eq (h : Sets fields IsNamed name IsSet state)
    (pairs : List (String × Value)) (names : List String) (used : Finset ι)
    (honce : ∀ i, IsNamed i → (pairs.map Prod.fst).count (name i) + names.count (name i) ≤ 1)
    (hvalue : ∀ p ∈ pairs, ∀ i, IsNamed i → p.1 = name i → IsSet i p.2) :
    ∃ final : Finset ι,
      (∀ i, i ∈ final ↔ i ∈ used ∨ IsNamed i ∧ name i ∈ pairs.map Prod.fst) ∧
      RecordField.setMembers fields names (pairs.map fun p => (some p.1, p.2)) (state used) =
        some (state final) := by
  induction pairs generalizing names used with
  | nil => exact ⟨used, by simp, rfl⟩
  | cons p pairs ih =>
    obtain ⟨key, value⟩ := p
    obtain ⟨hfirst, hlater⟩ := List.forall_mem_cons.mp hvalue
    by_cases hkey : ∃ i, IsNamed i ∧ key = name i
    · obtain ⟨i, hi, rfl⟩ := hkey
      have hunused : name i ∉ names := by
        have hcount := honce i hi
        rw [List.map_cons, List.count_cons_self] at hcount
        exact List.count_eq_zero.mp (by omega)
      obtain ⟨final, hfinal, hrest⟩ := ih (name i :: names) (insert i used)
        (by
          intro j hj
          have hcount := honce j hj
          rw [List.map_cons, List.count_cons] at hcount
          rw [List.count_cons]
          dsimp only at hcount
          omega)
        hlater
      refine ⟨final, fun j => ?_, ?_⟩
      · rw [hfinal, Finset.mem_insert, List.map_cons, List.mem_cons, h.injective.eq_iff]
        constructor
        · rintro ((rfl | hj) | hj)
          · exact .inr ⟨hi, .inl rfl⟩
          · exact .inl hj
          · exact .inr ⟨hj.1, .inr hj.2⟩
        · rintro (hj | ⟨hj, rfl | hmem⟩)
          · exact .inl (.inr hj)
          · exact .inl (.inl rfl)
          · exact .inr ⟨hj, hmem⟩
      · rw [List.map_cons, h.setMembers_named hi (hfirst i hi rfl) hunused]
        exact hrest
    · have hother : ∀ i, IsNamed i → key ≠ name i := fun i hi heq => hkey ⟨i, hi, heq⟩
      obtain ⟨final, hfinal, hrest⟩ := ih names used
        (by
          intro j hj
          have hcount := honce j hj
          rw [List.map_cons, List.count_cons_of_ne (hother j hj)] at hcount
          exact hcount)
        hlater
      refine ⟨final, fun j => ?_, ?_⟩
      · rw [hfinal, List.map_cons, List.mem_cons]
        refine or_congr_right (and_congr_right fun hj => ?_)
        exact (or_iff_right (hother j hj).symm).symm
      · rw [List.map_cons, h.setMembers_other hother]
        exact hrest

end Sets

/-! ### Values of fields -/

/-- The value that a field's contents are read as. -/
def Leaf.value : Leaf → Value
  | .number n => .number ⟨decide (n < 0), n.natAbs, true⟩
  | .text none => .null
  | .text (some s) => .text (some s)

theorem Leaf.Spelled.reads {l : Leaf} {cs : List Char} (h : l.Spelled cs) : Reads cs l.value := by
  match l with
  | .number n =>
    obtain rfl : cs = (toString n).toList := h
    exact Json.reads_number (Json.lexes_decimal n)
  | .text none =>
    obtain rfl : cs = ['n', 'u', 'l', 'l'] := h
    exact Json.reads_null
  | .text (some s) => exact Json.reads_text (Json.TextSpelled.lexes h)

theorem int?_value {n least greatest : Int} (h : least ≤ n ∧ n ≤ greatest) :
    (Leaf.number n).value.int? least greatest = some n := by
  have hzero : ¬ (decide (n < 0) = true ∧ n.natAbs = 0) := by
    rw [decide_eq_true_iff]
    omega
  have hsigned : (if decide (n < 0) = true then -(n.natAbs : Int) else n.natAbs) = n := by
    split_ifs with hn
    · rw [decide_eq_true_iff] at hn
      omega
    · rw [decide_eq_true_iff] at hn
      omega
  rw [Leaf.value, Value.int?, if_neg hzero]
  dsimp only
  rw [hsigned, if_pos h]

theorem nat?_value {n greatest : Nat} (h : n ≤ greatest) :
    (Leaf.number n).value.nat? greatest = some n := by
  rw [Value.nat?, int?_value ⟨by omega, by omega⟩]
  rfl

theorem optionalText?_value (s : Option String) :
    (Leaf.text s).value.optionalText? = some s := by
  cases s <;> rfl

/-! ### Reading an object -/

/-- **An object that gives some fields is read as the record with these fields set.** -/
theorem Gives.exists_reads {ι α : Type} [DecidableEq ι] {fields : List (RecordField α)}
    {IsNamed IsWanted : ι → Prop} {name : ι → String} {IsValue : ι → List Char → Prop}
    {IsSet : ι → Value → Prop} {state : Finset ι → α}
    (hsets : Sets fields IsNamed name IsSet state)
    (hread : ∀ i cs, IsNamed i → IsValue i cs → ∃ v, Reads cs v ∧ IsSet i v)
    {members : List (String × Member)} {cs : List Char} (hspelled : ObjectSpelled members cs)
    (h : Gives IsNamed name IsWanted IsValue members) :
    ∃ (v : Value) (final : Finset ι), Reads cs v ∧
      RecordField.readRecord fields (state ∅) v = some (state final) ∧
      (∀ i ∈ final, ∃ cs, IsValue i cs) ∧ ∀ i, IsNamed i → IsWanted i → i ∈ final := by
  obtain ⟨pairs, hkeys, hpairs, hreads⟩ := hspelled.exists_reads
    (P := fun key v => ∀ i, IsNamed i → key = name i → IsSet i v) (by
      intro m hm
      by_cases hkey : ∃ i, IsNamed i ∧ m.1 = name i
      · obtain ⟨i, hi, heq⟩ := hkey
        obtain ⟨v, hreads, hv⟩ := hread i _ hi (h.value m hm i hi heq)
        refine ⟨v, hreads, fun j _ hj => ?_⟩
        rwa [← hsets.injective (heq.symm.trans hj)]
      · have hformed := h.other m hm fun i hi heq => hkey ⟨i, hi, heq⟩
        obtain ⟨v, hreads⟩ := hformed.exists_reads
        exact ⟨v, hreads, fun i hi heq => absurd ⟨i, hi, heq⟩ hkey⟩)
  obtain ⟨final, hfinal, hmembers⟩ :=
    hsets.exists_setMembers_eq pairs [] ∅ (hkeys ▸ h.once) hpairs
  refine ⟨_, final, hreads, hmembers, fun i hi => ?_, fun i hi hwanted => ?_⟩
  · rcases (hfinal i).mp hi with hnone | ⟨hi, hmem⟩
    · exact absurd hnone (Finset.notMem_empty i)
    · rw [hkeys] at hmem
      obtain ⟨m, hm, heq⟩ := List.mem_map.mp hmem
      exact ⟨_, h.value m hm i hi heq⟩
  · exact (hfinal i).mpr (.inr ⟨hi, hkeys ▸ h.wanted i hi hwanted⟩)

/-! ### The parts -/

theorem signedField_set {α : Type} (name : String) (put : α → Int → α) (record : α) {n : Int}
    (h : -2147483648 ≤ n ∧ n ≤ 2147483647) :
    (signedField name put).set (Leaf.number n).value record = some (put record n) := by
  show ((Leaf.number n).value.int? (-2147483648) 2147483647).map (put record) = _
  rw [int?_value h]
  rfl

theorem sizeField_set {α : Type} (name : String) (put : α → Nat → α) (record : α) {n : Nat}
    (h : 0 ≤ (n : Int) ∧ (n : Int) ≤ 18446744073709551615) :
    (sizeField name put).set (Leaf.number n).value record = some (put record n) := by
  show ((Leaf.number n).value.nat? (UInt64.size - 1)).map (put record) = _
  rw [nat?_value (by simp only [UInt64.size]; omega)]
  rfl

theorem Setting.key_injective : Function.Injective Setting.key := by
  intro s t h
  cases s <;> cases t <;> first | rfl | exact absurd h (by decide)

theorem Part.key_injective : Function.Injective Part.key := by
  intro p q h
  cases p <;> cases q <;> first | rfl | exact absurd h (by decide)

namespace Config

variable {c : Config} {F G : Finset Setting} {cs : List Char}

/-- What a value of a part is read as. -/
def IsReadAs (d : Config) : Part → Value → Prop
  | .scoring, v => Weights.ofValue? v = some d.scoring
  | .container, v => PoolLimits.ofValue? v = some d.pool
  | .index, v => IndexConfig.ofValue? v = some d.index

theorem ite_mem_congr {α : Type} {s : Setting} (h : s ∈ G ↔ s ∈ F) (x y : α) :
    (if s ∈ G then x else y) = if s ∈ F then x else y := by
  simp only [h]

/-- A part is the same if the same of its fields are replaced. -/
theorem scoring_congr (h : ∀ s : Setting, s.part = .scoring → (s ∈ G ↔ s ∈ F)) :
    (c.overDefaults G).scoring = (c.overDefaults F).scoring := by
  unfold overDefaults
  dsimp only
  congr 1 <;> exact ite_mem_congr (h _ rfl) _ _

theorem pool_congr (h : ∀ s : Setting, s.part = .container → (s ∈ G ↔ s ∈ F)) :
    (c.overDefaults G).pool = (c.overDefaults F).pool := by
  unfold overDefaults
  dsimp only
  congr 1
  exact ite_mem_congr (h _ rfl) _ _

theorem index_congr (h : ∀ s : Setting, s.part = .index → (s ∈ G ↔ s ∈ F)) :
    (c.overDefaults G).index = (c.overDefaults F).index := by
  unfold overDefaults
  dsimp only
  congr 1 <;> exact ite_mem_congr (h _ rfl) _ _

/-- One more weight is replaced. -/
theorem set_scoring (hrange : c.InRange) {s : Setting} (hs : s.part = .scoring)
    (used : Finset Setting) :
    ∃ field, Weights.fields.find? (fun field => field.name = s.key) = some field ∧
      field.set (c.leaf s).value (c.overDefaults used).scoring =
        some (c.overDefaults (insert s used)).scoring := by
  have hfits := hrange s
  cases s
  case maxSheets | shardCount | commonPrefix | minRelevancy | arenaBytes | initialSlots =>
    exact absurd hs nofun
  case smallLimit | mediumLimit =>
    refine ⟨_, rfl, (sizeField_set _ _ _ (hfits _ rfl)).trans ?_⟩
    simp [overDefaults]
  all_goals
    refine ⟨_, rfl, (signedField_set _ _ _ (hfits _ rfl)).trans ?_⟩
    simp [overDefaults]

/-- The limit of a pool is replaced. -/
theorem set_pool (hrange : c.InRange) {s : Setting} (hs : s.part = .container)
    (used : Finset Setting) :
    ∃ field, PoolLimits.fields.find? (fun field => field.name = s.key) = some field ∧
      field.set (c.leaf s).value (c.overDefaults used).pool =
        some (c.overDefaults (insert s used)).pool := by
  have hfits := hrange s
  cases s
  case maxSheets =>
    refine ⟨_, rfl, (sizeField_set _ _ _ (hfits _ rfl)).trans ?_⟩
    simp [overDefaults]
  all_goals exact absurd hs nofun

/-- One more field of an index's layout is replaced. -/
theorem set_index (hrange : c.InRange) {s : Setting} (hs : s.part = .index)
    (used : Finset Setting) :
    ∃ field, IndexConfig.fields.find? (fun field => field.name = s.key) = some field ∧
      field.set (c.leaf s).value (c.overDefaults used).index =
        some (c.overDefaults (insert s used)).index := by
  have hfits := hrange s
  cases s
  case shardCount | arenaBytes | initialSlots =>
    refine ⟨_, rfl, (sizeField_set _ _ _ (hfits _ rfl)).trans ?_⟩
    simp [overDefaults]
  case minRelevancy =>
    refine ⟨_, rfl, ?_⟩
    have hread : (Leaf.number c.index.minRelevancy).value.int? (-32768) 32767 =
        some c.index.minRelevancy := int?_value (hfits _ rfl)
    show ((Leaf.number c.index.minRelevancy).value.int? (-32768) 32767).map _ = _
    rw [hread]
    simp [overDefaults]
  case commonPrefix =>
    refine ⟨_, rfl, ?_⟩
    show (Leaf.text c.index.commonPrefix).value.optionalText?.map _ = _
    rw [optionalText?_value]
    simp [overDefaults]
  all_goals exact absurd hs nofun

theorem exists_of_mem_weights : ∀ field ∈ Weights.fields, ∃ s : Setting,
    s.part = .scoring ∧ field.name = s.key := by
  simp only [Weights.fields, List.forall_mem_cons, List.not_mem_nil, false_implies, implies_true,
    and_true]
  exact ⟨⟨.base, rfl, rfl⟩, ⟨.consecutive, rfl, rfl⟩, ⟨.pathBoundary, rfl, rfl⟩,
    ⟨.wordBoundary, rfl, rfl⟩, ⟨.camelBoundary, rfl, rfl⟩, ⟨.start, rfl, rfl⟩,
    ⟨.exactCase, rfl, rfl⟩, ⟨.gapSmall, rfl, rfl⟩, ⟨.gapMedium, rfl, rfl⟩,
    ⟨.gapLarge, rfl, rfl⟩, ⟨.smallLimit, rfl, rfl⟩, ⟨.mediumLimit, rfl, rfl⟩⟩

theorem exists_of_mem_limits : ∀ field ∈ PoolLimits.fields, ∃ s : Setting,
    s.part = .container ∧ field.name = s.key := by
  simp only [PoolLimits.fields, List.forall_mem_cons, List.not_mem_nil, false_implies,
    implies_true, and_true]
  exact ⟨.maxSheets, rfl, rfl⟩

theorem exists_of_mem_layout : ∀ field ∈ IndexConfig.fields, ∃ s : Setting,
    s.part = .index ∧ field.name = s.key := by
  simp only [IndexConfig.fields, List.forall_mem_cons, List.not_mem_nil, false_implies,
    implies_true, and_true]
  exact ⟨⟨.shardCount, rfl, rfl⟩, ⟨.commonPrefix, rfl, rfl⟩, ⟨.minRelevancy, rfl, rfl⟩,
    ⟨.arenaBytes, rfl, rfl⟩, ⟨.initialSlots, rfl, rfl⟩⟩

/-- The fields of a part set what its keys name, once it is known how each is set. -/
theorem sets_part {α : Type} {fields : List (RecordField α)} {p : Part} {state : Finset Setting → α}
    (hfields : ∀ field ∈ fields, ∃ s : Setting, s.part = p ∧ field.name = s.key)
    (hset : ∀ s : Setting, s.part = p → ∀ used, ∃ field,
      fields.find? (fun field => field.name = s.key) = some field ∧
        field.set (c.leaf s).value (state used) = some (state (insert s used))) :
    Sets fields (·.part = p) Setting.key (fun s v => v = (c.leaf s).value) state where
  injective := Setting.key_injective
  set := by
    rintro s _ used hs rfl
    exact hset s hs used
  other := by
    intro key hkey
    rw [List.find?_eq_none]
    intro field hfield
    obtain ⟨s, hs, hname⟩ := hfields field hfield
    rw [decide_eq_true_iff, hname]
    exact (hkey s hs).symm

/-- **A part is read as the default one with the given fields replaced.** -/
theorem PartSpelled.exists_readRecord {α : Type} {fields : List (RecordField α)} {p : Part}
    (h : c.PartSpelled F p cs) {state : Finset Setting → α}
    (hsets : Sets fields (·.part = p) Setting.key (fun s v => v = (c.leaf s).value) state)
    (hcongr : ∀ G, (∀ s : Setting, s.part = p → (s ∈ G ↔ s ∈ F)) → state G = state F) :
    ∃ v, Reads cs v ∧ RecordField.readRecord fields (state ∅) v = some (state F) := by
  obtain ⟨members, hspelled, hgives⟩ := h
  obtain ⟨v, final, hreads, hrecord, hsound, hwanted⟩ := hgives.exists_reads hsets
    (fun s cs _ hs => ⟨_, hs.2.reads, rfl⟩) hspelled
  refine ⟨v, hreads, hrecord.trans (congrArg some (hcongr final fun s hs => ?_))⟩
  exact ⟨fun hmem => (hsound s hmem).choose_spec.1, hwanted s hs⟩

theorem PartSpelled.exists_reads (hrange : c.InRange) {p : Part} (h : c.PartSpelled F p cs) :
    ∃ v, Reads cs v ∧ (c.overDefaults F).IsReadAs p v := by
  cases p with
  | scoring =>
    exact h.exists_readRecord (sets_part exists_of_mem_weights fun s hs => set_scoring hrange hs)
      fun G hG => scoring_congr hG
  | container =>
    exact h.exists_readRecord (sets_part exists_of_mem_limits fun s hs => set_pool hrange hs)
      fun G hG => pool_congr hG
  | index =>
    exact h.exists_readRecord (sets_part exists_of_mem_layout fun s hs => set_index hrange hs)
      fun G hG => index_congr hG

/-! ### The document -/

/-- The default configuration with some parts replaced. -/
def withParts (d : Config) (parts : Finset Part) : Config where
  scoring := if .scoring ∈ parts then d.scoring else {}
  pool := if .container ∈ parts then d.pool else {}
  index := if .index ∈ parts then d.index else {}

/-- One more part is replaced. -/
theorem set_part {d : Config} {p : Part} {v : Value} (h : d.IsReadAs p v) (used : Finset Part) :
    ∃ field, Config.fields.find? (fun field => field.name = p.key) = some field ∧
      field.set v (d.withParts used) = some (d.withParts (insert p used)) := by
  cases p with
  | scoring =>
    refine ⟨_, rfl, ?_⟩
    show (Weights.ofValue? v).map _ = _
    rw [show Weights.ofValue? v = _ from h]
    simp [withParts]
  | container =>
    refine ⟨_, rfl, ?_⟩
    show (PoolLimits.ofValue? v).map _ = _
    rw [show PoolLimits.ofValue? v = _ from h]
    simp [withParts]
  | index =>
    refine ⟨_, rfl, ?_⟩
    show (IndexConfig.ofValue? v).map _ = _
    rw [show IndexConfig.ofValue? v = _ from h]
    simp [withParts]

/-- A part of which no field is replaced is the default one. -/
theorem withParts_overDefaults {parts : Finset Part} (h : ∀ s ∈ F, s.part ∈ parts) :
    (c.overDefaults F).withParts parts = c.overDefaults F := by
  have hnone : ∀ p ∉ parts, ∀ s : Setting, s.part = p → (s ∈ (∅ : Finset Setting) ↔ s ∈ F) := by
    intro p hp s hs
    refine iff_of_false (Finset.notMem_empty s) fun hmem => hp ?_
    rw [← hs]
    exact h s hmem
  have hscoring : (if .scoring ∈ parts then (c.overDefaults F).scoring else {}) =
      (c.overDefaults F).scoring := by
    split_ifs with hp
    · rfl
    · exact scoring_congr (hnone _ hp)
  have hpool : (if .container ∈ parts then (c.overDefaults F).pool else {}) =
      (c.overDefaults F).pool := by
    split_ifs with hp
    · rfl
    · exact pool_congr (hnone _ hp)
  have hindex : (if .index ∈ parts then (c.overDefaults F).index else {}) =
      (c.overDefaults F).index := by
    split_ifs with hp
    · rfl
    · exact index_congr (hnone _ hp)
  rw [withParts, hscoring, hpool, hindex]

/-- The parts of a configuration are set by the keys that name them. -/
theorem sets_parts (d : Config) :
    Sets Config.fields (fun _ => True) Part.key d.IsReadAs d.withParts where
  injective := Part.key_injective
  set := fun _ _ used _ hv => set_part hv used
  other := by
    intro key hkey
    rw [List.find?_eq_none]
    intro field hfield
    simp only [Config.fields, List.mem_cons, List.not_mem_nil, or_false] at hfield
    rw [decide_eq_true_iff]
    rcases hfield with rfl | rfl | rfl
    · exact (hkey .scoring trivial).symm
    · exact (hkey .container trivial).symm
    · exact (hkey .index trivial).symm

/-- **A document is read as the default configuration with the given fields replaced.** -/
theorem DocumentSpelled.read (hrange : c.InRange) (h : c.DocumentSpelled F cs) :
    Json.parse? cs >>= Config.ofValue? = some (c.overDefaults F) := by
  obtain ⟨x, hpadded, rfl, members, hspelled, hgives⟩ := h
  obtain ⟨v, final, hreads, hrecord, -, hwanted⟩ :=
    hgives.exists_reads (sets_parts (c.overDefaults F)) (fun p cs _ hp => hp.exists_reads hrange)
      hspelled
  rw [hreads.parse? hpadded]
  refine hrecord.trans (congrArg some (withParts_overDefaults fun s hs => ?_))
  exact hwanted s.part trivial ⟨s, hs, rfl⟩

end Config

end Typeahead
