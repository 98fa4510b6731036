import Mathlib.Algebra.Group.Nat.Defs
import Typeahead.Proofs.Paths.Closing

/-!
# A probe table is a multimap

The contents of a sound table are a multiset of pairs of a hash and an offset. Looking for a hash
finds one of its pairs if there is one that is accepted; inserting adds a pair, removing takes
one away, and making room keeps them all.

Room is made unless there is none in the numbers or in the memory. How many slots a table needs is
a matter of numbers without a bound (`slotsWith`); the computation of 64 bits comes to the same
number whenever three times the number has 64 bits, and overflows otherwise (`grow_eq`).
-/

namespace Typeahead

/-- What succeeds step by step has succeeded in its first step. -/
theorem exists_of_bind_eq_ok {α β : Type} {x : Except Fault α} {f : α → Except Fault β} {b : β}
    (h : x >>= f = .ok b) : ∃ a, x = .ok a ∧ f a = .ok b := by
  cases x with
  | error fault => exact absurd h nofun
  | ok a => exact ⟨a, rfl, h⟩

theorem Size.eq_of_checked {m n : Nat} (h : checked m = .ok n) : n = m ∧ m < UInt64.size := by
  rw [checked] at h
  split_ifs at h with hlt
  exact ⟨(Except.ok.inj h).symm, hlt⟩

namespace ProbeTable

variable {t t' : ProbeTable} {i j k tries more : Nat} {e : ProbeEntry} {hash : UInt32}
variable {offset : Nat} {accept : Nat → Bool}

/-- **The invariant of a probe table.** -/
structure Sound (t : ProbeTable) : Prop where
  /-- Every entry is reached. -/
  linked : t.Linked
  /-- The size counts the entries. -/
  counted : t.contents.length = t.size
  /-- A quarter of the slots is free at least. -/
  loaded : 4 * t.size ≤ 3 * t.slots.size
  /-- The slots number a power of two, and at least 8, or there are none. -/
  shaped : t.slots.size = 0 ∨ ∃ k, 3 ≤ k ∧ t.slots.size = 2 ^ k
  /-- There was memory for the slots. -/
  addressable : t.slots.size * slotBytes < 2 ^ 63

/-! ### Walking -/

theorem slotAt_after_add (t : ProbeTable) (i k : Nat) :
    t.slotAt (t.after i + k) = t.slotAt (i + (k + 1)) := by
  rw [after, ← slotAt_mod, Nat.mod_add_mod, slotAt_mod, Nat.add_assoc, Nat.add_comm 1]

theorem freeFrom_eq_none (hi : i < t.slots.size) (h : t.freeFrom i tries = none) :
    ∀ k < tries, t.slotAt (i + k) ≠ none := by
  induction tries generalizing i with
  | zero => exact fun k hk => absurd hk (Nat.not_lt_zero k)
  | succ tries ih =>
    rw [freeFrom, ← slotAt_of_lt hi] at h
    cases he : t.slotAt i with
    | none =>
      rw [he] at h
      exact absurd h (Option.some_ne_none i)
    | some e =>
      rw [he] at h
      intro k hk
      cases k with
      | zero =>
        rw [Nat.add_zero, he]
        exact Option.some_ne_none e
      | succ k =>
        rw [← slotAt_after_add]
        exact ih (after_lt hi i) h k (Nat.lt_of_succ_lt_succ hk)

/-- The first free slot, and that the slots before it are taken. -/
theorem freeFrom_eq_some (hi : i < t.slots.size) (h : t.freeFrom i tries = some j) :
    ∃ k < tries, j = (i + k) % t.slots.size ∧ t.slotAt (i + k) = none ∧
      ∀ k' < k, t.slotAt (i + k') ≠ none := by
  induction tries generalizing i with
  | zero => exact absurd h.symm (Option.some_ne_none j)
  | succ tries ih =>
    rw [freeFrom, ← slotAt_of_lt hi] at h
    cases he : t.slotAt i with
    | none =>
      rw [he] at h
      obtain rfl := Option.some.inj h
      exact ⟨0, Nat.zero_lt_succ tries, (Nat.mod_eq_of_lt hi).symm, he,
        fun k' hk' => absurd hk' (Nat.not_lt_zero k')⟩
    | some e =>
      rw [he] at h
      obtain ⟨k, hk, hj, hfree, htaken⟩ := ih (after_lt hi i) h
      rw [slotAt_after_add] at hfree
      refine ⟨k + 1, Nat.succ_lt_succ hk, ?_, hfree, ?_⟩
      · rw [hj, after, Nat.mod_add_mod, Nat.add_assoc, Nat.add_comm 1]
      · intro k' hk'
        cases k' with
        | zero =>
          rw [Nat.add_zero, he]
          exact Option.some_ne_none e
        | succ k' =>
          rw [← slotAt_after_add]
          exact htaken k' (Nat.lt_of_succ_lt_succ hk')

/-- Whether an entry has a hash and an offset that is accepted. -/
def Wanted (hash : UInt32) (accept : Nat → Bool) (e : ProbeEntry) : Prop :=
  e.hash = hash ∧ accept e.offset = true

/-- A walk that finds nothing met entries that are not wanted, and then a free slot unless it
was over. -/
theorem findFrom_eq_none (hi : i < t.slots.size) (h : t.findFrom hash accept i tries = none) :
    ∃ d ≤ tries, (∀ k < d, ∀ e, t.slotAt (i + k) = some e → ¬ Wanted hash accept e) ∧
      (d = tries ∨ t.slotAt (i + d) = none) := by
  induction tries generalizing i with
  | zero => exact ⟨0, Nat.le_refl 0, fun k hk => absurd hk (Nat.not_lt_zero k), .inl rfl⟩
  | succ tries ih =>
    rw [findFrom, ← slotAt_of_lt hi] at h
    cases he : t.slotAt i with
    | none => exact ⟨0, Nat.zero_le _, fun k hk => absurd hk (Nat.not_lt_zero k), .inr he⟩
    | some e =>
      rw [he] at h
      dsimp only at h
      split_ifs at h with hwanted
      obtain ⟨d, hd, hmet, hend⟩ := ih (after_lt hi i) h
      refine ⟨d + 1, Nat.succ_le_succ hd, ?_, ?_⟩
      · intro k hk e' he'
        cases k with
        | zero =>
          rw [Nat.add_zero, he] at he'
          obtain rfl := Option.some.inj he'
          exact hwanted
        | succ k =>
          rw [← slotAt_after_add] at he'
          exact hmet k (Nat.lt_of_succ_lt_succ hk) e' he'
      · rw [← slotAt_after_add]
        exact hend.imp (congrArg Nat.succ) id

theorem findFrom_eq_some (hi : i < t.slots.size)
    (h : t.findFrom hash accept i tries = some (j, offset)) :
    j < t.slots.size ∧ t.slotAt j = some ⟨hash, offset⟩ ∧ accept offset = true := by
  induction tries generalizing i with
  | zero => exact absurd h.symm (Option.some_ne_none _)
  | succ tries ih =>
    rw [findFrom, ← slotAt_of_lt hi] at h
    cases he : t.slotAt i with
    | none =>
      rw [he] at h
      exact absurd h.symm (Option.some_ne_none _)
    | some e =>
      rw [he] at h
      dsimp only at h
      split_ifs at h with hwanted
      · obtain ⟨hhash, haccept⟩ := hwanted
        obtain ⟨rfl, rfl⟩ := Prod.mk.inj (Option.some.inj h)
        exact ⟨hi, by rw [he, ← hhash], haccept⟩
      · exact ih (after_lt hi i) h

/-! ### Looking -/

theorem locate?_eq_none (ht : t.Linked) (h : t.locate? hash accept = none) :
    ∀ e ∈ t.contents, ¬ Wanted hash accept e := by
  intro e he hwanted
  obtain ⟨i, hi, hslot⟩ := mem_contents.mp he
  have hideal := ideal_lt (Nat.zero_lt_of_lt hi) hash
  obtain ⟨d, -, hmet, hend⟩ := findFrom_eq_none hideal h
  have hwalk : t.slotAt (t.ideal hash + t.distance hash i) = some e := by
    rw [slotAt_ideal_add_distance hi, hslot]
  rcases Nat.lt_or_ge (t.distance hash i) d with hlt | hge
  · exact hmet _ hlt e hwalk hwanted
  · rcases hend with rfl | hfree
    · exact absurd (distance_lt hi hash i) (Nat.not_lt.mpr hge)
    · obtain ⟨rfl, -⟩ := hwanted
      exact ht i hi e hslot d hge hfree

theorem locate?_eq_some (h : t.locate? hash accept = some (j, offset)) :
    j < t.slots.size ∧ t.slotAt j = some ⟨hash, offset⟩ ∧ accept offset = true := by
  have hpos : 0 < t.slots.size := by
    by_contra hzero
    rw [locate?, Nat.eq_zero_of_not_pos hzero] at h
    exact absurd h.symm (Option.some_ne_none _)
  exact findFrom_eq_some (ideal_lt hpos hash) h

/-- **Looking for a hash finds an accepted offset of it, unless there is none.** -/
theorem find?_cases (ht : t.Linked) (hash : UInt32) (accept : Nat → Bool) :
    t.find? hash accept = none ∧ (∀ e ∈ t.contents, ¬ Wanted hash accept e) ∨
      ∃ offset, t.find? hash accept = some offset ∧ ⟨hash, offset⟩ ∈ t.contents ∧
        accept offset = true := by
  rw [find?]
  cases h : t.locate? hash accept with
  | none => exact .inl ⟨rfl, locate?_eq_none ht h⟩
  | some found =>
    obtain ⟨hlt, hslot, haccept⟩ := locate?_eq_some h
    exact .inr ⟨found.2, rfl, mem_contents.mpr ⟨_, hlt, hslot⟩, haccept⟩

/-! ### Placing -/

/-- **Placing adds one entry** to a table with a free slot. -/
theorem place_spec (ht : t.Linked) (hroom : t.contents.length < t.slots.size) (hash : UInt32)
    (offset : Nat) :
    (t.place hash offset).Linked ∧
      (t.place hash offset).contents.Perm (⟨hash, offset⟩ :: t.contents) ∧
      (t.place hash offset).size = t.size + 1 ∧
      (t.place hash offset).slots.size = t.slots.size := by
  obtain ⟨free, hlt, hfree⟩ := exists_free hroom
  have hideal := ideal_lt (Nat.zero_lt_of_lt hlt) hash
  rw [place]
  cases h : t.freeFrom (t.ideal hash) t.slots.size with
  | none =>
    refine absurd hfree ?_
    rw [← slotAt_ideal_add_distance hlt hash]
    exact freeFrom_eq_none hideal h _ (distance_lt hlt hash free)
  | some i =>
    obtain ⟨d, hd, hi, hnone, htaken⟩ := freeFrom_eq_some hideal h
    have hilt : i < t.slots.size := hi ▸ Nat.mod_lt _ (Nat.zero_lt_of_lt hlt)
    rw [← slotAt_mod, ← hi] at hnone
    refine ⟨?_, perm_contents_setSlot hilt hnone, rfl, size_slots_setSlot _⟩
    change (t.setSlot i (some ⟨hash, offset⟩)).Linked
    intro j hj e he
    rw [size_slots_setSlot] at hj
    rw [slotAt_setSlot_of_lt hilt hj] at he
    split_ifs at he with hji
    · obtain rfl := Option.some.inj he
      intro k hk
      rw [distance_setSlot, hji, distance_eq_ahead, hi, ahead_add hideal hd] at hk
      rw [ideal_setSlot, slotAt_setSlot hilt]
      split_ifs with hki
      · exact Option.some_ne_none _
      · refine htaken k (Nat.lt_of_le_of_ne hk fun heq => hki ?_)
        rw [hi, heq]
    · exact (ht j hj e he).setSlot_some hilt

/-! ### Making room -/

theorem contents_replicate (count size : Nat) :
    contents { slots := Array.replicate count none, size } = [] := by
  rw [contents, Array.toList_replicate, List.filterMap_eq_nil_iff]
  intro slot hslot
  rw [List.eq_of_mem_replicate hslot, id]

theorem linked_of_contents_eq_nil (h : t.contents = []) : t.Linked := by
  intro i hi e he
  have hmem : e ∈ t.contents := mem_contents.mpr ⟨i, hi, he⟩
  rw [h] at hmem
  exact absurd hmem List.not_mem_nil

/-- Placing the entries of some slots into a table with room for them. -/
theorem foldl_place_spec (slots : List (Option ProbeEntry)) (ht : t.Linked)
    (hcounted : t.contents.length = t.size)
    (hroom : t.size + (slots.filterMap id).length < t.slots.size) :
    let filled := slots.foldl (fun table slot =>
      match slot with
      | none => table
      | some entry => table.place entry.hash entry.offset) t
    filled.Linked ∧ filled.contents.Perm (slots.filterMap id ++ t.contents) ∧
      filled.size = t.size + (slots.filterMap id).length ∧
      filled.slots.size = t.slots.size := by
  induction slots generalizing t with
  | nil => exact ⟨ht, .refl _, rfl, rfl⟩
  | cons slot slots ih =>
    cases slot with
    | none => exact ih ht hcounted hroom
    | some e =>
      have hlength : ((some e :: slots).filterMap id).length =
        (slots.filterMap id).length + 1 := rfl
      obtain ⟨hlinked, hperm, hsize, hslots⟩ :=
        place_spec ht (by omega : t.contents.length < t.slots.size) e.hash e.offset
      have hplaced : (t.place e.hash e.offset).contents.length =
          (t.place e.hash e.offset).size := by
        rw [hperm.length_eq, hsize, List.length_cons, hcounted]
      obtain ⟨hlinked', hperm', hsize', hslots'⟩ := ih hlinked hplaced (by omega)
      refine ⟨hlinked', hperm'.trans ?_, ?_, hslots'.trans hslots⟩
      · exact (hperm.append_left (slots.filterMap id)).trans List.perm_middle
      · rw [List.foldl_cons, hsize', hsize, hlength]
        omega

theorem doubled_spec (demand : Nat) {slots : Nat} (h : 0 < slots) :
    demand ≤ doubled demand slots ∧ slots ≤ doubled demand slots ∧
      (doubled demand slots = slots ∨ doubled demand slots < 2 * demand) := by
  induction slots using doubled.induct demand with
  | case1 slots hless ih =>
    obtain ⟨hmeets, hle, hbound⟩ := ih (by omega)
    rw [doubled, if_pos hless]
    refine ⟨hmeets, by omega, .inr ?_⟩
    rcases hbound with heq | hbound
    · rw [heq]
      omega
    · exact hbound
  | case2 slots hstop =>
    rw [doubled, if_neg hstop]
    exact ⟨by omega, Nat.le_refl slots, .inl rfl⟩

theorem doubled_two_pow (demand k : Nat) : ∃ j, k ≤ j ∧ doubled demand (2 ^ k) = 2 ^ j := by
  induction h : 2 ^ k using doubled.induct demand generalizing k with
  | case1 slots hless ih =>
    subst h
    obtain ⟨j, hj, heq⟩ := ih (k + 1) (Nat.pow_succ 2 k)
    exact ⟨j, Nat.le_of_succ_le hj, by rw [doubled, if_pos hless, heq]⟩
  | case2 slots hstop => exact ⟨k, Nat.le_refl k, by rw [doubled, if_neg hstop, h]⟩

/-- How many slots a table has once there is room for so many more entries: three quarters of them
are as many as the entries. -/
def slotsWith (t : ProbeTable) (more : Nat) : Nat :=
  doubled ((4 * (t.size + more) + 2) / 3) (max t.slots.size fewestSlots)

/-- **Growing doubles up to a demand**, unless three times the number overflows on the way. -/
theorem grow_eq (entries : Nat) {slots : Nat} (h : 0 < slots) :
    grow (4 * entries) slots =
      if doubled ((4 * entries + 2) / 3) slots * 3 < UInt64.size then
        .ok (doubled ((4 * entries + 2) / 3) slots)
      else .error .overflow := by
  induction slots using grow.induct (4 * entries) with
  | case1 slots hlarge =>
    obtain ⟨-, hle, -⟩ := doubled_spec ((4 * entries + 2) / 3) h
    rw [grow, if_pos hlarge, if_neg (by omega)]
  | case2 slots hsmall hless ih =>
    rw [grow, if_neg hsmall, if_pos hless, ih (by omega),
      doubled.eq_1 _ slots, if_pos (by omega : 0 < slots ∧ slots < (4 * entries + 2) / 3)]
  | case3 slots hsmall hstop =>
    rw [grow, if_neg hsmall, if_neg hstop, doubled,
      if_neg (by omega : ¬ (0 < slots ∧ slots < (4 * entries + 2) / 3)),
      if_pos (Nat.not_le.mp hsmall)]

theorem startSlots_pos (t : ProbeTable) : 0 < max t.slots.size fewestSlots :=
  Nat.lt_of_lt_of_le (by decide) (Nat.le_max_right t.slots.size fewestSlots)

theorem slotsWith_spec (t : ProbeTable) (more : Nat) :
    4 * (t.size + more) ≤ 3 * t.slotsWith more ∧ fewestSlots ≤ t.slotsWith more ∧
      (t.slotsWith more = max t.slots.size fewestSlots ∨
        t.slotsWith more < 2 * ((4 * (t.size + more) + 2) / 3)) := by
  obtain ⟨hload, hle, hbound⟩ :=
    doubled_spec ((4 * (t.size + more) + 2) / 3) (startSlots_pos t)
  exact ⟨by rw [slotsWith]; omega, Nat.le_trans (Nat.le_max_right _ _) hle, hbound⟩

/-- The number of slots is a power of two again. -/
theorem Sound.slotsWith_two_pow (ht : t.Sound) (more : Nat) :
    ∃ k, 3 ≤ k ∧ t.slotsWith more = 2 ^ k := by
  obtain ⟨k, hk, hstart⟩ : ∃ k, 3 ≤ k ∧ max t.slots.size fewestSlots = 2 ^ k := by
    rcases ht.shaped with hzero | ⟨k, hk, hslots⟩
    · exact ⟨3, Nat.le_refl 3, by rw [hzero]; rfl⟩
    · have hfewest : fewestSlots ≤ 2 ^ k := Nat.pow_le_pow_right Nat.zero_lt_two hk
      exact ⟨k, hk, by rw [hslots, Nat.max_eq_left hfewest]⟩
  obtain ⟨j, hj, hdoubled⟩ := doubled_two_pow ((4 * (t.size + more) + 2) / 3) k
  exact ⟨j, Nat.le_trans hk hj, by rw [slotsWith, hstart, hdoubled]⟩

/-- A table that has room already has as many slots as it needs. -/
theorem Sound.slotsWith_eq_size (ht : t.Sound) (hpos : t.slots.size ≠ 0)
    (hroom : 4 * (t.size + more) ≤ t.slots.size * 3) : t.slotsWith more = t.slots.size := by
  rcases ht.shaped with hzero | ⟨k, hk, hslots⟩
  · exact absurd hzero hpos
  · have hfewest : fewestSlots ≤ t.slots.size := by
      rw [hslots]
      exact Nat.pow_le_pow_right Nat.zero_lt_two hk
    rw [slotsWith, Nat.max_eq_left hfewest, doubled, if_neg (by omega)]

/-- Room for so many entries needs a number of slots of which three times as many are a number of
64 bits exactly if there are at most 3 * 2 ^ 60 of them. -/
theorem Sound.overflows_iff (ht : t.Sound) (more : Nat) :
    UInt64.size ≤ t.slotsWith more * 3 ↔ 3 * 2 ^ 60 < t.size + more := by
  obtain ⟨hload, -, hbound⟩ := slotsWith_spec t more
  obtain ⟨k, -, hk⟩ := ht.slotsWith_two_pow more
  have haddressable := ht.addressable
  simp only [slotBytes, fewestSlots, UInt64.size] at *
  constructor
  · intro hlarge
    by_contra hfew
    have hlt : 2 ^ k < 2 ^ 63 := by omega
    have hpow : 2 ^ k ≤ 2 ^ 62 :=
      Nat.pow_le_pow_right Nat.zero_lt_two
        (Nat.le_of_lt_succ ((Nat.pow_lt_pow_iff_right Nat.one_lt_two).mp hlt))
    omega
  · intro hmany
    have hlt : 2 ^ 62 < 2 ^ k := by omega
    have hpow : 2 ^ 63 ≤ 2 ^ k :=
      Nat.pow_le_pow_right Nat.zero_lt_two ((Nat.pow_lt_pow_iff_right Nat.one_lt_two).mp hlt)
    omega

section Memory

variable [Memory]

/-- What keeps a table from making room for so many more entries: more than 3 * 2 ^ 60 entries
need a number of slots that overflows, and there may be no memory for another number of slots than
it has. -/
def refusal? (t : ProbeTable) (more : Nat) : Option Fault :=
  if 3 * 2 ^ 60 < t.size + more then some .overflow
  else if t.slotsWith more = t.slots.size ∨ Memory.grants (t.slotsWith more * slotBytes) then none
  else some (.allocation "path hash index")

theorem reserveSlots_eq_ok_iff {count : Nat} {slots : Array (Option ProbeEntry)} :
    reserveSlots count = .ok slots ↔
      Memory.grants (count * slotBytes) = true ∧ slots = Array.replicate count none := by
  rw [reserveSlots]
  split_ifs with hgranted <;> simp [hgranted, eq_comm]

/-- **A table of another size holds the same entries.** -/
theorem resize_spec {count : Nat} (ht : t.Sound) (hroom : t.size < count)
    (h : t.resize count = .ok t') :
    t'.Linked ∧ t'.contents.Perm t.contents ∧ t'.size = t.size ∧ t'.slots.size = count ∧
      Memory.grants (count * slotBytes) = true := by
  obtain ⟨slots, hreserve, h⟩ := exists_of_bind_eq_ok h
  obtain ⟨hgranted, rfl⟩ := reserveSlots_eq_ok_iff.mp hreserve
  obtain rfl := Except.ok.inj h
  have hempty : ({ slots := Array.replicate count none } : ProbeTable).contents = [] :=
    contents_replicate count 0
  have hlength : (t.slots.toList.filterMap id).length = t.size := ht.counted
  obtain ⟨hlinked, hperm, hsize, hslots⟩ := foldl_place_spec t.slots.toList
    (linked_of_contents_eq_nil hempty) (by rw [hempty]; rfl)
    (by rw [hlength]; simpa using hroom)
  rw [Array.foldl_toList] at hlinked hperm hsize hslots
  rw [hempty, List.append_nil] at hperm
  refine ⟨hlinked, hperm, ?_, ?_, hgranted⟩
  · exact hsize.trans ((congrArg (0 + ·) hlength).trans (Nat.zero_add t.size))
  · exact hslots.trans Array.size_replicate

/-- Four times the number of entries is computed before anything else is done. -/
theorem reserve_of_le (h : UInt64.size ≤ (t.size + more) * 4) :
    t.reserve more = .error .overflow := by
  rw [reserve]
  rcases Nat.lt_or_ge (t.size + more) UInt64.size with hlt | hge
  · rw [Size.checked_of_lt hlt]
    change Size.checked ((t.size + more) * 4) >>= _ = _
    rw [Size.checked_of_le h]
    rfl
  · rw [Size.checked_of_le hge]
    rfl

/-- Unless that overflows, the table has room or grows. -/
theorem Sound.reserve_of_lt (ht : t.Sound) (h : (t.size + more) * 4 < UInt64.size) :
    t.reserve more =
      if t.slots.size ≠ 0 ∧ (t.size + more) * 4 ≤ t.slots.size * 3 then .ok t
      else (grow ((t.size + more) * 4) (max t.slots.size fewestSlots)).bind fun count =>
        if count = t.slots.size then .ok t else t.resize count := by
  have haddressable := ht.addressable
  have hthreefold : t.slots.size * 3 < UInt64.size := by
    simp only [slotBytes, UInt64.size] at *
    omega
  rw [reserve, Size.checked_of_lt (by omega : t.size + more < UInt64.size)]
  change Size.checked ((t.size + more) * 4) >>= _ = _
  rw [Size.checked_of_lt h]
  change Size.checked (t.slots.size * 3) >>= _ = _
  rw [Size.checked_of_lt hthreefold]
  rfl

/-- **Making room** makes a table of as many slots as are needed, unless it has them or the number
overflows. -/
theorem Sound.reserve_eq (ht : t.Sound) (more : Nat) :
    t.reserve more =
      if 3 * 2 ^ 60 < t.size + more then .error .overflow
      else if t.slotsWith more = t.slots.size then .ok t
      else t.resize (t.slotsWith more) := by
  have hiff := ht.overflows_iff more
  have hgrow := grow_eq (t.size + more) (startSlots_pos t)
  rw [← slotsWith, Nat.mul_comm] at hgrow
  rcases Nat.lt_or_ge ((t.size + more) * 4) UInt64.size with hlt | hge
  · rw [ht.reserve_of_lt hlt, hgrow]
    by_cases hroom : t.slots.size ≠ 0 ∧ (t.size + more) * 4 ≤ t.slots.size * 3
    · have haddressable := ht.addressable
      simp only [slotBytes] at haddressable
      rw [if_pos hroom, if_neg (by omega),
        if_pos (ht.slotsWith_eq_size hroom.1 (Nat.mul_comm 4 _ ▸ hroom.2))]
    · rw [if_neg hroom]
      by_cases hmany : 3 * 2 ^ 60 < t.size + more
      · rw [if_neg (Nat.not_lt.mpr (hiff.mpr hmany)), if_pos hmany]
        rfl
      · rw [if_pos (Nat.not_le.mp fun h => hmany (hiff.mp h)), if_neg hmany]
        rfl
  · rw [reserve_of_le hge, if_pos]
    simp only [UInt64.size] at hge
    omega

theorem resize_eq_error {count : Nat} (h : Memory.grants (count * slotBytes) = false) :
    t.resize count = .error (.allocation "path hash index") := by
  rw [resize, reserveSlots, h]
  rfl

theorem exists_resize_eq_ok {count : Nat} (h : Memory.grants (count * slotBytes) = true) :
    ∃ t', t.resize count = .ok t' := by
  rw [resize, reserveSlots, h]
  exact ⟨_, rfl⟩

/-- **Room is made unless the table refuses it.** -/
theorem Sound.reserve_cases (ht : t.Sound) (more : Nat) :
    (∃ fault, t.refusal? more = some fault ∧ t.reserve more = .error fault) ∨
      t.refusal? more = none ∧ ∃ t', t.reserve more = .ok t' := by
  rw [ht.reserve_eq, refusal?]
  by_cases hmany : 3 * 2 ^ 60 < t.size + more
  · rw [if_pos hmany, if_pos hmany]
    exact .inl ⟨_, rfl, rfl⟩
  rw [if_neg hmany, if_neg hmany]
  by_cases hsame : t.slotsWith more = t.slots.size
  · rw [if_pos (.inl hsame), if_pos hsame]
    exact .inr ⟨rfl, t, rfl⟩
  rw [if_neg hsame]
  cases hgranted : Memory.grants (t.slotsWith more * slotBytes) with
  | true =>
    rw [if_pos (.inr rfl)]
    exact .inr ⟨rfl, exists_resize_eq_ok hgranted⟩
  | false =>
    rw [if_neg (by simp [hsame])]
    exact .inl ⟨_, rfl, resize_eq_error hgranted⟩

/-- **Making room keeps the entries.** -/
theorem reserve_spec (ht : t.Sound) (h : t.reserve more = .ok t') :
    t'.Sound ∧ t'.contents.Perm t.contents ∧ t'.size = t.size ∧
      4 * (t.size + more) ≤ 3 * t'.slots.size := by
  obtain ⟨hload, hfewest, -⟩ := slotsWith_spec t more
  rw [ht.reserve_eq] at h
  split_ifs at h with hmany hsame
  · obtain rfl := Except.ok.inj h
    exact ⟨ht, .refl _, rfl, hsame ▸ hload⟩
  · have hpos : 0 < fewestSlots := by decide
    obtain ⟨hlinked, hperm, hsize, hslots, hgranted⟩ := resize_spec ht (by omega) h
    refine ⟨⟨hlinked, ?_, by omega, .inr ?_, ?_⟩, hperm, hsize, by omega⟩
    · rw [hperm.length_eq, ht.counted, hsize]
    · rw [hslots]
      exact ht.slotsWith_two_pow more
    · rw [hslots]
      exact Memory.lt_of_grants hgranted

/-- With ample memory, there is room for as many entries as there are numbers of 32 bits. -/
theorem refusal?_eq_none [Memory.Ample] (h : t.size + more ≤ 0x100000000) :
    t.refusal? more = none := by
  obtain ⟨-, -, hbound⟩ := slotsWith_spec t more
  rw [refusal?, if_neg (by omega), if_pos]
  by_cases hsame : t.slotsWith more = t.slots.size
  · exact .inl hsame
  · refine .inr (Memory.Ample.granted _ ?_)
    simp only [slotBytes, fewestSlots] at *
    omega

theorem Sound.exists_reserve_eq_ok [Memory.Ample] (ht : t.Sound)
    (h : t.size + more ≤ 0x100000000) : ∃ t', t.reserve more = .ok t' := by
  rcases ht.reserve_cases more with ⟨fault, hrefusal, -⟩ | ⟨-, hok⟩
  · rw [refusal?_eq_none h] at hrefusal
    exact absurd hrefusal nofun
  · exact hok

end Memory

/-! ### A new table, an insertion, a removal -/

/-- A new table has the next power of two of free slots, if there is memory for them. -/
theorem withSlots_eq_ok_iff [Memory] {demand : Nat} :
    withSlots demand = .ok t ↔ doubled demand fewestSlots < UInt64.size ∧
      Memory.grants (doubled demand fewestSlots * slotBytes) = true ∧
      t = { slots := Array.replicate (doubled demand fewestSlots) none } := by
  constructor
  · intro h
    obtain ⟨count, hcount, h⟩ := exists_of_bind_eq_ok h
    obtain ⟨slots, hreserve, h⟩ := exists_of_bind_eq_ok h
    obtain ⟨rfl, hlt⟩ := Size.eq_of_checked hcount
    obtain ⟨hgranted, rfl⟩ := reserveSlots_eq_ok_iff.mp hreserve
    exact ⟨hlt, hgranted, (Except.ok.inj h).symm⟩
  · rintro ⟨hlt, hgranted, rfl⟩
    rw [withSlots, slotsFor, Size.checked_of_lt hlt]
    change reserveSlots _ >>= _ = _
    rw [reserveSlots, hgranted]
    rfl

theorem sound_withSlots [Memory] {demand : Nat} (h : withSlots demand = .ok t) :
    t.Sound ∧ t.contents = [] ∧ t.size = 0 := by
  obtain ⟨-, hgranted, rfl⟩ := withSlots_eq_ok_iff.mp h
  have hempty := contents_replicate (doubled demand fewestSlots) 0
  refine ⟨⟨linked_of_contents_eq_nil hempty, by rw [hempty]; rfl, Nat.zero_le _, .inr ?_, ?_⟩,
    hempty, rfl⟩
  · rw [Array.size_replicate]
    exact doubled_two_pow demand 3
  · rw [Array.size_replicate]
    exact Memory.lt_of_grants hgranted

theorem sound_empty : Sound {} :=
  ⟨linked_of_contents_eq_nil rfl, rfl, Nat.le_refl 0, .inl rfl, by decide⟩

/-- What keeps the slots, the entries counted and reached, and does not add to them, is sound. -/
theorem Sound.of_size_eq (ht : t.Sound) (hslots : t'.slots.size = t.slots.size)
    (hlinked : t'.Linked) (hcounted : t'.contents.length = t'.size)
    (hloaded : 4 * t'.size ≤ 3 * t.slots.size) : t'.Sound :=
  ⟨hlinked, hcounted, hslots ▸ hloaded, hslots ▸ ht.shaped, hslots ▸ ht.addressable⟩

theorem sound_place (ht : t.Sound) (hroom : 4 * (t.size + 1) ≤ 3 * t.slots.size)
    (hash : UInt32) (offset : Nat) :
    (t.place hash offset).Sound ∧
      (t.place hash offset).contents.Perm (⟨hash, offset⟩ :: t.contents) ∧
      (t.place hash offset).size = t.size + 1 := by
  have hcounted := ht.counted
  obtain ⟨hlinked, hperm, hsize, hslots⟩ := place_spec ht.linked (by omega) hash offset
  refine ⟨ht.of_size_eq hslots hlinked ?_ (by omega), hperm, hsize⟩
  rw [hperm.length_eq, hsize, List.length_cons, hcounted]

/-- **Inserting adds one entry.** -/
theorem insert_spec [Memory] (ht : t.Sound) (h : t.insert hash offset = .ok t') :
    t'.Sound ∧ t'.contents.Perm (⟨hash, offset⟩ :: t.contents) := by
  obtain ⟨roomy, hreserve, h⟩ := exists_of_bind_eq_ok h
  obtain rfl := Except.ok.inj h
  obtain ⟨hsound, hperm, hsize, hload⟩ := reserve_spec ht hreserve
  obtain ⟨hplaced, hperm', -⟩ := sound_place hsound (hsize ▸ hload) hash offset
  exact ⟨hplaced, hperm'.trans (hperm.cons _)⟩

/-- Before the loop, only the entry in the hole is going to be missed. -/
theorem closing_of_sound (ht : t.Sound) (hi : i < t.slots.size) (he : t.slotAt i = some e) :
    Closing t i (t.after i) t.slots.size := by
  have hmem : e ∈ t.contents := mem_contents.mpr ⟨i, hi, he⟩
  have hpos : 0 < t.size := ht.counted ▸ List.length_pos_of_mem hmem
  have hloaded := ht.loaded
  have hcounted := ht.counted
  have hafter : ahead t.slots.size i (t.after i) = 1 := ahead_after hi (by omega)
  obtain ⟨free, hlt, hfree⟩ := exists_free (t := t) (by omega)
  have hne : ahead t.slots.size i free ≠ 0 := by
    rw [← ahead_self hi]
    intro heq
    rw [← ahead_inj hi hi hlt heq.symm, he] at hfree
    exact Option.some_ne_none e hfree
  have hfreeLt := ahead_lt hi free
  refine {
    hole_lt := hi
    next_lt := after_lt hi i
    behind := by omega
    reaches := fun j hj _ e he => ht.linked j hj e he
    passed := ?_
    hole_taken := by rw [he]; exact Option.some_ne_none e
    ends := ⟨free, hlt, hfree, by omega, by omega⟩ }
  intro j hj hjne hj'
  rw [hafter, Nat.lt_one_iff, ← ahead_self hi] at hj'
  exact absurd (ahead_inj hi hj hi hj') hjne

/-- **Removing takes away one wanted entry, or there was none.** -/
theorem remove_cases (ht : t.Sound) (hash : UInt32) (accept : Nat → Bool) :
    t.remove hash accept = (t, none) ∧ (∀ e ∈ t.contents, ¬ Wanted hash accept e) ∨
      ∃ offset t', t.remove hash accept = (t', some offset) ∧ accept offset = true ∧
        t'.Sound ∧ t.contents.Perm (⟨hash, offset⟩ :: t'.contents) := by
  rw [remove]
  cases h : t.locate? hash accept with
  | none => exact .inl ⟨rfl, locate?_eq_none ht.linked h⟩
  | some found =>
    obtain ⟨hole, offset⟩ := found
    obtain ⟨hlt, hslot, haccept⟩ := locate?_eq_some h
    obtain ⟨hlinked, hperm⟩ := closeHole_spec (closing_of_sound ht hlt hslot)
    have hsplit := (perm_contents_of_slotAt hlt hslot).trans (hperm.symm.cons _)
    have hlength := hsplit.length_eq
    rw [List.length_cons, ht.counted] at hlength
    refine .inr ⟨offset, _, rfl, haccept,
      ht.of_size_eq (slots_size_closeHole t hole (t.after hole) t.slots.size) hlinked ?_ ?_, hsplit⟩
    · change (t.closeHole hole (t.after hole) t.slots.size).contents.length = t.size - 1
      omega
    · have hloaded := ht.loaded
      change 4 * (t.size - 1) ≤ _
      omega

end ProbeTable

end Typeahead
