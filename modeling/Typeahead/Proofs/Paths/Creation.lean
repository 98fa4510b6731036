import Mathlib.Order.Bounds.Basic
import Typeahead.Proofs.Paths.Refinement

/-!
# Creating an index

A configuration may ask for any number of slots that 64 bits can hold, and the number is rounded up
to a power of two. As long as that power is a number of 64 bits too, a new index has tables with as
many slots, or there is no memory for them. Above 2 ^ 63 the next power of two is 2 ^ 64. Nothing
keeps a configuration from asking for so many slots, and nothing is prepared for it: if there is
memory for the shards and an arena, the computation overflows.
-/

namespace Typeahead

/-! ### Rounding up -/

namespace ProbeTable

variable {demand : Nat}

/-- **The slots are doubled up to the next power of two**, from 8 on. -/
theorem isLeast_doubled (demand : Nat) :
    IsLeast {n | (∃ k, n = 2 ^ k) ∧ max fewestSlots demand ≤ n} (doubled demand fewestSlots) := by
  obtain ⟨k, hk, hdoubled⟩ := doubled_two_pow demand 3
  have height : (2 : Nat) ^ 3 = fewestSlots := rfl
  obtain ⟨hmeets, hfewest, hbound⟩ := doubled_spec demand (show 0 < fewestSlots by decide)
  rw [height] at hdoubled
  refine ⟨⟨⟨k, hdoubled⟩, max_le hfewest hmeets⟩, ?_⟩
  rintro n ⟨⟨j, rfl⟩, hn⟩
  obtain ⟨hn₁, hn₂⟩ := max_le_iff.mp hn
  rcases hbound with heq | hlast
  · rw [heq]
    exact hn₁
  · rw [hdoubled] at hlast ⊢
    have hpow : 2 ^ k < 2 ^ (j + 1) := by
      rw [Nat.pow_succ]
      omega
    have hkj : k < j + 1 := (Nat.pow_lt_pow_iff_right Nat.one_lt_two).mp hpow
    exact Nat.pow_le_pow_right Nat.zero_lt_two (Nat.le_of_lt_succ hkj)

/-- **The next power of two is a number of 64 bits** exactly for demands up to 2 ^ 63. -/
theorem doubled_lt_iff : doubled demand fewestSlots < UInt64.size ↔ demand ≤ 2 ^ 63 := by
  obtain ⟨⟨⟨k, hdoubled⟩, hmeets⟩, hleast⟩ := isLeast_doubled demand
  constructor
  · intro hlt
    rw [hdoubled] at hlt hmeets
    have hk : k < 64 := (Nat.pow_lt_pow_iff_right Nat.one_lt_two).mp hlt
    have hpow : 2 ^ k ≤ 2 ^ 63 := Nat.pow_le_pow_right Nat.zero_lt_two (Nat.le_of_lt_succ hk)
    omega
  · intro hle
    have hdoubled := hleast ⟨⟨63, rfl⟩, max_le (by decide) hle⟩
    exact Nat.lt_of_le_of_lt hdoubled (by decide)

/-- A new table for a demand that cannot be met. -/
theorem withSlots_of_lt [Memory] (h : 2 ^ 63 < demand) :
    withSlots demand = .error .overflow := by
  have hlarge : UInt64.size ≤ doubled demand fewestSlots :=
    Nat.le_of_not_lt fun hlt => Nat.not_le.mpr h (doubled_lt_iff.mp hlt)
  rw [withSlots, slotsFor, Size.checked_of_le hlarge]
  rfl

/-- A new table for one that can. -/
theorem withSlots_of_le [Memory] (h : demand ≤ 2 ^ 63)
    (hrefused : Memory.grants (doubled demand fewestSlots * slotBytes) = false) :
    withSlots demand = .error (.allocation "path hash index") := by
  rw [withSlots, slotsFor, Size.checked_of_lt (doubled_lt_iff.mpr h)]
  change reserveSlots _ >>= _ = _
  rw [reserveSlots, hrefused]
  rfl

end ProbeTable

/-! ### A new index -/

namespace IndexConfig

variable [Memory] {config : IndexConfig}

/-- There is memory for the shards and for an arena. -/
def HasSpace (config : IndexConfig) : Prop :=
  Memory.grants (config.shardCount * PathIndex.shardBytes) = true ∧
    Memory.grants config.arenaBytes = true

/-- There is memory for a table of so many slots that are rounded up. -/
def HasTable (config : IndexConfig) : Prop :=
  Memory.grants (ProbeTable.doubled config.initialSlots ProbeTable.fewestSlots *
    ProbeTable.slotBytes) = true

end IndexConfig

namespace PathIndex

section Create

variable [Memory] {config : IndexConfig}

theorem create_of_hasSpace (hvalid : config.check = .ok ()) (hspace : config.HasSpace)
    (scorer : Scorer) (digest : String → UInt64) {fault : Fault}
    (htable : ProbeTable.withSlots config.initialSlots = .error fault) :
    create config scorer digest = .error fault := by
  obtain ⟨hshards, hbytes⟩ := hspace
  have hempty : Shard.empty config.arenaBytes config.initialSlots = .error fault := by
    rw [Shard.empty, hbytes, htable]
    rfl
  rw [create, hvalid, hshards, hempty]
  rfl

theorem create_of_not_hasSpace (hvalid : config.check = .ok ()) (hspace : ¬ config.HasSpace)
    (scorer : Scorer) (digest : String → UInt64) :
    ∃ what, create config scorer digest = .error (.allocation what) := by
  rw [create, hvalid]
  cases hshards : Memory.grants (config.shardCount * shardBytes) with
  | false => exact ⟨_, rfl⟩
  | true =>
    have hbytes : Memory.grants config.arenaBytes = false :=
      Bool.eq_false_iff.mpr fun hbytes => hspace ⟨hshards, hbytes⟩
    rw [Shard.empty, hbytes]
    exact ⟨_, rfl⟩

/-- **An index is created whenever there is memory for it, and its tables have as many slots as are
asked for, unless that is too many to be rounded up.** Up to 2 ^ 63 slots, the answer is a new
index if there is memory for its shards, arenas and tables, and else that there is not. The new
index is empty, and every table has the next power of two of slots, from 8 on. Beyond 2 ^ 63 slots
there is no index: rounding up overflows, if it comes to that. For the next power of two is a number
of 64 bits exactly up to 2 ^ 63 slots. -/
theorem create_rounds_up (hvalid : config.check = .ok ()) (scorer : Scorer)
    (digest : String → UInt64) :
    (config.initialSlots ≤ 2 ^ 63 →
      (¬ (config.HasSpace ∧ config.HasTable) →
        ∃ what, create config scorer digest = .error (.allocation what)) ∧
      (config.HasSpace ∧ config.HasTable → ∃ ix, create config scorer digest = .ok ix ∧
        ix.size = 0 ∧ (∀ path, ix.contains path = false) ∧
        ix.shards.size = config.shardCount ∧
        ∀ shard ∈ ix.shards, shard.table.contents = [] ∧
          IsLeast {n | (∃ k, n = 2 ^ k) ∧ max 8 config.initialSlots ≤ n}
            shard.table.slots.size)) ∧
    (2 ^ 63 < config.initialSlots →
      (¬ config.HasSpace → ∃ what, create config scorer digest = .error (.allocation what)) ∧
      (config.HasSpace → create config scorer digest = .error .overflow)) ∧
    (ProbeTable.doubled config.initialSlots ProbeTable.fewestSlots < UInt64.size ↔
      config.initialSlots ≤ 2 ^ 63) := by
  refine ⟨fun hle => ⟨fun hmemory => ?_, fun hmemory => ?_⟩, fun hlt => ⟨fun hspace => ?_,
    fun hspace => ?_⟩, ProbeTable.doubled_lt_iff⟩
  · by_cases hspace : config.HasSpace
    · have hrefused := Bool.eq_false_iff.mpr fun htable => hmemory ⟨hspace, htable⟩
      exact ⟨_, create_of_hasSpace hvalid hspace scorer digest
        (ProbeTable.withSlots_of_le hle hrefused)⟩
    · exact create_of_not_hasSpace hvalid hspace scorer digest
  · obtain ⟨⟨hshards, hbytes⟩, htable⟩ := hmemory
    have hcreate : create config scorer digest = .ok (blank config scorer digest _) :=
      create_eq_ok_iff.mpr
        ⟨hvalid, hshards, hbytes, ProbeTable.doubled_lt_iff.mpr hle, htable, rfl⟩
    have hrepresents := represents_of_create hcreate
    refine ⟨_, hcreate, hrepresents.size, fun path => ?_, hrepresents.count_eq,
      fun shard hshard => ?_⟩
    · rw [hrepresents.contains]
      exact decide_eq_false (Finset.notMem_empty path)
    · obtain ⟨-, rfl⟩ := Array.mem_replicate.mp hshard
      refine ⟨ProbeTable.contents_replicate _ 0, ?_⟩
      rw [Array.size_replicate]
      exact ProbeTable.isLeast_doubled config.initialSlots
  · exact create_of_not_hasSpace hvalid hspace scorer digest
  · exact create_of_hasSpace hvalid hspace scorer digest (ProbeTable.withSlots_of_lt hlt)

end Create

section AddressSpace

open scoped Typeahead.Memory.AddressSpace

/-- Nine slots are rounded up to sixteen. -/
theorem create_rounds_up_nine :
    let config : IndexConfig := { shardCount := 3, initialSlots := 9 }
    config.check = .ok () ∧ config.HasSpace ∧ config.HasTable ∧
      ∃ ix, create config .standard = .ok ix ∧ ix.shards.size = 3 ∧
        ∀ shard ∈ ix.shards, shard.table.slots.size = 16 := by
  intro config
  have hvalid : config.check = .ok () := by decide
  have hdoubled : ProbeTable.doubled 9 ProbeTable.fewestSlots = 16 := by decide +kernel
  have hspace : config.HasSpace := ⟨by decide, by decide⟩
  have htable : config.HasTable := by
    rw [IndexConfig.HasTable, hdoubled]
    decide
  obtain ⟨hfew, -, -⟩ := create_rounds_up hvalid .standard fingerprint
  obtain ⟨ix, hcreate, -, -, hcount, hshards⟩ := (hfew (by decide)).2 ⟨hspace, htable⟩
  refine ⟨hvalid, hspace, htable, ix, hcreate, hcount, fun shard hshard => ?_⟩
  have hsixteen : IsLeast {n | (∃ k, n = 2 ^ k) ∧ max 8 9 ≤ n} 16 :=
    hdoubled ▸ ProbeTable.isLeast_doubled 9
  exact (hshards shard hshard).2.unique hsixteen

/-- One slot more than 2 ^ 63: the configuration is accepted and there is memory for the shard and
its arena, but the next power of two overflows. The answer is neither that there is no memory for
the table nor an index. -/
theorem create_overflows :
    let config : IndexConfig := { shardCount := 1, initialSlots := 2 ^ 63 + 1 }
    config.check = .ok () ∧
      ProbeTable.doubled config.initialSlots ProbeTable.fewestSlots = 2 ^ 64 ∧
      create config .standard = .error .overflow ∧
      ¬ ((∃ what, create config .standard = .error (.allocation what)) ∨
        ∃ ix, create config .standard = .ok ix) := by
  intro config
  have hvalid : config.check = .ok () := by decide
  have hrounded : IsLeast {n | (∃ k, n = 2 ^ k) ∧ max 8 (2 ^ 63 + 1) ≤ n} (2 ^ 64) := by
    refine ⟨⟨⟨64, rfl⟩, by decide⟩, ?_⟩
    rintro n ⟨⟨k, rfl⟩, hn⟩
    have hk : 63 < k := (Nat.pow_lt_pow_iff_right Nat.one_lt_two).mp (lt_of_lt_of_le (by decide) hn)
    exact Nat.pow_le_pow_right Nat.zero_lt_two hk
  have hoverflow : create config .standard = .error .overflow :=
    create_of_hasSpace hvalid ⟨by decide, by decide⟩ .standard fingerprint
      (ProbeTable.withSlots_of_lt (by decide))
  refine ⟨hvalid, (ProbeTable.isLeast_doubled _).unique hrounded, hoverflow, ?_⟩
  rw [hoverflow]
  rintro (⟨what, herror⟩ | ⟨ix, hok⟩)
  · cases herror
  · cases hok

end AddressSpace

end PathIndex

end Typeahead
