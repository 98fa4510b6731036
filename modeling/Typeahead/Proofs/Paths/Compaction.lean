import Typeahead.Proofs.Paths.OrderedSet

/-!
# Writing a shard anew fails for want of memory only

A shard that writes its entries anew needs memory for a table and an arena, and room in the arena.
If memory is ample, there is enough of all. The table has an entry for every live entry, of which
there are fewer than numbers of 32 bits. And what comes before an entry in the new arena came before
it in the old one, so that every entry has an offset again, and the live entries end not far behind
the offsets.

So a wasteful shard is tidied whenever something has been removed from it, and removed entries
never take more than half of an arena.
-/

namespace Typeahead

/-! ### Memory for a table and an arena -/

namespace ProbeTable

theorem exists_withSlots_eq_ok [Memory] [Memory.Ample] {demand : Nat}
    (h : demand ≤ 0x1000000000) : ∃ t, withSlots demand = .ok t := by
  obtain ⟨-, -, hbound⟩ := doubled_spec demand (show 0 < fewestSlots by decide)
  have hfew : doubled demand fewestSlots ≤ 0x2000000000 := by
    simp only [fewestSlots] at *
    omega
  refine ⟨_, withSlots_eq_ok_iff.mpr ⟨?_, Memory.Ample.granted _ ?_, rfl⟩⟩
  · exact Nat.lt_of_le_of_lt hfew (by decide)
  · simp only [slotBytes]
    omega

end ProbeTable

/-! ### Room in an arena -/

namespace Arena

/-- The live entries before one take no more bytes than all entries before it. -/
theorem extent_le_of_alive_eq {offset : Nat} {es : List Entry} {done rest : List (Nat × Entry)}
    {x : Nat × Entry} (h : alive offset es = done ++ x :: rest) :
    offset + extent (done.map Prod.snd) ≤ x.1 := by
  induction es generalizing offset done with
  | nil => simp [alive, located] at h
  | cons e es ih =>
    cases hdead : e.dead with
    | true =>
      rw [alive_cons_of_dead hdead] at h
      have hrest := ih h
      omega
    | false =>
      rw [alive_cons_of_live hdead] at h
      cases done with
      | nil =>
        obtain ⟨rfl, -⟩ := List.cons.inj h
        exact Nat.le_refl offset
      | cons y done =>
        obtain ⟨rfl, htail⟩ := List.cons.inj h
        have hrest := ih htail
        rw [List.map_cons, extent_cons]
        dsimp only
        omega

/-- The last entry begins at an offset, so the bytes end not far behind the offsets. -/
theorem Spells.size_bytes_le {a : Arena} {es : List Entry} (h : a.Spells es) :
    a.bytes.size ≤ 0x100020000 := by
  rw [h.size_bytes]
  rcases List.eq_nil_or_concat' es with rfl | ⟨pre, last, rfl⟩
  · exact Nat.zero_le _
  · have hoffset := h.offset_lt (extent pre, last) (by simp [located_append, located])
    have hstored := h.stored_le last (by simp)
    simp only [extent_append, extent_cons, extent_nil, Entry.size, Entry.headerSize, offsetLimit,
      UInt32.size, longestText] at *
    omega

end Arena

namespace Shard

open Typeahead.Arena

variable [Memory] [Memory.Ample] {s s' fresh : Shard} {es pre : List Entry} {e : Entry}

theorem Spells.exists_rewrite_eq_ok (h : fresh.Spells pre) (hshort : e.stored.size ≤ longestText)
    (hroom : extent pre < offsetLimit) (offset : Nat) :
    ∃ s', Shard.rewrite fresh (offset, e) = .ok s' := by
  have hallowed : fresh.arena.refusal? e.stored = none := by
    rw [Arena.refusal?, if_neg (Nat.not_lt.mpr hshort), h.arena.size_bytes,
      if_neg (Nat.not_le.mpr hroom)]
  have hfew : fresh.table.size + 1 ≤ 0x100000000 := h.size_table_lt
  obtain ⟨table, hreserve⟩ := h.sound.exists_reserve_eq_ok hfew
  simp only [Shard.rewrite, hallowed, ProbeTable.insert, hreserve]
  exact ⟨_, rfl⟩

/-- Entries are written anew one after the other as long as each has an offset. -/
theorem Spells.exists_foldlM_rewrite_eq_ok (xs : List (Nat × Entry)) (h : fresh.Spells pre)
    (hlive : ∀ e ∈ pre ++ xs.map Prod.snd, e.dead = false)
    (hnodup : (pre ++ xs.map Prod.snd).Nodup)
    (hshort : ∀ x ∈ xs, x.2.stored.size ≤ longestText)
    (hroom : ∀ done x rest, xs = done ++ x :: rest →
      extent (pre ++ done.map Prod.snd) < offsetLimit) :
    ∃ s', xs.foldlM Shard.rewrite fresh = .ok s' := by
  induction xs generalizing fresh pre with
  | nil => exact ⟨fresh, rfl⟩
  | cons x xs ih =>
    have hfirst := hroom [] x xs rfl
    rw [List.map_nil, List.append_nil] at hfirst
    obtain ⟨next, hnext⟩ := h.exists_rewrite_eq_ok (hshort x List.mem_cons_self) hfirst x.1
    rw [List.map_cons] at hlive hnodup
    have hnew : x.2 ∉ pre := by
      intro hmem
      exact (List.nodup_append.mp hnodup).2.2 _ hmem _ List.mem_cons_self rfl
    have hstep := h.rewrite (fun e he => hlive e (List.mem_append_left _ he))
      (hlive x.2 (List.mem_append_right _ List.mem_cons_self)) hnew hnext
    rw [List.append_cons] at hlive hnodup
    obtain ⟨s', hs'⟩ := ih hstep hlive hnodup (fun y hy => hshort y (List.mem_cons_of_mem x hy))
      fun done y rest hsplit => by
        have hlater := hroom (x :: done) y rest (by rw [hsplit, List.cons_append])
        rwa [List.map_cons, List.append_cons] at hlater
    refine ⟨s', ?_⟩
    rw [List.foldlM_cons, hnext]
    exact hs'

/-- **Writing the entries anew succeeds** if memory is ample, and afterwards no byte is dead. -/
theorem Valid.exists_compact_eq_ok (h : s.Valid) :
    ∃ fresh, s.compact = .ok fresh ∧ fresh.arena.deadBytes = 0 := by
  have hdead : ∀ e ∈ s.contents, e.dead = false := fun e he => h.dead_eq_false he
  have hnodup := h.nodup_contents
  obtain ⟨es, hspells⟩ := h
  have hlength : s.arena.liveEntries = s.table.size := by
    rw [hspells.arena.liveEntries_eq, ← hspells.sound.counted, hspells.agree.length_eq,
      List.length_map]
  have hfew := hspells.size_table_lt
  have hdemand : ProbeTable.demandFor s.arena.liveEntries ≤ 0x1000000000 := by
    rw [hlength, ProbeTable.demandFor]
    omega
  have hbytes : Memory.grants s.arena.liveBytes = true := by
    refine Memory.Ample.granted _ ?_
    have hsize := hspells.arena.size_bytes_le
    rw [liveBytes]
    omega
  obtain ⟨table, htable⟩ := ProbeTable.exists_withSlots_eq_ok hdemand
  have hempty := empty_eq_ok_iff.mpr ⟨hbytes, table, htable, rfl⟩
  obtain ⟨hsound, hnothing, -⟩ := ProbeTable.sound_withSlots htable
  have hstart := spells_empty hsound hnothing
  obtain ⟨fresh, hfold⟩ := hstart.exists_foldlM_rewrite_eq_ok s.entries hdead hnodup
    (fun x hx => by
      rw [hspells.entries_eq] at hx
      exact hspells.arena.stored_le _ (mem_of_mem_located (mem_alive.mp hx).1))
    (fun done x rest hsplit => by
      rw [hspells.entries_eq] at hsplit
      have hle := extent_le_of_alive_eq hsplit
      have hmem : x ∈ alive 0 es := by simp [hsplit]
      have hlt := hspells.arena.offset_lt x (mem_alive.mp hmem).1
      rw [List.nil_append]
      omega)
  have hfresh := Spells.foldlM_rewrite s.entries hstart hdead hnodup hfold
  refine ⟨fresh, by rw [compact_eq, hempty]; exact hfold, ?_⟩
  rw [hfresh.arena.deadBytes_eq, List.filter_eq_nil_iff.mpr]
  · rfl
  · intro e he
    rw [hdead e he]
    exact Bool.false_ne_true

/-- **A tidy shard is not wasteful** if memory is ample. -/
theorem Valid.isWasteful_tidy (h : s.Valid) : s.tidy.arena.isWasteful = false := by
  obtain ⟨fresh, hcompact, hzero⟩ := h.exists_compact_eq_ok
  rw [Shard.tidy, hcompact]
  split
  · simp [isWasteful, hzero]
  · next hthrifty => exact Bool.eq_false_iff.mpr hthrifty

end Shard

end Typeahead
