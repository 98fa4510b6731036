import Typeahead.Proofs.Paths.Probing

/-!
# Closing a hole

Removing an entry opens a hole. Entries behind it move back over it until a free slot ends the
run, and then the hole becomes a free slot itself. Until that moment the slot of the hole still
counts as taken: that is what makes the invariant of the loop short. Every entry other than the
one in the hole is reachable, and an entry between the hole and the slot looked at next does not
need the hole to be so.
-/

namespace Typeahead.ProbeTable

variable {t : ProbeTable} {i j k hole : Nat} {e : ProbeEntry} {hash : UInt32} {offset : Nat}
variable {accept : Nat → Bool}

/-! ### Ways -/

/-- No slot from `start` on, up to the one `d` slots further, is free. -/
def Taken (t : ProbeTable) (start d : Nat) : Prop := ∀ k ≤ d, t.slotAt (start + k) ≠ none

/-- No slot on the way from the ideal slot of a hash to slot `i` is free. -/
def Reaches (t : ProbeTable) (hash : UInt32) (i : Nat) : Prop :=
  t.Taken (t.ideal hash) (t.distance hash i)

/-- **Every entry is reached from its ideal slot.** -/
def Linked (t : ProbeTable) : Prop :=
  ∀ i < t.slots.size, ∀ e, t.slotAt i = some e → t.Reaches e.hash i

theorem ideal_lt (h : 0 < t.slots.size) (hash : UInt32) : t.ideal hash < t.slots.size :=
  Nat.mod_lt _ h

theorem distance_eq_ahead (t : ProbeTable) (hash : UInt32) (i : Nat) :
    t.distance hash i = ahead t.slots.size (t.ideal hash) i := rfl

@[simp] theorem ideal_setSlot (slot : Option ProbeEntry) :
    (t.setSlot i slot).ideal hash = t.ideal hash := by
  rw [ideal, ideal, size_slots_setSlot]

@[simp] theorem distance_setSlot (slot : Option ProbeEntry) :
    (t.setSlot i slot).distance hash j = t.distance hash j := by
  rw [distance, distance, size_slots_setSlot, ideal_setSlot]

theorem distance_lt (hi : i < t.slots.size) (hash : UInt32) (j : Nat) :
    t.distance hash j < t.slots.size :=
  ahead_lt (ideal_lt (Nat.zero_lt_of_lt hi) hash) j

theorem distance_inj (hi : i < t.slots.size) (hj : j < t.slots.size)
    (h : t.distance hash i = t.distance hash j) : i = j :=
  ahead_inj (ideal_lt (Nat.zero_lt_of_lt hi) hash) hi hj h

/-- The slot at the distance of `i` from an ideal slot is `i`. -/
theorem slotAt_ideal_add_distance (hi : i < t.slots.size) (hash : UInt32) :
    t.slotAt (t.ideal hash + t.distance hash i) = t.slotAt i := by
  rw [← slotAt_mod, distance_eq_ahead,
    add_ahead_mod (ideal_lt (Nat.zero_lt_of_lt hi) hash) hi]

/-- A slot on the way to a reached slot is taken. -/
theorem Reaches.slotAt_ne_none (h : t.Reaches hash i) (hj : j < t.slots.size)
    (hle : t.distance hash j ≤ t.distance hash i) : t.slotAt j ≠ none := by
  rw [← slotAt_ideal_add_distance hj hash]
  exact h _ hle

theorem Reaches.of_le (h : t.Reaches hash i) (hle : t.distance hash j ≤ t.distance hash i) :
    t.Reaches hash j :=
  fun k hk => h k (Nat.le_trans hk hle)

/-- Taking a slot takes no slot away from a way. -/
theorem Reaches.setSlot_some (h : t.Reaches hash j) (hi : i < t.slots.size) :
    (t.setSlot i (some e)).Reaches hash j := by
  intro k hk
  rw [distance_setSlot] at hk
  rw [ideal_setSlot, slotAt_setSlot hi]
  split_ifs
  · exact Option.some_ne_none e
  · exact h k hk

/-- Freeing a slot leaves a way alone that ends before it. -/
theorem Reaches.setSlot_none (h : t.Reaches hash j) (hi : i < t.slots.size)
    (hlt : t.distance hash j < t.distance hash i) : (t.setSlot i none).Reaches hash j := by
  intro k hk
  rw [distance_setSlot] at hk
  have hkn : k < t.slots.size := Nat.lt_of_le_of_lt hk (distance_lt hi hash j)
  rw [ideal_setSlot, slotAt_setSlot hi, if_neg]
  · exact h k hk
  · intro heq
    have hdist : t.distance hash i = k := by
      rw [distance_eq_ahead, ← heq, ahead_add (ideal_lt (Nat.zero_lt_of_lt hi) hash) hkn]
    omega

/-! ### The loop -/

/-- What holds while a hole is being closed and slot `i` is looked at next. -/
structure Closing (t : ProbeTable) (hole i tries : Nat) : Prop where
  /-- The hole is a slot. -/
  hole_lt : hole < t.slots.size
  /-- The slot looked at next is one. -/
  next_lt : i < t.slots.size
  /-- It lies behind the hole. -/
  behind : 0 < ahead t.slots.size hole i
  /-- Every entry but the one in the hole is reached. -/
  reaches : ∀ j < t.slots.size, j ≠ hole → ∀ e, t.slotAt j = some e → t.Reaches e.hash j
  /-- The hole is not on the way to an entry between the hole and the slot looked at next. -/
  passed : ∀ j < t.slots.size, j ≠ hole → ahead t.slots.size hole j < ahead t.slots.size hole i →
    ∀ e, t.slotAt j = some e → t.distance e.hash j < t.distance e.hash hole
  /-- The hole is taken. -/
  hole_taken : t.slotAt hole ≠ none
  /-- A free slot will be met in time. -/
  ends : ∃ free < t.slots.size, t.slotAt free = none ∧
    ahead t.slots.size hole i ≤ ahead t.slots.size hole free ∧
    ahead t.slots.size hole free < ahead t.slots.size hole i + tries

theorem Closing.ne (h : Closing t hole i k) : i ≠ hole := by
  rintro rfl
  have hbehind := h.behind
  rw [ahead_self h.hole_lt] at hbehind
  exact Nat.lt_irrefl 0 hbehind

/-- Behind a slot that is not free, the loop goes on. -/
theorem Closing.exists_free (h : Closing t hole i (k + 1)) (he : t.slotAt i = some e) :
    ∃ free < t.slots.size, t.slotAt free = none ∧ free ≠ hole ∧
      ahead t.slots.size hole i < ahead t.slots.size hole free ∧
      ahead t.slots.size hole free < ahead t.slots.size hole i + 1 + k := by
  obtain ⟨free, hlt, hfree, hle, hbound⟩ := h.ends
  refine ⟨free, hlt, hfree, ?_, ?_, by omega⟩
  · rintro rfl
    exact h.hole_taken hfree
  · refine Nat.lt_of_le_of_ne hle fun heq => ?_
    rw [← ahead_inj h.hole_lt h.next_lt hlt heq, he] at hfree
    exact Option.some_ne_none e hfree

/-- At a free slot the hole may be freed: a way over the hole would lead over the free slot. -/
theorem Closing.linked_setSlot (h : Closing t hole i k) (hfree : t.slotAt i = none) :
    (t.setSlot hole none).Linked := by
  intro j hj e he
  rw [size_slots_setSlot] at hj
  rw [slotAt_setSlot_of_lt h.hole_lt hj] at he
  split_ifs at he with hne
  refine (h.reaches j hj hne e he).setSlot_none h.hole_lt ?_
  by_contra hover
  rw [Nat.not_lt] at hover
  by_cases hpassed : ahead t.slots.size hole j < ahead t.slots.size hole i
  · exact absurd (h.passed j hj hne hpassed e he) (Nat.not_lt.mpr hover)
  · have hideal := ideal_lt (Nat.zero_lt_of_lt hj) e.hash
    have hij : t.distance e.hash i ≤ t.distance e.hash j := by
      have hi := ahead_trans hideal h.hole_lt h.next_lt
      have hj' := ahead_trans hideal h.hole_lt hj
      have hlt := distance_lt hj e.hash j
      have hltj := ahead_lt h.hole_lt j
      simp only [distance_eq_ahead] at hover hlt ⊢
      omega
    exact (h.reaches j hj hne e he).slotAt_ne_none h.next_lt hij hfree

theorem ahead_after (hi : i < t.slots.size) (h : 1 < t.slots.size) :
    ahead t.slots.size i (t.after i) = 1 := ahead_add hi h

/-- Looking at one slot more. -/
theorem ahead_hole_after (hhole : hole < t.slots.size) (hi : i < t.slots.size)
    (h : ahead t.slots.size hole i + 1 < t.slots.size) :
    ahead t.slots.size hole (t.after i) = ahead t.slots.size hole i + 1 := by
  have hafter : t.after i = (hole + (ahead t.slots.size hole i + 1)) % t.slots.size := by
    rw [after, ← Nat.add_assoc, Nat.add_mod (hole + _), add_ahead_mod hhole hi, Nat.add_mod i,
      Nat.mod_eq_of_lt hi]
  rw [hafter, ahead_add hhole h]

theorem after_lt (hi : i < t.slots.size) (j : Nat) : t.after j < t.slots.size :=
  Nat.mod_lt _ (Nat.zero_lt_of_lt hi)

/-- An entry that does not need the hole stays where it is. -/
theorem Closing.skip (h : Closing t hole i (k + 1)) (he : t.slotAt i = some e)
    (hstay : ¬ t.distance e.hash hole < t.distance e.hash i) :
    Closing t hole (t.after i) k := by
  obtain ⟨free, hlt, hfree, hne, hbehind, hbound⟩ := h.exists_free he
  have hfreeLt := ahead_lt h.hole_lt free
  have hafter := ahead_hole_after h.hole_lt h.next_lt (by omega)
  refine {
    hole_lt := h.hole_lt
    next_lt := after_lt h.next_lt i
    behind := by omega
    reaches := h.reaches
    passed := ?_
    hole_taken := h.hole_taken
    ends := ⟨free, hlt, hfree, by omega, by omega⟩ }
  intro j hj hjne hj' e' he'
  rw [hafter] at hj'
  rcases Nat.lt_or_eq_of_le (Nat.le_of_lt_succ hj') with hbefore | heq
  · exact h.passed j hj hjne hbefore e' he'
  · obtain rfl := ahead_inj h.hole_lt hj h.next_lt heq
    rw [he] at he'
    obtain rfl := Option.some.inj he'
    exact Nat.lt_of_le_of_ne (Nat.not_lt.mp hstay) fun heq => hjne (distance_inj hj h.hole_lt heq)

/-- An entry that needs the hole fills it and leaves a hole of its own. -/
theorem Closing.fill (h : Closing t hole i (k + 1)) (he : t.slotAt i = some e)
    (hmove : t.distance e.hash hole < t.distance e.hash i) :
    Closing (t.setSlot hole (some e)) i (t.after i) k := by
  obtain ⟨free, hlt, hfree, hne, hbehind, hbound⟩ := h.exists_free he
  have hfreeLt := ahead_lt h.hole_lt free
  have hafter := ahead_after h.next_lt (by omega)
  have hfromHole : ahead t.slots.size i free + ahead t.slots.size hole i =
      ahead t.slots.size hole free := by
    have hlt' := ahead_lt h.next_lt free
    rcases ahead_trans h.hole_lt h.next_lt hlt with h' | h' <;> omega
  constructor <;> try rw [size_slots_setSlot]
  case hole_lt => exact h.next_lt
  case next_lt => exact after_lt h.next_lt i
  case behind => omega
  case reaches =>
    intro j hj hjne e' he'
    rw [slotAt_setSlot_of_lt h.hole_lt hj] at he'
    split_ifs at he' with hjhole
    · obtain rfl := Option.some.inj he'
      rw [hjhole]
      have hreach := h.reaches i h.next_lt h.ne e he
      exact (hreach.of_le (Nat.le_of_lt hmove)).setSlot_some h.hole_lt
    · exact (h.reaches j hj hjhole e' he').setSlot_some h.hole_lt
  case passed =>
    intro j hj hjne hj'
    rw [hafter, Nat.lt_one_iff, ← ahead_self h.next_lt] at hj'
    exact absurd (ahead_inj h.next_lt hj h.next_lt hj') hjne
  case hole_taken =>
    rw [slotAt_setSlot_of_lt h.hole_lt h.next_lt, if_neg h.ne, he]
    exact Option.some_ne_none e
  case ends =>
    refine ⟨free, hlt, ?_, by omega, by omega⟩
    rw [slotAt_setSlot_of_lt h.hole_lt hlt, if_neg hne, hfree]

/-- Moving an entry into the hole changes where entries are, and nothing else. -/
theorem Closing.perm_contents (h : Closing t hole i k) (he : t.slotAt i = some e) :
    ((t.setSlot hole (some e)).setSlot i none).contents.Perm (t.setSlot hole none).contents := by
  have hi : (t.setSlot hole none).slotAt i = some e := by
    rw [slotAt_setSlot_of_lt h.hole_lt h.next_lt, if_neg h.ne, he]
  have hsize : (t.setSlot hole none).slots.size = t.slots.size := size_slots_setSlot none
  have hhole : ((t.setSlot hole none).setSlot i none).slotAt hole = none := by
    rw [slotAt_setSlot_of_lt (hsize ▸ h.next_lt) (hsize ▸ h.hole_lt), if_neg h.ne.symm,
      slotAt_setSlot_of_lt h.hole_lt h.hole_lt, if_pos rfl]
  have hfill := perm_contents_setSlot (e := e)
    (by rw [size_slots_setSlot, hsize]; exact h.hole_lt) hhole
  rw [setSlot_comm h.ne, setSlot_setSlot] at hfill
  exact hfill.trans (perm_contents_of_slotAt (hsize ▸ h.next_lt) hi).symm

@[simp] theorem slots_size_closeHole (t : ProbeTable) (hole i : Nat) (tries : Nat) :
    (t.closeHole hole i tries).slots.size = t.slots.size := by
  induction tries generalizing t hole i with
  | zero => rw [closeHole, size_slots_setSlot]
  | succ tries ih =>
    rw [closeHole]
    split
    · rw [size_slots_setSlot]
    · dsimp only
      split_ifs
      · rw [ih, size_slots_setSlot]
      · rw [ih]

/-- **Closing a hole loses no entry but the one that was in it**, and leaves all others
reachable. A free slot is met before the tries run out. -/
theorem closeHole_spec {tries : Nat} (h : Closing t hole i tries) :
    (t.closeHole hole i tries).Linked ∧
      (t.closeHole hole i tries).contents.Perm (t.setSlot hole none).contents := by
  induction tries generalizing t hole i with
  | zero =>
    obtain ⟨free, -, -, hle, hlt⟩ := h.ends
    omega
  | succ tries ih =>
    rw [closeHole, ← slotAt_of_lt h.next_lt]
    cases he : t.slotAt i with
    | none => exact ⟨h.linked_setSlot he, .refl _⟩
    | some e =>
      dsimp only
      split_ifs with hmove
      · obtain ⟨hlinked, hperm⟩ := ih (h.fill he hmove)
        exact ⟨hlinked, hperm.trans (h.perm_contents he)⟩
      · exact ih (h.skip he hmove)

end Typeahead.ProbeTable
