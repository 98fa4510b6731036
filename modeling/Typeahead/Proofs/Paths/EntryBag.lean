import Mathlib.Data.Multiset.AddSub
import Typeahead.Proofs.Paths.Multimap

/-!
# A probe table is a bag of entries

What a table can be asked, and what a bag of entries may answer. The bag knows nothing of slots: an
entry that comes in is one more in the bag, whether or not there is an equal one; one that is
removed is one less; and to look for a hash is to ask whether the bag has an entry with that hash
that is accepted. Which of several such entries it is that is found or removed is the one thing
that a bag leaves open. Nor does a bag know when there is no room, be it in the numbers or in the
memory: it is told.

Behind the answers, the slots number a power of two, a quarter of them is free, and no slot from
the ideal slot of an entry to its own is free. That is why the loop that closes a hole needs no
bound: it comes to a free slot before it has gone around (`Closing.shifts`).
-/

namespace Typeahead

/-! ### Requests -/

/-- What a table is asked to do. -/
inductive TableRequest where
  /-- Insert an entry, whether or not an equal one is there. -/
  | insert (hash : UInt32) (offset : Nat)
  /-- Make room for more entries. -/
  | reserve (more : Nat)
  /-- Remove an entry with a hash and an offset that is accepted. -/
  | remove (hash : UInt32) (accept : Nat → Bool)
  /-- Find one. -/
  | find (hash : UInt32) (accept : Nat → Bool)

/-- What it answers. -/
inductive TableReply where
  /-- Whether there was room for an entry. -/
  | inserted (result : Except Fault Unit)
  /-- Whether room was made. -/
  | reserved (result : Except Fault Unit)
  /-- The offset that was removed, if there was one. -/
  | removed (offset : Option Nat)
  /-- The offset that was found, if there was one. -/
  | found (offset : Option Nat)
  deriving DecidableEq

namespace ProbeTable

section Requests

variable [Memory]

/-- Serves a request. Where there is no room, a table stays as it is. -/
def respond (t : ProbeTable) : TableRequest → ProbeTable × TableReply
  | .insert hash offset =>
    match t.insert hash offset with
    | .ok t' => (t', .inserted (.ok ()))
    | .error fault => (t, .inserted (.error fault))
  | .reserve more =>
    match t.reserve more with
    | .ok t' => (t', .reserved (.ok ()))
    | .error fault => (t, .reserved (.error fault))
  | .remove hash accept => ((t.remove hash accept).1, .removed (t.remove hash accept).2)
  | .find hash accept => (t, .found (t.find? hash accept))

/-- Serves requests one after the other. -/
def respondAll (t : ProbeTable) : List TableRequest → List TableReply
  | [] => []
  | request :: requests => (t.respond request).2 :: (t.respond request).1.respondAll requests

/-- The table after some requests. -/
def afterAll (t : ProbeTable) (requests : List TableRequest) : ProbeTable :=
  requests.foldl (fun t request => (t.respond request).1) t

/-- What keeps a table from serving a request. -/
def refusalOf? (t : ProbeTable) : TableRequest → Option Fault
  | .insert _ _ => t.refusal? 1
  | .reserve more => t.refusal? more
  | _ => none

/-- Requests, each with what keeps the table from serving it when they are served in turn. -/
def noted (t : ProbeTable) : List TableRequest → List (TableRequest × Option Fault)
  | [] => []
  | request :: requests => (request, t.refusalOf? request) :: (t.respond request).1.noted requests

/-- Whether a table has just been made: without slots, or for a demand. -/
def IsNew (t : ProbeTable) : Prop := t = {} ∨ ∃ demand, withSlots demand = .ok t

end Requests

end ProbeTable

/-! ### The reference -/

/-- **Entries, each as often as it came in.** -/
abbrev EntryBag := Multiset ProbeEntry

namespace EntryBag

open Typeahead.ProbeTable

/-- What a bag may answer to a request, being told what keeps it from serving the request, and which
bag is left. -/
inductive Serves (refusal : Option Fault) :
    EntryBag → TableRequest → TableReply → EntryBag → Prop where
  /-- An entry comes in. -/
  | inserted (es : EntryBag) (hash : UInt32) (offset : Nat) (h : refusal = none) :
    Serves refusal es (.insert hash offset) (.inserted (.ok ())) (⟨hash, offset⟩ ::ₘ es)
  /-- There is no room for it. -/
  | notInserted (es : EntryBag) (hash : UInt32) (offset : Nat) (fault : Fault)
    (h : refusal = some fault) :
    Serves refusal es (.insert hash offset) (.inserted (.error fault)) es
  /-- Room makes no difference. -/
  | reserved (es : EntryBag) (more : Nat) (h : refusal = none) :
    Serves refusal es (.reserve more) (.reserved (.ok ())) es
  /-- There is no room. -/
  | notReserved (es : EntryBag) (more : Nat) (fault : Fault) (h : refusal = some fault) :
    Serves refusal es (.reserve more) (.reserved (.error fault)) es
  /-- One entry that is wanted goes. -/
  | removed (es : EntryBag) (hash : UInt32) (accept : Nat → Bool) (offset : Nat)
    (h : accept offset = true) :
    Serves refusal (⟨hash, offset⟩ ::ₘ es) (.remove hash accept) (.removed (some offset)) es
  /-- No entry is wanted. -/
  | noneRemoved (es : EntryBag) (hash : UInt32) (accept : Nat → Bool)
    (h : ∀ e ∈ es, ¬ Wanted hash accept e) :
    Serves refusal es (.remove hash accept) (.removed none) es
  /-- An entry that is wanted is found. -/
  | found (es : EntryBag) (hash : UInt32) (accept : Nat → Bool) (offset : Nat)
    (hmem : ⟨hash, offset⟩ ∈ es) (h : accept offset = true) :
    Serves refusal es (.find hash accept) (.found (some offset)) es
  /-- No entry is wanted. -/
  | noneFound (es : EntryBag) (hash : UInt32) (accept : Nat → Bool)
    (h : ∀ e ∈ es, ¬ Wanted hash accept e) :
    Serves refusal es (.find hash accept) (.found none) es

/-- What a bag may answer to requests, one after the other, and which bag is left in the end. -/
inductive ServesAll : EntryBag → List (TableRequest × Option Fault) → List TableReply →
    EntryBag → Prop where
  /-- Nothing has been asked. -/
  | nil (es : EntryBag) : ServesAll es [] [] es
  /-- One request, and then the others. -/
  | cons {es es' es'' : EntryBag} {request : TableRequest} {refusal : Option Fault}
    {reply : TableReply} {requests : List (TableRequest × Option Fault)}
    {replies : List TableReply} (h : Serves refusal es request reply es')
    (hrest : ServesAll es' requests replies es'') :
    ServesAll es ((request, refusal) :: requests) (reply :: replies) es''

end EntryBag

namespace ProbeTable

variable {t t' : ProbeTable} {hole i more : Nat} {e : ProbeEntry}

/-- The entries of a table, in no order. -/
def bag (t : ProbeTable) : EntryBag := t.contents

@[simp] theorem mem_bag : e ∈ t.bag ↔ e ∈ t.contents := Multiset.mem_coe

/-! ### The loop without a bound -/

/-- How a hole is closed by a loop that goes on until it comes to a free slot: from `hole`, with
slot `i` to be looked at next, it ends and leaves the table `t'`. -/
inductive Shifts : ProbeTable → Nat → Nat → ProbeTable → Prop where
  /-- A free slot: the hole becomes one, too. -/
  | stop {t : ProbeTable} {hole i : Nat} (hfree : t.slots.getD i none = none) :
    Shifts t hole i (t.setSlot hole none)
  /-- An entry that lies nearer to its ideal slot in the hole is moved there. -/
  | fill {t t' : ProbeTable} {hole i : Nat} {e : ProbeEntry}
    (he : t.slots.getD i none = some e) (h : t.distance e.hash hole < t.distance e.hash i)
    (hrest : Shifts (t.setSlot hole (some e)) i (t.after i) t') : Shifts t hole i t'
  /-- Any other entry stays. -/
  | skip {t t' : ProbeTable} {hole i : Nat} {e : ProbeEntry}
    (he : t.slots.getD i none = some e) (h : ¬ t.distance e.hash hole < t.distance e.hash i)
    (hrest : Shifts t hole (t.after i) t') : Shifts t hole i t'

/-- The loop ends in one way at most. -/
theorem Shifts.unique {t₁ t₂ : ProbeTable} (h₁ : Shifts t hole i t₁) (h₂ : Shifts t hole i t₂) :
    t₁ = t₂ := by
  induction h₁ with
  | stop hfree =>
    cases h₂ with
    | stop => rfl
    | fill he => simp [hfree] at he
    | skip he => simp [hfree] at he
  | fill he h _ ih =>
    cases h₂ with
    | stop hfree => simp [hfree] at he
    | fill he' _ hrest =>
      obtain rfl := Option.some.inj (he.symm.trans he')
      exact ih hrest
    | skip he' hstay =>
      obtain rfl := Option.some.inj (he.symm.trans he')
      exact absurd h hstay
  | skip he h _ ih =>
    cases h₂ with
    | stop hfree => simp [hfree] at he
    | fill he' hmove =>
      obtain rfl := Option.some.inj (he.symm.trans he')
      exact absurd hmove h
    | skip he' _ hrest => exact ih hrest

/-- **The loop ends by itself**: the free slot that ends it is met in as many rounds as there are
slots, so that a bound of so many rounds makes no difference. -/
theorem Closing.shifts {tries : Nat} (h : Closing t hole i tries) :
    Shifts t hole i (t.closeHole hole i tries) := by
  induction tries generalizing t hole i with
  | zero =>
    obtain ⟨free, -, -, hle, hlt⟩ := h.ends
    omega
  | succ tries ih =>
    rw [closeHole, ← slotAt_of_lt h.next_lt]
    cases he : t.slotAt i with
    | none => exact .stop (slotAt_of_lt h.next_lt ▸ he)
    | some e =>
      have hget : t.slots.getD i none = some e := slotAt_of_lt h.next_lt ▸ he
      dsimp only
      split_ifs with hmove
      · exact .fill hget hmove (ih (h.fill he hmove))
      · exact .skip hget hmove (ih (h.skip he hmove))

/-! ### The invariant of a run -/

section Run

variable [Memory]

theorem IsNew.sound (h : t.IsNew) : t.Sound ∧ t.bag = 0 := by
  rcases h with rfl | ⟨demand, h⟩
  · exact ⟨sound_empty, rfl⟩
  · obtain ⟨hsound, hempty, -⟩ := sound_withSlots h
    exact ⟨hsound, by rw [bag, hempty]; rfl⟩

/-- An entry comes in unless there is no room for it. -/
theorem Sound.insert_cases (ht : t.Sound) (hash : UInt32) (offset : Nat) :
    (∃ fault, t.refusal? 1 = some fault ∧ t.insert hash offset = .error fault) ∨
      t.refusal? 1 = none ∧ ∃ t', t.insert hash offset = .ok t' := by
  rcases ht.reserve_cases 1 with ⟨fault, hrefusal, hreserve⟩ | ⟨hrefusal, roomy, hreserve⟩
  · exact .inl ⟨fault, hrefusal, by rw [ProbeTable.insert, hreserve]; rfl⟩
  · exact .inr ⟨hrefusal, _, by rw [ProbeTable.insert, hreserve]; rfl⟩

variable {hash : UInt32} {offset : Nat} {fault : Fault}

theorem respond_insert_ok (h : t.insert hash offset = .ok t') :
    t.respond (.insert hash offset) = (t', .inserted (.ok ())) := by
  simp only [ProbeTable.respond, h]

theorem respond_insert_error (h : t.insert hash offset = .error fault) :
    t.respond (.insert hash offset) = (t, .inserted (.error fault)) := by
  simp only [ProbeTable.respond, h]

theorem respond_reserve_ok (h : t.reserve more = .ok t') :
    t.respond (.reserve more) = (t', .reserved (.ok ())) := by
  simp only [ProbeTable.respond, h]

theorem respond_reserve_error (h : t.reserve more = .error fault) :
    t.respond (.reserve more) = (t, .reserved (.error fault)) := by
  simp only [ProbeTable.respond, h]

/-- **A table serves a request as its bag may.** -/
theorem Sound.respond (ht : t.Sound) (request : TableRequest) :
    (t.respond request).1.Sound ∧
      EntryBag.Serves (t.refusalOf? request) t.bag request (t.respond request).2
        (t.respond request).1.bag := by
  cases request with
  | insert hash offset =>
    rcases ht.insert_cases hash offset with ⟨fault, hrefusal, hinsert⟩ | ⟨hrefusal, t', hinsert⟩
    · rw [respond_insert_error hinsert]
      exact ⟨ht, .notInserted _ _ _ _ hrefusal⟩
    · obtain ⟨hsound, hperm⟩ := insert_spec ht hinsert
      have hbag : t'.bag = ⟨hash, offset⟩ ::ₘ t.bag := Multiset.coe_eq_coe.mpr hperm
      rw [respond_insert_ok hinsert]
      exact ⟨hsound, hbag ▸ .inserted _ _ _ hrefusal⟩
  | reserve more =>
    rcases ht.reserve_cases more with ⟨fault, hrefusal, hreserve⟩ | ⟨hrefusal, t', hreserve⟩
    · rw [respond_reserve_error hreserve]
      exact ⟨ht, .notReserved _ _ _ hrefusal⟩
    · obtain ⟨hsound, hperm, -, -⟩ := reserve_spec ht hreserve
      have hbag : t'.bag = t.bag := Multiset.coe_eq_coe.mpr hperm
      rw [respond_reserve_ok hreserve]
      exact ⟨hsound, hbag ▸ .reserved _ _ hrefusal⟩
  | remove hash accept =>
    have hrespond : t.respond (.remove hash accept) =
        ((t.remove hash accept).1, .removed (t.remove hash accept).2) := rfl
    rcases remove_cases ht hash accept with
      ⟨hremove, hnone⟩ | ⟨offset, t', hremove, haccept, hsound, hperm⟩
    · rw [hrespond, hremove]
      exact ⟨ht, .noneRemoved _ _ _ fun e he => hnone e (mem_bag.mp he)⟩
    · rw [hrespond, hremove]
      have hbag : t.bag = ⟨hash, offset⟩ ::ₘ t'.bag := Multiset.coe_eq_coe.mpr hperm
      exact ⟨hsound, hbag ▸ .removed _ _ _ _ haccept⟩
  | find hash accept =>
    refine ⟨ht, ?_⟩
    change EntryBag.Serves _ t.bag _ (.found (t.find? hash accept)) t.bag
    rcases find?_cases ht.linked hash accept with
      ⟨hfind, hnone⟩ | ⟨offset, hfind, hmem, haccept⟩
    · exact hfind ▸ .noneFound _ _ _ fun e he => hnone e (mem_bag.mp he)
    · exact hfind ▸ .found _ _ _ _ (mem_bag.mpr hmem) haccept

/-- What holds after one request holds after any. -/
theorem Sound.afterAll (ht : t.Sound) (requests : List TableRequest) :
    (t.afterAll requests).Sound ∧
      EntryBag.ServesAll t.bag (t.noted requests) (t.respondAll requests)
        (t.afterAll requests).bag := by
  induction requests generalizing t with
  | nil => exact ⟨ht, .nil _⟩
  | cons request requests ih =>
    obtain ⟨hnext, hserves⟩ := ht.respond request
    obtain ⟨hsound, hrest⟩ := ih hnext
    exact ⟨hsound, .cons hserves hrest⟩

/-! ### All requests -/

/-- **What anybody can rely on** who uses a table. -/
structure Faithful (t : ProbeTable) : Prop where
  /-- The slots number a power of two, and at least 8, or there are none. -/
  shaped : t.slots.size = 0 ∨ ∃ k, 3 ≤ k ∧ t.slots.size = 2 ^ k
  /-- A quarter of them is free. -/
  loaded : 4 * t.size ≤ 3 * t.slots.size
  /-- No slot from the ideal slot of an entry to its own is free, going around the end. -/
  linked : ∀ i < t.slots.size, ∀ e, t.slotAt i = some e →
    ∀ k ≤ t.distance e.hash i, t.slotAt (t.ideal e.hash + k) ≠ none
  /-- The size counts the entries. -/
  counted : t.size = t.bag.card
  /-- Looking for a hash finds an accepted offset of it, unless there is none. -/
  finds : ∀ hash accept,
    t.find? hash accept = none ∧ (∀ e ∈ t.bag, ¬ Wanted hash accept e) ∨
      ∃ offset, t.find? hash accept = some offset ∧ ⟨hash, offset⟩ ∈ t.bag ∧ accept offset = true
  /-- Closing a hole ends without a bound, and the bound makes no difference. -/
  shifts : ∀ hash accept hole offset, t.locate? hash accept = some (hole, offset) →
    ∀ t', Shifts t hole (t.after hole) t' ↔
      t' = t.closeHole hole (t.after hole) t.slots.size
  /-- There is room for as many entries as there are numbers of 32 bits, if there is memory. -/
  roomy : Memory.Ample → ∀ more, t.size + more ≤ 2 ^ 32 → t.refusal? more = none

theorem Sound.faithful (ht : t.Sound) : t.Faithful where
  shaped := ht.shaped
  loaded := ht.loaded
  linked := ht.linked
  counted := ht.counted.symm
  finds hash accept := by simpa using find?_cases ht.linked hash accept
  shifts hash accept hole offset hlocate t' := by
    obtain ⟨hlt, hslot, -⟩ := locate?_eq_some hlocate
    have hends := (closing_of_sound ht hlt hslot).shifts
    exact ⟨fun ht' => ht'.unique hends, fun ht' => ht' ▸ hends⟩
  roomy _ _ hmore := refusal?_eq_none hmore

/-- **A table is a faithful multimap.** Whatever it is asked, it answers as the bag of its entries
may: an entry that comes in is in the bag, one that is removed was wanted and no other goes with it,
and room is refused only if the number of slots overflows or there is no memory for them. -/
theorem respondAll_servesAll (hnew : t.IsNew) (requests : List TableRequest) :
    EntryBag.ServesAll 0 (t.noted requests) (t.respondAll requests) (t.afterAll requests).bag ∧
      (t.afterAll requests).Faithful := by
  obtain ⟨hsound, hempty⟩ := hnew.sound
  obtain ⟨hafter, hserves⟩ := hsound.afterAll requests
  exact ⟨hempty ▸ hserves, hafter.faithful⟩

end Run

section AddressSpace

open scoped Typeahead.Memory.AddressSpace

/-- Three entries whose ideal slot is 3 of 16, and two whose ideal slot is the last. -/
def collisions : List TableRequest :=
  [.insert 3 0, .insert 19 1, .insert 35 2, .insert 15 3, .insert 31 4]

/-- The first of either goes: the others move up, one of them around the end, and are found. Room
for 2 ^ 45 entries is too much for the memory, and for 2 ^ 62 too much for the numbers. -/
theorem respondAll_collisions :
    ∃ t, withSlots 16 = .ok t ∧
      let requests := collisions ++ [.remove 3 fun _ => true, .remove 15 fun _ => true,
        .reserve (2 ^ 45), .reserve (2 ^ 62), .find 19 fun _ => true, .find 35 fun _ => true,
        .find 31 fun _ => true]
      EntryBag.ServesAll 0 (t.noted requests) (t.respondAll requests) (t.afterAll requests).bag ∧
        (t.respondAll requests).drop 5 = [.removed (some 0), .removed (some 3),
          .reserved (.error (.allocation "path hash index")), .reserved (.error .overflow),
          .found (some 1), .found (some 2), .found (some 4)] ∧
        (t.afterAll requests).Faithful ∧
        (t.afterAll requests).slotAt 15 = some ⟨31, 4⟩ := by
  have hslots : doubled 16 fewestSlots = 16 := by decide +kernel
  have hnew : withSlots 16 = .ok { slots := Array.replicate 16 none } := by
    rw [withSlots_eq_ok_iff, hslots]
    exact ⟨by decide, by decide, rfl⟩
  refine ⟨_, hnew, ?_⟩
  intro requests
  obtain ⟨hserves, hfaithful⟩ := respondAll_servesAll (.inr ⟨16, hnew⟩) requests
  exact ⟨hserves, by decide +kernel, hfaithful, by decide +kernel⟩

end AddressSpace

end ProbeTable

end Typeahead
