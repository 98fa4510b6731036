import Mathlib.Data.List.Induction
import Typeahead.Paths.Shard
import Typeahead.Proofs.Paths.Encoding

/-!
# The history of an arena

An arena is only ever appended to and has entries killed that were appended before. Both leave the
entries where they are, so what has happened to an arena decides all that can be read from it. A
history is written down beside the arena: which entry was appended at which offset, what was
refused, and which offsets were killed. It knows nothing of bytes.

The invariant says that the arena spells the entries of its history, at the offsets of its history
(`Recorded`). One request keeps it (`Recorded.respond`), so a run of requests does, and what the
arena answers can be read off the history alone (`remembers`). Memory may be refused at any append.
An arena grows until its bytes reach the last offset that names an entry; the entry there may end
behind the offsets of 32 bits, and the walk over the entries still ends at it.
-/

namespace Typeahead

/-! ### Requests and what comes of them -/

/-- The flags that come with an entry. -/
structure EntryFlags where
  /-- Whether the stored text is the whole path. -/
  absolute : Bool
  /-- Whether the entry is marked as removed. -/
  dead : Bool

/-- What an arena is asked to do. -/
inductive ArenaRequest where
  /-- Append an entry. There may be memory for it or not. -/
  | append (granted : Bool) (hash : UInt32) (flags : EntryFlags) (stored : ByteArray)
  /-- Kill the entry at the offset that the append with this number among those that succeeded was
  answered with. There is nothing to do if there was no such append yet. -/
  | kill (number : Nat)

/-- What has happened to an arena. -/
inductive ArenaEvent where
  /-- An entry was appended at an offset. -/
  | appended (offset : Nat) (e : Entry)
  /-- An entry was refused. -/
  | refused (why : Fault)
  /-- The entry at an offset was killed, with the answer whether it was alive. -/
  | killed (offset : Nat) (was : Bool)

namespace Arena

/-- Appends an entry, if its text is short enough, its offset is a valid one and there is memory.
Answers the offset. A mark of removal does not come with an entry. -/
def append (a : Arena) (granted : Bool) (hash : UInt32) (flags : EntryFlags)
    (stored : ByteArray) : Arena × Except Fault Nat :=
  match a.refusal? stored with
  | some why => (a, .error why)
  | none =>
    if granted then (a.push hash flags.absolute stored, .ok a.bytes.size)
    else (a, .error (.allocation "path arena"))

/-- The entries that were appended, as they came, each with its offset. -/
def appends : List ArenaEvent → List (Nat × Entry)
  | [] => []
  | .appended offset e :: events => (offset, e) :: appends events
  | _ :: events => appends events

/-- The offsets that were killed. -/
def kills : List ArenaEvent → List Nat
  | [] => []
  | .killed offset _ :: events => offset :: kills events
  | _ :: events => kills events

/-- The entries that were appended, marked if they have been killed since. -/
def standing (events : List ArenaEvent) : List (Nat × Entry) :=
  (appends events).map fun x => (x.1, { x.2 with dead := x.1 ∈ kills events })

/-- Serves a request, given the history so far, and writes down what comes of it. -/
def respond (a : Arena) (events : List ArenaEvent) : ArenaRequest → Arena × List ArenaEvent
  | .append granted hash flags stored =>
    match a.append granted hash flags stored with
    | (a, .ok offset) => (a, events ++ [.appended offset ⟨hash, flags.absolute, false, stored⟩])
    | (a, .error why) => (a, events ++ [.refused why])
  | .kill number =>
    match (appends events)[number]? with
    | some (offset, _) =>
      ((a.kill offset).1, events ++ [.killed offset (a.kill offset).2])
    | none => (a, events)

/-- A new arena and its history after some requests. -/
def run (requests : List ArenaRequest) : Arena × List ArenaEvent :=
  requests.foldl (fun x request => x.1.respond x.2 request) ({}, [])

variable {a : Arena} {e : Entry} {es pre post : List Entry} {events : List ArenaEvent}
  {offset : Nat} {was : Bool}

/-! ### Histories -/

@[simp] theorem appends_append (events events' : List ArenaEvent) :
    appends (events ++ events') = appends events ++ appends events' := by
  induction events with
  | nil => rfl
  | cons event events ih => cases event <;> simp [appends, ih]

@[simp] theorem kills_append (events events' : List ArenaEvent) :
    kills (events ++ events') = kills events ++ kills events' := by
  induction events with
  | nil => rfl
  | cons event events ih => cases event <;> simp [kills, ih]

theorem mem_standing_of_mem_appends (h : (offset, e) ∈ appends events) :
    (offset, { e with dead := offset ∈ kills events }) ∈ standing events :=
  List.mem_map_of_mem (f := fun x => (x.1, { x.2 with dead := x.1 ∈ kills events })) h

theorem map_fst_standing (events : List ArenaEvent) :
    (standing events).map Prod.fst = (appends events).map Prod.fst := by
  simp [standing]

theorem dead_of_mem_standing (h : (offset, e) ∈ standing events) :
    e.dead = decide (offset ∈ kills events) := by
  simp only [standing, List.mem_map, Prod.mk.injEq] at h
  obtain ⟨x, -, rfl, rfl⟩ := h
  rfl

/-- An entry that is appended where nothing was killed stands as it came. -/
theorem standing_appended (hlive : e.dead = false) (hnew : offset ∉ kills events) :
    standing (events ++ [.appended offset e]) = standing events ++ [(offset, e)] := by
  have heq : { e with dead := false } = e := by rw [← hlive]
  simp [standing, appends, kills, hnew, heq]

theorem standing_refused (why : Fault) : standing (events ++ [.refused why]) = standing events := by
  simp [standing, appends, kills]

/-- A kill marks the entries at its offset, and changes nothing if the offset was killed before. -/
theorem standing_killed : standing (events ++ [.killed offset was]) =
    (standing events).map fun x => if x.1 = offset then (x.1, x.2.bury) else x := by
  simp only [standing, appends_append, kills_append, appends, kills, List.append_nil, List.map_map]
  refine List.map_congr_left fun x _ => ?_
  by_cases h : x.1 = offset <;> simp [h, Entry.bury]

theorem standing_killed_again (h : offset ∈ kills events) :
    standing (events ++ [.killed offset was]) = standing events := by
  rw [standing_killed]
  refine (List.map_congr_left fun x hx => ?_).trans (List.map_id _)
  have hdead := dead_of_mem_standing hx
  split_ifs with heq
  · rw [heq, decide_eq_true h] at hdead
    rw [Entry.bury, ← hdead]
    rfl
  · rfl

/-! ### Entries at their offsets -/

theorem map_snd_located (offset : Nat) (es : List Entry) :
    (located offset es).map Prod.snd = es := by
  induction es generalizing offset with
  | nil => rfl
  | cons e es ih => simp [located, ih]

theorem extent_eq_sum (es : List Entry) : extent es = (es.map Entry.size).sum := by
  induction es with
  | nil => rfl
  | cons e es ih => simp [ih]

/-- Burying an entry marks what stands at its offset and nothing else, for offsets ascend. -/
theorem located_bury (pre post : List Entry) (e : Entry) :
    located 0 (pre ++ e.bury :: post) = (located 0 (pre ++ e :: post)).map fun x =>
      if x.1 = extent pre then (x.1, x.2.bury) else x := by
  have hascend := pairwise_located 0 (pre ++ e :: post)
  rw [located_append, located] at hascend
  obtain ⟨-, hpost, hpre⟩ := List.pairwise_append.mp hascend
  have hpost := (List.pairwise_cons.mp hpost).1
  simp only [Nat.zero_add, List.forall_mem_cons] at hpost hpre
  have hbefore : (located 0 pre).map (fun x =>
      if x.1 = extent pre then (x.1, x.2.bury) else x) = located 0 pre :=
    (List.map_congr_left fun x hx => if_neg (Nat.ne_of_lt (hpre x hx).1)).trans (List.map_id _)
  have hbehind : (located (extent pre + e.size) post).map (fun x =>
      if x.1 = extent pre then (x.1, x.2.bury) else x) = located (extent pre + e.size) post :=
    (List.map_congr_left fun x hx => if_neg (Nat.ne_of_gt (hpost x hx))).trans (List.map_id _)
  rw [located_append, located_append, located, located, List.map_append, List.map_cons,
    Nat.zero_add, hbefore, hbehind, if_pos rfl, Entry.size_bury]

/-- Every entry begins before the bytes end. -/
theorem lt_extent_of_mem_located {x : Nat × Entry} (h : x ∈ located 0 es) : x.1 < extent es := by
  obtain ⟨pre, post, rfl, hx⟩ := exists_of_mem_located h
  have hpos := x.2.size_pos
  rw [hx, extent_append, extent_cons]
  omega

/-! ### The invariant -/

/-- **An arena and its history**: the arena spells what stands in the history, where it stands. -/
structure Recorded (a : Arena) (events : List ArenaEvent) : Prop where
  /-- The bytes are those of the entries that stand. -/
  spells : a.Spells ((standing events).map Prod.snd)
  /-- They are at the offsets that were answered. -/
  located_eq : located 0 ((standing events).map Prod.snd) = standing events
  /-- Only what was appended was killed. -/
  known : ∀ offset ∈ kills events, offset ∈ (appends events).map Prod.fst
  /-- A kill was answered with whether it was the first one. -/
  first : ∀ front offset was rest, events = front ++ .killed offset was :: rest →
    (was = true ↔ offset ∉ kills front)

theorem recorded_new : Recorded {} [] where
  spells := spells_empty
  located_eq := rfl
  known := nofun
  first := by
    intro front offset was rest h
    simp at h

theorem Recorded.mk_of_spells (hspells : a.Spells es) (hlocated : standing events = located 0 es)
    (hknown : ∀ offset ∈ kills events, offset ∈ (appends events).map Prod.fst)
    (hfirst : ∀ front offset was rest, events = front ++ .killed offset was :: rest →
      (was = true ↔ offset ∉ kills front)) : Recorded a events := by
  have hes : (standing events).map Prod.snd = es := by rw [hlocated, map_snd_located]
  exact ⟨by rwa [hes], by rw [hes, hlocated], hknown, hfirst⟩

/-- What is written down last is a kill, or the kills are those from before. -/
theorem first_concat {event : ArenaEvent}
    (h : ∀ front offset was rest, events = front ++ .killed offset was :: rest →
      (was = true ↔ offset ∉ kills front))
    (hlast : ∀ offset was, event = .killed offset was → (was = true ↔ offset ∉ kills events)) :
    ∀ front offset was rest, events ++ [event] = front ++ .killed offset was :: rest →
      (was = true ↔ offset ∉ kills front) := by
  intro front offset was rest heq
  rcases List.eq_nil_or_concat' rest with rfl | ⟨rest, last, rfl⟩
  · obtain ⟨rfl, hevent⟩ := List.append_inj' heq rfl
    exact hlast offset was (List.cons.inj hevent).1
  · rw [← List.cons_append, ← List.append_assoc] at heq
    exact h front offset was rest (List.append_inj' heq rfl).1

theorem Recorded.lt_size (h : Recorded a events) (hmem : offset ∈ kills events) :
    offset < a.bytes.size := by
  have hknown := h.known offset hmem
  rw [← map_fst_standing] at hknown
  obtain ⟨x, hx, rfl⟩ := List.mem_map.mp hknown
  rw [← h.located_eq] at hx
  rw [h.spells.size_bytes]
  exact lt_extent_of_mem_located hx

/-- An append that is not refused writes its entry down behind all others. -/
theorem Recorded.push (h : Recorded a events) {stored : ByteArray} (hash : UInt32)
    (absolute : Bool) (hallowed : a.refusal? stored = none) :
    Recorded (a.push hash absolute stored)
      (events ++ [.appended a.bytes.size ⟨hash, absolute, false, stored⟩]) := by
  have hnew : a.bytes.size ∉ kills events := fun hmem => Nat.lt_irrefl _ (h.lt_size hmem)
  refine Recorded.mk_of_spells (h.spells.push hash absolute hallowed) ?_ ?_ ?_
  · rw [standing_appended rfl hnew, located_append, h.located_eq, ← h.spells.size_bytes,
      Nat.zero_add]
    rfl
  · intro offset hmem
    simp only [kills_append, kills, List.append_nil] at hmem
    rw [appends_append, List.map_append]
    exact List.mem_append_left _ (h.known offset hmem)
  · exact first_concat h.first nofun

theorem Recorded.refused (h : Recorded a events) (why : Fault) :
    Recorded a (events ++ [.refused why]) := by
  refine Recorded.mk_of_spells h.spells ?_ ?_ (first_concat h.first nofun)
  · rw [standing_refused, h.located_eq]
  · simpa [appends, kills] using h.known

theorem kill_of_dead (hentry : a.entryAt? offset = some e) (hdead : e.dead = true) :
    a.kill offset = (a, false) := by
  simp [kill, hentry, hdead]

theorem Recorded.known_killed (h : Recorded a events) (hmem : (offset, e) ∈ appends events)
    (was : Bool) : ∀ other ∈ kills (events ++ [.killed offset was]),
      other ∈ (appends (events ++ [.killed offset was])).map Prod.fst := by
  intro other hother
  simp only [kills_append, kills, List.mem_append, List.mem_singleton] at hother
  simp only [appends_append, appends, List.append_nil]
  rcases hother with hother | rfl
  · exact h.known other hother
  · exact List.mem_map_of_mem hmem

/-- The first kill of what was appended buries it. -/
theorem Recorded.kill_first (h : Recorded a events) (hmem : (offset, e) ∈ appends events)
    (hlive : offset ∉ kills events) :
    Recorded (a.kill offset).1 (events ++ [.killed offset true]) ∧ (a.kill offset).2 = true := by
  have hstands := mem_standing_of_mem_appends hmem
  rw [← h.located_eq] at hstands
  obtain ⟨pre, post, hes, hoffset⟩ := exists_of_mem_located hstands
  rw [Nat.zero_add] at hoffset
  have hspells := h.spells
  have hlocated := h.located_eq
  rw [hes] at hspells hlocated
  obtain ⟨hburied, hanswer⟩ := hspells.kill (decide_eq_false hlive)
  rw [← hoffset] at hburied hanswer
  refine ⟨Recorded.mk_of_spells hburied ?_ (h.known_killed hmem true) (first_concat h.first ?_),
    hanswer⟩
  · rw [standing_killed, located_bury, hlocated, hoffset]
  · rintro _ _ ⟨rfl, rfl⟩
    exact iff_of_true rfl hlive

/-- Every later one does nothing. -/
theorem Recorded.kill_again (h : Recorded a events) (hmem : (offset, e) ∈ appends events)
    (hkilled : offset ∈ kills events) :
    a.kill offset = (a, false) ∧ Recorded a (events ++ [.killed offset false]) := by
  have hstands := mem_standing_of_mem_appends hmem
  rw [← h.located_eq] at hstands
  refine ⟨kill_of_dead (h.spells.entryAt?_eq hstands) (decide_eq_true hkilled),
    Recorded.mk_of_spells h.spells ?_ (h.known_killed hmem false) (first_concat h.first ?_)⟩
  · rw [standing_killed_again hkilled, h.located_eq]
  · rintro _ _ ⟨rfl, rfl⟩
    exact iff_of_false Bool.false_ne_true (not_not_intro hkilled)

/-- **A kill of what was appended is written down with its answer.** -/
theorem Recorded.kill (h : Recorded a events) (hmem : (offset, e) ∈ appends events) :
    Recorded (a.kill offset).1 (events ++ [.killed offset (a.kill offset).2]) := by
  by_cases hkilled : offset ∈ kills events
  · obtain ⟨hkill, hrecorded⟩ := h.kill_again hmem hkilled
    rwa [hkill]
  · obtain ⟨hrecorded, hanswer⟩ := h.kill_first hmem hkilled
    rwa [hanswer]

/-- **One request keeps the invariant.** -/
theorem Recorded.respond (h : Recorded a events) (request : ArenaRequest) :
    Recorded (a.respond events request).1 (a.respond events request).2 := by
  cases request with
  | append granted hash flags stored =>
    cases hrefusal : a.refusal? stored with
    | some why => simpa [Arena.respond, append, hrefusal] using h.refused why
    | none =>
      cases granted with
      | true => simpa [Arena.respond, append, hrefusal] using h.push hash flags.absolute hrefusal
      | false =>
        simpa [Arena.respond, append, hrefusal] using h.refused (.allocation "path arena")
  | kill number =>
    cases hfound : (appends events)[number]? with
    | none => simpa [Arena.respond, hfound] using h
    | some x => simpa [Arena.respond, hfound] using h.kill (List.mem_of_getElem? hfound)

/-- **A run keeps the invariant.** -/
theorem recorded_run (requests : List ArenaRequest) :
    Recorded (run requests).1 (run requests).2 := by
  induction requests using List.reverseRecOn with
  | nil => exact recorded_new
  | append_singleton requests request ih =>
    rw [run, List.foldl_append]
    exact Recorded.respond ih request

/-- Nothing that is written down is taken back. -/
theorem exists_respond_append (a : Arena) (events : List ArenaEvent) (request : ArenaRequest) :
    ∃ event, (a.respond events request).2 = events ++ event := by
  cases request with
  | append granted hash flags stored =>
    simp only [Arena.respond]
    split
    · exact ⟨_, rfl⟩
    · exact ⟨_, rfl⟩
  | kill number =>
    simp only [Arena.respond]
    split
    · exact ⟨_, rfl⟩
    · exact ⟨[], by simp⟩

/-- A history only grows. -/
theorem exists_history_append (requests more : List ArenaRequest) :
    ∃ events, (run (requests ++ more)).2 = (run requests).2 ++ events := by
  induction more using List.reverseRecOn with
  | nil => exact ⟨[], by simp⟩
  | append_singleton more request ih =>
    obtain ⟨events, heq⟩ := ih
    obtain ⟨event, hevent⟩ := exists_respond_append (run (requests ++ more)).1
      (run (requests ++ more)).2 request
    refine ⟨events ++ event, ?_⟩
    rw [← List.append_assoc, run, List.foldl_append]
    exact hevent.trans (by rw [heq, List.append_assoc])

/-! ### What an arena remembers -/

/-- **What can be read from an arena after some requests**, by its history alone. -/
structure Remembers (requests : List ArenaRequest) : Prop where
  /-- The bytes are the encodings of the entries, in the order in which they were appended. -/
  bytes_eq : (run requests).1.bytes.data.toList =
    (standing (run requests).2).flatMap fun x => x.2.encode
  /-- Whatever was appended is read at the offset that was answered, now and after any further
  requests: with its hash, its flag and its text, and alive if it has not been killed. -/
  entryAt?_eq : ∀ more offset e, (offset, e) ∈ appends (run requests).2 →
    (run (requests ++ more)).1.entryAt? offset =
      some { e with dead := offset ∈ kills (run (requests ++ more)).2 }
  /-- No offset is answered twice. -/
  nodup : ((appends (run requests).2).map Prod.fst).Nodup
  /-- No offset is the one that names no entry. -/
  offset_lt : ∀ x ∈ appends (run requests).2, x.1 < 2 ^ 32 - 1
  /-- A kill answers yes exactly the first time. -/
  kill_iff : ∀ front offset was rest, (run requests).2 = front ++ .killed offset was :: rest →
    (was = true ↔ offset ∉ kills front)
  /-- The walk over the entries lists those that have not been killed, each with its offset, in the
  order in which they were appended. -/
  entries_eq : (run requests).1.entries = (standing (run requests).2).filter fun x => !x.2.dead
  /-- The live entries are counted. -/
  liveEntries_eq : (run requests).1.liveEntries =
    ((standing (run requests).2).filter fun x => !x.2.dead).length
  /-- The bytes of the others are added up. -/
  deadBytes_eq : (run requests).1.deadBytes =
    (((standing (run requests).2).filter fun x => x.2.dead).map fun x => x.2.size).sum
  /-- An append fails if the text is too long, the arena is full or there is no memory, and only
  then. -/
  refuses_iff : ∀ granted hash flags stored,
    (∃ why, ((run requests).1.append granted hash flags stored).2 = .error why) ↔
      65535 < stored.size ∨ 2 ^ 32 - 1 ≤ (run requests).1.bytes.size ∨ granted = false
  /-- An append that fails changes nothing. -/
  refused : ∀ granted hash flags stored why,
    ((run requests).1.append granted hash flags stored).2 = .error why →
      ((run requests).1.append granted hash flags stored).1 = (run requests).1

theorem refusal?_eq_none_iff (a : Arena) (stored : ByteArray) :
    a.refusal? stored = none ↔ stored.size ≤ 65535 ∧ a.bytes.size < 2 ^ 32 - 1 := by
  have hlimit : offsetLimit = 2 ^ 32 - 1 := rfl
  rw [refusal?, longestText, hlimit]
  split_ifs with hlong hfull
  · simpa using fun h => absurd hlong (Nat.not_lt.mpr h)
  · simpa using fun _ => hfull
  · simpa using ⟨Nat.le_of_not_lt hlong, Nat.lt_of_not_le hfull⟩

theorem refuses_append_iff (a : Arena) (granted : Bool) (hash : UInt32) (flags : EntryFlags)
    (stored : ByteArray) : (∃ why, (a.append granted hash flags stored).2 = .error why) ↔
      65535 < stored.size ∨ 2 ^ 32 - 1 ≤ a.bytes.size ∨ granted = false := by
  have hnone := a.refusal?_eq_none_iff stored
  cases hrefusal : a.refusal? stored with
  | some why =>
    rw [hrefusal] at hnone
    have hrefused : 65535 < stored.size ∨ 2 ^ 32 - 1 ≤ a.bytes.size := by
      by_contra hallowed
      exact absurd (hnone.mpr (by omega)) (by simp)
    simp only [append, hrefusal, Except.error.injEq, exists_eq', true_iff]
    omega
  | none =>
    obtain ⟨hshort, hroom⟩ := hnone.mp hrefusal
    cases granted with
    | true =>
      simp only [append, hrefusal, if_true, reduceCtorEq, exists_false, false_iff, or_false]
      omega
    | false => simp [append, hrefusal]

/-- An append that fails leaves the arena as it was. -/
theorem append_of_error {granted : Bool} {hash : UInt32} {flags : EntryFlags} {stored : ByteArray}
    {why : Fault} (h : (a.append granted hash flags stored).2 = .error why) :
    (a.append granted hash flags stored).1 = a := by
  rw [append] at h ⊢
  split at h
  · rfl
  · split_ifs at h ⊢
    rfl

/-- **An arena remembers what was appended and what was killed**, whatever it was asked. -/
theorem remembers (requests : List ArenaRequest) : Remembers requests := by
  have h := recorded_run requests
  have halive : alive 0 ((standing (run requests).2).map Prod.snd) =
      (standing (run requests).2).filter fun x => !x.2.dead := by rw [alive, h.located_eq]
  constructor
  case bytes_eq => rw [h.spells.bytes_eq, List.flatMap_map]
  case entryAt?_eq =>
    intro more offset e hmem
    obtain ⟨events, heq⟩ := exists_history_append requests more
    have hlater := recorded_run (requests ++ more)
    have hstands : (offset, e) ∈ appends (run (requests ++ more)).2 := by
      rw [heq, appends_append]
      exact List.mem_append_left _ hmem
    refine hlater.spells.entryAt?_eq ?_
    rw [hlater.located_eq]
    exact mem_standing_of_mem_appends hstands
  case nodup =>
    have hascend := pairwise_located 0 ((standing (run requests).2).map Prod.snd)
    rw [h.located_eq] at hascend
    rw [← map_fst_standing, List.nodup_iff_pairwise_ne, List.pairwise_map]
    exact hascend.imp fun hlt => Nat.ne_of_lt hlt
  case offset_lt =>
    intro x hx
    have hlt := h.spells.offset_lt
    rw [h.located_eq] at hlt
    exact (hlt _ (mem_standing_of_mem_appends hx) :)
  case kill_iff => exact h.first
  case entries_eq => rw [h.spells.entries_eq, halive]
  case liveEntries_eq => rw [h.spells.liveEntries_eq, halive]
  case deadBytes_eq =>
    rw [h.spells.deadBytes_eq, extent_eq_sum, List.filter_map, List.map_map]
    rfl
  case refuses_iff => exact refuses_append_iff (run requests).1
  case refused => exact fun _ _ _ _ _ hfails => append_of_error hfails

end Arena

/-- A shard adds an entry that is new by appending it, once its table has room. -/
theorem Shard.insert_eq_append [Memory] {s : Shard} {hash : UInt32} {absolute : Bool}
    {stored : ByteArray} {table : ProbeTable} (hnew : s.find? hash absolute stored = none)
    (hroom : s.table.reserve 1 = .ok table) :
    s.insert hash absolute stored =
      match s.arena.append true hash ⟨absolute, false⟩ stored with
      | (arena, .ok offset) => ({ arena, table := table.place hash offset }, .ok true)
      | (arena, .error why) => ({ arena, table }, .error why) := by
  rw [Shard.insert, hnew, hroom, Arena.append]
  cases s.arena.refusal? stored with
  | none => rfl
  | some why => rfl

end Typeahead
