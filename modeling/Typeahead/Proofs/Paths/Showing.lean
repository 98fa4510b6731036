import Typeahead.Proofs.Paths.Scanning
import Typeahead.Proofs.Pool.Tracing

/-!
# Paths that are still there are shown

A scan finds a path and offers a reference to it. When the candidate is shown, much may have
happened to the index: the path was removed and added again, other paths came and went, the shard
was written anew, and where the entry was there is another one, or the middle of one. If nothing
that passes is read there, the table is asked, and the table holds every live entry by its hash. So
as long as the index has the path, something passes, and what passes has the fingerprint of the
path.

Whether the offset is right does not matter for this. All that a reference and an index have to
agree on are the shard and the fingerprint of the path, and both depend on the path alone.
-/

namespace Typeahead

/-! ### Finding what is there -/

namespace Shard

variable {s : Shard} {es : List Entry} {e : Entry} {test : Entry → Bool}

/-- **If there is a live entry that passes, one is found**, wherever it is looked for first. -/
theorem Spells.isSome_resolve? (h : s.Spells es) (hmem : e ∈ s.contents) (htest : test e = true)
    (offset : Nat) : (s.resolve? e.hash offset test).isSome = true := by
  rw [resolve?_eq]
  split_ifs with hthere
  · cases hread : s.arena.entryAt? offset with
    | none =>
      rw [passesAt, hread] at hthere
      cases hthere
    | some found => rfl
  · obtain ⟨offset', halive⟩ := h.mem_contents.mp hmem
    have hpasses : s.passesAt e.hash test offset' = true :=
      (passesAt_iff (h.entryAt?_eq halive)).mpr ⟨(Arena.mem_alive.mp halive).2, rfl, htest⟩
    rcases ProbeTable.find?_cases h.sound.linked e.hash (s.passesAt e.hash test) with
      ⟨-, hunwanted⟩ | ⟨offset'', hfind, hmem', -⟩
    · exact absurd ⟨rfl, hpasses⟩ (hunwanted _ (h.mem_table halive))
    · obtain ⟨e', halive', -⟩ := h.exists_of_mem_table hmem'
      rw [hfind, Option.bind_some, h.entryAt?_eq halive']
      rfl

end Shard

namespace PathIndex

variable {ix : PathIndex} {set : PathSet} {path : String} {ref : PathRef}

/-- Whether an entry is one that a reference may mean: its path has the fingerprint. -/
def isMeantBy (ix : PathIndex) (ref : PathRef) (entry : Entry) : Bool :=
  match entry.path? ix.common with
  | none => false
  | some (path, _) => ix.digest path == ref.fingerprint

theorem resolve?_of_lt (hlt : ref.shard < ix.shards.size) :
    ix.resolve? ref = (ix.shards[ref.shard].resolve? ref.hash ref.offset (ix.isMeantBy ref)).bind
      fun entry => (entry.path? ix.common).bind fun path => some path.1 := by
  rw [resolve?, Array.getElem?_eq_getElem hlt]
  rfl

/-- The path of an entry that a reference may mean. -/
theorem exists_path?_of_isMeantBy {e : Entry} (h : ix.isMeantBy ref e = true) :
    ∃ text start, e.path? ix.common = some (text, start) ∧ ix.digest text = ref.fingerprint := by
  rw [isMeantBy] at h
  cases hpath : e.path? ix.common with
  | none =>
    rw [hpath] at h
    cases h
  | some found =>
    rw [hpath] at h
    exact ⟨found.1, found.2, rfl, eq_of_beq h⟩

/-- **A path of the index is resolved** by every reference to its shard with its fingerprint, up to
paths with the same one. -/
theorem Represents.exists_resolve? (h : ix.Represents set) (hshard : ref.shard = ix.shardFor path)
    (hfingerprint : ref.fingerprint = ix.digest path) (hcontains : ix.contains path = true) :
    ∃ text, ix.resolve? ref = some text ∧ ix.digest text = ix.digest path := by
  have hpath : path ∈ set.paths := of_decide_eq_true ((h.contains path).symm.trans hcontains)
  rw [h.shardFor_eq] at hshard
  have hlt : ref.shard < ix.shards.size := hshard ▸ h.shardFor_lt path
  obtain ⟨paths, hlists, hmem⟩ := h.lists ref.shard hlt
  obtain ⟨es, hspells⟩ := hlists.valid
  have hcontents : entryOf ix.common (ix.hashOf path) path ∈ ix.shards[ref.shard].contents :=
    (hlists.mem_iff path).mpr ((hmem path).mpr ⟨hpath, hshard.symm⟩)
  have hmeant : ix.isMeantBy ref (entryOf ix.common (ix.hashOf path) path) = true := by
    rw [isMeantBy, path?_entryOf, hfingerprint]
    exact beq_self_eq_true _
  have hhash : (entryOf ix.common (ix.hashOf path) path).hash = ref.hash := by
    rw [PathRef.hash, hfingerprint]
    rfl
  obtain ⟨found, hfound⟩ :=
    Option.isSome_iff_exists.mp (hspells.isSome_resolve? hcontents hmeant ref.offset)
  rw [hhash] at hfound
  obtain ⟨text, start, htext, hdigest⟩ :=
    exists_path?_of_isMeantBy (hspells.resolve?_eq_some hfound).1
  refine ⟨text, ?_, hdigest.trans hfingerprint⟩
  rw [resolve?_of_lt hlt, hfound, Option.bind_some, htext]
  rfl

/-! ### What a scan finds -/

/-- A scan of a shard finds a path, and offers a reference to it. -/
def Finds (ix : PathIndex) (needle : Needle) (shard : Nat) (path : String) (ref : PathRef) :
    Prop :=
  ∃ store offset entry start hit, ix.shards[shard]? = some store ∧
    (offset, entry) ∈ store.entries ∧ entry.path? ix.common = some (path, start) ∧
    ix.hit? needle shard offset entry = some hit ∧ hit.ref = ref

/-- Every hit is for a path that is found. -/
theorem exists_finds {needle : Needle} {shard : Nat} {hit : Hit}
    (hmem : hit ∈ ix.hitsOf needle shard) : ∃ path, ix.Finds needle shard path hit.ref := by
  rw [hitsOf] at hmem
  cases hstore : ix.shards[shard]? with
  | none =>
    rw [hstore] at hmem
    exact absurd hmem List.not_mem_nil
  | some store =>
    rw [hstore, Option.map_some, Option.getD_some] at hmem
    obtain ⟨⟨offset, entry⟩, hentry, hhit⟩ := List.mem_filterMap.mp hmem
    obtain ⟨⟨path, start⟩, hpath, -⟩ := Option.bind_eq_some_iff.mp hhit
    exact ⟨path, store, offset, entry, start, hit, hstore, hentry, hpath, hhit, rfl⟩

/-- **What is found belongs to the shard**, and the reference has its fingerprint. -/
theorem Represents.of_finds (h : ix.Represents set) {needle : Needle} {shard : Nat}
    (hfinds : ix.Finds needle shard path ref) :
    ref.shard = ix.shardFor path ∧ ref.fingerprint = ix.digest path := by
  obtain ⟨store, offset, entry, start, hit, hstore, hentry, hpath, hhit, rfl⟩ := hfinds
  obtain ⟨hlt, rfl⟩ := Array.getElem?_eq_some_iff.mp hstore
  obtain ⟨paths, hlists, hmem⟩ := h.lists shard hlt
  have hcontents : entry ∈ ix.shards[shard].contents := List.mem_map.mpr ⟨_, hentry, rfl⟩
  rw [hlists.contents_eq] at hcontents
  obtain ⟨path', hpath', rfl⟩ := List.mem_map.mp hcontents
  have hlisted := path?_entryOf ix.common (ix.hashOf path') path'
  obtain ⟨rfl, rfl⟩ := Prod.mk.inj (Option.some.inj (hlisted.symm.trans hpath))
  rw [hit?, hpath] at hhit
  obtain ⟨-, hhit⟩ := Option.ite_none_right_eq_some.mp hhit
  obtain rfl := Option.some.inj hhit
  exact ⟨((hmem path').mp hpath').2.symm.trans (h.shardFor_eq path').symm, rfl⟩

section AddressSpace

open scoped Typeahead.Memory.AddressSpace

/-- In a small index with one path, a scan finds this path. -/
theorem finds_small :
    let ix := (small.respond (.add "/mu")).1
    ∃ hit, ix.hitsOf (.prepare "mu") 0 = [hit] ∧ hit.ref = ⟨0, 0, fingerprint "/mu"⟩ ∧
      ix.Finds (.prepare "mu") 0 "/mu" hit.ref := by
  intro ix
  have hhits : (ix.hitsOf (.prepare "mu") 0).map Hit.ref = [⟨0, 0, fingerprint "/mu"⟩] := by
    decide +kernel
  have hcommon : ix.common = none := Option.isNone_iff_eq_none.mp (by decide +kernel)
  have hentries : ix.shards[0]?.map Shard.entries =
      some [(0, entryOf none (hashPath "/mu") "/mu")] := by
    decide +kernel
  generalize ix = ix at hhits hcommon hentries ⊢
  obtain ⟨hit, hsingle, href⟩ := List.map_eq_singleton_iff.mp hhits
  obtain ⟨store, hstore, hentries⟩ := Option.map_eq_some_iff.mp hentries
  have hpath : (entryOf none (hashPath "/mu") "/mu").path? ix.common = some ("/mu", 0) := by
    rw [hcommon]
    exact path?_entryOf none (hashPath "/mu") "/mu"
  have hmem : hit ∈ ix.hitsOf (.prepare "mu") 0 := hsingle ▸ List.mem_singleton_self hit
  rw [hitsOf, hstore, Option.map_some, Option.getD_some, hits, hentries] at hmem
  obtain ⟨entry, hentry, hhit⟩ := List.mem_filterMap.mp hmem
  obtain rfl := List.mem_singleton.mp hentry
  exact ⟨hit, hsingle, href, store, 0, _, 0, hit, hstore, hentries ▸ hentry, hpath, hhit, rfl⟩

end AddressSpace

end PathIndex

/-! ### Scans at a desk -/

namespace Desk.Traced

variable {origin : Callback → Payload → Prop} {d : Desk} {outside : Callback → Bool}
variable {factory : Callback}

theorem offerHits (hrole : factory.role = .factory) (scanned inserted : Nat) {hits : List Hit}
    (horigin : ∀ hit ∈ hits, origin factory (.path hit.ref)) (h : d.Traced origin) :
    (PathIndex.offerHits outside factory scanned hits inserted d).1.Traced origin := by
  induction hits generalizing d inserted with
  | nil => exact h
  | cons hit hits ih =>
    have htyped : (hit.offer factory).Typed := ⟨hrole, by rintro callback ⟨⟩⟩
    have hoffered := h.offer outside htyped (horigin hit List.mem_cons_self)
    rw [PathIndex.offerHits]
    split_ifs
    · exact h
    change (if Pool.goesOn (d.offer outside (hit.offer factory)).2 then
      PathIndex.offerHits outside factory scanned hits (inserted + 1)
        (d.offer outside (hit.offer factory)).1
      else ((d.offer outside (hit.offer factory)).1, _)).1.Traced origin
    split_ifs
    · exact ih _ (fun other hother => horigin other (List.mem_cons_of_mem _ hother)) hoffered
    · exact hoffered

/-- **A scan offers nothing but its hits.** -/
theorem scan (h : d.Traced origin) (hrole : factory.role = .factory) {ix : PathIndex}
    {needle : Needle} {shard : Nat}
    (horigin : ∀ hit ∈ ix.hitsOf needle shard, origin factory (.path hit.ref)) :
    (ix.scan outside factory needle shard d).1.Traced origin := by
  rw [PathIndex.hitsOf] at horigin
  rw [PathIndex.scan, PathIndex.tryScan]
  cases hstore : ix.shards[shard]? with
  | none => split_ifs <;> exact h
  | some store =>
    rw [hstore] at horigin
    split_ifs with hdown hnumber hstale
    · exact h
    · exact h
    · exact h
    · dsimp only
      rw [PathIndex.collectHits_of_fresh (Bool.eq_false_iff.mpr hstale)]
      exact h.offerHits hrole _ 0 horigin

end Desk.Traced

/-- **A hit that leads is built** when as many are shown as there are hits. -/
theorem Desk.Gathered.build_mem_log {d : Desk} {outside : Callback → Bool} {factory : Callback}
    {room : Nat} {hits : List Hit} {hit : Hit} (h : d.Gathered outside factory room hits)
    (hleads : hit.Leads hits) {k : Nat} (hk : hits.length ≤ k) :
    .called (.build factory (.path hit.ref)) ∈ (d.materialize k).1.log := by
  obtain ⟨slots, best, hrepresents, hgathers⟩ := h.roster
  have hsub : best ⊆ hits := fun other hother => ((hgathers.mem_iff other).mp hother).mem
  have hlength : best.length ≤ k := (hgathers.nodup.of_map.subperm hsub).length_le.trans hk
  have hcalls : (d.pool.materialize k).2 =
      (best.mergeSort Hit.before).flatMap (Hit.showing factory) := by
    rw [(hrepresents.materialize k).2, hgathers.materialize,
      List.take_of_length_le (by rwa [List.length_mergeSort])]
  have hcall : .build factory (.path hit.ref) ∈ (d.pool.materialize k).2 := by
    rw [hcalls, List.mem_flatMap]
    exact ⟨hit, List.mem_mergeSort.mpr ((hgathers.mem_iff hit).mpr hleads), List.mem_cons_self⟩
  exact Desk.mem_log_call.mpr (.inl ⟨_, hcall, rfl⟩)

/-! ### Libraries -/

/-- Path indexes, and a desk at which what is found in them is offered and shown. -/
structure Library where
  /-- The indexes by number. -/
  indexes : IndexId → PathIndex
  /-- The desk. -/
  desk : Desk

namespace Library

/-- What can happen in a library. `outside` are the callbacks that are alive beside the pool. To
scan a whole index is to scan its shards, in whichever order and with whatever comes between. -/
inductive Act where
  /-- An index is asked for something. -/
  | ask (i : IndexId) (request : PathRequest)
  /-- A shard of an index is scanned; a factory with a label is to show the hits. -/
  | scan (i : IndexId) (outside : Callback → Bool) (id : Nat) (label : String) (needle : Needle)
    (shard : Nat)
  /-- Somebody offers a candidate. -/
  | offer (outside : Callback → Bool) (o : Offer Payload) (typed : o.Typed)
  /-- The best candidates are shown. -/
  | materialize (k : Nat)
  /-- The pool is emptied for another generation. -/
  | reset (token : Token)
  /-- Somebody registers a callback. -/
  | register (outside : Callback → Bool) (c : Callback)
  /-- The next generation of a counter begins. -/
  | advance (counter : CounterId)

variable [Memory]

/-- The library after something has happened. -/
def act (b : Library) : Act → Library
  | .ask i request =>
    { b with indexes := Function.update b.indexes i ((b.indexes i).respond request).1 }
  | .scan i outside id label needle shard =>
    { b with desk := ((b.indexes i).scan outside ⟨id, .showPath i label⟩ needle shard b.desk).1 }
  | .offer outside o _ => { b with desk := (b.desk.offer outside o).1 }
  | .materialize k => { b with desk := (b.desk.materialize k).1 }
  | .reset token => { b with desk := b.desk.reset token }
  | .register outside c =>
    let alive (held : Callback) : Bool := outside held || b.desk.pool.isPinned held
    { b with desk := { b.desk with registry := (b.desk.registry.register alive c).1 } }
  | .advance counter =>
    { b with desk := { b.desk with generations := b.desk.generations.advance counter } }

/-- The library after several things have happened, one after the other. -/
def after (b : Library) (acts : List Act) : Library := acts.foldl act b

/-- The path that a reference refers to in an index, if there is one now. -/
def resolve (b : Library) (i : IndexId) (ref : PathRef) : Option String :=
  (b.indexes i).resolve? ref

/-- A library with new indexes and a new desk. -/
structure IsNew (b : Library) : Prop where
  /-- The indexes have just been created. -/
  indexes : ∀ i, ∃ config scorer digest, PathIndex.create config scorer digest = .ok (b.indexes i)
  /-- The pool is empty, and nothing has happened. -/
  desk : ∃ token number limits registry generations,
    b.desk = { pool := .empty token number limits, registry, generations }

/-- At some time, a scan of an index finds a path and offers a reference to it. -/
def Found (b : Library) (acts : List Act) (i : IndexId) (path : String) (ref : PathRef) : Prop :=
  ∃ earlier later needle shard, acts = earlier ++ later ∧
    ((b.after earlier).indexes i).Finds needle shard path ref

/-- Somebody offers a payload with a factory, and not by a scan. -/
def Act.Offers (acts : List Act) (factory : Callback) (payload : Payload) : Prop :=
  ∃ outside o typed, .offer outside o typed ∈ acts ∧ o.factory = factory ∧ o.payload = payload

/-- Where a payload comes from, with the factory that is to show it. -/
def Origin (b : Library) (acts : List Act) (factory : Callback) (payload : Payload) : Prop :=
  Act.Offers acts factory payload ∨ ∃ i id label path ref,
    factory = ⟨id, .showPath i label⟩ ∧ payload = .path ref ∧ b.Found acts i path ref

variable {b : Library} {acts : List Act} {factory : Callback} {payload : Payload}

theorem after_append (b : Library) (acts later : List Act) :
    b.after (acts ++ later) = (b.after acts).after later := List.foldl_append

theorem Origin.append (h : b.Origin acts factory payload) (later : List Act) :
    b.Origin (acts ++ later) factory payload := by
  refine h.imp ?_ ?_
  · rintro ⟨outside, o, typed, hmem, heqs⟩
    exact ⟨outside, o, typed, List.mem_append_left _ hmem, heqs⟩
  · rintro ⟨i, id, label, path, ref, hfactory, hpayload, earlier, between, needle, shard, rfl, hf⟩
    exact ⟨i, id, label, path, ref, hfactory, hpayload, earlier, between ++ later, needle, shard,
      List.append_assoc .., hf⟩

/-! ### Runs -/

/-- **Whatever happens, everything at the desk can be traced** to a scan or an offer. -/
theorem IsNew.traced (h : b.IsNew) (acts : List Act) :
    (b.after acts).desk.Traced (b.Origin acts) := by
  induction acts using List.reverseRecOn with
  | nil =>
    obtain ⟨token, number, limits, registry, generations, hdesk⟩ := h.desk
    change b.desk.Traced _
    rw [hdesk]
    exact .new token number limits registry generations
  | append_singleton acts a ih =>
    replace ih := ih.mono fun _ _ horigin => horigin.append [a]
    rw [after_append]
    cases a with
    | ask i request => exact ih
    | scan i outside id label needle shard =>
      refine ih.scan rfl fun hit hhit => ?_
      obtain ⟨path, hfinds⟩ := PathIndex.exists_finds hhit
      exact .inr ⟨i, id, label, path, hit.ref, rfl, rfl, acts, _, needle, shard, rfl, hfinds⟩
    | offer outside o typed =>
      exact ih.offer outside typed
        (.inl ⟨outside, o, typed, List.mem_append_right _ List.mem_cons_self, rfl, rfl⟩)
    | materialize k => exact ih.materialize k
    | reset token => exact ih.reset token
    | register outside c => exact ih.register outside c
    | advance counter => exact ⟨ih.charges, ih.builds⟩

/-- What an index is asked for in the course of some acts. -/
def Act.asked (i : IndexId) : List Act → List PathRequest :=
  List.filterMap fun
    | .ask j request => if i = j then some request else none
    | _ => none

/-- An index follows the requests that are made of it, and nothing else. -/
theorem indexes_after (b : Library) (acts : List Act) (i : IndexId) :
    (b.after acts).indexes i = (b.indexes i).after (Act.asked i acts) := by
  induction acts generalizing b with
  | nil => rfl
  | cons a acts ih =>
    change ((b.act a).after acts).indexes i = _
    rw [ih, Act.asked, List.filterMap_cons]
    cases a with
    | ask j request =>
      dsimp only [act]
      by_cases hij : i = j
      · subst hij
        rw [if_pos rfl, Function.update_self]
        rfl
      · rw [if_neg hij, Function.update_of_ne hij]
    | _ => rfl

/-- **A path that is still there is resolved** by every reference under which it has been found. -/
theorem IsNew.exists_resolve (h : b.IsNew) {i : IndexId} {path : String} {ref : PathRef}
    (hfound : b.Found acts i path ref)
    (hcontains : ((b.after acts).indexes i).contains path = true) :
    ∃ text, (b.after acts).resolve i ref = some text ∧
      (b.indexes i).digest text = (b.indexes i).digest path := by
  obtain ⟨config, scorer, digest, hcreate⟩ := h.indexes i
  obtain ⟨earlier, later, needle, shard, rfl, hfinds⟩ := hfound
  rw [after_append, indexes_after] at hcontains
  rw [after_append, resolve, indexes_after]
  rw [indexes_after] at hfinds hcontains ⊢
  obtain ⟨set, hlisted⟩ := (PathIndex.listed_of_create hcreate).after (Act.asked i earlier)
  obtain ⟨set', hlisted'⟩ := hlisted.after (Act.asked i later)
  obtain ⟨hshard, hfingerprint⟩ := hlisted.represents.of_finds hfinds
  have hbefore := (b.indexes i).alike_after (Act.asked i earlier)
  have halike := ((b.indexes i).after (Act.asked i earlier)).alike_after (Act.asked i later)
  generalize hnow : ((b.indexes i).after (Act.asked i earlier)).after (Act.asked i later) = now at *
  have hsame : now.digest = (b.indexes i).digest := halike.digest_eq.trans hbefore.digest_eq
  rw [← hsame]
  exact hlisted'.represents.exists_resolve? (hshard.trans (halike.shardFor_eq path).symm)
    (hfingerprint.trans (congrFun halike.digest_eq path).symm) hcontains

/-- **A path that is still in its index is shown.** Indexes and a desk are new, and then anything
may happen: paths come and go, shards are scanned, candidates are offered, shown and dropped, in any
order. Whatever is then built from a path reference by a factory that shows paths of an index comes
from a path that a scan of that index has found, unless somebody offered just that reference with
just that factory. And for every path that has been found under the reference: if the index has the
path when the call is made, then the reference is resolved, to a text with the fingerprint of the
path, and this text is shown. -/
theorem indexed_paths_are_shown (hnew : b.IsNew) (acts : List Act) {id : Nat} {i : IndexId}
    {label : String} {ref : PathRef}
    (hbuilt : .called (.build ⟨id, .showPath i label⟩ (.path ref)) ∈ (b.after acts).desk.log) :
    ((∃ path, b.Found acts i path ref) ∨
      Act.Offers acts ⟨id, .showPath i label⟩ (.path ref)) ∧
    ∀ path, b.Found acts i path ref → ((b.after acts).indexes i).contains path = true →
      ∃ text, (b.after acts).resolve i ref = some text ∧
        (b.indexes i).digest text = (b.indexes i).digest path ∧
        Call.make (b.after acts).resolve (.build ⟨id, .showPath i label⟩ (.path ref)) =
          (some (.shown label text), some (label ++ ":" ++ text)) := by
  constructor
  · rcases (hnew.traced acts).builds _ _ hbuilt with
      hoffers | ⟨i', id', label', path, ref', hfactory, hpayload, hfound⟩
    · exact .inr hoffers
    · obtain ⟨rfl, haction⟩ := Callback.mk.inj hfactory
      obtain ⟨rfl, rfl⟩ := Action.showPath.inj haction
      obtain rfl := Payload.path.inj hpayload
      exact .inl ⟨path, hfound⟩
  · intro path hfound hcontains
    obtain ⟨text, hresolve, hdigest⟩ := hnew.exists_resolve hfound hcontains
    refine ⟨text, hresolve, hdigest, ?_⟩
    rw [Call.make, Callback.build]
    dsimp only
    rw [hresolve]
    rfl

end Library

/-! ### A run -/

namespace Library

open scoped Typeahead.Memory.AddressSpace

/-- A path is found, removed and added again after another one, which then is where it was. -/
theorem indexed_paths_are_shown_moved :
    let b : Library :=
      ⟨fun _ => .small, { pool := .empty .never 0 ⟨1⟩, registry := .standard, generations := {} }⟩
    let acts : List Act := [.ask 0 (.add "/mu"),
      .scan 0 (fun _ => false) 7 "m" (.prepare "mu") 0,
      .ask 0 (.remove "/mu"), .ask 0 (.add "/x"), .ask 0 (.add "/mu"), .materialize 1]
    let ref : PathRef := ⟨0, 0, fingerprint "/mu"⟩
    b.Found acts 0 "/mu" ref ∧ ∃ text, (b.after acts).resolve 0 ref = some text ∧
      fingerprint text = fingerprint "/mu" ∧
      Call.make (b.after acts).resolve (.build ⟨7, .showPath 0 "m"⟩ (.path ref)) =
        (some (.shown "m" text), some ("m" ++ ":" ++ text)) := by
  intro b acts ref
  have hnew : b.IsNew := ⟨fun _ => ⟨_, _, _, PathIndex.create_small⟩, _, _, _, _, _, rfl⟩
  have hcontains : ((b.after acts).indexes 0).contains "/mu" = true := by
    rw [indexes_after]
    decide +kernel
  obtain ⟨hit, hsingle, hhit, hfinds⟩ := PathIndex.finds_small
  replace hhit : hit.ref = ref := hhit
  have hfound : b.Found acts 0 "/mu" ref := by
    refine ⟨[.ask 0 (.add "/mu")], _, .prepare "mu", 0, rfl, ?_⟩
    rw [indexes_after, ← hhit]
    exact hfinds
  have hbuilt : .called (.build ⟨7, .showPath 0 "m"⟩ (.path ref)) ∈ (b.after acts).desk.log := by
    have hadmits : (Registry.standard.register
        (fun c => c == ⟨7, .showPath 0 "m"⟩ || false) ⟨7, .showPath 0 "m"⟩).2.isSome = true := by
      decide +kernel
    have hrunning : (PathIndex.small.respond (.add "/mu")).1.isShutdown = false := by
      decide +kernel
    have hsize : (PathIndex.small.respond (.add "/mu")).1.shards.size = 1 := by decide +kernel
    generalize hadded : (PathIndex.small.respond (.add "/mu")).1 = ix at hsingle hrunning hsize
    have hroom : (([] ++ ix.hitsOf (.prepare "mu") 0).map Hit.hash).toFinset.card ≤ 512 := by
      rw [hsingle]
      exact (List.toFinset_card_le _).trans (by simp)
    have hnothing : b.desk.Gathered (fun _ => false) ⟨7, .showPath 0 "m"⟩ 512 [] :=
      PathIndex.gathered_nil rfl 0 ⟨1⟩ hadmits
    obtain ⟨-, hgathered⟩ := PathIndex.gathered_scan rfl (.prepare "mu") hrunning
      (hsize ▸ Nat.one_pos) (hsize ▸ (by decide : 1 ≤ 65535)) hnothing hroom
    rw [hsingle] at hgathered
    have hleads : hit.Leads ([] ++ [hit]) := by simp [Hit.Leads]
    have hlog := hgathered.build_mem_log hleads (Nat.le_refl 1)
    simp only [after, acts, b, List.foldl_cons, List.foldl_nil, act, Function.update_self, hadded]
    rwa [hhit] at hlog
  refine ⟨hfound, ?_⟩
  obtain ⟨-, hshown⟩ := indexed_paths_are_shown hnew acts hbuilt
  exact hshown "/mu" hfound hcontains

end Library

end Typeahead
