import Mathlib.Data.Finset.Dedup
import Mathlib.Data.List.Nodup
import Typeahead.Proofs.Config.Documents

/-!
# What becomes of a configuration document

A document that gives some fields is the default configuration with these fields replaced, as long
as the weights, the limits of the pool and the layout of the index are in order, and else it is
refused for the first of them that is not. A configuration can be written down with all of its
fields, without blanks and with no more escapes than it takes; what is written so is one of these
documents, and so it is read as the configuration again.
-/

namespace Typeahead

namespace Json

/-! ### Writing texts and objects -/

/-- A hexadecimal digit, in lower case. -/
def hexChar (value : Nat) : Char := Char.ofNat (if value < 10 then 48 + value else 87 + value)

/-- Writes a character of a text, with an escape if it needs one. -/
def renderChar (c : Char) : List Char :=
  if c = '"' then ['\\', '"']
  else if c = '\\' then ['\\', '\\']
  else if c = '\x08' then ['\\', 'b']
  else if c = '\t' then ['\\', 't']
  else if c = '\n' then ['\\', 'n']
  else if c = '\x0c' then ['\\', 'f']
  else if c = '\r' then ['\\', 'r']
  else if c.toNat < 0x20 then
    ['\\', 'u', '0', '0', hexChar (c.toNat / 16), hexChar (c.toNat % 16)]
  else [c]

/-- Writes a text. -/
def renderText (s : String) : List Char := '"' :: (s.toList.flatMap renderChar ++ ['"'])

/-- A member without blanks. -/
def renderMember (key : String) (value : List Char) : Member :=
  ⟨⟨[], renderText key, []⟩, ⟨[], value, []⟩⟩

theorem hexDigit_hexChar : ∀ value < 16, HexDigit value (hexChar value) := by
  unfold HexDigit
  decide

theorem charSpelled_renderChar (c : Char) : CharSpelled c (renderChar c) := by
  unfold renderChar
  split_ifs with hquote hslash hb ht hn hf hr hlow
  · exact .short (by rw [hquote]; decide)
  · exact .short (by rw [hslash]; decide)
  · exact .short (by rw [hb]; decide)
  · exact .short (by rw [ht]; decide)
  · exact .short (by rw [hn]; decide)
  · exact .short (by rw [hf]; decide)
  · exact .short (by rw [hr]; decide)
  · refine .unit ?_
    have hspelled := HexSpelled.digits (hexDigit_hexChar 0 (by decide))
      (hexDigit_hexChar 0 (by decide)) (hexDigit_hexChar (c.toNat / 16) (by omega))
      (hexDigit_hexChar (c.toNat % 16) (by omega))
    have hnumber : 4096 * 0 + 256 * 0 + 16 * (c.toNat / 16) + c.toNat % 16 = c.toNat := by omega
    rw [hnumber] at hspelled
    exact hspelled
  · exact .plain ⟨by omega, hquote, hslash⟩

theorem textSpelled_renderText (s : String) : TextSpelled s (renderText s) := by
  have hchars : ∀ chars : List Char, CharsSpelled chars (chars.flatMap renderChar) := by
    intro chars
    induction chars with
    | nil => exact .nil
    | cons c chars ih => exact .cons (charSpelled_renderChar c) ih
  exact ⟨_, hchars s.toList, rfl⟩

theorem objectSpelled_render {ι : Type} (name : ι → String) (value : ι → List Char)
    (xs : List ι) :
    ObjectSpelled (xs.map fun x => (name x, renderMember (name x) (value x)))
      (objectText (xs.map fun x => renderMember (name x) (value x))) := by
  have hblank : ∀ body, Item.IsPadded ⟨[], body, []⟩ := fun body => ⟨nofun, nofun⟩
  refine ⟨fun m hm => ?_, .inl (by rw [List.map_map]; rfl)⟩
  obtain ⟨x, -, rfl⟩ := List.mem_map.mp hm
  exact ⟨⟨hblank _, hblank _⟩, textSpelled_renderText (name x)⟩

end Json

open Typeahead.Json (Item TextSpelled objectText renderMember renderText)

/-- Members for all things that are named give them their values. -/
theorem gives_render {ι : Type} {IsNamed IsWanted : ι → Prop} {name : ι → String}
    (hname : Function.Injective name) {IsValue : ι → List Char → Prop} {value : ι → List Char}
    (xs : List ι) (hnodup : xs.Nodup) (hnamed : ∀ i, IsNamed i ↔ i ∈ xs)
    (hvalue : ∀ i ∈ xs, IsValue i (value i)) :
    Gives IsNamed name IsWanted IsValue
      (xs.map fun x => (name x, renderMember (name x) (value x))) where
  once := by
    intro i _
    rw [List.map_map]
    exact List.nodup_iff_count_le_one.mp (hnodup.map hname) (name i)
  wanted := by
    intro i hi _
    rw [List.map_map]
    exact List.mem_map.mpr ⟨i, (hnamed i).mp hi, rfl⟩
  value := by
    intro m hm i _ heq
    obtain ⟨x, hx, rfl⟩ := List.mem_map.mp hm
    obtain rfl := hname heq
    exact hvalue x hx
  other := by
    intro m hm hkey
    obtain ⟨x, hx, rfl⟩ := List.mem_map.mp hm
    exact absurd rfl (hkey x ((hnamed x).mpr hx))

/-! ### Writing a configuration -/

/-- Writes what a field holds. -/
def Leaf.render : Leaf → List Char
  | .number n => (toString n).toList
  | .text none => ['n', 'u', 'l', 'l']
  | .text (some s) => renderText s

/-- The parts in order. -/
def Part.all : List Part := [.scoring, .container, .index]

/-- The fields of a part in order. -/
def Part.settings : Part → List Setting
  | .scoring => [.base, .consecutive, .pathBoundary, .wordBoundary, .camelBoundary, .start,
    .exactCase, .gapSmall, .gapMedium, .gapLarge, .smallLimit, .mediumLimit]
  | .container => [.maxSheets]
  | .index => [.shardCount, .commonPrefix, .minRelevancy, .arenaBytes, .initialSlots]

/-- All fields. -/
def Setting.all : Finset Setting := (Part.all.flatMap Part.settings).toFinset

namespace Config

/-- Writes a part of a configuration. -/
def renderPart (c : Config) (p : Part) : List Char :=
  objectText (p.settings.map fun s => renderMember s.key (c.leaf s).render)

/-- **Writes a configuration with all of its fields.** -/
def render (c : Config) : String :=
  String.ofList (objectText (Part.all.map fun p => renderMember p.key (c.renderPart p)))

theorem spelled_render (l : Leaf) : l.Spelled l.render := by
  match l with
  | .number n => rfl
  | .text none => rfl
  | .text (some s) => exact Json.textSpelled_renderText s

theorem mem_settings (p : Part) (s : Setting) : s.part = p ↔ s ∈ p.settings := by
  cases p <;> cases s <;> decide

theorem mem_all (s : Setting) : s ∈ Setting.all := by
  cases s <;> decide

theorem partSpelled_render (c : Config) (p : Part) :
    c.PartSpelled Setting.all p (c.renderPart p) := by
  refine ⟨_, Json.objectSpelled_render _ _ _, gives_render Setting.key_injective p.settings ?_
    (mem_settings p) fun s _ => ⟨mem_all s, spelled_render _⟩⟩
  cases p <;> decide

/-- What is written down of a configuration gives all of its fields. -/
theorem documentSpelled_render (c : Config) :
    c.DocumentSpelled Setting.all c.render.toList := by
  refine ⟨⟨[], c.render.toList, []⟩, ⟨nofun, nofun⟩, by simp [Item.text], _, ?_,
    gives_render Part.key_injective Part.all (by decide) (fun p => ?_)
      fun p _ => partSpelled_render c p⟩
  · rw [render, String.toList_ofList]
    exact Json.objectSpelled_render _ _ _
  · cases p <;> decide

theorem overDefaults_all (c : Config) : c.overDefaults Setting.all = c := by
  simp [overDefaults, mem_all]

/-! ### What becomes of a document -/

/-- What becomes of a configuration that has been read: it is refused for its weights, then for
its pool, then for its index, and else it is the answer. -/
def judge (d : Config) : Except Fault Config :=
  match d.scoring.check, d.pool.check, d.index.check with
  | .error fault, _, _ => .error fault
  | .ok (), .error fault, _ => .error fault
  | .ok (), .ok (), .error fault => .error fault
  | .ok (), .ok (), .ok () => .ok d

theorem check_eq_judge (d : Config) : (do d.check; return d) = d.judge := by
  unfold check judge
  cases d.scoring.check with
  | error fault => rfl
  | ok _ =>
    cases d.pool.check with
    | error fault => rfl
    | ok _ =>
      cases d.index.check with
      | error fault => rfl
      | ok _ => rfl

/-- Whatever is refused is refused as a configuration. -/
theorem exists_invalidConfig {d : Config} {fault : Fault} (h : d.judge = .error fault) :
    ∃ why, fault = .invalidConfig why := by
  have hscoring : ∀ other, d.scoring.check = .error other → ∃ why, other = .invalidConfig why := by
    intro other hother
    unfold Weights.check at hother
    split at hother
    · exact ⟨_, (Except.error.inj hother).symm⟩
    · exact absurd hother nofun
  have hpool : ∀ other, d.pool.check = .error other → ∃ why, other = .invalidConfig why := by
    intro other hother
    unfold PoolLimits.check at hother
    split_ifs at hother
    exact ⟨_, (Except.error.inj hother).symm⟩
  have hindex : ∀ other, d.index.check = .error other → ∃ why, other = .invalidConfig why := by
    intro other hother
    unfold IndexConfig.check at hother
    split_ifs at hother
    · exact ⟨_, (Except.error.inj hother).symm⟩
    · exact ⟨_, (Except.error.inj hother).symm⟩
  unfold judge at h
  split at h
  · next heq => exact Except.error.inj h ▸ hscoring _ heq
  · next heq => exact Except.error.inj h ▸ hpool _ heq
  · next heq => exact Except.error.inj h ▸ hindex _ heq
  · exact absurd h nofun

theorem DocumentSpelled.ofDocument {c : Config} {F : Finset Setting} (hrange : c.InRange)
    {document : String} (h : c.DocumentSpelled F document.toList) :
    Config.ofDocument document = (c.overDefaults F).judge := by
  unfold Config.ofDocument
  rw [h.read hrange]
  exact check_eq_judge _

/-- **A document overrides exactly the fields it names.** Let some fields have any values that
they can hold. A document that gives these fields their values comes to the default configuration
with them replaced, unless that is refused: for its weights, else for its pool, else for its
index. A valid configuration that is written down with all of its fields comes to itself. -/
theorem ofDocument_overDefaults (c : Config) (hrange : c.InRange) (F : Finset Setting)
    (document : String) (hspelled : c.DocumentSpelled F document.toList) :
    Config.ofDocument document = (c.overDefaults F).judge ∧
      (∀ fault, Config.ofDocument document = .error fault → ∃ why, fault = .invalidConfig why) ∧
      (c.judge = .ok c → Config.ofDocument c.render = .ok c) := by
  have hdocument := hspelled.ofDocument hrange
  refine ⟨hdocument, fun fault hfault => ?_, fun hvalid => ?_⟩
  · exact exists_invalidConfig (hdocument.symm.trans hfault)
  · rw [c.documentSpelled_render.ofDocument hrange, overDefaults_all]
    exact hvalid

/-- A document with one field, after a key that names nothing and is written with an escape. -/
theorem ofDocument_overDefaults_shard_count :
    Config.ofDocument
      "\x7b\"index\" : \x7b \"\\u0078\": [true], \"shard_count\":4 \x7d\x7d" =
        .ok { index := { shardCount := 4 } } := by
  let c : Config := { index := { shardCount := 4 } }
  let unknown : Json.Member :=
    ⟨⟨[' '], ['"', '\\', 'u', '0', '0', '7', '8', '"'], []⟩,
      ⟨[' '], Json.listText [⟨[], ['t', 'r', 'u', 'e'], []⟩], []⟩⟩
  let shards : Json.Member := ⟨⟨[' '], renderText "shard_count", []⟩, ⟨[], ['4'], [' ']⟩⟩
  let index : Json.Member :=
    ⟨⟨[], renderText "index", [' ']⟩, ⟨[' '], objectText [unknown, shards], []⟩⟩
  have hrange : c.InRange := by
    intro s n hleaf
    cases s <;> cases hleaf <;> decide
  have hblanks : Json.Blanks [' '] ∧ Json.Blanks [] := ⟨by simp [Json.Blanks], nofun⟩
  have hescaped : TextSpelled "x" unknown.key.body :=
    have hunit := Json.HexSpelled.digits (Json.hexDigit_hexChar 0 (by decide))
      (Json.hexDigit_hexChar 0 (by decide)) (Json.hexDigit_hexChar 7 (by decide))
      (Json.hexDigit_hexChar 8 (by decide))
    ⟨_, .cons (.unit hunit) .nil, rfl⟩
  have hpart : c.PartSpelled {.shardCount} .index index.value.body := by
    refine ⟨[("x", unknown), ("shard_count", shards)], ⟨?_, .inl rfl⟩, ?_⟩
    · refine List.forall_mem_cons.mpr ⟨⟨⟨hblanks, hblanks⟩, hescaped⟩, ?_⟩
      refine List.forall_mem_singleton.mpr ⟨⟨hblanks, hblanks.symm⟩, ?_⟩
      exact Json.textSpelled_renderText _
    · constructor
      · intro s _
        cases s <;> decide
      · intro s _ hs
        obtain rfl := Finset.mem_singleton.mp hs
        simp [Setting.key]
      · refine List.forall_mem_cons.mpr ⟨fun s _ hkey => ?_, ?_⟩
        · cases s <;> exact absurd hkey (by decide)
        · refine List.forall_mem_singleton.mpr fun s _ hkey => ?_
          obtain rfl : .shardCount = s := Setting.key_injective hkey
          have hfour : (toString (4 : Int)).toList = ['4'] := by decide
          exact ⟨Finset.mem_singleton_self _, hfour.symm⟩
      · refine List.forall_mem_cons.mpr ⟨fun _ => ?_, ?_⟩
        · exact .list (by simpa using ⟨hblanks.2, hblanks.2⟩) (by simpa using .true)
        · exact List.forall_mem_singleton.mpr fun hkey => absurd rfl (hkey .shardCount rfl)
  have hspelled : c.DocumentSpelled {.shardCount}
      "\x7b\"index\" : \x7b \"\\u0078\": [true], \"shard_count\":4 \x7d\x7d".toList := by
    refine ⟨⟨[], objectText [index], []⟩, ⟨hblanks.2, hblanks.2⟩, by decide, [("index", index)],
      ⟨?_, .inl rfl⟩, ?_⟩
    · refine List.forall_mem_singleton.mpr ⟨⟨hblanks.symm, hblanks⟩, ?_⟩
      exact Json.textSpelled_renderText _
    · constructor
      · intro p _
        cases p <;> decide
      · rintro p - ⟨s, hs, rfl⟩
        obtain rfl := Finset.mem_singleton.mp hs
        simp [Setting.part, Part.key]
      · refine List.forall_mem_singleton.mpr fun p _ hkey => ?_
        obtain rfl : .index = p := Part.key_injective hkey
        exact hpart
      · exact List.forall_mem_singleton.mpr fun hkey => absurd rfl (hkey .index trivial)
  have hread := (ofDocument_overDefaults c hrange {.shardCount} _ hspelled).1
  rw [hread]
  decide

end Config

end Typeahead
