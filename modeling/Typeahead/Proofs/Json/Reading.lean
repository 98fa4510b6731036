import Typeahead.Json.Value
import Typeahead.Proofs.Json.Lexing

/-!
# Reading what is well written

The tokens of a value complete that value, wherever it stands: alone, in a list or as the value of
a key. So a document is read from the inside out, by induction on how it is written. Every
well-formed value is read, and an object whose keys are texts is read as its members in order.
-/

namespace Typeahead.Json

variable {cs cs' : List Char} {ts ts' : List Token} {v : Value}

/-! ### Lexing lists and objects -/

theorem Lexes.padded {x : Item} (h : Lexes x.body ts) (hpadded : x.IsPadded) :
    Lexes x.text ts := by
  intro found rest hrest
  rw [Item.text, List.append_assoc, List.append_assoc, runs_blanks hpadded.1,
    h found _ (hrest.blanks hpadded.2), runs_blanks hpadded.2]

theorem lexes_blanks (h : Blanks cs) : Lexes cs [] := fun found rest _ => runs_blanks h found rest

/-- Two things with a token of one character between them. -/
theorem Lexes.separated {c : Char} {token : Token} (h : Lexes cs ts) (hc : IsDelimiter c)
    (htoken : takeBetween c = some ([token], .between)) (h' : Lexes cs' ts') :
    Lexes (cs ++ c :: cs') (ts ++ token :: ts') := by
  intro found rest hrest
  rw [List.append_assoc, List.cons_append, h found _ (delimited_cons hc _),
    tokensFrom_cons htoken, h' _ rest hrest]
  simp

/-- Something between two tokens of one character. -/
theorem Lexes.enclosed {first last : Char} {opening closing : Token} (h : Lexes cs ts)
    (hlast : IsDelimiter last) (hopening : takeBetween first = some ([opening], .between))
    (hclosing : takeBetween last = some ([closing], .between)) :
    Lexes (first :: (cs ++ [last])) (opening :: (ts ++ [closing])) := by
  intro found rest _
  have hsplit : first :: (cs ++ [last]) ++ rest = first :: (cs ++ last :: rest) := by simp
  rw [hsplit, tokensFrom_cons hopening, h _ _ (delimited_cons hlast rest),
    tokensFrom_cons hclosing]
  simp

/-! ### Completing values -/

/-- How reading goes on once a value is complete. -/
def proceed (v : Value) (frames : List Frame) (rest : List Token) : Option Value :=
  match complete v frames with
  | some (frames, awaited) => valueFrom frames awaited rest
  | none => none

/-- Whether a value may come next. -/
def Awaited.AllowsValue (awaited : Awaited) : Prop := awaited = .value ∨ awaited = .itemOrEnd

/-- Tokens complete a value, wherever one may come. -/
def Parses (ts : List Token) (v : Value) : Prop :=
  ∀ frames awaited rest, awaited.AllowsValue →
    valueFrom frames awaited (ts ++ rest) = proceed v frames rest

/-- **A text is read as a value.** -/
def Reads (cs : List Char) (v : Value) : Prop := ∃ ts, Lexes cs ts ∧ Parses ts v

/-- A token that is a value. -/
theorem parses_token {token : Token} (hend : token ≠ .closeList)
    (h : ∀ frames, takeValue frames token = complete v frames) : Parses [token] v := by
  rintro frames awaited rest (rfl | rfl)
  · rw [List.cons_append, valueFrom, takeToken, h]
    rfl
  · rw [List.cons_append, valueFrom, takeToken, if_neg hend, h]
    rfl

theorem reads_null : Reads ['n', 'u', 'l', 'l'] .null :=
  ⟨_, lexes_null, parses_token nofun fun _ => rfl⟩

theorem reads_bool_true : Reads ['t', 'r', 'u', 'e'] (.bool true) :=
  ⟨_, lexes_true, parses_token nofun fun _ => rfl⟩

theorem reads_bool_false : Reads ['f', 'a', 'l', 's', 'e'] (.bool false) :=
  ⟨_, lexes_false, parses_token nofun fun _ => rfl⟩

theorem reads_number {n : Literal} (h : Lexes cs [.number n]) : Reads cs (.number n) :=
  ⟨_, h, parses_token nofun fun _ => rfl⟩

theorem reads_text {s : Option String} (h : Lexes cs [.text s]) : Reads cs (.text s) :=
  ⟨_, h, parses_token nofun fun _ => rfl⟩

/-! ### Lists -/

/-- The items of a list complete it, whatever items are in front of them. -/
theorem exists_lexes_items (entries : List (Item × Value)) (hne : entries ≠ [])
    (h : ∀ e ∈ entries, e.1.IsPadded ∧ Reads e.1.body e.2) :
    ∃ ts, Lexes (commaed (entries.map fun e => e.1.text)) ts ∧
      ∀ done frames awaited rest, awaited.AllowsValue →
        valueFrom (.list done :: frames) awaited (ts ++ .closeList :: rest) =
          proceed (.list (done.reverse ++ entries.map Prod.snd)) frames rest := by
  induction entries with
  | nil => exact absurd rfl hne
  | cons e entries ih =>
    obtain ⟨hpadded, ts, hlexes, hparses⟩ := h e List.mem_cons_self
    cases entries with
    | nil =>
      refine ⟨ts, hlexes.padded hpadded, fun done frames awaited rest hawaited => ?_⟩
      rw [hparses _ _ _ hawaited]
      show proceed (.list (e.2 :: done).reverse) frames rest = _
      rw [List.reverse_cons]
      rfl
    | cons e' entries =>
      obtain ⟨ts', hlexes', hparses'⟩ := ih (List.cons_ne_nil _ _) fun x hx =>
        h x (List.mem_cons_of_mem e hx)
      refine ⟨ts ++ .comma :: ts',
        (hlexes.padded hpadded).separated (by simp [IsDelimiter]) rfl hlexes', ?_⟩
      intro done frames awaited rest hawaited
      rw [List.append_assoc, hparses _ _ _ hawaited]
      show valueFrom (.list (e.2 :: done) :: frames) .value (ts' ++ .closeList :: rest) = _
      rw [hparses' _ _ _ _ (.inl rfl), List.reverse_cons, List.append_assoc]
      rfl

theorem reads_blankList (h : Blanks cs) : Reads ('[' :: (cs ++ [']'])) (.list []) := by
  refine ⟨_, (lexes_blanks h).enclosed (by simp [IsDelimiter]) rfl rfl, ?_⟩
  rintro frames awaited rest (rfl | rfl) <;> rfl

/-- **A list is read as its items in order.** -/
theorem reads_list (entries : List (Item × Value))
    (h : ∀ e ∈ entries, e.1.IsPadded ∧ Reads e.1.body e.2) :
    Reads (listText (entries.map Prod.fst)) (.list (entries.map Prod.snd)) := by
  cases entries with
  | nil => exact reads_blankList (show Blanks [] from nofun)
  | cons e entries =>
    obtain ⟨ts, hlexes, hparses⟩ := exists_lexes_items (e :: entries) (List.cons_ne_nil _ _) h
    rw [listText, List.map_map]
    refine ⟨_, hlexes.enclosed (by simp [IsDelimiter]) rfl rfl, ?_⟩
    rintro frames awaited rest hawaited
    have hopen : valueFrom frames awaited (.openList :: (ts ++ [.closeList]) ++ rest) =
        valueFrom (.list [] :: frames) .itemOrEnd (ts ++ .closeList :: rest) := by
      rw [List.cons_append, List.append_assoc]
      rcases hawaited with rfl | rfl <;> rfl
    rw [hopen, hparses _ _ _ _ (.inr rfl)]
    rfl

/-! ### Objects -/

/-- The members of an object complete it, whatever members are in front of them. -/
theorem exists_lexes_members (entries : List (Member × Option String × Value))
    (hne : entries ≠ [])
    (h : ∀ e ∈ entries, e.1.IsPadded ∧ Lexes e.1.key.body [.text e.2.1] ∧
      Reads e.1.value.body e.2.2) :
    ∃ ts, Lexes (commaed (entries.map fun e => e.1.text)) ts ∧
      ∀ done frames awaited rest, awaited = .key ∨ awaited = .keyOrEnd →
        valueFrom (.object done :: frames) awaited (ts ++ .closeObject :: rest) =
          proceed (.object (done.reverse ++ entries.map Prod.snd)) frames rest := by
  induction entries with
  | nil => exact absurd rfl hne
  | cons e entries ih =>
    obtain ⟨hpadded, hkey, ts, hlexes, hparses⟩ := h e List.mem_cons_self
    have hmember : Lexes e.1.text ([.text e.2.1] ++ .colon :: ts) :=
      (hkey.padded hpadded.1).separated (by simp [IsDelimiter]) rfl (hlexes.padded hpadded.2)
    have hstep : ∀ done frames awaited rest, awaited = .key ∨ awaited = .keyOrEnd →
        valueFrom (.object done :: frames) awaited (([.text e.2.1] ++ .colon :: ts) ++ rest) =
          valueFrom (.object (e.2 :: done) :: frames) .separator rest := by
      intro done frames awaited rest hawaited
      have hopen : valueFrom (.object done :: frames) awaited
          (([.text e.2.1] ++ .colon :: ts) ++ rest) =
            valueFrom (.member done e.2.1 :: frames) .value (ts ++ rest) := by
        rcases hawaited with rfl | rfl <;> rfl
      rw [hopen, hparses _ _ _ (.inl rfl)]
      rfl
    cases entries with
    | nil =>
      refine ⟨_, hmember, fun done frames awaited rest hawaited => ?_⟩
      rw [hstep _ _ _ _ hawaited]
      show proceed (.object (e.2 :: done).reverse) frames rest = _
      rw [List.reverse_cons]
      rfl
    | cons e' entries =>
      obtain ⟨ts', hlexes', hparses'⟩ := ih (List.cons_ne_nil _ _) fun x hx =>
        h x (List.mem_cons_of_mem e hx)
      refine ⟨_, hmember.separated (by simp [IsDelimiter]) rfl hlexes', ?_⟩
      intro done frames awaited rest hawaited
      rw [List.append_assoc, hstep _ _ _ _ hawaited]
      show valueFrom (.object (e.2 :: done) :: frames) .key (ts' ++ .closeObject :: rest) = _
      rw [hparses' _ _ _ _ (.inl rfl), List.reverse_cons, List.append_assoc]
      rfl

theorem reads_blankObject (h : Blanks cs) :
    Reads ('\x7b' :: (cs ++ ['\x7d'])) (.object []) := by
  refine ⟨_, (lexes_blanks h).enclosed (by simp [IsDelimiter]) rfl rfl, ?_⟩
  rintro frames awaited rest (rfl | rfl) <;> rfl

/-- **An object is read as its members in order.** -/
theorem reads_object (entries : List (Member × Option String × Value))
    (h : ∀ e ∈ entries, e.1.IsPadded ∧ Lexes e.1.key.body [.text e.2.1] ∧
      Reads e.1.value.body e.2.2) :
    Reads (objectText (entries.map Prod.fst)) (.object (entries.map Prod.snd)) := by
  cases entries with
  | nil => exact reads_blankObject (show Blanks [] from nofun)
  | cons e entries =>
    obtain ⟨ts, hlexes, hparses⟩ := exists_lexes_members (e :: entries) (List.cons_ne_nil _ _) h
    rw [objectText, List.map_map]
    refine ⟨_, hlexes.enclosed (by simp [IsDelimiter]) rfl rfl, ?_⟩
    rintro frames awaited rest hawaited
    have hopen : valueFrom frames awaited (.openObject :: (ts ++ [.closeObject]) ++ rest) =
        valueFrom (.object [] :: frames) .keyOrEnd (ts ++ .closeObject :: rest) := by
      rw [List.cons_append, List.append_assoc]
      rcases hawaited with rfl | rfl <;> rfl
    rw [hopen, hparses _ _ _ _ (.inr rfl)]
    rfl

/-! ### Any values -/

/-- Things that each have something can be listed together with what they have. -/
theorem exists_entries {α β : Type} {P : α → β → Prop} (xs : List α)
    (h : ∀ x ∈ xs, ∃ y, P x y) :
    ∃ entries : List (α × β), entries.map Prod.fst = xs ∧ ∀ e ∈ entries, P e.1 e.2 := by
  induction xs with
  | nil => exact ⟨[], rfl, nofun⟩
  | cons x xs ih =>
    obtain ⟨y, hy⟩ := h x List.mem_cons_self
    obtain ⟨entries, rfl, hentries⟩ := ih fun z hz => h z (List.mem_cons_of_mem x hz)
    exact ⟨(x, y) :: entries, rfl, List.forall_mem_cons.mpr ⟨hy, hentries⟩⟩

/-- **Every well-formed value is read.** -/
theorem WellFormed.exists_reads (h : WellFormed cs) : ∃ v, Reads cs v := by
  induction h with
  | null => exact ⟨_, reads_null⟩
  | true => exact ⟨_, reads_bool_true⟩
  | false => exact ⟨_, reads_bool_false⟩
  | number h =>
    obtain ⟨n, hlexes⟩ := h.exists_lexes
    exact ⟨_, reads_number hlexes⟩
  | string h =>
    obtain ⟨s, hlexes⟩ := h.exists_lexes
    exact ⟨_, reads_text hlexes⟩
  | list hpadded _ ih =>
    obtain ⟨entries, rfl, hentries⟩ := exists_entries _ ih
    refine ⟨_, reads_list entries fun e he => ⟨hpadded _ ?_, hentries e he⟩⟩
    exact List.mem_map_of_mem he
  | blankList h => exact ⟨_, reads_blankList h⟩
  | object hpadded hkey _ ih =>
    obtain ⟨entries, rfl, hentries⟩ := exists_entries (P := fun (m : Member)
      (y : Option String × Value) => Lexes m.key.body [.text y.1] ∧ Reads m.value.body y.2) _
      fun m hm => by
        obtain ⟨s, hlexes⟩ := (hkey m hm).exists_lexes
        obtain ⟨v, hv⟩ := ih m hm
        exact ⟨(s, v), hlexes, hv⟩
    refine ⟨_, reads_object entries fun e he => ⟨hpadded _ ?_, hentries e he⟩⟩
    exact List.mem_map_of_mem he
  | blankObject h => exact ⟨_, reads_blankObject h⟩

/-- **An object with keys that are texts is read as its members in order**, each of which has what
its key and value have. -/
theorem ObjectSpelled.exists_reads {members : List (String × Member)}
    (h : ObjectSpelled members cs) {P : String → Value → Prop}
    (hvalues : ∀ m ∈ members, ∃ v, Reads m.2.value.body v ∧ P m.1 v) :
    ∃ pairs : List (String × Value), pairs.map Prod.fst = members.map Prod.fst ∧
      (∀ p ∈ pairs, P p.1 p.2) ∧
      Reads cs (.object (pairs.map fun p => (some p.1, p.2))) := by
  obtain ⟨hmembers, hcs⟩ := h
  obtain ⟨entries, rfl, hentries⟩ := exists_entries members hvalues
  refine ⟨entries.map fun e => (e.1.1, e.2), by simp, ?_, ?_⟩
  · intro p hp
    obtain ⟨e, he, rfl⟩ := List.mem_map.mp hp
    exact (hentries e he).2
  · rcases hcs with rfl | ⟨hnone, blanks, hblanks, rfl⟩
    · have hreads := reads_object (entries.map fun e => (e.1.2, some e.1.1, e.2)) (by
        intro x hx
        obtain ⟨e, he, rfl⟩ := List.mem_map.mp hx
        obtain ⟨hpadded, hkey⟩ := hmembers e.1 (List.mem_map_of_mem he)
        exact ⟨hpadded, hkey.lexes, (hentries e he).1⟩)
      simpa [List.map_map, Function.comp_def] using hreads
    · obtain rfl := List.map_eq_nil_iff.mp hnone
      exact reads_blankObject hblanks

/-- **A document is read as its value.** -/
theorem Reads.parse? {x : Item} (h : Reads x.body v) (hpadded : x.IsPadded) :
    Json.parse? x.text = some v := by
  obtain ⟨ts, hlexes, hparses⟩ := h
  have htokens := hlexes.padded hpadded [] [] delimited_nil
  have hvalue := hparses [] .value [] (.inl rfl)
  rw [List.append_nil] at htokens hvalue
  rw [Json.parse?, tokens?, htokens]
  simp only [tokensFrom, Mode.finish, Option.map_some, List.append_nil, List.reverse_reverse]
  exact hvalue

end Typeahead.Json
