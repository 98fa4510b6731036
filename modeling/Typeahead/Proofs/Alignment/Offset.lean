import Typeahead.Proofs.Alignment.Optimum

/-!
# Scoring from an offset on

What lies in front of an offset decides nothing but the boundary at the offset, and that takes only
the last character there. So two texts score alike if the same characters are in view behind the
same character (`Haystack.Alike`), however much of each of them is skipped. The three places where
an offset counts agree on it: the scan for the needle, the cells that are written down, and the gap
in front of the first match, which is counted from the offset.

With nothing in view there is nothing to match.
-/

namespace Typeahead

namespace Haystack

open Typeahead.Alignment

/-- Two texts look alike, each from an offset on: the same characters are in view, and the same
character comes before them. -/
structure Alike (text : List Char) (offset : Nat) (text' : List Char) (offset' : Nat) : Prop where
  /-- The same characters are in view. -/
  visible_eq : visible text offset = visible text' offset'
  /-- The same character comes before them. -/
  charBefore_eq : charBefore text offset = charBefore text' offset'

variable {w : Weights} {text text' before before' suffix : List Char} {offset offset' k : Nat}
  {c : Char}

theorem lt_longest_of_visible (h : (visible text offset)[k]? = some c) : offset + k < longest := by
  rw [getElem?_visible] at h
  have hlt := (List.getElem?_eq_some_iff.mp h).1
  rw [List.length_take] at hlt
  omega

/-- Behind the first character in view, the character before is in view as well. -/
theorem charBefore_add_succ (h : offset + (k + 1) < longest) :
    charBefore text (offset + (k + 1)) = (visible text offset)[k]? := by
  rw [getElem?_visible, List.getElem?_take, if_pos (by omega)]
  rfl

/-- **Texts that look alike have the same cells.** -/
theorem Alike.prepare_eq (h : Alike text offset text' offset') :
    prepare w text offset = prepare w text' offset' := by
  refine Array.ext_getElem? fun k => ?_
  rw [getElem?_prepare, getElem?_prepare, ← h.visible_eq]
  cases hget : (visible text offset)[k]? with
  | none => rfl
  | some c =>
    have hlt := lt_longest_of_visible hget
    have hlt' := lt_longest_of_visible (h.visible_eq ▸ hget)
    have hbefore : charBefore text (offset + k) = charBefore text' (offset' + k) := by
      cases k with
      | zero => exact h.charBefore_eq
      | succ k => rw [charBefore_add_succ hlt, charBefore_add_succ hlt', h.visible_eq]
    simp [cellAt, hbefore]

theorem Alike.occursFrom_eq (h : Alike text offset text' offset') (letters : List Letter) :
    occursFrom letters text offset = occursFrom letters text' offset' := by
  rw [occursFrom, h.visible_eq, occursFrom]

/-- Behind what is skipped, the rest of a text that is not too long is in view. -/
theorem visible_append (h : (before ++ c :: suffix).length ≤ longest) :
    visible (before ++ c :: suffix) (before.length + 1) = suffix := by
  rw [visible, List.take_of_length_le h]
  simp

/-- **Of what is skipped only the last character can be told.** -/
theorem alike_append (h : (before ++ c :: suffix).length ≤ longest)
    (h' : (before' ++ c :: suffix).length ≤ longest) :
    Alike (before ++ c :: suffix) (before.length + 1)
      (before' ++ c :: suffix) (before'.length + 1) where
  visible_eq := by rw [visible_append h, visible_append h']
  charBefore_eq := by simp [charBefore]

theorem visible_eq_nil (h : min longest text.length ≤ offset) : visible text offset = [] := by
  simpa [visible] using h

end Haystack

namespace Scorer

variable {text text' : List Char} {offset offset' : Nat}

/-- **Texts that look alike have the same score**, in whatever buffers. -/
theorem scoreLettersIn_congr (s : Scorer) (h : Haystack.Alike text offset text' offset')
    (scratch scratch' : Scratch) (letters : List Letter) :
    (s.scoreLettersIn scratch letters text offset).1 =
      (s.scoreLettersIn scratch' letters text' offset').1 := by
  rw [scoreLettersIn_fst, scoreLettersIn_fst, scoreLetters, scoreLetters]
  cases letters with
  | nil => rfl
  | cons first later =>
    simp only [scoreLettersIn, Haystack.fill_eq_prepare, h.occursFrom_eq, h.prepare_eq]

/-- With nothing in view only the empty needle matches. -/
theorem scoreLettersIn_of_visible_eq_nil (s : Scorer) (h : Haystack.visible text offset = [])
    (scratch : Scratch) (letters : List Letter) :
    (s.scoreLettersIn scratch letters text offset).1 =
      if letters = [] then Score.zero else Score.noMatch := by
  cases letters with
  | nil => rfl
  | cons first later =>
    have habsent : Haystack.occursFrom (first :: later) text offset = false := by
      rw [Haystack.occursFrom, h]
      rfl
    simp [scoreLettersIn, habsent]

/-- **What is skipped shows only by its last character.** If a character and what follows it are the
same in two texts that are looked at to their ends, then from behind that character on a needle has
the same score in both and occurs in both or neither, whatever comes before it in each. From an
offset at the end of what is looked at, or beyond, only the empty needle matches, with zero. -/
theorem score_from_offset (s : Scorer) (letters : List Letter) :
    (∀ (c : Char) (suffix before before' : List Char),
      (before ++ c :: suffix).length ≤ Haystack.longest →
      (before' ++ c :: suffix).length ≤ Haystack.longest →
      (∀ scratch scratch',
        (s.scoreLettersIn scratch letters (before ++ c :: suffix) (before.length + 1)).1 =
          (s.scoreLettersIn scratch' letters (before' ++ c :: suffix) (before'.length + 1)).1) ∧
      Haystack.occursFrom letters (before ++ c :: suffix) (before.length + 1) =
        Haystack.occursFrom letters (before' ++ c :: suffix) (before'.length + 1)) ∧
    ∀ scratch text offset, min Haystack.longest text.length ≤ offset →
      (s.scoreLettersIn scratch letters text offset).1 =
        if letters = [] then Score.zero else Score.noMatch := by
  refine ⟨fun c suffix before before' hlen hlen' => ?_, fun scratch text offset hend => ?_⟩
  · have halike := Haystack.alike_append hlen hlen'
    exact ⟨fun scratch scratch' => s.scoreLettersIn_congr halike scratch scratch' letters,
      halike.occursFrom_eq letters⟩
  · exact s.scoreLettersIn_of_visible_eq_nil (Haystack.visible_eq_nil hend) scratch letters

/-- Behind a slash, after a short and after a long directory, in new and in used buffers; and at an
offset beyond the end. -/
theorem score_from_offset_after_slash :
    ("".toList ++ '/' :: "bxC".toList).length ≤ Haystack.longest ∧
    ("/home/docs".toList ++ '/' :: "bxC".toList).length ≤ Haystack.longest ∧
    min Haystack.longest "/bxC".toList.length ≤ 7 ∧
    (standard.scoreLettersIn {} [Letter.of 'b', Letter.of 'c']
        ("".toList ++ '/' :: "bxC".toList) ("".toList.length + 1)).1 =
      (standard.scoreLettersIn ⟨#[], #[7, 7], #[1]⟩ [Letter.of 'b', Letter.of 'c']
        ("/home/docs".toList ++ '/' :: "bxC".toList) ("/home/docs".toList.length + 1)).1 ∧
    (standard.scoreLettersIn {} [Letter.of 'b', Letter.of 'c'] "/bxC".toList 7).1 =
      Score.noMatch := by
  have hshort : ("".toList ++ '/' :: "bxC".toList).length ≤ Haystack.longest := by decide +kernel
  have hlong : ("/home/docs".toList ++ '/' :: "bxC".toList).length ≤ Haystack.longest := by
    decide +kernel
  have hend : min Haystack.longest "/bxC".toList.length ≤ 7 := by decide +kernel
  obtain ⟨hskipped, hpast⟩ := score_from_offset standard [Letter.of 'b', Letter.of 'c']
  exact ⟨hshort, hlong, hend, (hskipped '/' _ _ _ hshort hlong).1 _ _, hpast _ _ 7 hend⟩

end Scorer

end Typeahead
