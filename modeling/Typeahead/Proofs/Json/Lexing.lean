import Mathlib.Tactic.SplitIfs
import Typeahead.Json.Token
import Typeahead.Proofs.Json.Grammar

/-!
# Lexing what is well written

The lexer takes one character at a time. Inside a token it goes from mode to mode, and a number or
a name ends only with the character behind it. So what a text comes to is said for all that may
stand behind it: nothing, a blank, a comma, a colon or the end of a list or an object.
-/

namespace Typeahead.Json

variable {mode mode' mode'' : Mode} {cs cs' rest : List Char} {units : List Nat}

/-! ### Runs of the lexer -/

/-- Whether a character ends the token in front of it. -/
def IsDelimiter (c : Char) : Prop := c ∈ [' ', '\t', '\n', '\r', ',', ':', ']', '\x7d']

/-- Whether what is behind a token ends it. -/
def Delimited (rest : List Char) : Prop := ∀ c ∈ rest.head?, IsDelimiter c

/-- Inside a token, the lexer goes on from one mode to another. -/
def Runs (mode : Mode) (cs : List Char) (mode' : Mode) : Prop :=
  ∀ found rest, tokensFrom mode found (cs ++ rest) = tokensFrom mode' found rest

/-- **Between tokens, a text comes to tokens**, whatever delimiter is behind it. -/
def Lexes (cs : List Char) (ts : List Token) : Prop :=
  ∀ found rest, Delimited rest →
    tokensFrom .between found (cs ++ rest) = tokensFrom .between (ts.reverse ++ found) rest

theorem Runs.nil (mode : Mode) : Runs mode [] mode := fun _ _ => rfl

theorem Runs.append (h : Runs mode cs mode') (h' : Runs mode' cs' mode'') :
    Runs mode (cs ++ cs') mode'' := by
  intro found rest
  rw [List.append_assoc, h, h']

theorem Runs.cons {c : Char} (hc : mode.take c = some ([], mode')) (h : Runs mode' cs mode'') :
    Runs mode (c :: cs) mode'' := by
  intro found rest
  rw [List.cons_append, tokensFrom, hc]
  exact h found rest

/-- A character that is a token. -/
theorem tokensFrom_cons {c : Char} {token : Token} (hc : takeBetween c = some ([token], .between))
    (found : List Token) (rest : List Char) :
    tokensFrom .between found (c :: rest) = tokensFrom .between (token :: found) rest := by
  rw [tokensFrom, Mode.take, hc]
  rfl

theorem runs_blanks (h : Blanks cs) : Runs .between cs .between := by
  induction cs with
  | nil => exact .nil _
  | cons c cs ih =>
    refine Runs.cons ?_ (ih fun d hd => h d (List.mem_cons_of_mem c hd))
    have hc : c = ' ' ∨ c = '\t' ∨ c = '\n' ∨ c = '\r' := by simpa using h c List.mem_cons_self
    exact if_pos hc

/-! ### Where tokens end -/

theorem delimited_nil : Delimited [] := by simp [Delimited]

theorem delimited_cons {c : Char} (hc : IsDelimiter c) (rest : List Char) :
    Delimited (c :: rest) := by
  simpa [Delimited] using hc

theorem Delimited.blanks (h : Delimited rest) (hblanks : Blanks cs) : Delimited (cs ++ rest) := by
  cases cs with
  | nil => exact h
  | cons c cs =>
    have hc := hblanks c List.mem_cons_self
    exact delimited_cons (List.mem_append_left [',', ':', ']', '\x7d'] hc) _

/-- A delimiter is taken between tokens. -/
theorem exists_takeBetween_eq {c : Char} (hc : IsDelimiter c) :
    ∃ next, takeBetween c = some next := by
  simp only [IsDelimiter, List.mem_cons, List.not_mem_nil, or_false] at hc
  rcases hc with rfl | rfl | rfl | rfl | rfl | rfl | rfl | rfl <;> exact ⟨_, rfl⟩

/-- A token that its delimiter ends. -/
theorem tokensFrom_of_ends {token : Token} (hfinish : mode.finish = some [token])
    (hends : ∀ c, IsDelimiter c → mode.take c = endWith (some token) c) (h : Delimited rest)
    (found : List Token) :
    tokensFrom mode found rest = tokensFrom .between (token :: found) rest := by
  cases rest with
  | nil =>
    rw [tokensFrom, hfinish, tokensFrom]
    simp [Mode.finish]
  | cons c rest =>
    have hc : IsDelimiter c := h c rfl
    obtain ⟨⟨tokens, next⟩, htake⟩ := exists_takeBetween_eq hc
    rw [tokensFrom, hends c hc, tokensFrom, Mode.take, endWith, htake]
    simp

theorem lexes_of_runs {token : Token} (h : Runs .between cs mode)
    (hfinish : mode.finish = some [token])
    (hends : ∀ c, IsDelimiter c → mode.take c = endWith (some token) c) : Lexes cs [token] := by
  intro found rest hrest
  rw [h, tokensFrom_of_ends hfinish hends hrest]
  rfl

/-! ### Names -/

theorem isLower_eq_false {c : Char} (hc : IsDelimiter c) : c.isLower = false := by
  simp only [IsDelimiter, List.mem_cons, List.not_mem_nil, or_false] at hc
  rcases hc with rfl | rfl | rfl | rfl | rfl | rfl | rfl | rfl <;> rfl

theorem lexes_name (letters : List Char) {token : Token} (h : Runs .between cs (.name letters))
    (hname : nameToken? letters = some token) : Lexes cs [token] := by
  refine lexes_of_runs h (by simp [Mode.finish, hname]) fun c hc => ?_
  rw [Mode.take, isLower_eq_false hc, hname]
  rfl

theorem lexes_null : Lexes ['n', 'u', 'l', 'l'] [.null] :=
  lexes_name ['l', 'l', 'u', 'n'] (fun _ _ => rfl) rfl

theorem lexes_true : Lexes ['t', 'r', 'u', 'e'] [.bool true] :=
  lexes_name ['e', 'u', 'r', 't'] (fun _ _ => rfl) rfl

theorem lexes_false : Lexes ['f', 'a', 'l', 's', 'e'] [.bool false] :=
  lexes_name ['e', 's', 'l', 'a', 'f'] (fun _ _ => rfl) rfl

/-! ### Numbers -/

/-- Whether a number may end in a part. -/
def NumberPart.IsLast (part : NumberPart) : Prop :=
  part = .zero ∨ part = .whole ∨ part = .fraction ∨ part = .exponent

theorem continueNumber?_of_delimiter (part : NumberPart) (negative : Bool) (whole : Nat) {c : Char}
    (hc : IsDelimiter c) : continueNumber? part negative whole c = none := by
  simp only [IsDelimiter, List.mem_cons, List.not_mem_nil, or_false] at hc
  rcases hc with rfl | rfl | rfl | rfl | rfl | rfl | rfl | rfl <;> cases part <;> rfl

/-- A number that may end comes to a literal. -/
theorem lexes_number {part : NumberPart} {negative : Bool} {whole : Nat} {n : Literal}
    (h : Runs .between cs (.number part negative whole))
    (hn : numberToken? part negative whole = some (.number n)) : Lexes cs [.number n] := by
  refine lexes_of_runs h (by simp [Mode.finish, hn]) fun c hc => ?_
  rw [Mode.take, continueNumber?_of_delimiter part negative whole hc, hn]

theorem take_number {part : NumberPart} {negative : Bool} {whole : Nat} {c : Char} {next : Mode}
    (h : continueNumber? part negative whole c = some next) :
    (Mode.number part negative whole).take c = some ([], next) := by
  rw [Mode.take, h]

/-- Digits that a part goes on with. -/
theorem runs_digits (part : NumberPart) (negative : Bool) (step : Nat → Char → Nat)
    (hstep : ∀ whole c, c.isDigit = true →
      continueNumber? part negative whole c = some (.number part negative (step whole c)))
    (digits : List Char) (hdigits : ∀ c ∈ digits, c.isDigit = true) (whole : Nat) :
    Runs (.number part negative whole) digits
      (.number part negative (digits.foldl step whole)) := by
  induction digits generalizing whole with
  | nil => exact .nil _
  | cons c digits ih =>
    refine .cons (take_number (hstep whole c (hdigits c List.mem_cons_self))) ?_
    exact ih (fun d hd => hdigits d (List.mem_cons_of_mem c hd)) _

theorem runs_whole (negative : Bool) (whole : Nat) {digits : List Char}
    (hdigits : ∀ c ∈ digits, c.isDigit = true) :
    Runs (.number .whole negative whole) digits
      (.number .whole negative (Nat.ofDigitChars 10 digits whole)) :=
  runs_digits .whole negative _ (fun whole c hc => by rw [continueNumber?, if_pos hc]; rfl)
    digits hdigits whole

/-- The digits of a fraction or an exponent do not count. -/
theorem runs_uncounted {part : NumberPart} (hpart : part = .fraction ∨ part = .exponent)
    (negative : Bool) (whole : Nat) {digits : List Char}
    (hdigits : ∀ c ∈ digits, c.isDigit = true) :
    Runs (.number part negative whole) digits (.number part negative whole) := by
  have hkept : ∀ digits : List Char, digits.foldl (fun whole _ => whole) whole = whole := by
    intro digits
    induction digits with
    | nil => rfl
    | cons c digits ih => exact ih
  have hruns := runs_digits part negative (fun whole _ => whole) (fun whole c hc => by
    rcases hpart with rfl | rfl <;> rw [continueNumber?, if_pos hc]) digits hdigits whole
  rwa [hkept] at hruns

theorem takeBetween_digit {c : Char} (hc : c.isDigit = true) (hne : c ≠ '0') :
    takeBetween c = some ([], .number .whole false (c.toNat - 48)) := by
  have hother : ∀ d : Char, d.isDigit = false → c ≠ d := by
    rintro d hd rfl
    exact Bool.false_ne_true (hd.symm.trans hc)
  have hblank : ¬ (c = ' ' ∨ c = '\t' ∨ c = '\n' ∨ c = '\r') := by
    rintro (rfl | rfl | rfl | rfl) <;> exact absurd hc (by decide)
  rw [takeBetween, if_neg hblank, if_neg (hother _ rfl), if_neg (hother _ rfl),
    if_neg (hother _ rfl), if_neg (hother _ rfl), if_neg (hother _ rfl), if_neg (hother _ rfl),
    if_neg (hother _ rfl), if_neg (hother _ rfl), if_neg hne, if_pos hc]

/-- The sign and the whole part of a number. -/
theorem exists_runs_whole {sign whole : List Char} (hsign : sign ∈ [[], ['-']])
    (hwhole : WholePart whole) :
    ∃ part, Runs .between (sign ++ whole)
        (.number part (decide (sign = ['-'])) (Nat.ofDigitChars 10 whole 0)) ∧
      (part = .zero ∨ part = .whole) := by
  obtain ⟨⟨hne, hdigits⟩, hzero⟩ := hwhole
  have hstart : ∀ (mode : Mode) (negative : Bool),
      mode.take '0' = some ([], .number .zero negative 0) →
      (∀ c, c.isDigit = true → c ≠ '0' →
        mode.take c = some ([], .number .whole negative (c.toNat - 48))) →
      ∃ part, Runs mode whole (.number part negative (Nat.ofDigitChars 10 whole 0)) ∧
        (part = .zero ∨ part = .whole) := by
    intro mode negative htake htake'
    rcases hzero with rfl | hhead
    · exact ⟨.zero, .cons htake (.nil _), .inl rfl⟩
    · cases whole with
      | nil => exact absurd rfl hne
      | cons c digits =>
        have hc : c ≠ '0' := by simpa using hhead
        refine ⟨.whole, ?_, .inr rfl⟩
        rw [Nat.ofDigitChars_cons, Nat.mul_zero, Nat.zero_add]
        exact .cons (htake' c (hdigits c List.mem_cons_self) hc)
          (runs_whole negative _ fun d hd => hdigits d (List.mem_cons_of_mem c hd))
  have hsign' : sign = [] ∨ sign = ['-'] := by simpa using hsign
  rcases hsign' with rfl | rfl
  · exact hstart .between false rfl fun c hc hne => takeBetween_digit hc hne
  · obtain ⟨part, hruns, hpart⟩ := hstart (.number .sign true 0) true rfl fun c hc hne =>
      take_number (by rw [continueNumber?, if_neg hne, if_pos hc])
    exact ⟨part, .cons rfl hruns, hpart⟩

/-- The fraction of a number, if it has one. -/
theorem exists_runs_fraction {part : NumberPart} (hpart : part = .zero ∨ part = .whole)
    (negative : Bool) (whole : Nat) (h : Fraction cs) :
    ∃ part', Runs (.number part negative whole) cs (.number part' negative whole) ∧
      (part' = .zero ∨ part' = .whole ∨ part' = .fraction) := by
  rcases h with rfl | ⟨digits, ⟨hne, hdigits⟩, rfl⟩
  · exact ⟨part, .nil _, hpart.imp_right .inl⟩
  · cases digits with
    | nil => exact absurd rfl hne
    | cons c digits =>
      have hpoint : (Mode.number part negative whole).take '.' =
          some ([], .number .point negative whole) := by
        rcases hpart with rfl | rfl <;> rfl
      have hfirst : (Mode.number .point negative whole).take c =
          some ([], .number .fraction negative whole) :=
        take_number (by rw [continueNumber?, if_pos (hdigits c List.mem_cons_self)])
      refine ⟨.fraction, .cons hpoint (.cons hfirst ?_), .inr (.inr rfl)⟩
      exact runs_uncounted (.inl rfl) negative whole fun d hd =>
        hdigits d (List.mem_cons_of_mem c hd)

/-- The exponent of a number, if it has one. -/
theorem exists_runs_exponent {part : NumberPart}
    (hpart : part = .zero ∨ part = .whole ∨ part = .fraction) (negative : Bool) (whole : Nat)
    (h : Exponent cs) :
    ∃ part', Runs (.number part negative whole) cs (.number part' negative whole) ∧
      part'.IsLast := by
  rcases h with rfl | ⟨mark, sign, digits, hmark, hsign, ⟨hne, hdigits⟩, rfl⟩
  · exact ⟨part, .nil _, hpart.imp_right (Or.imp_right .inl)⟩
  · have hmark' : mark = 'e' ∨ mark = 'E' := by simpa using hmark
    have hsign' : sign = [] ∨ sign = ['+'] ∨ sign = ['-'] := by simpa using hsign
    have htake : (Mode.number part negative whole).take mark =
        some ([], .number .mark negative whole) := by
      refine take_number ?_
      rcases hpart with rfl | rfl | rfl <;> rcases hmark' with rfl | rfl <;> rfl
    cases digits with
    | nil => exact absurd rfl hne
    | cons c digits =>
      have hc := hdigits c List.mem_cons_self
      have hrest := runs_uncounted (.inr rfl) negative whole fun d hd =>
        hdigits d (List.mem_cons_of_mem c hd)
      have hsigned : Runs (.number .markSign negative whole) (c :: digits)
          (.number .exponent negative whole) :=
        .cons (take_number (by rw [continueNumber?, if_pos hc])) hrest
      refine ⟨.exponent, .cons htake ?_, .inr (.inr (.inr rfl))⟩
      rcases hsign' with rfl | rfl | rfl
      · refine .cons (take_number ?_) hrest
        have hno : ¬ (c = '+' ∨ c = '-') := by
          rintro (rfl | rfl) <;> exact absurd hc (by decide)
        rw [continueNumber?, if_neg hno, if_pos hc]
      · exact .cons rfl hsigned
      · exact .cons rfl hsigned

/-- **Every number comes to a literal.** -/
theorem IsNumber.exists_lexes (h : IsNumber cs) : ∃ n, Lexes cs [.number n] := by
  obtain ⟨sign, whole, fraction, exponent, hsign, hwhole, hfraction, hexponent, rfl⟩ := h
  obtain ⟨part₁, hruns₁, hpart₁⟩ := exists_runs_whole hsign hwhole
  obtain ⟨part₂, hruns₂, hpart₂⟩ := exists_runs_fraction hpart₁ _ _ hfraction
  obtain ⟨part₃, hruns₃, hpart₃⟩ := exists_runs_exponent hpart₂ _ _ hexponent
  rw [← List.append_assoc]
  have hruns := hruns₁.append (hruns₂.append hruns₃)
  rcases hpart₃ with rfl | rfl | rfl | rfl <;> exact ⟨_, lexes_number hruns rfl⟩

/-- A number without fraction and exponent comes to its sign and its digits' value. -/
theorem lexes_whole (sign : List Char) {whole : List Char} (hsign : sign ∈ [[], ['-']])
    (hwhole : WholePart whole) :
    Lexes (sign ++ whole) [.number ⟨decide (sign = ['-']), Nat.ofDigitChars 10 whole 0, true⟩] := by
  obtain ⟨part, hruns, rfl | rfl⟩ := exists_runs_whole hsign hwhole
  · exact lexes_number hruns rfl
  · exact lexes_number hruns rfl

theorem head?_toDigits_ne {n : Nat} (h : n ≠ 0) : (Nat.toDigits 10 n).head? ≠ some '0' := by
  induction n using Nat.strongRecOn with
  | ind n ih =>
    by_cases hsmall : n < 10
    · have hdigit : ∀ d < 10, d ≠ 0 → Nat.digitChar d ≠ '0' := by decide
      rw [Nat.toDigits_of_lt_base hsmall]
      simpa using hdigit n hsmall h
    · have hrest := ih (n / 10) (by omega) (by omega)
      rw [Nat.toDigits_of_base_le (by decide) (by omega)]
      cases hdigits : Nat.toDigits 10 (n / 10) with
      | nil => exact absurd hdigits Nat.toDigits_ne_nil
      | cons c digits => rwa [hdigits] at hrest

theorem wholePart_toDigits (n : Nat) : WholePart (Nat.toDigits 10 n) := by
  refine ⟨⟨Nat.toDigits_ne_nil, fun c hc => ?_⟩, ?_⟩
  · exact Nat.isDigit_of_mem_toDigits (by decide) (by decide) hc
  · by_cases hzero : n = 0
    · exact .inl (by rw [hzero]; rfl)
    · exact .inr (head?_toDigits_ne hzero)

/-- **A whole number in plain decimal comes to itself.** -/
theorem lexes_decimal (n : Int) :
    Lexes (toString n).toList [.number ⟨decide (n < 0), n.natAbs, true⟩] := by
  have hvalue : ∀ m, Nat.ofDigitChars 10 (Nat.toDigits 10 m) 0 = m := fun m =>
    Nat.ofDigitChars_toDigits (by decide) (by decide)
  cases n with
  | ofNat m =>
    have hlexes := lexes_whole [] (by decide) (wholePart_toDigits m)
    rw [hvalue] at hlexes
    have htext : (toString (Int.ofNat m)).toList = [] ++ Nat.toDigits 10 m := by
      show m.repr.toList = _
      rw [Nat.repr_eq_ofList_toDigits, String.toList_ofList]
      rfl
    rw [htext]
    exact hlexes
  | negSucc m =>
    have hlexes := lexes_whole ['-'] (by decide) (wholePart_toDigits (m + 1))
    rw [hvalue] at hlexes
    have htext : (toString (Int.negSucc m)).toList = ['-'] ++ Nat.toDigits 10 (m + 1) := by
      show ("-" ++ (m + 1).repr).toList = _
      rw [String.toList_append, Nat.repr_eq_ofList_toDigits, String.toList_ofList,
        String.toList_ofList]
    rw [htext, decide_eq_true (Int.negSucc_lt_zero m)]
    exact hlexes

/-! ### Strings -/

theorem hexDigit?_eq {value : Nat} {c : Char} (h : HexDigit value c) :
    hexDigit? c = some value ∧ value < 16 := by
  unfold HexDigit at h
  have hle : ∀ a b : Char, a ≤ b ↔ a.toNat ≤ b.toNat := fun a b => Iff.rfl
  rw [hexDigit?]
  simp only [hle, Char.reduceToNat]
  split_ifs <;> simp <;> omega

/-- The four digits of an escape. -/
theorem HexSpelled.runs {n : Nat} {digits : List Char} (h : HexSpelled n digits)
    (units : List Nat) : Runs (.text units) ('\\' :: 'u' :: digits) (.text (n :: units)) := by
  obtain @⟨a, b, c, d, w, x, y, z, ha, hb, hc, hd⟩ := h
  obtain ⟨ha, -⟩ := hexDigit?_eq ha
  obtain ⟨hb, -⟩ := hexDigit?_eq hb
  obtain ⟨hc, -⟩ := hexDigit?_eq hc
  obtain ⟨hd, -⟩ := hexDigit?_eq hd
  have hw : (Mode.hex units 4 0).take w = some ([], .hex units 3 a) := by simp [Mode.take, ha]
  have hx : (Mode.hex units 3 a).take x = some ([], .hex units 2 (16 * a + b)) := by
    simp [Mode.take, hb]
  have hy : (Mode.hex units 2 (16 * a + b)).take y =
      some ([], .hex units 1 (16 * (16 * a + b) + c)) := by
    simp [Mode.take, hc]
  have hz : (Mode.hex units 1 (16 * (16 * a + b) + c)).take z =
      some ([], .text ((4096 * a + 256 * b + 16 * c + d) :: units)) := by
    simp [Mode.take, hd]
    omega
  exact .cons rfl (.cons rfl (.cons hw (.cons hx (.cons hy (.cons hz (.nil _))))))

theorem IsPlain.runs {c : Char} (h : IsPlain c) (units : List Nat) :
    Runs (.text units) [c] (.text (c.toNat :: units)) := by
  obtain ⟨hlow, hquote, hslash⟩ := h
  refine .cons ?_ (.nil _)
  rw [Mode.take, if_neg hquote, if_neg hslash, if_neg (Nat.not_lt.mpr hlow)]

theorem runs_short {c letter : Char} (h : (c, letter) ∈ shortEscapes) (units : List Nat) :
    Runs (.text units) ['\\', letter] (.text (c.toNat :: units)) := by
  have htake : (Mode.escape units).take letter = some ([], .text (c.toNat :: units)) := by
    simp only [shortEscapes, List.mem_cons, List.not_mem_nil, or_false, Prod.mk.injEq] at h
    rcases h with ⟨rfl, rfl⟩ | ⟨rfl, rfl⟩ | ⟨rfl, rfl⟩ | ⟨rfl, rfl⟩ | ⟨rfl, rfl⟩ | ⟨rfl, rfl⟩ |
      ⟨rfl, rfl⟩ | ⟨rfl, rfl⟩ <;> rfl
  exact .cons rfl (.cons htake (.nil _))

/-- The end of a string. -/
theorem lexes_text {body : List Char} (h : Runs (.text []) body (.text units)) :
    Lexes ('"' :: (body ++ ['"'])) [textToken units] := by
  intro found rest _
  have hopen : Runs .between ('"' :: body) (.text units) := .cons rfl h
  have hsplit : '"' :: (body ++ ['"']) ++ rest = '"' :: body ++ '"' :: rest := by simp
  rw [hsplit, hopen]
  rfl

/-- **Every string comes to a text**, if it is one. -/
theorem IsString.exists_lexes (h : IsString cs) : ∃ s, Lexes cs [.text s] := by
  obtain ⟨body, hbody, rfl⟩ := h
  have hruns : ∀ units, ∃ units', Runs (.text units) body (.text units') := by
    induction hbody with
    | nil => exact fun units => ⟨units, .nil _⟩
    | plain hc hbody ih =>
      intro units
      obtain ⟨units', hruns⟩ := ih _
      exact ⟨units', (hc.runs units).append hruns⟩
    | short hshort hbody ih =>
      intro units
      obtain ⟨units', hruns⟩ := ih _
      exact ⟨units', (runs_short hshort units).append hruns⟩
    | unit hn hbody ih =>
      intro units
      obtain ⟨units', hruns⟩ := ih _
      exact ⟨units', (hn.runs units).append hruns⟩
  obtain ⟨units', hruns⟩ := hruns []
  exact ⟨_, lexes_text hruns⟩

/-! ### Texts -/

theorem not_half (c : Char) : isLowHalf c.toNat = false ∧ isHighHalf c.toNat = false := by
  have hvalid : c.toNat < 0xD800 ∨ 0xDFFF < c.toNat ∧ c.toNat < 0x110000 := c.valid
  simp only [isLowHalf, isHighHalf, decide_eq_false_iff_not]
  omega

/-- A unit that is a character. -/
theorem charsOfUnits_cons (c : Char) (found : List Char) (units : List Nat) :
    charsOfUnits found (c.toNat :: units) = charsOfUnits (c :: found) units := by
  obtain ⟨hlow, hhigh⟩ := not_half c
  cases units with
  | nil => simp [charsOfUnits, hlow, hhigh]
  | cons high units => simp [charsOfUnits, hlow, hhigh]

/-- Two units that are the halves of a character. -/
theorem charsOfUnits_pair {c : Char} (h : 0x10000 ≤ c.toNat) (found : List Char)
    (units : List Nat) :
    charsOfUnits found ((0xDC00 + (c.toNat - 0x10000) % 0x400) ::
      (0xD800 + (c.toNat - 0x10000) / 0x400) :: units) = charsOfUnits (c :: found) units := by
  have hvalid : c.toNat < 0xD800 ∨ 0xDFFF < c.toNat ∧ c.toNat < 0x110000 := c.valid
  have hlow : isLowHalf (0xDC00 + (c.toNat - 0x10000) % 0x400) = true := by
    simp only [isLowHalf, decide_eq_true_eq]
    omega
  have hhigh : isHighHalf (0xD800 + (c.toNat - 0x10000) / 0x400) = true := by
    simp only [isHighHalf, decide_eq_true_eq]
    omega
  have hpair : pairChar (0xD800 + (c.toNat - 0x10000) / 0x400)
      (0xDC00 + (c.toNat - 0x10000) % 0x400) = c := by
    have hnumber : 0x10000 + (0xD800 + (c.toNat - 0x10000) / 0x400 - 0xD800) * 0x400 +
        (0xDC00 + (c.toNat - 0x10000) % 0x400 - 0xDC00) = c.toNat := by omega
    rw [pairChar, hnumber, Char.ofNat_toNat]
  show (if isLowHalf _ then
    if isHighHalf _ then charsOfUnits (pairChar _ _ :: found) units else none else _) = _
  rw [if_pos hlow, if_pos hhigh, hpair]

/-- The units of a character, however it is written. -/
theorem CharSpelled.exists_runs {c : Char} (h : CharSpelled c cs) (units : List Nat) :
    ∃ units', Runs (.text units) cs (.text (units' ++ units)) ∧
      ∀ found rest, charsOfUnits found (units' ++ rest) = charsOfUnits (c :: found) rest := by
  cases h with
  | plain h => exact ⟨[c.toNat], h.runs units, charsOfUnits_cons c⟩
  | short h => exact ⟨[c.toNat], runs_short h units, charsOfUnits_cons c⟩
  | unit h => exact ⟨[c.toNat], h.runs units, charsOfUnits_cons c⟩
  | pair hc hhigh hlow =>
    exact ⟨[_, _], (hhigh.runs units).append (hlow.runs _), charsOfUnits_pair hc⟩

/-- The units of characters, last first. -/
theorem CharsSpelled.exists_runs {chars : List Char} (h : CharsSpelled chars cs)
    (units : List Nat) :
    ∃ units', Runs (.text units) cs (.text (units' ++ units)) ∧
      ∀ found rest, charsOfUnits found (units' ++ rest) = charsOfUnits (chars ++ found) rest := by
  induction h generalizing units with
  | nil => exact ⟨[], .nil _, fun _ _ => rfl⟩
  | cons hc hchars ih =>
    obtain ⟨first, hruns, hfirst⟩ := hc.exists_runs units
    obtain ⟨last, hruns', hlast⟩ := ih (first ++ units)
    refine ⟨last ++ first, ?_, fun found rest => ?_⟩
    · rw [List.append_assoc]
      exact hruns.append hruns'
    · rw [List.append_assoc, hlast, hfirst]
      rfl

/-- **A text comes to itself**, however its characters are written. -/
theorem TextSpelled.lexes {s : String} (h : TextSpelled s cs) : Lexes cs [.text (some s)] := by
  obtain ⟨body, hbody, rfl⟩ := h
  obtain ⟨units, hruns, hchars⟩ := hbody.exists_runs []
  have htoken : textToken (units ++ []) = .text (some s) := by
    rw [textToken, hchars, List.append_nil, charsOfUnits, Option.map_some, String.ofList_toList]
  exact htoken ▸ lexes_text hruns

end Typeahead.Json
