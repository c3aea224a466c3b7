import Stepwise.Token.Lexer

/-!
# Writing tokens

Every token that is not a floating-point number, a character or an error can be written so that it
is read back.  A line is written with a blank between any two tokens and a line feed at its end.
Blanks are needed only for some pairs of tokens, but with all of them the lexer can be followed one
token at a time.

* `TokenKind.spelling` is how a token is written, and `TokenKind.isWritable` says which ones are.
* `Text.Writes` is how a character of a literal may be written.
* `Token.IsApart` says where a token ends for certain.
* `Token.lexeme_spelling` reads one of them back, and `Token.tokenize_spellLines` reads whole lines
  back, with all of the places where the tokens stand.
-/

set_option autoImplicit false

namespace Stepwise

/-- A character of a string literal, escaped where it has to be. -/
def Text.escaped (c : Char) : List Char :=
  if c = '"' then ['\\', '"']
  else if c = '\\' then ['\\', '\\']
  else if c = '\n' then ['\\', 'n']
  else [c]

namespace Text

/-- The characters that a literal writes with a backslash, by what stands after it. -/
def escapes : List (Char × Char) :=
  [('"', '"'), ('\'', '\''), ('\\', '\\'), ('n', '\n')]

/-- How a character of a literal is written between quotation marks `q`: with a backslash, or as it
is if it needs none. -/
inductive Writes (q c : Char) : List Char → Prop
  | plain (hquote : c ≠ q) (hslash : c ≠ '\\') (hline : c ≠ '\n') : Writes q c [c]
  | escaped {e : Char} (h : (e, c) ∈ escapes) : Writes q c ['\\', e]

/-- How the characters of a literal are written. -/
inductive WritesAll (q : Char) : List Char → List Char → Prop
  | nil : WritesAll q [] []
  | cons {c : Char} {cs body rest : List Char} (hc : Writes q c cs) (h : WritesAll q body rest) :
      WritesAll q (c :: body) (cs ++ rest)

theorem writes_escaped (c : Char) : Writes '"' c (escaped c) := by
  unfold escaped
  split
  · next h =>
    subst h
    exact .escaped (by decide)
  split
  · next h =>
    subst h
    exact .escaped (by decide)
  split
  · next h =>
    subst h
    exact .escaped (by decide)
  · next hquote hslash hline => exact .plain hquote hslash hline

theorem writesAll_escaped : ∀ cs : List Char, WritesAll '"' cs (cs.flatMap escaped)
  | [] => .nil
  | c :: cs => .cons (writes_escaped c) (writesAll_escaped cs)

end Text

namespace TokenKind

/-- The characters by which a token is written; none for those that are not written here. -/
def spelling : TokenKind → List Char
  | int n => Nat.toDigits 10 n.toInt.toNat
  | str s => '"' :: (s.toList.flatMap Text.escaped ++ ['"'])
  | ident name => name.toList
  | type name => name.toList
  | symbol s => s.text.toList
  | _ => []

/-- Whether a word has the form of a name. -/
def isName (word : String) : Bool :=
  match word.toList with
  | [] => false
  | c :: cs => Token.isNameStart c && cs.all Token.isNamePart

/-- Whether `spelling` writes the token: a number has no sign, and a name is no other word. -/
def isWritable : TokenKind → Bool
  | int n => 0 ≤ n
  | str _ => true
  | ident name =>
    isName name && (Token.keywords.lookup name).isNone && !Token.scalarTypes.contains name
  | type name => Token.scalarTypes.contains name
  | symbol _ => true
  | _ => false

end TokenKind

namespace Token

/-! ## Where a token ends -/

/-- The text goes on with a blank, or it is at its end. -/
def IsApart (tail : List Char) : Prop :=
  ∀ d ∈ tail.head?, isSeparator d = true

theorem isApart_nil : IsApart [] :=
  nofun

theorem isApart_cons {d : Char} (hd : isSeparator d = true) (tail : List Char) :
    IsApart (d :: tail) := by
  intro x hx
  rwa [← Option.some.inj hx]

/-- The four blanks, or the end of the text. -/
theorem IsApart.cases {tail : List Char} (h : IsApart tail) : tail = [] ∨
    ∃ d rest, tail = d :: rest ∧ (((d = ' ' ∨ d = '\t') ∨ d = '\r') ∨ d = '\n') := by
  cases tail with
  | nil => exact .inl rfl
  | cons d rest =>
    refine .inr ⟨d, rest, rfl, ?_⟩
    simpa only [isSeparator, Bool.or_eq_true, decide_eq_true_eq] using h d rfl

theorem IsApart.head?_ne {tail : List Char} (h : IsApart tail) {x : Char}
    (hx : isSeparator x = false) : tail.head? ≠ some x := by
  intro hhead
  rw [h x hhead] at hx
  cases hx

/-! ## Words -/

theorem isNamePart_of_isSeparator {d : Char} (h : isSeparator d = true) : isNamePart d = false := by
  simp only [isSeparator, Bool.or_eq_true, decide_eq_true_eq] at h
  rcases h with ((rfl | rfl) | rfl) | rfl <;> decide

theorem isDigit_of_isNameStart {c : Char} (h : isNameStart c = true) : c.isDigit = false := by
  simp only [Char.isDigit, Bool.and_eq_false_iff, decide_eq_false_iff_not, UInt32.le_iff_toNat_le,
    ge_iff_le]
  change ¬ 48 ≤ c.toNat ∨ ¬ c.toNat ≤ 57
  rcases isNameStart_iff.1 h with (h | h) | rfl
  · omega
  · omega
  · decide

theorem takeWhile_isNamePart_of_isApart {tail : List Char} (ht : IsApart tail) :
    tail.takeWhile isNamePart = [] := by
  cases tail with
  | nil => rfl
  | cons d tail =>
    exact List.takeWhile_cons_of_neg (by simp [isNamePart_of_isSeparator (ht d rfl)])

/-- A word is read up to a blank. -/
theorem lexeme_word {c : Char} {cs tail : List Char} (hc : isNameStart c = true)
    (hcs : cs.all isNamePart = true) (ht : IsApart tail) :
    lexeme c (cs ++ tail) = ⟨some (wordKind (String.ofList (c :: cs))), cs.length⟩ := by
  have hne : ∀ {x}, isNameStart x = false → c ≠ x := by
    rintro x hx rfl
    rw [hc] at hx
    cases hx
  have hbody : (cs ++ tail).takeWhile isNamePart = cs := by
    rw [List.takeWhile_append_of_pos (by simpa using hcs), takeWhile_isNamePart_of_isApart ht,
      List.append_nil]
  have hqualifier : tail.take 2 ≠ [':', ':'] := by
    intro h
    cases tail with
    | nil => cases h
    | cons d rest =>
      obtain rfl : d = ':' := (List.cons.inj h).1
      exact ht.head?_ne (x := ':') rfl rfl
  have hword : lexeme c (cs ++ tail) = wordLexeme c (cs ++ tail) := by
    simp only [lexeme, isSeparator, hne (x := ' ') rfl, hne (x := '\t') rfl, hne (x := '\r') rfl,
      hne (x := '\n') rfl, hne (x := '#') rfl, hne (x := '/') rfl, hne (x := '"') rfl,
      hne (x := '\'') rfl, hne (x := '0') rfl, isDigit_of_isNameStart hc, hc, decide_false,
      Bool.or_self, Bool.false_and, Bool.false_eq_true, if_false, if_true]
  rw [hword, wordLexeme, hbody, List.drop_left]
  simp only [hqualifier, decide_false, Bool.and_false, Bool.false_eq_true, if_false]

/-! ## Numbers -/

/-- Digits are read up to a blank. -/
theorem numberBody_digits {tail : List Char} (ht : IsApart tail) :
    ∀ {cs : List Char}, (∀ c ∈ cs, c.isDigit = true) →
      numberBody false (cs ++ tail) = (cs, false) := by
  intro cs
  induction cs with
  | nil =>
    intro _
    obtain rfl | ⟨d, rest, rfl, hd⟩ := ht.cases
    · rfl
    · rcases hd with ((rfl | rfl) | rfl) | rfl <;> cases rest <;> rfl
  | cons c cs ih =>
    intro hcs
    have hc : c.isDigit = true := hcs c List.mem_cons_self
    have hbody := ih fun x hx => hcs x (List.mem_cons_of_mem _ hx)
    have hpoint : c ≠ '.' := by
      rintro rfl
      cases hc
    cases hrest : cs ++ tail with
    | nil =>
      obtain ⟨rfl, rfl⟩ := List.append_eq_nil_iff.1 hrest
      rw [List.cons_append, hrest, numberBody, if_pos hc]
    | cons x xs =>
      rw [List.cons_append, hrest, numberBody, ← hrest]
      simp [hc, hpoint, hbody]

theorem intKind_toNat {n : Int64} (hn : 0 ≤ n) (otherwise : String) :
    intKind n.toInt.toNat otherwise = .int n := by
  have hnonneg : 0 ≤ n.toInt := Int64.le_iff_toInt_le.1 hn
  have hsmall : n.toInt < Nat.pow 2 63 := n.toInt_lt
  have hsame : Int64.ofNat n.toInt.toNat = n := by
    rw [← Int64.ofInt_eq_ofNat, Int.toNat_of_nonneg hnonneg, Int64.ofInt_toInt]
  rw [intKind, if_pos (by omega), hsame]

/-- A number is read up to a blank. -/
theorem lexeme_number {n : Int64} (hn : 0 ≤ n) {c : Char} {cs tail : List Char}
    (hdigits : ∀ x ∈ c :: cs, x.isDigit = true)
    (hvalue : Decimal.ofDigits (c :: cs) = n.toInt.toNat) (ht : IsApart tail) :
    lexeme c (cs ++ tail) = ⟨some (.int n), cs.length⟩ := by
  have hne : ∀ {x}, x.isDigit = false → c ≠ x := by
    rintro x hx rfl
    rw [hdigits c List.mem_cons_self] at hx
    cases hx
  have hhex : ∀ {x}, x.isDigit = false → isSeparator x = false →
      (cs ++ tail).head? ≠ some x := by
    intro x hx hsep h
    cases cs with
    | nil => exact ht.head?_ne hsep h
    | cons y cs =>
      cases h
      rw [hdigits x (by simp)] at hx
      cases hx
  have hnumber : lexeme c (cs ++ tail) = numberLexeme c (cs ++ tail) := by
    simp only [lexeme, isSeparator, hne (x := ' ') rfl, hne (x := '\t') rfl, hne (x := '\r') rfl,
      hne (x := '\n') rfl, hne (x := '#') rfl, hne (x := '/') rfl, hne (x := '"') rfl,
      hne (x := '\'') rfl, hhex (x := 'x') rfl rfl, hhex (x := 'X') rfl rfl,
      hdigits c List.mem_cons_self, decide_false, Bool.or_self, Bool.false_and, Bool.and_false,
      Bool.false_eq_true, if_false, if_true]
  have hsuffix : tail.takeWhile isNumberSuffix = [] := by
    obtain rfl | ⟨d, rest, rfl, hd⟩ := ht.cases
    · rfl
    · rcases hd with ((rfl | rfl) | rfl) | rfl <;> rfl
  rw [hnumber, numberLexeme, numberBody_digits ht fun x hx => hdigits x (by simp [hx])]
  simp only [List.drop_left, hsuffix, ht.head?_ne (x := 'f') rfl, ht.head?_ne (x := 'F') rfl,
    decide_false, Bool.or_self, Bool.false_eq_true, if_false, hvalue, intKind_toNat hn,
    List.length_nil, Nat.add_zero]

/-- The digits of a number are the usual ones. -/
theorem toDigits_spells {n : Nat} {cs : List Char} (hspell : Nat.toDigits 10 n = cs) :
    (∀ x ∈ cs, x.isDigit = true) ∧ Decimal.ofDigits cs = n := by
  subst hspell
  exact ⟨fun x hx => Nat.isDigit_of_mem_toDigits (by decide) (by decide) hx,
    Nat.ofDigitChars_toDigits (by decide) (by decide)⟩

/-! ## Strings -/

theorem unescape_of_mem_escapes {e c : Char} (h : (e, c) ∈ Text.escapes) : unescape e = c := by
  simp only [Text.escapes, List.mem_cons, List.not_mem_nil, or_false, Prod.mk.injEq] at h
  rcases h with ⟨rfl, rfl⟩ | ⟨rfl, rfl⟩ | ⟨rfl, rfl⟩ | ⟨rfl, rfl⟩ <;> rfl

theorem stringBody_writes {c : Char} {cs : List Char} (h : Text.Writes '"' c cs)
    (rest : List Char) :
    stringBody (cs ++ rest)
      = ((stringBody rest).1.map (c :: ·), (stringBody rest).2 + cs.length) := by
  cases h with
  | plain hquote hslash hline =>
    rw [List.singleton_append, stringBody, if_neg hquote, if_neg hline]
    · rfl
    · exact fun h _ => hslash h
    · exact fun _ _ h _ => hslash h
  | escaped h => rw [← unescape_of_mem_escapes h]; rfl

/-- A string is read up to its closing quotation mark. -/
theorem stringBody_writesAll {body cs : List Char} (h : Text.WritesAll '"' body cs)
    (tail : List Char) : stringBody (cs ++ '"' :: tail) = (some body, cs.length + 1) := by
  induction h with
  | nil => rfl
  | cons hc _ ih =>
    rw [List.append_assoc, stringBody_writes hc, ih, List.length_append]
    simp only [Option.map_some, Prod.mk.injEq, true_and]
    omega

theorem lexeme_string {s : String} {cs : List Char} (h : Text.WritesAll '"' s.toList cs)
    (tail : List Char) :
    lexeme '"' (cs ++ ['"'] ++ tail) = ⟨some (.str s), (cs ++ ['"']).length⟩ := by
  have hstring : ∀ cs, lexeme '"' cs = stringLexeme cs := fun _ => rfl
  rw [hstring, stringLexeme, List.append_assoc, List.singleton_append, stringBody_writesAll h]
  simp [String.ofList_toList]

/-! ## Single tokens -/

theorem ofList_of_toList_eq {word : String} {cs : List Char} (h : word.toList = cs) :
    String.ofList cs = word := by
  rw [← h, String.ofList_toList]

/-- A symbol is a keyword, or one or two characters of punctuation. -/
theorem symbol_cases (s : Symbol) {c : Char} {cs : List Char} (hspell : s.text.toList = c :: cs) :
    (isNameStart c = true ∧ cs.all isNamePart = true ∧ wordKind s.text = .symbol s) ∨
      (single? c).isSome = true ∧ (cs = [] ∧ single? c = some s ∨
        ∃ d, cs = [d] ∧ (pairs c).lookup d = some s ∧ d ≠ '/' ∧ d ≠ '*') := by
  cases s <;> cases hspell <;> first
    | exact .inl ⟨rfl, rfl, rfl⟩
    | exact .inr ⟨rfl, .inl ⟨rfl, rfl⟩⟩
    | exact .inr ⟨rfl, .inr ⟨_, rfl, rfl, by decide⟩⟩

theorem isNameStart_of_single? {c : Char} (hc : (single? c).isSome = true) :
    isNameStart c = false := by
  unfold single? at hc
  split at hc
  case h_25 => cases hc
  all_goals rfl

/-- Punctuation is told by its first character, unless it begins a comment. -/
theorem lexeme_punctuation {c : Char} {tail : List Char} (hc : (single? c).isSome = true)
    (hslash : tail.head? ≠ some '/') (hstar : tail.head? ≠ some '*') :
    lexeme c tail = symbolLexeme c tail := by
  have hname := isNameStart_of_single? hc
  unfold single? at hc
  split at hc
  case h_25 => cases hc
  all_goals simp [lexeme, isSeparator, hslash, hstar, hname, Char.isDigit]

theorem lookup_pairs_of_isApart (c : Char) {tail : List Char} (ht : IsApart tail) :
    (tail.head?.bind fun d => (pairs c).lookup d) = none := by
  obtain rfl | ⟨d, rest, rfl, hd⟩ := ht.cases
  · rfl
  · rw [List.head?_cons, Option.bind_some]
    unfold pairs
    split <;> rcases hd with ((rfl | rfl) | rfl) | rfl <;> rfl

/-- A symbol is read up to a blank. -/
theorem lexeme_symbol (s : Symbol) {c : Char} {cs tail : List Char}
    (hspell : s.text.toList = c :: cs) (ht : IsApart tail) :
    lexeme c (cs ++ tail) = ⟨some (.symbol s), cs.length⟩ := by
  rcases symbol_cases s hspell with ⟨hc, hcs, hword⟩ | ⟨hc, ⟨rfl, hs⟩ | ⟨e, rfl, hs, he⟩⟩
  · rw [lexeme_word hc hcs ht, ofList_of_toList_eq hspell, hword]
  · rw [List.nil_append, lexeme_punctuation hc (ht.head?_ne rfl) (ht.head?_ne rfl), symbolLexeme,
      lookup_pairs_of_isApart c ht, hs]
    rfl
  · have hslash : (e :: tail).head? ≠ some '/' := fun h => he.1 (Option.some.inj h)
    have hstar : (e :: tail).head? ≠ some '*' := fun h => he.2 (Option.some.inj h)
    rw [List.singleton_append, lexeme_punctuation hc hslash hstar, symbolLexeme, List.head?_cons,
      Option.bind_some, hs]
    rfl

theorem lexeme_ident {name : String} (hk : (TokenKind.ident name).isWritable = true) {c : Char}
    {cs tail : List Char} (hspell : name.toList = c :: cs) (ht : IsApart tail) :
    lexeme c (cs ++ tail) = ⟨some (.ident name), cs.length⟩ := by
  simp only [TokenKind.isWritable, TokenKind.isName] at hk
  rw [hspell] at hk
  simp only [Bool.and_eq_true, Option.isNone_iff_eq_none, Bool.not_eq_true'] at hk
  obtain ⟨⟨⟨hc, hcs⟩, hkeyword⟩, htype⟩ := hk
  rw [lexeme_word hc hcs ht, ofList_of_toList_eq hspell, wordKind, hkeyword, htype]
  rfl

theorem lexeme_type {name : String} (hname : name ∈ scalarTypes) {c : Char} {cs tail : List Char}
    (hspell : name.toList = c :: cs) (ht : IsApart tail) :
    lexeme c (cs ++ tail) = ⟨some (.type name), cs.length⟩ := by
  have hword : isNameStart c = true ∧ cs.all isNamePart = true ∧ wordKind name = .type name := by
    simp only [scalarTypes, List.mem_cons, List.not_mem_nil, or_false] at hname
    rcases hname with rfl | rfl | rfl | rfl | rfl | rfl | rfl | rfl | rfl | rfl | rfl | rfl | rfl
      <;> cases hspell <;> exact ⟨rfl, rfl, rfl⟩
  rw [lexeme_word hword.1 hword.2.1 ht, ofList_of_toList_eq hspell, hword.2.2]

/-- A token is read back from its spelling if a blank follows. -/
theorem lexeme_spelling {k : TokenKind} (hk : k.isWritable = true) {c : Char} {cs tail : List Char}
    (hspell : k.spelling = c :: cs) (ht : IsApart tail) :
    lexeme c (cs ++ tail) = ⟨some k, cs.length⟩ := by
  cases k with
  | int n =>
    obtain ⟨hdigits, hvalue⟩ := toDigits_spells hspell
    exact lexeme_number (by simpa [TokenKind.isWritable] using hk) hdigits hvalue ht
  | str s =>
    cases hspell
    exact lexeme_string (Text.writesAll_escaped s.toList) tail
  | ident name => exact lexeme_ident hk hspell ht
  | type name => exact lexeme_type (by simpa [TokenKind.isWritable] using hk) hspell ht
  | symbol s => exact lexeme_symbol s hspell ht
  | float | char | invalid | eof => cases hk

/-- A token that is written has a spelling, which stands on one line. -/
theorem spelling_ne_nil {k : TokenKind} (hk : k.isWritable = true) : k.spelling ≠ [] := by
  cases k with
  | int n => exact Nat.toDigits_ne_nil
  | str s => exact List.cons_ne_nil _ _
  | ident name =>
    intro h
    simp only [TokenKind.spelling] at h
    simp [TokenKind.isWritable, TokenKind.isName, h] at hk
  | type name =>
    rintro h
    have hname : name ∈ scalarTypes := by simpa [TokenKind.isWritable] using hk
    rw [TokenKind.spelling, String.toList_eq_nil_iff] at h
    rw [h] at hname
    exact absurd hname (by decide)
  | symbol s =>
    rw [TokenKind.spelling, ne_eq, String.toList_eq_nil_iff]
    cases s <;> decide
  | float | char | invalid | eof => cases hk

theorem newline_not_mem_escaped (c : Char) : '\n' ∉ Text.escaped c := by
  unfold Text.escaped
  split
  · decide
  · split
    · decide
    · split
      · decide
      · rename_i hline
        simpa using Ne.symm hline

theorem newline_not_mem_spelling {k : TokenKind} (hk : k.isWritable = true) :
    '\n' ∉ k.spelling := by
  intro hmem
  cases k with
  | int n => cases Nat.isDigit_of_mem_toDigits (by decide) (by decide) hmem
  | str s =>
    rw [TokenKind.spelling, List.mem_cons, List.mem_append, List.mem_flatMap] at hmem
    rcases hmem with h | ⟨c, -, h⟩ | h
    · cases h
    · exact newline_not_mem_escaped c h
    · exact absurd h (by decide)
  | ident name =>
    simp only [TokenKind.spelling] at hmem
    simp only [TokenKind.isWritable, TokenKind.isName] at hk
    cases hspell : name.toList with
    | nil => simp [hspell] at hmem
    | cons c cs =>
      rw [hspell] at hk hmem
      simp only [Bool.and_eq_true, List.all_eq_true] at hk
      rcases List.mem_cons.1 hmem with rfl | h
      · cases hk.1.1.1
      · cases hk.1.1.2 _ h
  | type name =>
    have hnames : ∀ name ∈ scalarTypes, '\n' ∉ name.toList := by decide
    exact hnames name (by simpa [TokenKind.isWritable] using hk) hmem
  | symbol s => cases s <;> exact absurd hmem (by decide)
  | float | char | invalid | eof => cases hk

/-! ## Lines -/

/-- Tokens with a blank between any two. -/
def spellLine : List TokenKind → List Char
  | [] => []
  | [k] => k.spelling
  | k :: ks => k.spelling ++ ' ' :: spellLine ks

/-- Lines of tokens. -/
def spellLines (lines : List (List TokenKind)) : List Char :=
  lines.flatMap fun ks => spellLine ks ++ ['\n']

/-- The tokens of a line that is written from `l` on. -/
def placeLine (l : Location) : List TokenKind → List Token
  | [] => []
  | k :: ks => ⟨k, l⟩ :: placeLine ⟨l.line, l.column + k.spelling.length + 1⟩ ks

/-- The tokens of lines of which the first has the given number. -/
def placeLines (number : Nat) : List (List TokenKind) → List Token
  | [] => []
  | ks :: lines => placeLine ⟨number, 1⟩ ks ++ placeLines (number + 1) lines

/-- The characters that belong to the lexeme before are passed over. -/
theorem scan_skip (tail : List Char) :
    ∀ (cs : List Char) (l : Location),
      scan l cs.length (cs ++ tail) = scan (cs.foldl Location.next l) 0 tail
  | [], _ => rfl
  | c :: cs, l => by
    rw [List.length_cons, List.cons_append, scan, scan_skip tail cs, List.foldl_cons]

theorem foldl_next_of_not_mem :
    ∀ {cs : List Char} (l : Location), '\n' ∉ cs →
      cs.foldl Location.next l = ⟨l.line, l.column + cs.length⟩ := by
  intro cs
  induction cs with
  | nil => exact fun _ _ => rfl
  | cons c cs ih =>
    intro l hcs
    rw [List.mem_cons, not_or] at hcs
    have hnext : l.next c = ⟨l.line, l.column + 1⟩ := by
      rw [Location.next, if_neg (Ne.symm hcs.1)]
    rw [List.foldl_cons, hnext, ih _ hcs.2]
    simp only [List.length_cons, Nat.add_assoc, Nat.add_comm 1]

/-- A token and the blank after it. -/
theorem scan_spelling {k : TokenKind} (hk : k.isWritable = true) (l : Location) {d : Char}
    (hd : isSeparator d = true) (tail : List Char) :
    scan l 0 (k.spelling ++ d :: tail)
      = ⟨k, l⟩ :: scan (Location.next ⟨l.line, l.column + k.spelling.length⟩ d) 0 tail := by
  have hline := newline_not_mem_spelling hk
  cases hspell : k.spelling with
  | nil => exact absurd hspell (spelling_ne_nil hk)
  | cons c cs =>
    rw [hspell, List.mem_cons, not_or] at hline
    have hnext : l.next c = ⟨l.line, l.column + 1⟩ := by
      rw [Location.next, if_neg (Ne.symm hline.1)]
    have hblank : lexeme d tail = ⟨none, 0⟩ := by rw [lexeme, if_pos hd]
    rw [List.cons_append, scan, lexeme_spelling hk hspell (isApart_cons hd tail)]
    simp only [hnext]
    rw [scan_skip (d :: tail) cs, foldl_next_of_not_mem _ hline.2, scan, hblank]
    simp only [List.length_cons, Nat.add_assoc, Nat.add_comm 1]

theorem scan_spellLine (tail : List Char) :
    ∀ {ks : List TokenKind} (l : Location), (∀ k ∈ ks, k.isWritable = true) →
      scan l 0 (spellLine ks ++ '\n' :: tail) = placeLine l ks ++ scan ⟨l.line + 1, 1⟩ 0 tail := by
  intro ks
  induction ks with
  | nil => exact fun _ _ => rfl
  | cons k ks ih =>
    intro l hks
    have hk := hks k List.mem_cons_self
    cases ks with
    | nil =>
      rw [spellLine, scan_spelling hk l rfl tail]
      rfl
    | cons k' ks =>
      have hlater := ih ⟨l.line, l.column + k.spelling.length + 1⟩ fun x hx =>
        hks x (List.mem_cons_of_mem _ hx)
      have hspell : spellLine (k :: k' :: ks) = k.spelling ++ ' ' :: spellLine (k' :: ks) := rfl
      rw [hspell, List.append_assoc, List.cons_append, scan_spelling hk l rfl, placeLine,
        List.cons_append, ← hlater]
      rfl

theorem scan_spellLines :
    ∀ {lines : List (List TokenKind)} (number : Nat),
      (∀ ks ∈ lines, ∀ k ∈ ks, k.isWritable = true) →
      scan ⟨number, 1⟩ 0 (spellLines lines)
        = placeLines number lines ++ [⟨.eof, ⟨number + lines.length, 1⟩⟩] := by
  intro lines
  induction lines with
  | nil => exact fun _ _ => rfl
  | cons ks lines ih =>
    intro number hlines
    have hlater := ih (number + 1) fun x hx => hlines x (List.mem_cons_of_mem _ hx)
    rw [spellLines, List.flatMap_cons, ← spellLines, List.append_assoc, List.singleton_append,
      scan_spellLine _ _ (hlines ks List.mem_cons_self), hlater, placeLines, List.append_assoc,
      List.length_cons, Nat.add_assoc, Nat.add_comm 1]

/-- **Lines of tokens are read back,** and every token is found where it was written. -/
theorem tokenize_spellLines {lines : List (List TokenKind)}
    (h : ∀ ks ∈ lines, ∀ k ∈ ks, k.isWritable = true) :
    tokenize (String.ofList (spellLines lines))
      = placeLines 1 lines ++ [⟨.eof, ⟨lines.length + 1, 1⟩⟩] := by
  rw [tokenize, String.toList_ofList, Location.start, scan_spellLines 1 h, Nat.add_comm]

end Token

end Stepwise
