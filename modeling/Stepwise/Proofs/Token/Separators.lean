import Stepwise.Proofs.Token.Spelling

/-!
# Tokens and what may stand between them

A text may write a token in more than one way, and may put white space and comments of any number
and any order between two tokens.  None of that shows in the tokens: whatever stands between them,
they are read back as they were written.

* `TokenKind.Spells` relates a token to its spellings, and `Token.lexeme_spells` reads one of them
  back, wherever it ends.
* `Token.Filler` is white space and comments, which `Token.scan_filler` passes over.
* `Token.tokenize_spelled` reads back a text of tokens with separators between them.
-/

set_option autoImplicit false

namespace Stepwise

/-- The spellings of a token: numbers in decimal, literals with or without backslashes where there
is a choice, and names.  There are none for floating-point numbers, for characters that form no word
and for the end of the text. -/
inductive TokenKind.Spells : TokenKind → List Char → Prop
  | int {n : Int64} {cs : List Char} (hn : 0 ≤ n) (hne : cs ≠ [])
      (hdigits : ∀ c ∈ cs, c.isDigit = true) (hvalue : Decimal.ofDigits cs = n.toInt.toNat) :
      Spells (.int n) cs
  | str {s : String} {cs : List Char} (h : Text.WritesAll '"' s.toList cs) :
      Spells (.str s) ('"' :: (cs ++ ['"']))
  | char {c : Char} {cs : List Char} (h : Text.Writes '\'' c cs) :
      Spells (.char c) ('\'' :: (cs ++ ['\'']))
  | ident {name : String} (h : (TokenKind.ident name).isWritable = true) :
      Spells (.ident name) name.toList
  | type {name : String} (h : name ∈ Token.scalarTypes) : Spells (.type name) name.toList
  | symbol (s : Symbol) : Spells (.symbol s) s.text.toList
  /-- The null pointer has two names. -/
  | null : Spells (.symbol .null) ['N', 'U', 'L', 'L']

namespace Token

/-! ## One token -/

theorem lexeme_char {c : Char} {cs : List Char} (h : Text.Writes '\'' c cs) (tail : List Char) :
    lexeme '\'' (cs ++ ['\''] ++ tail) = ⟨some (.char c), (cs ++ ['\'']).length⟩ := by
  have hchar : ∀ cs, lexeme '\'' cs = charLexeme cs := fun _ => rfl
  rw [hchar]
  cases h with
  | plain hquote hslash hline =>
    rw [List.append_assoc, List.singleton_append, List.singleton_append, charLexeme]
    · simp [hquote, hline]
    · exact fun h _ => hslash h
    · exact fun _ _ h _ => hslash h
  | escaped h => rw [← unescape_of_mem_escapes h]; rfl

/-- **A token is read back from each of its spellings,** if a blank or the end of the text
follows. -/
theorem lexeme_spells {k : TokenKind} {spelling : List Char} (h : k.Spells spelling)
    {tail : List Char} (ht : IsApart tail) :
    ∃ c cs, spelling = c :: cs ∧ lexeme c (cs ++ tail) = ⟨some k, cs.length⟩ := by
  cases h with
  | int hn hne hdigits hvalue =>
    obtain ⟨c, cs, rfl⟩ := List.exists_cons_of_ne_nil hne
    exact ⟨c, cs, rfl, lexeme_number hn hdigits hvalue ht⟩
  | str h => exact ⟨_, _, rfl, lexeme_string h tail⟩
  | char h => exact ⟨_, _, rfl, lexeme_char h tail⟩
  | ident h =>
    obtain ⟨c, cs, hspell⟩ := List.exists_cons_of_ne_nil (spelling_ne_nil h)
    exact ⟨c, cs, hspell, lexeme_ident h hspell ht⟩
  | @type name h =>
    have hk : (TokenKind.type name).isWritable = true := by simpa [TokenKind.isWritable] using h
    obtain ⟨c, cs, hspell⟩ := List.exists_cons_of_ne_nil (spelling_ne_nil hk)
    exact ⟨c, cs, hspell, lexeme_type h hspell ht⟩
  | symbol s =>
    obtain ⟨c, cs, hspell⟩ := List.exists_cons_of_ne_nil (spelling_ne_nil (k := .symbol s) rfl)
    exact ⟨c, cs, hspell, lexeme_symbol s hspell ht⟩
  | null => exact ⟨_, _, rfl, lexeme_word rfl rfl ht⟩

theorem exists_writes {q : Char} (hq : (q, q) ∈ Text.escapes) (c : Char) :
    ∃ cs, Text.Writes q c cs := by
  by_cases hquote : c = q
  · subst hquote
    exact ⟨_, .escaped hq⟩
  by_cases hslash : c = '\\'
  · subst hslash
    exact ⟨['\\', '\\'], .escaped (by decide)⟩
  by_cases hline : c = '\n'
  · subst hline
    exact ⟨['\\', 'n'], .escaped (by decide)⟩
  · exact ⟨[c], .plain hquote hslash hline⟩

/-- Every character and every token that can be written in a line has a spelling. -/
theorem exists_spells {k : TokenKind} (hk : k.isWritable = true ∨ ∃ c, k = .char c) :
    ∃ cs, k.Spells cs := by
  rcases hk with hk | ⟨c, rfl⟩
  · refine ⟨k.spelling, ?_⟩
    cases k with
    | int n =>
      obtain ⟨hdigits, hvalue⟩ := toDigits_spells (n := n.toInt.toNat) rfl
      exact .int (by simpa [TokenKind.isWritable] using hk) Nat.toDigits_ne_nil hdigits hvalue
    | str s => exact .str (Text.writesAll_escaped s.toList)
    | ident name => exact .ident hk
    | type name => exact .type (by simpa [TokenKind.isWritable] using hk)
    | symbol s => exact .symbol s
    | float | char | invalid | eof => cases hk
  · obtain ⟨cs, h⟩ := exists_writes (q := '\'') (by decide) c
    exact ⟨_, .char h⟩

/-! ## Separators -/

/-- White space and comments.  A block comment ends where it is first closed, and a line comment
with its line. -/
inductive Filler : List Char → Prop
  | nil : Filler []
  | blank {c : Char} {cs : List Char} (hc : isSeparator c = true) (h : Filler cs) : Filler (c :: cs)
  | block {body cs : List Char} (hbody : ¬['*', '/'] <:+: body) (h : Filler cs) :
      Filler ('/' :: '*' :: (body ++ '*' :: '/' :: cs))
  | line {body cs : List Char} (hbody : '\n' ∉ body) (h : Filler cs) :
      Filler ('/' :: '/' :: (body ++ '\n' :: cs))

/-- White space, and then white space and comments. -/
inductive Separator : List Char → Prop
  | mk {c : Char} {cs : List Char} (hc : isSeparator c = true) (h : Filler cs) : Separator (c :: cs)

theorem Separator.isApart {cs : List Char} (h : Separator cs) (tail : List Char) :
    IsApart (cs ++ tail) := by
  obtain ⟨hc, -⟩ := h
  exact isApart_cons hc _

theorem Separator.filler {cs : List Char} (h : Separator cs) : Filler cs := by
  obtain ⟨hc, h⟩ := h
  exact .blank hc h

theorem lineLength_append {body : List Char} (hbody : '\n' ∉ body) (rest : List Char) :
    lineLength (body ++ '\n' :: rest) = body.length + 1 := by
  induction body with
  | nil => rfl
  | cons c body ih =>
    rw [List.mem_cons, not_or] at hbody
    rw [List.cons_append, lineLength, if_neg (Ne.symm hbody.1), ih hbody.2, List.length_cons]

theorem commentLength_append {body : List Char} (hbody : ¬['*', '/'] <:+: body)
    (rest : List Char) : commentLength (body ++ '*' :: '/' :: rest) = body.length + 2 := by
  induction body with
  | nil => rfl
  | cons c body ih =>
    have hlater := ih fun h => hbody (h.trans (List.suffix_cons c body).isInfix)
    rw [List.cons_append, commentLength, hlater, List.length_cons]
    rintro rest' rfl hrest
    cases body with
    | nil => cases hrest
    | cons d body =>
      obtain rfl := (List.cons.inj hrest).1
      exact hbody ⟨[], body, rfl⟩

/-- A lexeme, and then what follows it. -/
theorem scan_lexeme {c : Char} {cs tail : List Char} {kind : Option TokenKind}
    (h : lexeme c (cs ++ tail) = ⟨kind, cs.length⟩) (l : Location) :
    scan l 0 (c :: cs ++ tail)
      = (kind.map fun k => ⟨k, l⟩).toList ++ scan ((c :: cs).foldl Location.next l) 0 tail := by
  rw [List.cons_append, scan, h, List.foldl_cons, ← scan_skip tail cs]
  cases kind <;> rfl

/-- **White space and comments are passed over.** -/
theorem scan_filler {filler : List Char} (h : Filler filler) (tail : List Char) :
    ∀ l : Location, scan l 0 (filler ++ tail) = scan (filler.foldl Location.next l) 0 tail := by
  have hnone : ∀ {c : Char} {cs rest : List Char},
      (∀ l, scan l 0 (rest ++ tail) = scan (rest.foldl Location.next l) 0 tail) →
      lexeme c (cs ++ (rest ++ tail)) = ⟨none, cs.length⟩ →
      ∀ l, scan l 0 (c :: cs ++ rest ++ tail)
        = scan ((c :: cs ++ rest).foldl Location.next l) 0 tail := by
    intro c cs rest hrest hlex l
    rw [List.append_assoc, scan_lexeme hlex, hrest, List.foldl_append]
    rfl
  induction h with
  | nil => exact fun _ => rfl
  | @blank c cs hc _ ih =>
    exact @hnone c [] cs ih (by rw [lexeme, if_pos hc]; rfl)
  | @block body cs hbody _ ih =>
    have hlex : lexeme '/' ('*' :: (body ++ ['*', '/']) ++ (cs ++ tail))
        = ⟨none, ('*' :: (body ++ ['*', '/'])).length⟩ := by
      have hblock : ∀ rest, lexeme '/' ('*' :: rest) = ⟨none, 1 + commentLength rest⟩ :=
        fun _ => rfl
      rw [List.cons_append, hblock, List.append_assoc]
      simp only [List.cons_append, List.nil_append, commentLength_append hbody]
      rw [List.length_cons, List.length_append, Nat.add_comm 1]
      rfl
    simpa using hnone ih hlex
  | @line body cs hbody _ ih =>
    have hlex : lexeme '/' ('/' :: (body ++ ['\n']) ++ (cs ++ tail))
        = ⟨none, ('/' :: (body ++ ['\n'])).length⟩ := by
      have hline : ∀ rest, lexeme '/' ('/' :: rest) = ⟨none, lineLength ('/' :: rest)⟩ :=
        fun _ => rfl
      rw [List.cons_append, hline, List.append_assoc, List.singleton_append, lineLength,
        lineLength_append hbody]
      simp
    simpa using hnone ih hlex

/-! ## Texts -/

/-- A text of tokens, each in one of its spellings, with a separator between any two of them and
perhaps one after the last. -/
inductive Spelled : List TokenKind → List Char → Prop
  | nil : Spelled [] []
  | last {k : TokenKind} {cs : List Char} (hk : k.Spells cs) : Spelled [k] cs
  | cons {k : TokenKind} {ks : List TokenKind} {cs separator rest : List Char} (hk : k.Spells cs)
      (hseparator : Separator separator) (h : Spelled ks rest) :
      Spelled (k :: ks) (cs ++ (separator ++ rest))

/-- A token, and then what follows it. -/
theorem scan_spells {k : TokenKind} {cs tail : List Char} (hk : k.Spells cs) (ht : IsApart tail)
    (l : Location) :
    scan l 0 (cs ++ tail) = ⟨k, l⟩ :: scan (cs.foldl Location.next l) 0 tail := by
  obtain ⟨c, cs, rfl, hlex⟩ := lexeme_spells hk ht
  exact scan_lexeme hlex l

theorem kinds_scan_spelled {ks : List TokenKind} {text : List Char} (h : Spelled ks text) :
    ∀ l : Location, (scan l 0 text).map Token.kind = ks ++ [.eof] := by
  induction h with
  | nil => exact fun _ => rfl
  | last hk =>
    intro l
    have hscan := scan_spells hk isApart_nil l
    rw [List.append_nil] at hscan
    rw [hscan]
    rfl
  | cons hk hseparator _ ih =>
    intro l
    rw [scan_spells hk (hseparator.isApart _), List.map_cons, scan_filler hseparator.filler, ih]
    rfl

/-- **The lexer undoes spelling.**  A text of tokens with separators between them is read as these
tokens, and then the end of the text. -/
theorem tokenize_spelled {ks : List TokenKind} {lead text : List Char} (hlead : Filler lead)
    (h : Spelled ks text) :
    (tokenize (String.ofList (lead ++ text))).map Token.kind = ks ++ [.eof] := by
  rw [tokenize, String.toList_ofList, scan_filler hlead]
  exact kinds_scan_spelled h _

/-- Blanks and a comment inside of `std::`, which alone is no token, make it two.  The backslashes
of the literals and the zeros before the number leave no trace. -/
theorem tokenize_spelled_qualifier :
    Filler "/*a*/".toList ∧
      (tokenize (String.ofList
          ("/*a*/".toList ++ "std /***/ :: \"\\\"'\\n\"\t'\\''\n//b\n007 NULL".toList))).map Token.kind
        = [.ident "std", .symbol .colonColon, .str "\"'\n", .char '\'', .int 7, .symbol .null,
            .eof] := by
  have hlead : Filler "/*a*/".toList :=
    @Filler.block ['a'] [] (by decide) .nil
  have hblank : Separator [' '] := .mk rfl .nil
  have hcomment : Separator " /***/ ".toList :=
    .mk rfl (@Filler.block ['*'] _ (by decide) (.blank rfl .nil))
  have hline : Separator "\n//b\n".toList :=
    .mk rfl (@Filler.line ['b'] [] (by decide) .nil)
  have hname : (TokenKind.ident "std").Spells "std".toList := .ident rfl
  have hstring : (TokenKind.str "\"'\n").Spells "\"\\\"'\\n\"".toList :=
    .str (s := "\"'\n") <| .cons (.escaped (e := '"') (by decide)) <|
      .cons (.plain (by decide) (by decide) (by decide)) <|
      .cons (.escaped (e := 'n') (by decide)) .nil
  have hchar : (TokenKind.char '\'').Spells "'\\''".toList := .char (.escaped (by decide))
  have hnumber : (TokenKind.int 7).Spells "007".toList :=
    .int (by decide) (by decide) (List.all_eq_true.1 rfl) rfl
  have htext : Spelled [.ident "std", .symbol .colonColon, .str "\"'\n", .char '\'', .int 7,
      .symbol .null] "std /***/ :: \"\\\"'\\n\"\t'\\''\n//b\n007 NULL".toList :=
    .cons hname hcomment <| .cons (.symbol .colonColon) hblank <|
      .cons hstring (.mk (c := '\t') rfl .nil) <| .cons hchar hline <|
      .cons hnumber hblank <| .last .null
  exact ⟨hlead, tokenize_spelled hlead htext⟩

end Token

end Stepwise
