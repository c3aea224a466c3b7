import Mathlib.Data.List.Induction
import Stepwise.Proofs.Token.Separators

/-!
# Tokens and gaps cover a text

The lexer counts lines and columns as it goes, one character after the other, also where it looks
for no token: in blanks, comments and directives, in escapes that swallow a line end, in the
qualifier `std::`, and in literals that are never closed.  The place of a character can be read off
the text as well, from the line ends before it.  The two agree if every character is counted once.

* `Location.after` is the place after some characters, read off them.
* `TokenKind.Covers` and `Token.Gap` say what a token and what no token looks like in the text, and
  `Token.lexeme_fits` that the lexer always takes one of the two, and never more than there is.
* `Token.Placed` cuts a text into tokens and gaps with no character left over, and gives every token
  the place of its first character.
* `Token.tokenize_placed` says that the tokens of a text are placed so, and in reading order.
-/

set_option autoImplicit false

namespace Stepwise

/-! ## Places -/

namespace Location

/-- The place after some characters: a line for each line end among them, and a column for each
character since the last of them. -/
def after (cs : List Char) : Location :=
  ⟨1 + cs.count '\n', 1 + (cs.reverse.takeWhile (· ≠ '\n')).length⟩

/-- Counting character by character comes to the same place. -/
theorem foldl_next_start (cs : List Char) : cs.foldl next start = after cs := by
  induction cs using List.reverseRecOn with
  | nil => rfl
  | append_singleton cs c ih =>
    rw [List.foldl_append, ih, List.foldl_cons, List.foldl_nil, next, after, after,
      List.count_append, List.reverse_append, List.reverse_singleton, List.singleton_append]
    by_cases hc : c = '\n'
    · subst hc
      rfl
    · rw [if_neg hc, List.count_eq_zero_of_not_mem fun h => hc (List.mem_singleton.1 h).symm,
        List.takeWhile_cons, if_pos (decide_eq_true hc), List.length_cons]
      rfl

/-- Reading order. -/
def Before (l m : Location) : Prop :=
  l.line < m.line ∨ l.line = m.line ∧ l.column < m.column

theorem Before.trans {l m n : Location} (hlm : l.Before m) (hmn : m.Before n) : l.Before n := by
  rw [Before] at hlm hmn ⊢
  omega

theorem before_next (l : Location) (c : Char) : l.Before (l.next c) := by
  rw [next]
  split
  · exact .inl (Nat.lt_succ_self _)
  · exact .inr ⟨rfl, Nat.lt_succ_self _⟩

theorem before_foldl_next {cs : List Char} (hcs : cs ≠ []) (l : Location) :
    l.Before (cs.foldl next l) := by
  induction cs generalizing l with
  | nil => exact absurd rfl hcs
  | cons c cs ih =>
    rw [List.foldl_cons]
    by_cases hnil : cs = []
    · subst hnil
      exact before_next l c
    · exact (before_next l c).trans (ih hnil _)

/-- What comes later in a text stands later. -/
theorem before_after {cs : List Char} (hcs : cs ≠ []) (front : List Char) :
    (after front).Before (after (front ++ cs)) := by
  rw [← foldl_next_start, ← foldl_next_start, List.foldl_append]
  exact before_foldl_next hcs _

end Location

/-! ## What a lexeme takes of the text -/

/-- The characters between two quotation marks, and what they stand for.  Without a backslash there
is neither a mark nor a line end among them, and behind one there may be any character. -/
inductive Text.Unquotes (mark : Char) : List Char → List Char → Prop
  | nil : Unquotes mark [] []
  | plain {c : Char} {cs body : List Char} (hmark : c ≠ mark) (hslash : c ≠ '\\')
      (hline : c ≠ '\n') (h : Unquotes mark cs body) : Unquotes mark (c :: cs) (c :: body)
  | escaped {c : Char} {cs body : List Char} (h : Unquotes mark cs body) :
      Unquotes mark ('\\' :: c :: cs) (Token.unescape c :: body)

/-- Whether `c` may stand in a number: as a digit, the `x` of a hexadecimal one, the point, the
exponent or its sign, or a suffix. -/
def Token.isNumberPart (c : Char) : Bool :=
  c.isAlphanum || c = '.' || c = '+' || c = '-'

/-- What a token looks like in the text: a word is written out, a literal stands in quotation marks,
and a number starts with a digit.  Characters that form no word start with no blank. -/
inductive TokenKind.Covers : TokenKind → List Char → Prop
  | int {n : Int64} {c : Char} {cs : List Char} (hc : c.isDigit = true)
      (hcs : cs.all Token.isNumberPart = true) : Covers (.int n) (c :: cs)
  | float {x : Float} {c : Char} {cs : List Char} (hc : c.isDigit = true)
      (hcs : cs.all Token.isNumberPart = true) : Covers (.float x) (c :: cs)
  | str {s : String} {cs : List Char} (h : Text.Unquotes '"' cs s.toList) :
      Covers (.str s) ('"' :: (cs ++ ['"']))
  | char {c : Char} {cs : List Char} (h : Text.Unquotes '\'' cs [c]) :
      Covers (.char c) ('\'' :: (cs ++ ['\'']))
  | ident {name : String} (h : (TokenKind.ident name).isWritable = true) :
      Covers (.ident name) name.toList
  | type {name : String} (h : name ∈ Token.scalarTypes) : Covers (.type name) name.toList
  | symbol {s : Symbol} : Covers (.symbol s) s.text.toList
  /-- The null pointer has two names. -/
  | null : Covers (.symbol .null) "NULL".toList
  | invalid {description : String} {c : Char} {cs : List Char}
      (hc : Token.isSeparator c = false ∧ c ≠ '#') : Covers (.invalid description) (c :: cs)

namespace Token

/-- Characters that form no token: a blank, a directive or a comment, or the qualifier.  A directive
or a comment which is not closed goes on to the end of the text. -/
inductive Gap : List Char → List Char → Prop
  | blank {c : Char} {rest : List Char} (hc : isSeparator c = true) : Gap [c] rest
  | line {mark body rest : List Char} (hmark : mark = ['#'] ∨ mark = ['/', '/'])
      (hbody : '\n' ∉ body) : Gap (mark ++ body ++ ['\n']) rest
  | lastLine {mark body : List Char} (hmark : mark = ['#'] ∨ mark = ['/', '/'])
      (hbody : '\n' ∉ body) : Gap (mark ++ body) []
  | block {body rest : List Char} (hbody : ¬['*', '/'] <:+: body) :
      Gap (['/', '*'] ++ body ++ ['*', '/']) rest
  | openBlock {body : List Char} (hbody : ¬['*', '/'] <:+: body) : Gap (['/', '*'] ++ body) []
  | qualifier {rest : List Char} : Gap "std::".toList rest

/-- What a lexeme that starts with `c` takes of the text after it: the characters of its token, or a
gap. -/
def Lexeme.Fits (c : Char) (tail : List Char) (lex : Lexeme) : Prop :=
  ∃ cs rest, tail = cs ++ rest ∧ lex.extra = cs.length ∧
    match lex.kind with
    | some k => k.Covers (c :: cs)
    | none => Gap (c :: cs) rest

section Lexemes

variable {c : Char} {tail : List Char} {k : TokenKind} {n : Nat}

theorem fits_of_covers {cs : List Char} (hk : k.Covers (c :: cs)) (rest : List Char) :
    Lexeme.Fits c (cs ++ rest) ⟨some k, cs.length⟩ :=
  ⟨cs, rest, rfl, rfl, hk⟩

/-! ### Comments and directives -/

theorem lineLength_of_not_mem {cs : List Char} (h : '\n' ∉ cs) : lineLength cs = cs.length := by
  induction cs with
  | nil => rfl
  | cons c cs ih =>
    rw [List.mem_cons, not_or] at h
    rw [lineLength, if_neg (Ne.symm h.1), ih h.2, List.length_cons]

/-- A line is taken through its end. -/
theorem fits_line (mark : List Char) (hmark : c :: mark = ['#'] ∨ c :: mark = ['/', '/'])
    (rest : List Char) : Lexeme.Fits c (mark ++ rest) ⟨none, lineLength (mark ++ rest)⟩ := by
  have hnot : '\n' ∉ mark := by rcases hmark with h | h <;> cases h <;> decide
  by_cases h : '\n' ∈ rest
  · obtain ⟨body, rest, rfl, hbody⟩ := List.eq_append_cons_of_mem h
    refine ⟨mark ++ body ++ ['\n'], rest, by simp, ?_, .line hmark hbody⟩
    rw [← List.append_assoc, lineLength_append fun h => (List.mem_append.1 h).elim hnot hbody]
    simp [Nat.add_assoc]
  · refine ⟨mark ++ rest, [], by simp, ?_, .lastLine hmark h⟩
    exact lineLength_of_not_mem fun hmem => (List.mem_append.1 hmem).elim hnot h

theorem commentLength_cases (cs : List Char) :
    (∃ body rest, cs = body ++ '*' :: '/' :: rest ∧ ¬['*', '/'] <:+: body) ∨
      ¬['*', '/'] <:+: cs ∧ commentLength cs = cs.length := by
  fun_induction commentLength cs with
  | case1 => exact .inr ⟨by simp, rfl⟩
  | case2 rest => exact .inl ⟨[], rest, rfl, by simp⟩
  | case3 c cs hc ih =>
    have hstart : ∀ {body : List Char}, body <+: cs → ¬['*', '/'] <+: c :: body := by
      rintro body ⟨tail, rfl⟩ ⟨rest, hrest⟩
      cases hrest
      exact hc _ rfl rfl
    have hlater : ∀ {body : List Char}, body <+: cs → ¬['*', '/'] <:+: body →
        ¬['*', '/'] <:+: c :: body := by
      intro body hpre hbody h
      exact (List.infix_cons_iff.1 h).elim (hstart hpre) hbody
    rcases ih with ⟨body, rest, rfl, hbody⟩ | ⟨hcs, hlength⟩
    · exact .inl ⟨c :: body, rest, rfl, hlater (List.prefix_append _ _) hbody⟩
    · exact .inr ⟨hlater (List.prefix_refl _) hcs, by rw [hlength, List.length_cons]⟩

/-- A block comment is taken through its end. -/
theorem fits_block (rest : List Char) :
    Lexeme.Fits '/' ('*' :: rest) ⟨none, 1 + commentLength rest⟩ := by
  rcases commentLength_cases rest with ⟨body, rest, rfl, hbody⟩ | ⟨hrest, hlength⟩
  · refine ⟨'*' :: (body ++ ['*', '/']), rest, by simp, ?_, .block hbody⟩
    rw [commentLength_append hbody]
    simp [Nat.add_comm]
  · refine ⟨'*' :: rest, [], by simp, ?_, .openBlock hrest⟩
    rw [hlength, List.length_cons, Nat.add_comm]

/-! ### Literals -/

/-- A backslash either ends the text or has a character behind it. -/
theorem ne_backslash {cs : List Char} (hlast : c = '\\' → cs = [] → False)
    (hescape : ∀ d rest, c = '\\' → cs = d :: rest → False) : c ≠ '\\' := by
  cases cs with
  | nil => exact fun h => hlast h rfl
  | cons d rest => exact fun h => hescape d rest h rfl

/-- A string literal that is closed ends with its quotation mark. -/
theorem stringBody_spec (cs : List Char) : ∃ front rest, cs = front ++ rest ∧
    (stringBody cs).2 = front.length ∧ ∀ body, (stringBody cs).1 = some body →
      ∃ inner, front = inner ++ ['"'] ∧ Text.Unquotes '"' inner body := by
  fun_induction stringBody cs with
  | case1 => exact ⟨[], [], rfl, rfl, nofun⟩
  | case2 => exact ⟨['\\'], [], rfl, rfl, nofun⟩
  | case3 c cs body n hbody ih =>
    obtain ⟨front, rest, rfl, hlength, hclosed⟩ := ih
    rw [hbody] at hlength hclosed
    refine ⟨'\\' :: c :: front, rest, rfl, congrArg (· + 2) hlength, fun value hvalue => ?_⟩
    obtain ⟨body, hsome, rfl⟩ := Option.map_eq_some_iff.1 hvalue
    obtain ⟨inner, rfl, hinner⟩ := hclosed body hsome
    exact ⟨'\\' :: c :: inner, rfl, .escaped hinner⟩
  | case4 cs =>
    refine ⟨['"'], cs, rfl, rfl, fun body hsome => ?_⟩
    cases hsome
    exact ⟨[], rfl, .nil⟩
  | case5 cs => exact ⟨[], '\n' :: cs, rfl, rfl, nofun⟩
  | case6 c cs hlast hescape hquote hline body n hbody ih =>
    have hslash := ne_backslash hlast hescape
    obtain ⟨front, rest, rfl, hlength, hclosed⟩ := ih
    rw [hbody] at hlength hclosed
    refine ⟨c :: front, rest, rfl, congrArg (· + 1) hlength, fun value hvalue => ?_⟩
    obtain ⟨body, hsome, rfl⟩ := Option.map_eq_some_iff.1 hvalue
    obtain ⟨inner, rfl, hinner⟩ := hclosed body hsome
    exact ⟨c :: inner, rfl, .plain hquote hslash hline hinner⟩

theorem fits_stringLexeme (tail : List Char) : (stringLexeme tail).Fits '"' tail := by
  obtain ⟨front, rest, rfl, hlength, hclosed⟩ := stringBody_spec tail
  rw [stringLexeme]
  cases hbody : stringBody (front ++ rest) with
  | mk body n =>
    rw [hbody] at hlength hclosed
    obtain rfl : n = front.length := hlength
    cases body with
    | none => exact fits_of_covers (.invalid (by decide)) rest
    | some body =>
      obtain ⟨inner, rfl, hinner⟩ := hclosed body rfl
      exact fits_of_covers (.str (by rwa [String.toList_ofList])) rest

theorem fits_charLexeme (tail : List Char) : (charLexeme tail).Fits '\'' tail := by
  have hmalformed : ∀ cs, (TokenKind.invalid "malformed character literal").Covers ('\'' :: cs) :=
    fun _ => .invalid (by decide)
  have hclose : ∀ {c : Char} {front : List Char}, Text.Unquotes '\'' front [c] → ∀ rest,
      Lexeme.Fits '\'' (front ++ rest) (if rest.head? = some '\'' then
        ⟨some (.char c), front.length + 1⟩
        else ⟨some (.invalid "malformed character literal"), front.length⟩) := by
    intro c front hfront rest
    split
    · rename_i hhead
      obtain ⟨rest, rfl⟩ := List.head?_eq_some_iff.1 hhead
      exact ⟨front ++ ['\''], rest, by simp, by simp, .char hfront⟩
    · exact fits_of_covers (hmalformed _) rest
  simp only [charLexeme]
  split
  · exact fits_of_covers (hmalformed []) []
  · exact fits_of_covers (hmalformed ['\\']) []
  · exact hclose (.escaped .nil) _
  · rename_i c rest hlast hescape
    split
    · exact fits_of_covers (hmalformed [c]) rest
    · rename_i hc
      rw [Bool.or_eq_true, not_or, decide_eq_true_iff, decide_eq_true_iff] at hc
      exact hclose (.plain hc.1 (ne_backslash hlast hescape) hc.2 .nil) rest

/-! ### Numbers -/

theorem isSeparator_of_isDigit (h : c.isDigit = true) : isSeparator c = false ∧ c ≠ '#' := by
  have hne : ∀ {x : Char}, x.isDigit = false → c ≠ x := by
    rintro x hx rfl
    rw [hx] at h
    cases h
  simp only [isSeparator, Bool.or_eq_false_iff, decide_eq_false_iff_not]
  exact ⟨⟨⟨⟨hne rfl, hne rfl⟩, hne rfl⟩, hne rfl⟩, hne rfl⟩

/-- Letters and digits may stand in a number. -/
theorem isNumberPart_of_or (h : (c.isUpper || c.isLower || c.isDigit) = true) :
    isNumberPart c = true := by
  have hpart : c.isAlphanum = true := h
  rw [isNumberPart, hpart]
  rfl

theorem isNumberPart_of_isDigit (h : c.isDigit = true) : isNumberPart c = true :=
  isNumberPart_of_or (by rw [h, Bool.or_true])

theorem isNumberPart_of_isHexDigit (h : isHexDigit c = true) : isNumberPart c = true := by
  simp only [isHexDigit, Bool.or_eq_true, Bool.and_eq_true, decide_eq_true_eq] at h
  rcases h with (h | h) | h
  · exact isNumberPart_of_isDigit h
  · have hlower : c.isLower = true :=
      Bool.and_eq_true_iff.2 ⟨decide_eq_true h.1, decide_eq_true (UInt32.le_trans h.2 (by decide))⟩
    exact isNumberPart_of_or (by rw [hlower, Bool.or_true, Bool.true_or])
  · have hupper : c.isUpper = true :=
      decide_eq_true ⟨h.1, UInt32.le_trans h.2 (by decide)⟩
    exact isNumberPart_of_or (by rw [hupper, Bool.true_or, Bool.true_or])

theorem isNumberPart_of_isNumberSuffix (h : isNumberSuffix c = true) : isNumberPart c = true := by
  simp only [isNumberSuffix, Bool.or_eq_true, decide_eq_true_eq] at h
  rcases h with ((((rfl | rfl) | rfl) | rfl) | rfl) | rfl <;> rfl

theorem covers_intKind (hc : c.isDigit = true) (n : Nat) (otherwise : String) {cs : List Char}
    (hcs : cs.all isNumberPart = true) : (intKind n otherwise).Covers (c :: cs) := by
  rw [intKind]
  split
  · exact .int hc hcs
  · exact .invalid (isSeparator_of_isDigit hc)

/-- A number goes on to the end of its suffix. -/
theorem fits_number {body : List Char} (hpre : body <+: tail)
    (hbody : body.all isNumberPart = true)
    (hk : ∀ cs, cs.all isNumberPart = true → k.Covers (c :: cs)) : Lexeme.Fits c tail
      ⟨some k, body.length + ((tail.drop body.length).takeWhile isNumberSuffix).length⟩ := by
  obtain ⟨tail, rfl⟩ := hpre
  have hsuffix : (tail.takeWhile isNumberSuffix).all isNumberPart = true :=
    List.all_eq_true.2 fun d hd => isNumberPart_of_isNumberSuffix
      (List.all_eq_true.1 List.all_takeWhile d hd)
  have hfits := fits_of_covers (hk (body ++ tail.takeWhile isNumberSuffix)
    (by rw [List.all_append, hbody, hsuffix, Bool.and_self])) (tail.dropWhile isNumberSuffix)
  rw [List.append_assoc, List.takeWhile_append_dropWhile, List.length_append] at hfits
  rwa [List.drop_left]

theorem fits_hexLexeme {x : Char} (hx : x = 'x' ∨ x = 'X') (tail : List Char) :
    (hexLexeme tail).Fits '0' (x :: tail) := by
  have hpart : isNumberPart x = true := by rcases hx with rfl | rfl <;> rfl
  have hdigits : (x :: tail.takeWhile isHexDigit).all isNumberPart = true :=
    List.all_eq_true.2 <| List.forall_mem_cons.2 ⟨hpart, fun d hd =>
      isNumberPart_of_isHexDigit (List.all_eq_true.1 List.all_takeWhile d hd)⟩
  have hpre : x :: tail.takeWhile isHexDigit <+: x :: tail :=
    List.cons_prefix_cons.2 ⟨rfl, List.takeWhile_prefix _⟩
  rw [hexLexeme, Nat.add_comm 1]
  refine fits_number hpre hdigits fun cs hcs => ?_
  split
  · exact .invalid (by decide)
  · exact covers_intKind rfl _ _ hcs

theorem numberBody_spec (isFloat : Bool) (cs : List Char) :
    (numberBody isFloat cs).1 <+: cs ∧ (numberBody isFloat cs).1.all isNumberPart = true := by
  fun_induction numberBody isFloat cs with
  | case1 => exact ⟨List.prefix_refl _, rfl⟩
  | case2 isFloat c hc =>
    exact ⟨List.prefix_refl _, by rw [List.all_cons, isNumberPart_of_isDigit hc]; rfl⟩
  | case3 => exact ⟨List.nil_prefix, rfl⟩
  | case4 isFloat c d cs hc body final hbody ih =>
    rw [hbody] at ih
    have hpart : isNumberPart c = true := by
      rcases Bool.or_eq_true_iff.1 hc with hc | hc
      · exact isNumberPart_of_isDigit hc
      · have hpoint := (Bool.and_eq_true_iff.1 (Bool.and_eq_true_iff.1 hc).1).1
        rw [of_decide_eq_true hpoint]
        rfl
    exact ⟨List.cons_prefix_cons.2 ⟨rfl, ih.1⟩, by rw [List.all_cons, hpart, ih.2]; rfl⟩
  | case5 isFloat c d cs _ hc body final hbody ih =>
    rw [hbody] at ih
    have hpart : isNumberPart c = true := by
      rcases Bool.or_eq_true_iff.1 (Bool.and_eq_true_iff.1 hc).1 with hc | hc <;>
        rw [of_decide_eq_true hc] <;> rfl
    exact ⟨List.cons_prefix_cons.2 ⟨rfl, ih.1⟩, by rw [List.all_cons, hpart, ih.2]; rfl⟩
  | case6 isFloat c d cs _ _ hc body final hbody ih =>
    rw [hbody] at ih
    have hpart : isNumberPart c = true := by
      rcases Bool.or_eq_true_iff.1 (Bool.and_eq_true_iff.1 hc).1 with hc | hc <;>
        rw [of_decide_eq_true hc] <;> rfl
    have hsign : isNumberPart d = true := by
      rcases Bool.or_eq_true_iff.1 (Bool.and_eq_true_iff.1 hc).2 with hd | hd <;>
        rw [of_decide_eq_true hd] <;> rfl
    exact ⟨List.cons_prefix_cons.2 ⟨rfl, List.cons_prefix_cons.2 ⟨rfl, ih.1⟩⟩,
      by rw [List.all_cons, List.all_cons, hpart, hsign, ih.2]; rfl⟩
  | case7 => exact ⟨List.nil_prefix, rfl⟩

theorem fits_numberLexeme (hc : c.isDigit = true) (tail : List Char) :
    (numberLexeme c tail).Fits c tail := by
  obtain ⟨hpre, hbody⟩ := numberBody_spec false tail
  rw [numberLexeme]
  refine fits_number hpre hbody fun cs hcs => ?_
  split
  · split
    · exact .float hc hcs
    · exact .invalid (isSeparator_of_isDigit hc)
  · exact covers_intKind hc _ _ hcs

/-! ### Words and symbols -/

theorem mem_of_lookup {α β : Type} [BEq α] [LawfulBEq α] {xs : List (α × β)} {x : α} {y : β}
    (h : xs.lookup x = some y) : (x, y) ∈ xs := by
  obtain ⟨before, after, rfl, -⟩ := List.lookup_eq_some_iff.1 h
  exact List.mem_append_right _ List.mem_cons_self

theorem covers_wordKind {word : String} (hword : TokenKind.isName word = true) :
    (wordKind word).Covers word.toList := by
  have hkeywords : ∀ p ∈ keywords, (TokenKind.symbol p.2).Covers p.1.toList := by
    simp only [keywords, List.forall_mem_cons]
    exact ⟨.symbol, .symbol, .symbol, .symbol, .symbol, .symbol, .symbol, .symbol, .symbol,
      .symbol, .symbol, .null, .symbol, .symbol, .symbol, nofun⟩
  rw [wordKind]
  split
  · rename_i s hlookup
    exact hkeywords _ (mem_of_lookup hlookup)
  · rename_i hlookup
    split
    · rename_i htype
      exact .type (List.contains_iff_mem.1 htype)
    · rename_i htype
      rw [List.contains_iff_mem] at htype
      exact .ident (by simp [TokenKind.isWritable, hword, hlookup, htype])

theorem fits_wordLexeme (hc : isNameStart c = true) (tail : List Char) :
    (wordLexeme c tail).Fits c tail := by
  have hpre : tail.takeWhile isNamePart <+: tail := List.takeWhile_prefix _
  have hname : TokenKind.isName (String.ofList (c :: tail.takeWhile isNamePart)) = true := by
    rw [TokenKind.isName, String.toList_ofList]
    exact Bool.and_eq_true_iff.2 ⟨hc, List.all_takeWhile⟩
  rw [wordLexeme]
  generalize tail.takeWhile isNamePart = body at hpre hname
  obtain ⟨rest, rfl⟩ := hpre
  rw [List.drop_left]
  split
  · rename_i hqualifier
    obtain ⟨hword, hcolons⟩ := Bool.and_eq_true_iff.1 hqualifier
    have hspell : c :: body = "std".toList := by
      rw [← of_decide_eq_true hword, String.toList_ofList]
    obtain ⟨rest, rfl⟩ : ∃ more, rest = [':', ':'] ++ more :=
      ⟨rest.drop 2, by rw [← of_decide_eq_true hcolons, List.take_append_drop]⟩
    cases hspell
    exact ⟨['t', 'd', ':', ':'], rest, rfl, rfl, .qualifier⟩
  · have hword := covers_wordKind hname
    rw [String.toList_ofList] at hword
    exact fits_of_covers hword rest

theorem covers_pair {c d : Char} {s : Symbol} (h : (pairs c).lookup d = some s) :
    (TokenKind.symbol s).Covers [c, d] := by
  have hpairs : ∀ p ∈ pairs c, (TokenKind.symbol p.2).Covers [c, p.1] := by
    unfold pairs
    split
    all_goals
      repeat refine List.forall_mem_cons.2 ⟨.symbol, ?_⟩
      exact List.forall_mem_nil _
  exact hpairs _ (mem_of_lookup h)

theorem covers_single {c : Char} {s : Symbol} (h : single? c = some s) :
    (TokenKind.symbol s).Covers [c] := by
  unfold single? at h
  split at h
  case h_25 => cases h
  all_goals cases h; exact .symbol

theorem fits_symbolLexeme (hc : isSeparator c = false ∧ c ≠ '#') (tail : List Char) :
    (symbolLexeme c tail).Fits c tail := by
  rw [symbolLexeme]
  split
  · rename_i s hpair
    cases tail with
    | nil => cases hpair
    | cons d tail => exact ⟨[d], tail, rfl, rfl, covers_pair hpair⟩
  · split
    · rename_i s hsingle
      exact ⟨[], tail, rfl, rfl, covers_single hsingle⟩
    · exact ⟨[], tail, rfl, rfl, .invalid hc⟩

/-! ### All lexemes -/

/-- **The lexer takes the characters of one token or of one gap,** and all of them are there. -/
theorem lexeme_fits (c : Char) (tail : List Char) : (lexeme c tail).Fits c tail := by
  have hhead : ∀ {d : Char}, decide (tail.head? = some d) = true → ∃ rest, tail = d :: rest :=
    fun h => List.head?_eq_some_iff.1 (of_decide_eq_true h)
  rw [lexeme]
  split
  · rename_i hblank
    exact ⟨[], tail, rfl, rfl, .blank hblank⟩
  rename_i hblank
  split
  · rename_i hline
    rcases Bool.or_eq_true_iff.1 hline with hmark | hmark
    · obtain rfl := of_decide_eq_true hmark
      exact fits_line [] (.inl rfl) tail
    · obtain ⟨hslash, hslash'⟩ := Bool.and_eq_true_iff.1 hmark
      obtain rfl := of_decide_eq_true hslash
      obtain ⟨rest, rfl⟩ := hhead hslash'
      exact fits_line ['/'] (.inr rfl) rest
  rename_i hline
  split
  · rename_i hblock
    obtain ⟨hslash, hstar⟩ := Bool.and_eq_true_iff.1 hblock
    obtain rfl := of_decide_eq_true hslash
    obtain ⟨rest, rfl⟩ := hhead hstar
    exact fits_block rest
  split
  · rename_i hquote
    subst hquote
    exact fits_stringLexeme tail
  split
  · rename_i hquote
    subst hquote
    exact fits_charLexeme tail
  split
  · rename_i hhex
    obtain ⟨hzero, hx⟩ := Bool.and_eq_true_iff.1 hhex
    obtain rfl := of_decide_eq_true hzero
    rcases Bool.or_eq_true_iff.1 hx with hx | hx
    · obtain ⟨rest, rfl⟩ := hhead hx
      exact fits_hexLexeme (.inl rfl) rest
    · obtain ⟨rest, rfl⟩ := hhead hx
      exact fits_hexLexeme (.inr rfl) rest
  split
  · rename_i hdigit
    exact fits_numberLexeme hdigit tail
  split
  · rename_i hname
    exact fits_wordLexeme hname tail
  -- a symbol, or a character that starts nothing
  rw [Bool.or_eq_true, not_or, decide_eq_true_iff] at hline
  exact fits_symbolLexeme ⟨eq_false_of_ne_true hblank, hline.1⟩ tail

end Lexemes

/-! ## Texts -/

/-- The tokens of the rest of a text after `front`: the rest is cut into tokens and gaps as the
lexer takes them, and every token stands where its first character does. -/
inductive Placed : List Char → List Char → List Token → Prop
  | nil {front : List Char} : Placed front [] []
  | gap {front cs rest : List Char} {c : Char} {ts : List Token}
      (hlex : lexeme c (cs ++ rest) = ⟨none, cs.length⟩) (h : Gap (c :: cs) rest)
      (hrest : Placed (front ++ c :: cs) rest ts) : Placed front (c :: cs ++ rest) ts
  | token {front cs rest : List Char} {c : Char} {k : TokenKind} {ts : List Token}
      (hlex : lexeme c (cs ++ rest) = ⟨some k, cs.length⟩) (h : k.Covers (c :: cs))
      (hrest : Placed (front ++ c :: cs) rest ts) :
      Placed front (c :: cs ++ rest) (⟨k, .after front⟩ :: ts)

/-- The lexer finds a cut of a text from any place on. -/
theorem scan_placed (front : List Char) : ∀ cs : List Char, ∃ ts,
    scan (.after front) 0 cs = ts ++ [⟨.eof, .after (front ++ cs)⟩] ∧ Placed front cs ts
  | [] => ⟨[], by rw [List.append_nil]; rfl, .nil⟩
  | c :: tail => by
    obtain ⟨cs, rest, rfl, hextra, hkind⟩ := lexeme_fits c tail
    obtain ⟨ts, hscan, hplaced⟩ := scan_placed (front ++ c :: cs) rest
    have hplace : (c :: cs).foldl Location.next (.after front) = .after (front ++ c :: cs) := by
      rw [← Location.foldl_next_start, ← Location.foldl_next_start, List.foldl_append]
    cases hlex : lexeme c (cs ++ rest) with
    | mk kind extra =>
      rw [hlex] at hextra hkind
      obtain rfl : extra = cs.length := hextra
      rw [← List.cons_append, scan_lexeme hlex, hplace, hscan]
      cases kind with
      | none => exact ⟨ts, by simp, .gap hlex hkind hplaced⟩
      | some k => exact ⟨⟨k, .after front⟩ :: ts, by simp, .token hlex hkind hplaced⟩
termination_by cs => cs.length

section Placed

variable {front cs : List Char} {ts : List Token}

/-- A token stands where the characters before it lead. -/
theorem Placed.exists_covers (h : Placed front cs ts) {t : Token} (ht : t ∈ ts) :
    ∃ before c piece rest, cs = before ++ (c :: piece ++ rest) ∧ t.kind.Covers (c :: piece) ∧
      t.location = .after (front ++ before) := by
  induction h with
  | nil => cases ht
  | gap _ _ _ ih =>
    obtain ⟨before, c, piece, rest, rfl, hk, hlocation⟩ := ih ht
    exact ⟨_ ++ before, c, piece, rest, (List.append_assoc _ _ _).symm, hk,
      hlocation.trans (congrArg _ (List.append_assoc _ _ _))⟩
  | token _ hk _ ih =>
    rcases List.mem_cons.1 ht with rfl | ht
    · exact ⟨[], _, _, _, rfl, hk, by rw [List.append_nil]⟩
    · obtain ⟨before, c, piece, rest, rfl, hk, hlocation⟩ := ih ht
      exact ⟨_ ++ before, c, piece, rest, (List.append_assoc _ _ _).symm, hk,
        hlocation.trans (congrArg _ (List.append_assoc _ _ _))⟩

theorem Placed.kind_ne (h : Placed front cs ts) {t : Token} (ht : t ∈ ts) : t.kind ≠ .eof := by
  obtain ⟨before, c, piece, rest, -, hk, -⟩ := h.exists_covers ht
  intro heof
  rw [heof] at hk
  cases hk

/-- The tokens and the end of the text stand in reading order. -/
theorem Placed.pairwise (h : Placed front cs ts) :
    (ts ++ [⟨.eof, .after (front ++ cs)⟩] : List Token).Pairwise
      fun s t => s.location.Before t.location := by
  induction h with
  | nil => exact List.pairwise_singleton _ _
  | gap _ _ _ ih => rwa [List.append_assoc] at ih
  | @token front cs rest c k ts _ _ hrest ih =>
    have hlater : ∀ more, (Location.after front).Before (.after (front ++ (c :: cs ++ more))) :=
      fun more => Location.before_after (List.cons_ne_nil _ _) front
    rw [List.append_assoc] at ih
    refine List.pairwise_cons.2 ⟨fun t ht => ?_, ih⟩
    rcases List.mem_append.1 ht with ht | ht
    · obtain ⟨before, -, -, -, -, -, hlocation⟩ := hrest.exists_covers ht
      rw [hlocation, List.append_assoc]
      exact hlater before
    · rw [List.mem_singleton.1 ht]
      exact hlater rest

end Placed

/-- The tokens of a text are those of a cut, and the end token. -/
theorem exists_placed (source : String) : ∃ ts,
    tokenize source = ts ++ [⟨.eof, .after source.toList⟩] ∧ Placed [] source.toList ts :=
  scan_placed [] source.toList

/-- **Every token stands where the text says.**  There is one end token, the last one, at the end of
the text; the text before it is cut into the other tokens and gaps, each token has the line and the
column of its first character, and the places of all tokens increase. -/
theorem tokenize_placed (source : String) : ∃ ts,
    tokenize source = ts ++ [⟨.eof, .after source.toList⟩] ∧ (∀ t ∈ ts, t.kind ≠ .eof) ∧
      Placed [] source.toList ts ∧
      (tokenize source).Pairwise fun s t => s.location.Before t.location := by
  obtain ⟨ts, htokens, hplaced⟩ := exists_placed source
  refine ⟨ts, htokens, fun t ht => hplaced.kind_ne ht, hplaced, ?_⟩
  rw [htokens]
  exact hplaced.pairwise

/-- The qualifier, a comment over two lines and a line end that is escaped all count. -/
example : (tokenize "std::f /* a\n */ \"\\\n\"").map Token.location
    = [⟨1, 6⟩, ⟨2, 5⟩, ⟨3, 2⟩] := by
  rfl

end Token
end Stepwise
