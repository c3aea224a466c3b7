import Stepwise.Decimal.Read
import Stepwise.Token

/-!
# From characters to tokens

The lexer never fails.  It looks at a text one lexeme at a time: `lexeme c tail` says what starts
with the character `c` when `tail` follows it, and how many characters of `tail` belong to it.  A
lexeme need not be a token: blanks, comments, directives (from `#` to the end of the line) and the
qualifier `std::` yield none.  `scan` walks through the text character by character, keeping
count of lines and columns and of the characters that still belong to the last lexeme, and closes
the list with the end token.
-/

set_option autoImplicit false

namespace Stepwise.Token

/-! ## Character classes -/

/-- The blanks between tokens. -/
def isSeparator (c : Char) : Bool :=
  c = ' ' || c = '\t' || c = '\r' || c = '\n'

/-- Whether a name may start with `c`. -/
def isNameStart (c : Char) : Bool :=
  c.isAlpha || c = '_'

theorem isNameStart_iff {c : Char} : isNameStart c = true ↔
    ((65 ≤ c.toNat ∧ c.toNat ≤ 90) ∨ (97 ≤ c.toNat ∧ c.toNat ≤ 122)) ∨ c = '_' := by
  have halpha : c.isAlpha
      = (decide (65 ≤ c.val ∧ c.val ≤ 90) || (decide (97 ≤ c.val) && decide (c.val ≤ 122))) := rfl
  simp only [isNameStart, halpha, Bool.or_eq_true, Bool.and_eq_true, decide_eq_true_eq]
  exact Iff.rfl

/-- Whether a name may go on with `c`. -/
def isNamePart (c : Char) : Bool :=
  c.isAlphanum || c = '_'

def isHexDigit (c : Char) : Bool :=
  c.isDigit || ('a' ≤ c && c ≤ 'f') || ('A' ≤ c && c ≤ 'F')

/-- Whether `c` may end a number without belonging to it. -/
def isNumberSuffix (c : Char) : Bool :=
  c = 'u' || c = 'U' || c = 'l' || c = 'L' || c = 'f' || c = 'F'

/-! ## Lexemes -/

/-- A token, or nothing where the characters form none, and how many characters after the first
belong to it. -/
structure Lexeme where
  kind : Option TokenKind
  extra : Nat

/-- The number of characters through the end of the line. -/
def lineLength : List Char → Nat
  | [] => 0
  | c :: cs => if c = '\n' then 1 else lineLength cs + 1

/-- The number of characters through the end of a block comment, or of the text if the comment is
not closed. -/
def commentLength : List Char → Nat
  | [] => 0
  | '*' :: '/' :: _ => 2
  | _ :: cs => commentLength cs + 1

def unescape (c : Char) : Char :=
  if c = 'n' then '\n'
  else if c = 't' then '\t'
  else if c = 'r' then '\r'
  else if c = '0' then '\x00'
  else c

/-- The characters of a string literal after its opening quotation mark, and how many characters of
the text it takes.  It must be closed on its line, unless the line end is escaped. -/
def stringBody : List Char → Option (List Char) × Nat
  | [] => (none, 0)
  | ['\\'] => (none, 1)
  | '\\' :: c :: cs =>
    let (body, n) := stringBody cs
    (body.map (unescape c :: ·), n + 2)
  | c :: cs =>
    if c = '"' then (some [], 1)
    else if c = '\n' then (none, 0)
    else
      let (body, n) := stringBody cs
      (body.map (c :: ·), n + 1)

/-- A string literal, after its opening quotation mark. -/
def stringLexeme (tail : List Char) : Lexeme :=
  match stringBody tail with
  | (some body, n) => ⟨some (.str (String.ofList body)), n⟩
  | (none, n) => ⟨some (.invalid "unterminated string literal"), n⟩

/-- A character literal, after its opening quotation mark: one character or one escape, and the
closing mark. -/
def charLexeme (tail : List Char) : Lexeme :=
  let malformed := some (.invalid "malformed character literal")
  let close (c : Char) (rest : List Char) (n : Nat) : Lexeme :=
    if rest.head? = some '\'' then ⟨some (.char c), n + 1⟩ else ⟨malformed, n⟩
  match tail with
  | [] => ⟨malformed, 0⟩
  | ['\\'] => ⟨malformed, 1⟩
  | '\\' :: c :: rest => close (unescape c) rest 2
  | c :: rest => if c = '\'' || c = '\n' then ⟨malformed, 1⟩ else close c rest 1

def hexValue (c : Char) : Nat :=
  if c.isDigit then c.toNat - '0'.toNat
  else if 'a' ≤ c then c.toNat - 'a'.toNat + 10
  else c.toNat - 'A'.toNat + 10

/-- An integer token, if the number fits into 64 bits with a sign. -/
def intKind (n : Nat) (otherwise : String) : TokenKind :=
  if n < Nat.pow 2 63 then .int (Int64.ofNat n) else .invalid otherwise

/-- A hexadecimal integer, after `0x`. -/
def hexLexeme (tail : List Char) : Lexeme :=
  let digits := tail.takeWhile isHexDigit
  let suffix := (tail.drop digits.length).takeWhile isNumberSuffix
  let message := "invalid hex literal 0x" ++ String.ofList digits
  let kind :=
    if digits.isEmpty then .invalid message
    else intKind (digits.foldl (fun n c => 16 * n + hexValue c) 0) message
  ⟨some kind, 1 + digits.length + suffix.length⟩

/-- The characters of a decimal number after its first digit, and whether they make it a double.  A
point counts only once, before any exponent, and with a digit after it; an exponent needs a digit
or a sign after its `e`. -/
def numberBody (isFloat : Bool) : List Char → List Char × Bool
  | [] => ([], isFloat)
  | [c] => if c.isDigit then ([c], isFloat) else ([], isFloat)
  | c :: d :: cs =>
    if c.isDigit || (c = '.' && !isFloat && d.isDigit) then
      let (body, final) := numberBody (isFloat || c = '.') (d :: cs)
      (c :: body, final)
    else if (c = 'e' || c = 'E') && d.isDigit then
      let (body, final) := numberBody true (d :: cs)
      (c :: body, final)
    else if (c = 'e' || c = 'E') && (d = '-' || d = '+') then
      let (body, final) := numberBody true cs
      (c :: d :: body, final)
    else ([], isFloat)

/-- A decimal number that starts with the digit `first`.  Type suffixes are accepted and dropped,
except that an `f` makes it a double. -/
def numberLexeme (first : Char) (tail : List Char) : Lexeme :=
  let (body, pointed) := numberBody false tail
  let rest := tail.drop body.length
  let isFloat := pointed || rest.head? = some 'f' || rest.head? = some 'F'
  let suffix := rest.takeWhile isNumberSuffix
  let spelled := first :: body
  let kind :=
    if isFloat then
      match Decimal.magnitude? false spelled with
      | some x => .float x
      | none => .invalid ("invalid float literal " ++ String.ofList spelled)
    else
      intKind (Decimal.ofDigits spelled) ("invalid integer literal " ++ String.ofList spelled)
  ⟨some kind, body.length + suffix.length⟩

def scalarTypes : List String :=
  ["int", "double", "string", "bool", "float", "char", "auto", "long", "unsigned", "short",
   "void", "signed", "size_t"]

def keywords : List (String × Symbol) :=
  [("if", .if), ("else", .else), ("while", .while), ("do", .do), ("for", .for),
   ("return", .return), ("break", .break), ("continue", .continue), ("true", .true),
   ("false", .false), ("nullptr", .null), ("NULL", .null), ("const", .const), ("using", .using),
   ("namespace", .namespace)]

def wordKind (word : String) : TokenKind :=
  match keywords.lookup word with
  | some s => .symbol s
  | none => if scalarTypes.contains word then .type word else .ident word

/-- A word that starts with `first`.  The qualifier `std::` is no token. -/
def wordLexeme (first : Char) (tail : List Char) : Lexeme :=
  let body := tail.takeWhile isNamePart
  let word := String.ofList (first :: body)
  let rest := tail.drop body.length
  if word = "std" && rest.take 2 = [':', ':'] then ⟨none, body.length + 2⟩
  else ⟨some (wordKind word), body.length⟩

/-- The symbols of two characters that start with `c`, by their second character. -/
def pairs (c : Char) : List (Char × Symbol) :=
  match c with
  | '+' => [('+', .plusPlus), ('=', .plusAssign)]
  | '-' => [('-', .minusMinus), ('=', .minusAssign), ('>', .arrow)]
  | '*' => [('=', .starAssign)]
  | '/' => [('=', .slashAssign)]
  | '%' => [('=', .percentAssign)]
  | '=' => [('=', .equal)]
  | '!' => [('=', .notEqual)]
  | '<' => [('=', .lessEqual), ('<', .shiftLeft)]
  | '>' => [('=', .greaterEqual), ('>', .shiftRight)]
  | '&' => [('&', .andAnd)]
  | '|' => [('|', .orOr)]
  | ':' => [(':', .colonColon)]
  | _ => []

/-- The symbol of the single character `c`. -/
def single? (c : Char) : Option Symbol :=
  match c with
  | '+' => some .plus
  | '-' => some .minus
  | '*' => some .star
  | '/' => some .slash
  | '%' => some .percent
  | '=' => some .assign
  | '!' => some .bang
  | '<' => some .less
  | '>' => some .greater
  | '&' => some .ampersand
  | '|' => some .pipe
  | ':' => some .colon
  | '^' => some .caret
  | '~' => some .tilde
  | '.' => some .dot
  | '?' => some .question
  | '(' => some .leftParen
  | ')' => some .rightParen
  | '\x7b' => some .leftBrace
  | '\x7d' => some .rightBrace
  | '[' => some .leftBracket
  | ']' => some .rightBracket
  | ';' => some .semicolon
  | ',' => some .comma
  | _ => none

/-- An operator or a piece of punctuation, the longer one where there is a choice. -/
def symbolLexeme (c : Char) (tail : List Char) : Lexeme :=
  match tail.head?.bind fun d => (pairs c).lookup d with
  | some s => ⟨some (.symbol s), 1⟩
  | none =>
    match single? c with
    | some s => ⟨some (.symbol s), 0⟩
    | none => ⟨some (.invalid ("unexpected character '" ++ String.singleton c ++ "'")), 0⟩

def lexeme (c : Char) (tail : List Char) : Lexeme :=
  if isSeparator c then ⟨none, 0⟩
  else if c = '#' || (c = '/' && tail.head? = some '/') then ⟨none, lineLength tail⟩
  else if c = '/' && tail.head? = some '*' then ⟨none, 1 + commentLength (tail.drop 1)⟩
  else if c = '"' then stringLexeme tail
  else if c = '\'' then charLexeme tail
  else if c = '0' && (tail.head? = some 'x' || tail.head? = some 'X') then hexLexeme (tail.drop 1)
  else if c.isDigit then numberLexeme c tail
  else if isNameStart c then wordLexeme c tail
  else symbolLexeme c tail

/-! ## The whole text -/

/-- The tokens of a text that stands at `l`, and the end token.  The first `skip` characters belong
to the lexeme before. -/
def scan (l : Location) (skip : Nat) : List Char → List Token
  | [] => [⟨.eof, l⟩]
  | c :: tail =>
    match skip with
    | n + 1 => scan (l.next c) n tail
    | 0 =>
      let lex := lexeme c tail
      let rest := scan (l.next c) lex.extra tail
      match lex.kind with
      | some kind => ⟨kind, l⟩ :: rest
      | none => rest

/-- The tokens of a text, ending with the end token. -/
def tokenize (source : String) : List Token :=
  scan .start 0 source.toList

end Stepwise.Token
