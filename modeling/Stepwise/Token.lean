import Stepwise.Decimal.Format
import Stepwise.Location
import Stepwise.Text.Quoted

/-!
# Tokens

The words of the container language: literals, names, names of scalar types, and the fixed
`Symbol`s, which are keywords, operators and punctuation.  Characters that form no word become an
`invalid` token that carries a description, so every text has a token list.
-/

set_option autoImplicit false

namespace Stepwise

/-- Keywords, operators and punctuation. -/
inductive Symbol where
  | «if»
  | «else»
  | «while»
  | «do»
  | «for»
  | «return»
  | «break»
  | «continue»
  | «true»
  | «false»
  | null
  | const
  | «using»
  | «namespace»
  | plus
  | minus
  | star
  | slash
  | percent
  | equal
  | notEqual
  | less
  | lessEqual
  | greater
  | greaterEqual
  | andAnd
  | orOr
  | bang
  | ampersand
  | pipe
  | caret
  | tilde
  | shiftLeft
  | shiftRight
  | assign
  | plusAssign
  | minusAssign
  | starAssign
  | slashAssign
  | percentAssign
  | plusPlus
  | minusMinus
  | dot
  | arrow
  | colonColon
  | question
  | colon
  | leftParen
  | rightParen
  | leftBrace
  | rightBrace
  | leftBracket
  | rightBracket
  | semicolon
  | comma
deriving DecidableEq, Repr

def Symbol.text : Symbol → String
  | .if => "if"
  | .else => "else"
  | .while => "while"
  | .do => "do"
  | .for => "for"
  | .return => "return"
  | .break => "break"
  | .continue => "continue"
  | .true => "true"
  | .false => "false"
  | .null => "nullptr"
  | .const => "const"
  | .using => "using"
  | .namespace => "namespace"
  | .plus => "+"
  | .minus => "-"
  | .star => "*"
  | .slash => "/"
  | .percent => "%"
  | .equal => "=="
  | .notEqual => "!="
  | .less => "<"
  | .lessEqual => "<="
  | .greater => ">"
  | .greaterEqual => ">="
  | .andAnd => "&&"
  | .orOr => "||"
  | .bang => "!"
  | .ampersand => "&"
  | .pipe => "|"
  | .caret => "^"
  | .tilde => "~"
  | .shiftLeft => "<<"
  | .shiftRight => ">>"
  | .assign => "="
  | .plusAssign => "+="
  | .minusAssign => "-="
  | .starAssign => "*="
  | .slashAssign => "/="
  | .percentAssign => "%="
  | .plusPlus => "++"
  | .minusMinus => "--"
  | .dot => "."
  | .arrow => "->"
  | .colonColon => "::"
  | .question => "?"
  | .colon => ":"
  | .leftParen => "("
  | .rightParen => ")"
  | .leftBrace => "\x7b"
  | .rightBrace => "\x7d"
  | .leftBracket => "["
  | .rightBracket => "]"
  | .semicolon => ";"
  | .comma => ","

/-- What a token is. -/
inductive TokenKind where
  | int (n : Int64)
  | float (x : Float)
  | str (s : String)
  | char (c : Char)
  | ident (name : String)
  /-- The name of a scalar type. -/
  | type (name : String)
  | symbol (s : Symbol)
  /-- Characters that form no word, described. -/
  | invalid (description : String)
  /-- The end of the text. -/
  | eof
deriving BEq, Repr

namespace TokenKind

/-- A token in words, as used in messages. -/
def describe : TokenKind → String
  | int n => "int literal " ++ toString n.toInt
  | float x => "float literal " ++ Decimal.shown.write x
  | str s => "string literal " ++ Text.quoted s
  | char c => "char literal " ++ Text.quotedChar c
  | ident name => "identifier '" ++ name ++ "'"
  | type name => "type '" ++ name ++ "'"
  | symbol s => "'" ++ s.text ++ "'"
  | invalid description => description
  | eof => "end of file"

def isSymbol (s : Symbol) : TokenKind → Bool
  | symbol t => t = s
  | _ => false

def isIdent : TokenKind → Bool
  | ident _ => true
  | _ => false

def isType : TokenKind → Bool
  | type _ => true
  | _ => false

end TokenKind

/-- A token and the place where it starts. -/
structure Token where
  kind : TokenKind
  location : Location
deriving Repr

end Stepwise
