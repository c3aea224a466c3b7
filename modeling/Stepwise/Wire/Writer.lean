import Stepwise.Command

/-!
# Writing logs

The wire form of a log is JSON text: a list of commands, one field a line, each level indented by
two blanks.  A field that a command does not have is left out.  Texts escape only what must be
escaped.
-/

set_option autoImplicit false

namespace Stepwise.Wire

/-- A character inside a text.  Quotation mark, backslash and the control characters are escaped. -/
def escapeChar (c : Char) : List Char :=
  if c = '"' then ['\\', '"']
  else if c = '\\' then ['\\', '\\']
  else if c = '\x08' then ['\\', 'b']
  else if c = '\x0c' then ['\\', 'f']
  else if c = '\n' then ['\\', 'n']
  else if c = '\r' then ['\\', 'r']
  else if c = '\t' then ['\\', 't']
  else if c.toNat < 0x20 then
    ['\\', 'u', '0', '0', Nat.digitChar (c.toNat / 16), Nat.digitChar (c.toNat % 16)]
  else [c]

/-- A text in quotation marks. -/
def text (s : String) : String :=
  String.ofList ('"' :: s.toList.flatMap escapeChar ++ ['"'])

def scalar : Scalar → String
  | .int n => toString n.toInt
  | .float x => if x.isFinite then Decimal.wired.write x else "null"
  | .str s => text s
  | .bool b => if b then "true" else "false"

/-- A field that a command may lack. -/
def optional {α : Type} (key : String) (write : α → String) : Option α → List (String × String)
  | some a => [(key, write a)]
  | none => []

/-- The fields of a command, in order. -/
def fields (c : Command) : List (String × String) :=
  [("type", text c.action.label), ("target", text c.target.label), ("targetName", text c.name)]
    ++ optional "value" scalar c.value
    ++ optional "index" (fun i => toString i.toNat) c.index
    ++ optional "size" (fun n => toString n.toNat) c.size
    ++ [("raw", text c.cited)]

def command (c : Command) : String :=
  "  \x7b\n"
    ++ String.intercalate ",\n" ((fields c).map fun (key, value) => "    \"" ++ key ++ "\": " ++ value)
    ++ "\n  \x7d"

/-- The wire form of a log. -/
def write (log : Log) : String :=
  if log.isEmpty then "[]"
  else "[\n" ++ String.intercalate ",\n" (log.map command) ++ "\n]"

end Stepwise.Wire
