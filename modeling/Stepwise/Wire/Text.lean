import Stepwise.Wire.Source

/-!
# Reading texts

A JSON text stands between quotation marks.  Control characters must be escaped, and an escape by
number gives a UTF-16 unit, so that characters beyond the first 65536 take two of them.  A text that
is only skipped is checked less strictly: its units need not form characters.
-/

set_option autoImplicit false

namespace Stepwise.Wire.Reader

def hexDigit? (c : Char) : Option Nat :=
  if c.isDigit then some (c.toNat - '0'.toNat)
  else if 'a' ≤ c && c ≤ 'f' then some (c.toNat - 'a'.toNat + 10)
  else if 'A' ≤ c && c ≤ 'F' then some (c.toNat - 'A'.toNat + 10)
  else none

/-- The UTF-16 unit that four hexadecimal digits spell.  If they are not there, the text counts as
truncated when fewer than four bytes of it are left. -/
def unit (cs : List Char) : Except WireError Nat :=
  match (cs.take 4).mapM hexDigit? with
  | some [a, b, c, d] => .ok (4096 * a + 256 * b + 16 * c + d)
  | _ =>
    if (cs.take 4).foldl (fun size c => size + c.utf8Size) 0 < 4 then .error .truncated
    else .error .malformed

/-- Whether a unit is the first of a pair. -/
def isHighSurrogate (n : Nat) : Bool := 0xd800 ≤ n && n ≤ 0xdbff

/-- Whether a unit is the second of a pair. -/
def isLowSurrogate (n : Nat) : Bool := 0xdc00 ≤ n && n ≤ 0xdfff

/-- The second half of a pair, which must follow the first. -/
def secondUnit (cs : List Char) : Except WireError Nat :=
  match cs with
  | [] => .error .truncated
  | ['\\'] => .error .truncated
  | '\\' :: 'u' :: rest =>
    match unit rest with
    | .ok n => if isLowSurrogate n then .ok n else .error .malformed
    | .error e => .error e
  | _ => .error .malformed

/-- The character of an escape by number, after the `u`, and how many characters it takes. -/
def numbered (cs : List Char) : Except WireError (Char × Nat) := do
  let first ← unit cs
  if isLowSurrogate first then
    .error .malformed
  else if isHighSurrogate first then
    let second ← secondUnit (cs.drop 4)
    return (Char.ofNat (0x10000 + (first - 0xd800) * 0x400 + (second - 0xdc00)), 10)
  else
    return (Char.ofNat first, 4)

/-- The character that stands for itself or a control character after a backslash. -/
def simpleEscape? (c : Char) : Option Char :=
  if c = '"' || c = '\\' || c = '/' then some c
  else if c = 'b' then some '\x08'
  else if c = 'f' then some '\x0c'
  else if c = 'n' then some '\n'
  else if c = 'r' then some '\r'
  else if c = 't' then some '\t'
  else none

/-- The character of an escape, after the backslash, and how many characters it takes. -/
def escape (cs : List Char) : Except WireError (Char × Nat) :=
  match cs with
  | [] => .error .truncated
  | c :: rest =>
    match simpleEscape? c with
    | some d => .ok (d, 1)
    | none =>
      if c = 'u' then (numbered rest).map fun (d, n) => (d, n + 1)
      else .error .malformed

/-- How many characters an escape takes, after the backslash, whatever it stands for. -/
def escapeLength (cs : List Char) : Except WireError Nat :=
  match cs with
  | [] => .error .truncated
  | c :: rest =>
    match simpleEscape? c with
    | some _ => .ok 1
    | none => if c = 'u' then (unit rest).map fun _ => 5 else .error .malformed

/-- The characters of a text through its closing mark, and what follows it.  The first `skip`
characters belong to the escape before. -/
def textBody (skip : Nat) : List Char → Except WireError (List Char × List Char)
  | [] => .error .truncated
  | c :: cs =>
    match skip with
    | n + 1 => textBody n cs
    | 0 =>
      if c = '"' then .ok ([], cs)
      else if c = '\\' then do
        let (d, n) ← escape cs
        let (body, rest) ← textBody n cs
        return (d :: body, rest)
      else if c.toNat < 0x20 then .error .malformed
      else do
        let (body, rest) ← textBody 0 cs
        return (c :: body, rest)

/-- What follows a text that is only skipped. -/
def skipBody (skip : Nat) : List Char → Except WireError (List Char)
  | [] => .error .truncated
  | c :: cs =>
    match skip with
    | n + 1 => skipBody n cs
    | 0 =>
      if c = '"' then .ok cs
      else if c = '\\' then
        match escapeLength cs with
        | .ok n => skipBody n cs
        | .error e => .error e
      else if c.toNat < 0x20 then .error .malformed
      else skipBody 0 cs

/-- Read a text after its opening quotation mark. -/
def textRest : Reader String := ofFunction fun cs => do
  let (body, rest) ← textBody 0 cs
  return (String.ofList body, rest)

/-- Skip a text after its opening quotation mark. -/
def skipText : Reader Unit := ofFunction fun cs => do
  let rest ← skipBody 0 cs
  return ((), rest)

end Stepwise.Wire.Reader
