import Stepwise.Command
import Stepwise.Wire.Number
import Stepwise.Wire.Text

/-!
# Reading logs

A log is a JSON list of commands.  A command is an object with the fields of its wire form, in any
order, or a list of their values in order.  A field may not occur twice, other fields are skipped,
and value, index and size may be missing or `null`.

* `Wire.read` reads a whole text.
-/

set_option autoImplicit false

namespace Stepwise.Wire.Reader

variable {α : Type}

/-! ## What is not wanted -/

/-- Fail at a value of another type than expected, after reading enough of it to see that it is a
value at all. -/
def refuse : Reader α := do
  match ← peekToken with
  | some '"' =>
    next
    let _ ← textRest
    throw .mistyped
  | some '[' => throw .mistyped
  | some '\x7b' => throw .mistyped
  | some 'n' =>
    word ['n', 'u', 'l', 'l']
    throw .mistyped
  | some 't' =>
    word ['t', 'r', 'u', 'e']
    throw .mistyped
  | some 'f' =>
    word ['f', 'a', 'l', 's', 'e']
    throw .mistyped
  | some '-' =>
    next
    let _ ← numberRest true
    throw .mistyped
  | some c =>
    if c.isDigit then
      let _ ← numberRest false
      throw .mistyped
    else
      throw .malformed
  | none => throw .truncated

/-- After a value inside of lists and objects, or after the opening of the innermost one: close
those that end here.  What is left are those still open, or nothing if the outermost one was closed.
The flag says whether a comma may come, and with it another value. -/
def skipClosing (afterValue : Bool) : List Bool → Reader (Option (List Bool))
  | [] => return none
  | isObject :: outer => do
    match ← peekToken with
    | none => throw .truncated
    | some c =>
      if c = ',' && afterValue then
        next
        return some (isObject :: outer)
      else if c = (if isObject then '\x7d' else ']') then
        next
        skipClosing true outer
      else if afterValue then
        throw .malformed
      else
        return some (isObject :: outer)

/-- Skip a value that is neither a list nor an object, or the opening of one that is.  Says whether
an object or a list was opened. -/
def skipLead : Reader (Option Bool) := do
  match ← peekToken with
  | some '"' =>
    next
    skipText
    return none
  | some '[' =>
    next
    return some false
  | some '\x7b' =>
    next
    return some true
  | some 'n' =>
    word ['n', 'u', 'l', 'l']
    return none
  | some 't' =>
    word ['t', 'r', 'u', 'e']
    return none
  | some 'f' =>
    word ['f', 'a', 'l', 's', 'e']
    return none
  | some '-' =>
    next
    skipNumber
    return none
  | some c =>
    if c.isDigit then
      skipNumber
      return none
    else
      throw .malformed
  | none => throw .truncated

/-- Skip a key and its colon. -/
def skipKey : Reader Unit := do
  expect '"'
  skipText
  expect ':'

/-- Skip a value inside of the open lists and objects, and all that follows in them. -/
def skipValues : Nat → List Bool → Reader Unit
  | 0, _ => throw .truncated
  | fuel + 1, enclosing => do
    let open? ←
      match ← skipLead with
      | some isObject => skipClosing false (isObject :: enclosing)
      | none => skipClosing true enclosing
    match open? with
    | none => return ()
    | some [] => return ()
    | some (isObject :: outer) =>
      if isObject then
        skipKey
      skipValues fuel (isObject :: outer)

/-- Skip a value of any kind and any depth. -/
def skipValue : Reader Unit := do
  skipValues (← fuel) []

/-! ## Lists and objects -/

def element (isFirst : Bool) (item : Reader α) : Reader (Option α) := do
  match ← peekToken with
  | none => throw .truncated
  | some c =>
    if c = ']' then
      return none
    else if isFirst then
      return some (← item)
    else if c = ',' then
      next
      match ← peekToken with
      | none => throw .truncated
      | some d =>
        if d = ']' then throw .malformed
        else return some (← item)
    else
      throw .malformed

/-- Read the elements of a list through its end, at most `fuel` of them. -/
def elements (item : Reader α) (isFirst : Bool) : Nat → Reader (List α)
  | 0 => throw .truncated
  | fuel + 1 => do
    match ← element isFirst item with
    | none =>
      next
      return []
    | some a =>
      let others ← elements item false fuel
      return a :: others

/-- Read the next key of an object, or nothing at its end, which is left in place. -/
def key (isFirst : Bool) : Reader (Option String) := do
  match ← peekToken with
  | none => throw .truncated
  | some c =>
    if c = '\x7d' then
      return none
    else if isFirst then
      if c = '"' then
        next
        return some (← textRest)
      else
        throw .malformed
    else if c = ',' then
      next
      match ← peekToken with
      | none => throw .truncated
      | some d =>
        if d = '"' then
          next
          return some (← textRest)
        else
          throw .malformed
    else
      throw .malformed

/-! ## Values -/

def string : Reader String := do
  match ← peekToken with
  | some '"' =>
    next
    textRest
  | _ => refuse

/-- Read a value that may be `null`. -/
def nullable (item : Reader α) : Reader (Option α) := do
  match ← peekToken with
  | some 'n' =>
    word ['n', 'u', 'l', 'l']
    return none
  | _ =>
    let a ← item
    return some a

/-- A number that must be an index. -/
def asIndex : Number → Reader UInt64
  | .natural n => return n
  | _ => throw .mistyped

def index : Reader UInt64 := do
  match ← peekToken with
  | some c =>
    if c = '-' then
      next
      asIndex (← numberRest true)
    else if c.isDigit then
      asIndex (← numberRest false)
    else
      refuse
  | none => throw .truncated

/-- Find what a name stands for. -/
def named (ofLabel? : String → Option α) (name : String) : Reader α :=
  match ofLabel? name with
  | some a => return a
  | none => throw .mistyped

/-- Read one of several names: a text, or an object with the name as its only key and `null` as the
value. -/
def choice (ofLabel? : String → Option α) : Reader α := do
  match ← peekToken with
  | some '"' =>
    next
    named ofLabel? (← textRest)
  | some '\x7b' =>
    next
    expect '"'
    let a ← named ofLabel? (← textRest)
    expect ':'
    match ← peekToken with
    | some 'n' =>
      word ['n', 'u', 'l', 'l']
      expect '\x7d'
      return a
    | _ => refuse
  | some _ => throw .malformed
  | none => throw .truncated

/-- The scalar of a number: an integer if it has no more than 64 bits with its sign. -/
def scalarOfNumber : Number → Scalar
  | .natural n =>
    if n.toNat < Nat.pow 2 63 then .int n.toInt64 else .float (Binary64.nearest false n.toNat 1)
  | .negative n => .int n
  | .float x => .float x

/-- Read the members of an object through its end, at most `fuel` of them. -/
def members (value : Reader Unit) (isFirst : Bool) : Nat → Reader Unit
  | 0 => throw .truncated
  | fuel + 1 => do
    match ← key isFirst with
    | none => next
    | some _ =>
      expect ':'
      value
      members value false fuel

/-- Read a scalar or `null`; of a list or an object, read by `nested` one level deeper, only that it
is well formed.  Without `nested`, lists and objects are nested too deeply. -/
def anyValueBy (nested : Option (Reader (Option Scalar))) : Reader (Option Scalar) := do
  match ← peekToken with
  | none => throw .truncated
  | some '"' =>
    next
    let s ← textRest
    return some (.str s)
  | some 'n' =>
    word ['n', 'u', 'l', 'l']
    return none
  | some 't' =>
    word ['t', 'r', 'u', 'e']
    return some (.bool true)
  | some 'f' =>
    word ['f', 'a', 'l', 's', 'e']
    return some (.bool false)
  | some '-' =>
    next
    return some (scalarOfNumber (← numberRest true))
  | some '[' =>
    match nested with
    | none => throw .malformed
    | some item =>
      next
      let _ ← elements item true (← fuel)
      return none
  | some '\x7b' =>
    match nested with
    | none => throw .malformed
    | some item =>
      next
      members (do let _ ← item) true (← fuel)
      return none
  | some c =>
    if c.isDigit then return some (scalarOfNumber (← numberRest false))
    else throw .malformed

/-- Read a value in which lists and objects are nested at most `depth` levels deep. -/
def anyValue : Nat → Reader (Option Scalar)
  | 0 => anyValueBy none
  | depth + 1 => anyValueBy (some (anyValue depth))

/-- How deeply lists and objects may be nested in a scalar's place. -/
def maxNestedValues : Nat := 125

def scalar : Reader Scalar := do
  match ← anyValue maxNestedValues with
  | some s => return s
  | none => throw .mistyped

/-! ## Commands -/

/-- The fields of a command read so far. -/
structure Fields where
  action : Option Action := none
  target : Option Target := none
  name : Option String := none
  value : Option (Option Scalar) := none
  index : Option (Option UInt64) := none
  size : Option (Option UInt64) := none
  cited : Option String := none

/-- Read the value of a field after its key, unless there was one of this name before. -/
def fieldValue (before : Option α) (item : Reader α) : Reader (Option α) := do
  if before.isSome then
    throw .mistyped
  else
    expect ':'
    let a ← item
    return some a

/-- Read the value of the field with the given key. -/
def field (f : Fields) (key : String) : Reader Fields := do
  if key = "type" then
    return { f with action := ← fieldValue f.action (choice Action.ofLabel?) }
  else if key = "target" then
    return { f with target := ← fieldValue f.target (choice Target.ofLabel?) }
  else if key = "targetName" then
    return { f with name := ← fieldValue f.name string }
  else if key = "value" then
    return { f with value := ← fieldValue f.value (nullable scalar) }
  else if key = "index" then
    return { f with index := ← fieldValue f.index (nullable index) }
  else if key = "size" then
    return { f with size := ← fieldValue f.size (nullable index) }
  else if key = "raw" then
    return { f with cited := ← fieldValue f.cited string }
  else
    expect ':'
    skipValue
    return f

/-- The command of its fields, if none that it needs is missing. -/
def Fields.command (f : Fields) : Reader Command :=
  match f.action, f.target, f.name, f.cited with
  | some action, some target, some name, some cited =>
    return { action, target, name, value := f.value.join, index := f.index.join,
             size := f.size.join, cited }
  | _, _, _, _ => throw .mistyped

/-- Read the fields of a command through the end of its object, at most `fuel` of them. -/
def fields (f : Fields) (isFirst : Bool) : Nat → Reader Fields
  | 0 => throw .truncated
  | fuel + 1 => do
    match ← key isFirst with
    | none =>
      next
      return f
    | some k =>
      let f' ← field f k
      fields f' false fuel

def required (isFirst : Bool) (item : Reader α) : Reader α := do
  match ← element isFirst item with
  | some a => return a
  | none => throw .mistyped

/-- Read a command as a list of its fields, after the opening bracket. -/
def commandList : Reader Command := do
  let action ← required true (choice Action.ofLabel?)
  let target ← required false (choice Target.ofLabel?)
  let name ← required false string
  let value ← element false (nullable scalar)
  let i ← element false (nullable index)
  let size ← element false (nullable index)
  let cited ← required false string
  expect ']'
  return { action, target, name, value := value.join, index := i.join, size := size.join, cited }

def command : Reader Command := do
  match ← peekToken with
  | some '\x7b' =>
    next
    let f ← fields {} true (← fuel)
    f.command
  | some '[' =>
    next
    commandList
  | _ => refuse

/-- Read a log and nothing after it. -/
def log : Reader Log := do
  match ← peekToken with
  | some '[' =>
    next
    let commands ← elements command true (← fuel)
    match ← peekToken with
    | none => return commands
    | some _ => throw .malformed
  | _ => refuse

end Stepwise.Wire.Reader

namespace Stepwise.Wire

/-- Read the wire form of a log. -/
def read (text : String) : Except WireError Log :=
  (Reader.log text.toList).map Prod.fst

end Stepwise.Wire
