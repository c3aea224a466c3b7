import Stepwise.Program

/-!
# Listings

The text of a program: untyped bindings, constructor calls, `__setLine` markers and `__checkLoop`
guards, four blanks for each level of nesting.
-/

set_option autoImplicit false

namespace Stepwise

/-- Texts with a comma and a blank between them. -/
def commaJoin (texts : List String) : String :=
  String.intercalate ", " texts

def Literal.text : Literal → String
  | int n => toString n.toInt
  | float x => Decimal.listed.write x
  | str s => Text.quoted s
  | bool b => if b then "true" else "false"
  | null => "null"

/-- A step around the text of its target. -/
def StepOp.wrap (op : StepOp) (target : String) : String :=
  match op with
  | preInc => "++" ++ target
  | preDec => "--" ++ target
  | postInc => target ++ "++"
  | postDec => target ++ "--"

mutual

def Expr.text : Expr → String
  | .literal l => l.text
  | .var name => name
  | .assign target value => target.text ++ " = " ++ value.text
  | .update op target value => target.text ++ " " ++ op.symbol ++ "= " ++ value.text
  | .step op target => op.wrap target.text
  | .binary op left right => "(" ++ left.text ++ " " ++ op.symbol ++ " " ++ right.text ++ ")"
  | .unary op operand => op.symbol ++ operand.text
  | .ternary condition thenValue elseValue =>
    "(" ++ condition.text ++ " ? " ++ thenValue.text ++ " : " ++ elseValue.text ++ ")"
  | .call name args => name ++ "(" ++ commaJoin (Expr.texts args) ++ ")"
  | .method object name args =>
    object.text ++ "." ++ name ++ "(" ++ commaJoin (Expr.texts args) ++ ")"
  | .member object name => object.text ++ "." ++ name
  | .index object place => object.text ++ "[" ++ place.text ++ "]"
  | .guard condition => "(__checkLoop(), " ++ condition.text ++ ")"

def Expr.texts : List Expr → List String
  | [] => []
  | e :: es => e.text :: Expr.texts es

end

/-- A statement in the first clause of a `for` loop, on one line. -/
def Stmt.clause : Stmt → String
  | declare name (some init) => "let " ++ name ++ " = " ++ init.text
  | declare name none => "let " ++ name
  | expr e => e.text
  | _ => ""

def indent (depth : Nat) : String :=
  String.ofList (List.replicate (4 * depth) ' ')

/-- The opening brace of a block, with the line end. -/
def openBlock : String := " \x7b\n"

mutual

/-- The lines of a statement at the given nesting level. -/
def Stmt.text (depth : Nat) : Stmt → String
  | .line l =>
    indent depth ++ "__setLine(" ++ toString l.number ++ ", " ++ Text.quoted l.text ++ ");\n"
  | .declare name (some init) => indent depth ++ "let " ++ name ++ " = " ++ init.text ++ ";\n"
  | .declare name none => indent depth ++ "let " ++ name ++ ";\n"
  | .construct name kind =>
    indent depth ++ "const " ++ name ++ " = " ++ kind.constructor ++ "(" ++ Text.quoted name
      ++ ");\n"
  | .array name size init =>
    let sizeText := match size with
      | some e => e.text
      | none => toString init.length
    indent depth ++ "const " ++ name ++ " = __createArray(" ++ Text.quoted name ++ ", "
      ++ sizeText ++ ", [" ++ commaJoin (Expr.texts init) ++ "]);\n"
  | .expr e => indent depth ++ e.text ++ ";\n"
  | .branch condition thenBody =>
    indent depth ++ "if (" ++ condition.text ++ ")" ++ openBlock
      ++ Stmt.texts (depth + 1) thenBody ++ indent depth ++ "\x7d\n"
  | .branchElse condition thenBody elseBody =>
    indent depth ++ "if (" ++ condition.text ++ ")" ++ openBlock
      ++ Stmt.texts (depth + 1) thenBody ++ indent depth ++ "\x7d else" ++ openBlock
      ++ Stmt.texts (depth + 1) elseBody ++ indent depth ++ "\x7d\n"
  | .whileLoop condition body =>
    indent depth ++ "while " ++ condition.text ++ openBlock
      ++ Stmt.texts (depth + 1) body ++ indent depth ++ "\x7d\n"
  | .doWhile body condition =>
    indent depth ++ "do" ++ openBlock ++ Stmt.texts (depth + 1) body
      ++ indent depth ++ "\x7d while " ++ condition.text ++ ";\n"
  | .forLoop init condition increment body =>
    indent depth ++ "for (" ++ commaJoin (init.map Stmt.clause) ++ "; " ++ condition.text ++ "; "
      ++ commaJoin (Expr.texts increment) ++ ")" ++ openBlock
      ++ Stmt.texts (depth + 1) body ++ indent depth ++ "\x7d\n"
  | .block body =>
    indent depth ++ "\x7b\n" ++ Stmt.texts (depth + 1) body ++ indent depth ++ "\x7d\n"
  | .ret (some value) => indent depth ++ "return " ++ value.text ++ ";\n"
  | .ret none => indent depth ++ "return;\n"
  | .jump j => indent depth ++ j.keyword ++ ";\n"
  | .malformed error =>
    indent depth ++ "throw new SyntaxError(" ++ Text.quoted error.text ++ ");\n"

/-- The lines of statements at the given nesting level. -/
def Stmt.texts (depth : Nat) : List Stmt → String
  | [] => ""
  | s :: ss => Stmt.text depth s ++ Stmt.texts depth ss

end

def Function.text (f : Function) : String :=
  "function " ++ f.name ++ "(" ++ commaJoin f.params ++ ")" ++ openBlock
    ++ Stmt.texts 1 f.body ++ "\x7d\n"

/-- The listing of a program: its functions, then its top-level statements. -/
def Program.listing (p : Program) : String :=
  String.join (p.functions.map Function.text) ++ Stmt.texts 0 p.body

end Stepwise
