import Stepwise.Proofs.Program.Guarded

/-!
# What programs mention

Most of what a run does it does to names and lines that stand in the program text.  This file
collects them, so that a statement about a run can be made to depend on them.

* `Expr.mentions` and `Stmt.mentions` are the variables that may be read or assigned to and the
  functions that may be called.  A declaration only adds to them what its initial value mentions.
* `Stmt.free` are those that are not declared before in the same function, and `Function.free` those
  of a function that are neither declared in it nor among its parameters.
* `Stmt.straightInits` says that loops are initialised by declarations and expressions, as they are
  in a source text.
* `Stmt.lines` are the lines that are marked.
* `Stmt.Within V` says that a statement keeps to a `Vocabulary`: it mentions only names and lines of
  it and, if the vocabulary asks for that, is guarded.
-/

set_option autoImplicit false

namespace Stepwise

/-! ## Names -/

/-- A mention of a variable, or of a function that is called. -/
inductive Mention where
  | var (name : String)
  | call (name : String)
deriving DecidableEq, Repr

mutual

/-- What an expression may read, assign to or call. -/
def Expr.mentions : Expr → List Mention
  | .literal _ => []
  | .var name => [.var name]
  | .assign target value => target.mentions ++ value.mentions
  | .update _ target value => target.mentions ++ value.mentions
  | .step _ target => target.mentions
  | .binary _ left right => left.mentions ++ right.mentions
  | .unary _ operand => operand.mentions
  | .ternary condition thenValue elseValue =>
    condition.mentions ++ (thenValue.mentions ++ elseValue.mentions)
  | .call name args => .call name :: Expr.allMentions args
  | .method object _ args => object.mentions ++ Expr.allMentions args
  | .member object _ => object.mentions
  | .index object key => object.mentions ++ key.mentions
  | .guard condition => condition.mentions

/-- What expressions may read, assign to or call. -/
def Expr.allMentions : List Expr → List Mention
  | [] => []
  | e :: es => e.mentions ++ Expr.allMentions es

end

mutual

/-- What a statement may read, assign to or call. -/
def Stmt.mentions : Stmt → List Mention
  | .line _ => []
  | .declare _ init => Expr.allMentions init.toList
  | .construct _ _ => []
  | .array _ size init => Expr.allMentions size.toList ++ Expr.allMentions init
  | .expr e => e.mentions
  | .branch condition thenBody => condition.mentions ++ Stmt.allMentions thenBody
  | .branchElse condition thenBody elseBody =>
    condition.mentions ++ (Stmt.allMentions thenBody ++ Stmt.allMentions elseBody)
  | .whileLoop condition body => condition.mentions ++ Stmt.allMentions body
  | .doWhile body condition => condition.mentions ++ Stmt.allMentions body
  | .forLoop init condition increment body =>
    Stmt.allMentions init ++
      (condition.mentions ++ (Expr.allMentions increment ++ Stmt.allMentions body))
  | .block body => Stmt.allMentions body
  | .ret value => Expr.allMentions value.toList
  | .jump _ => []
  | .malformed _ => []

/-- What statements may read, assign to or call. -/
def Stmt.allMentions : List Stmt → List Mention
  | [] => []
  | s :: rest => s.mentions ++ Stmt.allMentions rest

end

/-! ## Free names -/

/-- Whether a variable is among those that are bound. -/
def Mention.isBound (bound : List String) : Mention → Bool
  | var name => name ∈ bound
  | call _ => false

/-- What is mentioned other than the variables that are bound. -/
def unbound (bound : List String) (mentions : List Mention) : List Mention :=
  mentions.filter fun m => !m.isBound bound

/-- The name that a statement adds to the scope in which it stands, if it adds one. -/
def Stmt.declares : Stmt → List String
  | .declare name _ => [name]
  | .construct name _ => [name]
  | .array name _ _ => [name]
  | _ => []

/-- Whether a statement, if it does not stop the run, is followed by the next one. -/
def Stmt.isStraight : Stmt → Bool
  | .line _ => true
  | .declare _ _ => true
  | .construct _ _ => true
  | .array _ _ _ => true
  | .expr _ => true
  | _ => false

mutual

/-- Whether the initialisers of the loops in a statement consist of declarations and expressions. -/
def Stmt.straightInits : Stmt → Bool
  | .branch _ thenBody => Stmt.allStraightInits thenBody
  | .branchElse _ thenBody elseBody =>
    Stmt.allStraightInits thenBody && Stmt.allStraightInits elseBody
  | .whileLoop _ body => Stmt.allStraightInits body
  | .doWhile body _ => Stmt.allStraightInits body
  | .forLoop init _ _ body => init.all Stmt.isStraight && Stmt.allStraightInits body
  | .block body => Stmt.allStraightInits body
  | _ => true

/-- Whether this holds of all loops in statements. -/
def Stmt.allStraightInits : List Stmt → Bool
  | [] => true
  | s :: rest => s.straightInits && Stmt.allStraightInits rest

end

theorem Stmt.straightInits_of_isStraight (s : Stmt) (h : s.isStraight = true) :
    s.straightInits = true := by
  cases s <;> first | rfl | cases h

/-- The names that an initialiser has declared when it is left: all of its names if it is known to
be executed to its end, else those of its first statement. -/
def Stmt.leading (orderly : Bool) : List Stmt → List String
  | [] => []
  | s :: rest => s.declares ++ if orderly then Stmt.leading orderly rest else []

mutual

/-- What a statement may read, assign to or call, other than the variables that are bound before it
and those that it declares itself.  Initialisers are executed to their ends if it is `orderly`. -/
def Stmt.free (orderly : Bool) (bound : List String) : Stmt → List Mention
  | .branch condition thenBody =>
    unbound bound condition.mentions ++ Stmt.allFree orderly bound thenBody
  | .branchElse condition thenBody elseBody =>
    unbound bound condition.mentions ++
      (Stmt.allFree orderly bound thenBody ++ Stmt.allFree orderly bound elseBody)
  | .whileLoop condition body =>
    unbound bound condition.mentions ++ Stmt.allFree orderly bound body
  | .doWhile body condition =>
    unbound bound condition.mentions ++ Stmt.allFree orderly bound body
  | .forLoop init condition increment body =>
    Stmt.allFree orderly bound init ++
      (unbound (Stmt.leading orderly init ++ bound)
          (condition.mentions ++ Expr.allMentions increment) ++
        Stmt.allFree orderly (Stmt.leading orderly init ++ bound) body)
  | .block body => Stmt.allFree orderly bound body
  | s => unbound bound s.mentions

/-- What statements may read, assign to or call, other than the variables that are bound before them
and those that have been declared among them. -/
def Stmt.allFree (orderly : Bool) (bound : List String) : List Stmt → List Mention
  | [] => []
  | s :: rest => s.free orderly bound ++ Stmt.allFree orderly (s.declares ++ bound) rest

end

/-- What a function may read or assign to without having declared it, and what it may call. -/
def Function.free (orderly : Bool) (f : Function) : List Mention :=
  Stmt.allFree orderly f.params f.body

/-! ## Lines -/

mutual

/-- The lines that a statement marks. -/
def Stmt.lines : Stmt → List SourceLine
  | .line l => [l]
  | .branch _ thenBody => Stmt.allLines thenBody
  | .branchElse _ thenBody elseBody => Stmt.allLines thenBody ++ Stmt.allLines elseBody
  | .whileLoop _ body => Stmt.allLines body
  | .doWhile body _ => Stmt.allLines body
  | .forLoop init _ _ body => Stmt.allLines init ++ Stmt.allLines body
  | .block body => Stmt.allLines body
  | _ => []

/-- The lines that statements mark. -/
def Stmt.allLines : List Stmt → List SourceLine
  | [] => []
  | s :: rest => s.lines ++ Stmt.allLines rest

end

/-! ## Vocabularies -/

/-- What statements may mention. -/
structure Vocabulary where
  /-- The variables that may be read or assigned to. -/
  names : String → Prop
  /-- The functions that may be called. -/
  functions : String → Prop
  /-- The lines that may be marked. -/
  lines : SourceLine → Prop
  /-- Whether loop conditions have to be guards. -/
  counted : Prop

/-- All names and lines, and any loops. -/
def Vocabulary.any : Vocabulary where
  names := fun _ => True
  functions := fun _ => True
  lines := fun _ => True
  counted := False

/-- Whether a vocabulary has a name. -/
def Vocabulary.Has (V : Vocabulary) : Mention → Prop
  | .var name => V.names name
  | .call name => V.functions name

theorem Vocabulary.any_has (m : Mention) : any.Has m := by
  cases m <;> exact trivial

/-- A statement keeps to a vocabulary. -/
structure Stmt.Within (V : Vocabulary) (stmt : Stmt) : Prop where
  mentions : ∀ m ∈ stmt.mentions, V.Has m
  lines : ∀ l ∈ stmt.lines, V.lines l
  guarded : V.counted → stmt.guarded = true

/-- Statements keep to a vocabulary. -/
structure Stmt.AllWithin (V : Vocabulary) (stmts : List Stmt) : Prop where
  mentions : ∀ m ∈ Stmt.allMentions stmts, V.Has m
  lines : ∀ l ∈ Stmt.allLines stmts, V.lines l
  guarded : V.counted → Stmt.allGuarded stmts = true

theorem Stmt.within_any (stmt : Stmt) : stmt.Within .any :=
  ⟨fun m _ => Vocabulary.any_has m, fun _ _ => trivial, False.elim⟩

theorem Stmt.allWithin_any (stmts : List Stmt) : Stmt.AllWithin .any stmts :=
  ⟨fun m _ => Vocabulary.any_has m, fun _ _ => trivial, False.elim⟩

namespace Stmt

variable {V : Vocabulary} {condition : Expr} {thenBody elseBody body : List Stmt}

theorem AllWithin.cons {s : Stmt} {rest : List Stmt} (h : AllWithin V (s :: rest)) :
    s.Within V ∧ AllWithin V rest := by
  obtain ⟨hn, hl, hg⟩ := h
  simp only [allMentions, allLines, allGuarded, List.forall_mem_append,
    Bool.and_eq_true] at hn hl hg
  exact ⟨⟨hn.1, hl.1, fun h => (hg h).1⟩, ⟨hn.2, hl.2, fun h => (hg h).2⟩⟩

/-! A compound statement keeps to a vocabulary only if its parts do. -/

theorem Within.branch (h : (Stmt.branch condition thenBody).Within V) :
    (∀ m ∈ condition.mentions, V.Has m) ∧ AllWithin V thenBody := by
  obtain ⟨hn, hl, hg⟩ := h
  simp only [Stmt.mentions, Stmt.lines, Stmt.guarded, List.forall_mem_append,
    Bool.and_eq_true] at hn hl hg
  exact ⟨hn.1, hn.2, hl, fun h => (hg h).2⟩

theorem Within.branchElse (h : (Stmt.branchElse condition thenBody elseBody).Within V) :
    (∀ m ∈ condition.mentions, V.Has m) ∧ AllWithin V thenBody ∧ AllWithin V elseBody := by
  obtain ⟨hn, hl, hg⟩ := h
  simp only [Stmt.mentions, Stmt.lines, Stmt.guarded, List.forall_mem_append,
    Bool.and_eq_true] at hn hl hg
  exact ⟨hn.1, ⟨hn.2.1, hl.1, fun h => (hg h).1.2⟩, ⟨hn.2.2, hl.2, fun h => (hg h).2⟩⟩

theorem Within.whileLoop (h : (Stmt.whileLoop condition body).Within V) :
    (∀ m ∈ condition.mentions, V.Has m) ∧ (V.counted → condition.isLoopCondition = true) ∧
      AllWithin V body := by
  obtain ⟨hn, hl, hg⟩ := h
  simp only [Stmt.mentions, Stmt.lines, Stmt.guarded, List.forall_mem_append,
    Bool.and_eq_true] at hn hl hg
  exact ⟨hn.1, fun h => (hg h).1, hn.2, hl, fun h => (hg h).2⟩

theorem Within.doWhile (h : (Stmt.doWhile body condition).Within V) :
    (∀ m ∈ condition.mentions, V.Has m) ∧ (V.counted → condition.isLoopCondition = true) ∧
      AllWithin V body := by
  obtain ⟨hn, hl, hg⟩ := h
  simp only [Stmt.mentions, Stmt.lines, Stmt.guarded, List.forall_mem_append,
    Bool.and_eq_true] at hn hl hg
  exact ⟨hn.1, fun h => (hg h).2, hn.2, hl, fun h => (hg h).1⟩

theorem Within.forLoop {init : List Stmt} {increment : List Expr}
    (h : (Stmt.forLoop init condition increment body).Within V) :
    AllWithin V init ∧ (∀ m ∈ condition.mentions, V.Has m) ∧
      (V.counted → condition.isLoopCondition = true) ∧
      (∀ m ∈ Expr.allMentions increment, V.Has m) ∧ AllWithin V body := by
  obtain ⟨hn, hl, hg⟩ := h
  simp only [Stmt.mentions, Stmt.lines, Stmt.guarded, List.forall_mem_append,
    Bool.and_eq_true] at hn hl hg
  exact ⟨⟨hn.1, hl.1, fun h => (hg h).1.1.1⟩, hn.2.1, fun h => (hg h).1.1.2, hn.2.2.1,
    hn.2.2.2, hl.2, fun h => (hg h).2⟩

theorem Within.block (h : (Stmt.block body).Within V) : AllWithin V body :=
  ⟨h.mentions, h.lines, h.guarded⟩

end Stmt

end Stepwise
