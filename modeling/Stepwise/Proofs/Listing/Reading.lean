import Stepwise.Proofs.Listing.Phrases

/-!
# Reading a listing back

The words of an expression are read from left to right.  What has been read waits on two stacks: the
parentheses and brackets that are open, and, inside the last of them, the operators and assignments
whose right operand is still to come.  Signs, steps and assignments are listed without parentheses
around them, so a reader groups them by rule: what follows an operand belongs to the operand alone,
and an assignment has all that precedes it on its left, up to the assignment before it.

* `State.run` reads words, and `Expr.run_words` says what it makes of those of an expression.
* `Expr.regroup` is an expression as a reader groups it.  `Expr.text_regroup` says that it is listed
  in the same way.
* `Expr.text_eq_iff`: two expressions are listed in the same way if and only if they are grouped in
  the same way.
-/

set_option autoImplicit false

namespace Stepwise

namespace Listing

/-! ## Operators that wait for their right operand -/

/-- What stands in front of an operand. -/
inductive Front where
  | unary (op : UnaryOp)
  | increment
  | decrement
  | assign (target : Expr)
  | update (op : BinaryOp) (target : Expr)

namespace Front

/-- The expression with the operand that was waited for. -/
def wrap : Front → Expr → Expr
  | unary op, e => .unary op e
  | increment, e => .step .preInc e
  | decrement, e => .step .preDec e
  | assign target, e => .assign target e
  | update op target, e => .update op target e

/-- Whether it is an assignment. -/
def isAssignment : Front → Bool
  | assign _ => true
  | update _ _ => true
  | _ => false

/-- How it is listed. -/
def text : Front → String
  | unary op => op.symbol
  | increment => "++"
  | decrement => "--"
  | assign target => target.text ++ " = "
  | update op target => target.text ++ " " ++ op.symbol ++ "= "

theorem text_wrap (f : Front) (e : Expr) : (f.wrap e).text = f.text ++ e.text := by
  cases f with
  | update op target =>
    change target.text ++ " " ++ op.symbol ++ "= " ++ e.text = _
    rfl
  | _ => rfl

end Front

/-- All that stands in front of an operand, the nearest first. -/
abbrev Fronts := List Front

namespace Fronts

/-- One more in front of the operand.  Two minus signs are a decrement, and minus signs in a row are
taken as decrements from the left. -/
def push : Front → Fronts → Fronts
  | .unary .neg, .unary .neg :: fs => .decrement :: fs
  | .decrement, .unary .neg :: fs => .unary .neg :: .decrement :: fs
  | f, fs => f :: fs

/-- The expression with the operand. -/
def wrap : Fronts → Expr → Expr
  | [], e => e
  | f :: fs, e => wrap fs (f.wrap e)

/-- The expression with the operand that stands last. -/
def whole (p : Fronts × Expr) : Expr := wrap p.1 p.2

/-- What is left in front of an assignment to the operand: all since the last assignment belongs to
its target. -/
def target : Fronts → Expr → Fronts × Expr
  | [], e => ([], e)
  | f :: fs, e => if f.isAssignment then (f :: fs, e) else target fs (f.wrap e)

/-- How it is listed. -/
def text : Fronts → String
  | [] => ""
  | f :: fs => text fs ++ f.text

theorem text_push (f : Front) (fs : Fronts) : text (push f fs) = text fs ++ f.text := by
  rw [push.eq_def]
  split
  · rw [text, text, String.append_assoc]
    rfl
  · rw [text, text, text, String.append_assoc, String.append_assoc]
    rfl
  · rfl

theorem text_wrap : ∀ (fs : Fronts) (e : Expr), (wrap fs e).text = text fs ++ e.text
  | [], e => String.empty_append.symm
  | f :: fs, e => by rw [wrap, text_wrap fs, f.text_wrap, text, String.append_assoc]

theorem text_target : ∀ (fs : Fronts) (e : Expr),
    text (target fs e).1 ++ (target fs e).2.text = text fs ++ e.text
  | [], e => rfl
  | f :: fs, e => by
    rw [target]
    split
    · rfl
    · rw [text_target fs, f.text_wrap, text, String.append_assoc]

/-- Two minus signs are a decrement, whatever else is in front of them. -/
theorem push_neg_neg (fs : Fronts) :
    push (.unary .neg) (push (.unary .neg) fs) = push .decrement fs := by
  match fs with
  | [] => rfl
  | f :: fs =>
    cases f with
    | unary op => cases op <;> rfl
    | _ => rfl

theorem push_neg_decrement (fs : Fronts) :
    push (.unary .neg) (push .decrement fs) = push .decrement (push (.unary .neg) fs) := by
  match fs with
  | [] => rfl
  | f :: fs =>
    cases f with
    | unary op => cases op <;> rfl
    | _ => rfl

end Fronts

/-! ## Reading -/

/-- A parenthesis or bracket that is open, with what has been read after it. -/
inductive Opening where
  | group
  | left (operand : Expr) (op : BinaryOp)
  | test (condition : Expr)
  | choice (condition thenValue : Expr)
  | args (callee : Expr) (done : List Expr)
  | index (object : Expr)

/-- A call of what has been read. -/
def applied : Expr → List Expr → Expr
  | .var name, args => .call name args
  | .literal l, args => .call l.text args
  | .member object name, args => .method object name args
  | e, _ => e

namespace Opening

/-- The expression that is closed after a last part of it. -/
def close : Opening → Expr → Expr
  | group, e => e
  | left operand op, e => .binary op operand e
  | test _, e => e
  | choice condition thenValue, e => .ternary condition thenValue e
  | args callee done, e => applied callee (done ++ [e])
  | index object, e => .index object e

/-- How reading goes on after a part and a mark between it and the next one. -/
def next : Opening → Mark → Expr → Opening
  | group, .join (.binary op), e => left e op
  | group, .join .question, e => test e
  | test condition, .join .colon, e => choice condition e
  | args callee done, .comma, e => args callee (done ++ [e])
  | o, _, _ => o

end Opening

/-- The values that are written like names, and the names. -/
def named (s : String) : Expr :=
  if s = "true" then .literal (.bool true)
  else if s = "false" then .literal (.bool false)
  else if s = "null" then .literal .null
  else .var s

/-- What has been read: what stands in front of the present operand, the open parentheses and
brackets, each with what stands in front of it, and the operand, if it has been read. -/
structure State where
  fronts : Fronts
  outer : List (Opening × Fronts)
  operand : Option Expr

namespace State

/-- Read a word of an operand, or in front of one. -/
def first (fs : Fronts) (outer : List (Opening × Fronts)) : Word → State
  | .int n => ⟨fs, outer, some (.literal (.int n))⟩
  | .float x => ⟨fs, outer, some (.literal (.float x))⟩
  | .str s => ⟨fs, outer, some (.literal (.str s))⟩
  | .name s => ⟨fs, outer, some (named s)⟩
  | .mark (.unary op) => ⟨.push (.unary op) fs, outer, none⟩
  | .mark .increment => ⟨.push .increment fs, outer, none⟩
  | .mark .decrement => ⟨.push .decrement fs, outer, none⟩
  | .mark .leftParen => ⟨[], (.group, fs) :: outer, none⟩
  | .mark .rightParen =>
    match outer with
    | (.args callee done, before) :: outer => ⟨before, outer, some (applied callee done)⟩
    | _ => ⟨fs, outer, none⟩
  | _ => ⟨fs, outer, none⟩

/-- Read a word after an operand. -/
def after (fs : Fronts) (outer : List (Opening × Fronts)) (e : Expr) : Word → State
  | .member s => ⟨fs, outer, some (.member e s)⟩
  | .mark .increment => ⟨fs, outer, some (.step .postInc e)⟩
  | .mark .decrement => ⟨fs, outer, some (.step .postDec e)⟩
  | .mark .leftParen => ⟨[], (.args e [], fs) :: outer, none⟩
  | .mark .leftBracket => ⟨[], (.index e, fs) :: outer, none⟩
  | .mark (.join .assign) => ⟨.assign (fs.target e).2 :: (fs.target e).1, outer, none⟩
  | .mark (.join (.update op)) => ⟨.update op (fs.target e).2 :: (fs.target e).1, outer, none⟩
  | .mark m =>
    match outer with
    | (o, before) :: outer =>
      if m = .rightParen || m = .rightBracket then ⟨before, outer, some (o.close (fs.wrap e))⟩
      else ⟨[], (o.next m (fs.wrap e), before) :: outer, none⟩
    | [] => ⟨fs, [], some e⟩
  | _ => ⟨fs, outer, some e⟩

/-- Read a word. -/
def step (s : State) (w : Word) : State :=
  match s.operand with
  | none => first s.fronts s.outer w
  | some e => after s.fronts s.outer e w

/-- Read words. -/
def run (s : State) (ws : List Word) : State :=
  ws.foldl step s

variable {fs : Fronts} {outer : List (Opening × Fronts)}

@[simp]
theorem run_nil (s : State) : s.run [] = s := rfl

@[simp]
theorem run_append (s : State) (ws vs : List Word) : s.run (ws ++ vs) = (s.run ws).run vs :=
  List.foldl_append

@[simp]
theorem run_first (w : Word) (ws : List Word) :
    run ⟨fs, outer, none⟩ (w :: ws) = run (first fs outer w) ws := rfl

@[simp]
theorem run_after (e : Expr) (w : Word) (ws : List Word) :
    run ⟨fs, outer, some e⟩ (w :: ws) = run (after fs outer e w) ws := rfl

/-- A minus sign in front of the words is one more in front of the operand. -/
theorem run_negate (ws : List Word) :
    run ⟨fs, outer, none⟩ (negate ws) = run ⟨.push (.unary .neg) fs, outer, none⟩ ws := by
  fun_induction negate ws generalizing fs with
  | case1 ws ih =>
    rw [run_first, run_first, first, ih, first, Fronts.push_neg_decrement]
  | case2 ws => rw [run_first, run_first, first, first, Fronts.push_neg_neg]
  | case3 ws => rfl

theorem run_apply (op : UnaryOp) (ws : List Word) :
    run ⟨fs, outer, none⟩ (apply op ws) = run ⟨.push (.unary op) fs, outer, none⟩ ws := by
  cases op with
  | neg => exact run_negate ws
  | not | bitNot => rfl

end State

end Listing

open Listing

/-! ## Expressions as a reader groups them -/

/-- An infinite number reads like a name. -/
def Literal.regroup : Literal → Expr
  | float x => if x.isFinite then .literal (.float x) else .var "inf"
  | l => .literal l

mutual

/-- What is in front of the last operand of an expression, and the last operand, as a reader groups
them after what is in front of the expression. -/
def Expr.spine (fs : Fronts) : Expr → Fronts × Expr
  | .literal l => (fs, l.regroup)
  | .var name => (fs, named name)
  | .assign target value =>
    let (fs', e) := target.spine fs
    value.spine (.assign (fs'.target e).2 :: (fs'.target e).1)
  | .update op target value =>
    let (fs', e) := target.spine fs
    value.spine (.update op (fs'.target e).2 :: (fs'.target e).1)
  | .step .preInc target => target.spine (.push .increment fs)
  | .step .preDec target => target.spine (.push .decrement fs)
  | .step .postInc target =>
    let (fs', e) := target.spine fs
    (fs', .step .postInc e)
  | .step .postDec target =>
    let (fs', e) := target.spine fs
    (fs', .step .postDec e)
  | .binary op left right =>
    (fs, .binary op (Fronts.whole (left.spine [])) (Fronts.whole (right.spine [])))
  | .unary op operand => operand.spine (.push (.unary op) fs)
  | .ternary condition thenValue elseValue =>
    (fs, .ternary (Fronts.whole (condition.spine []))
      (Fronts.whole (thenValue.spine []))
      (Fronts.whole (elseValue.spine [])))
  | .call name args => (fs, .call name (Expr.regroupAll args))
  | .method object name args =>
    let (fs', e) := object.spine fs
    (fs', .method e name (Expr.regroupAll args))
  | .member object name =>
    let (fs', e) := object.spine fs
    (fs', .member e name)
  | .index object key =>
    let (fs', e) := object.spine fs
    (fs', .index e (Fronts.whole (key.spine [])))
  | .guard condition => (fs, .guard condition)

/-- Expressions as a reader groups them. -/
def Expr.regroupAll : List Expr → List Expr
  | [] => []
  | e :: es => Fronts.whole (e.spine []) :: Expr.regroupAll es

end

/-- An expression as a reader groups it. -/
def Expr.regroup (e : Expr) : Expr :=
  Fronts.whole (e.spine [])

namespace Expr

/-! ## What is read -/

theorem applied_named (name : String) (args : List Expr) :
    applied (named name) args = .call name args := by
  rw [named]
  split
  · next h => rw [h]; rfl
  split
  · next h => rw [h]; rfl
  split
  · next h => rw [h]; rfl
  · rfl

open State

mutual

/-- **What is read from the words of an expression.** -/
theorem run_words : ∀ e : Expr, e.Legible → ∀ (fs : Fronts) (outer : List (Opening × Fronts)),
    run ⟨fs, outer, none⟩ e.words = ⟨(e.spine fs).1, outer, some (e.spine fs).2⟩
  | .literal l, _, fs, outer => by
    rw [words, spine]
    cases l with
    | float x =>
      rw [Literal.word, Literal.regroup]
      split <;> rfl
    | bool b => cases b <;> rfl
    | _ => rfl
  | .var name, _, fs, outer => rfl
  | .assign target value, h, fs, outer => by
    rw [words, run_append, target.run_words h.1, run_after, after, value.run_words h.2]
    rfl
  | .update op target value, h, fs, outer => by
    rw [words, run_append, target.run_words h.2.1, run_after, after, value.run_words h.2.2]
    rfl
  | .step op target, h, fs, outer => by
    cases op with
    | preInc => exact target.run_words h _ outer
    | preDec => exact target.run_words h _ outer
    | postInc =>
      rw [words, stepped, run_append, target.run_words h]
      rfl
    | postDec =>
      rw [words, stepped, run_append, target.run_words h]
      rfl
  | .binary op left right, h, fs, outer => by
    rw [words, run_first, first, run_append, left.run_words h.1, run_after]
    change run ⟨[], (.left _ op, fs) :: outer, none⟩ _ = _
    rw [run_append, right.run_words h.2]
    rfl
  | .unary op operand, h, fs, outer => by
    rw [words, run_apply, operand.run_words h]
    rfl
  | .ternary condition thenValue elseValue, h, fs, outer => by
    rw [words, run_first, first, run_append, condition.run_words h.1, run_after]
    change run ⟨[], (.test _, fs) :: outer, none⟩ _ = _
    rw [run_append, thenValue.run_words h.2.1, run_after]
    change run ⟨[], (.choice _ _, fs) :: outer, none⟩ _ = _
    rw [run_append, elseValue.run_words h.2.2]
    rfl
  | .call name args, h, fs, outer => by
    rw [words, run_first, first, parenthesized, run_after, after, run_arguments args h.2,
      List.nil_append, applied_named]
    rfl
  | .method object name args, h, fs, outer => by
    rw [words, run_append, object.run_words h.1, run_after, after, parenthesized, run_after, after,
      run_arguments args h.2.2]
    rfl
  | .member object name, h, fs, outer => by
    rw [words, run_append, object.run_words h.1]
    rfl
  | .index object key, h, fs, outer => by
    rw [words, run_append, object.run_words h.1, run_after, after, run_append, key.run_words h.2]
    rfl

theorem run_arguments : ∀ es : List Expr, AllLegible es →
    ∀ (callee : Expr) (done : List Expr) (fs : Fronts) (outer : List (Opening × Fronts)),
      run ⟨[], (.args callee done, fs) :: outer, none⟩
          ([Word.mark .comma].intercalate (allWords es) ++ [.mark .rightParen])
        = ⟨fs, outer, some (applied callee (done ++ regroupAll es))⟩
  | [], _, callee, done, fs, outer => by
    rw [regroupAll, List.append_nil]
    rfl
  | [e], h, callee, done, fs, outer => by
    rw [allWords, allWords, List.intercalate_singleton, run_append, e.run_words h.1]
    rfl
  | e :: e' :: es, h, callee, done, fs, outer => by
    have hrest := run_arguments (e' :: es) h.2 callee (done ++ [Fronts.whole (e.spine [])]) fs outer
    rw [allWords] at hrest
    rw [allWords, allWords, List.intercalate_cons_cons, List.append_assoc, List.append_assoc,
      run_append, e.run_words h.1, List.singleton_append, run_after]
    rw [List.append_assoc] at hrest
    exact hrest

end

/-! ## What is listed -/

theorem text_named (s : String) : (named s).text = s := by
  rw [named]
  split
  · next h => rw [h]; rfl
  split
  · next h => rw [h]; rfl
  split
  · next h => rw [h]; rfl
  · rfl

theorem text_literal {l : Literal} (h : l.Legible) : l.regroup.text = l.text := by
  cases l with
  | float x =>
    rw [Literal.regroup]
    split
    · rfl
    · next hfinite => exact (Decimal.write_of_infinite h (Bool.eq_false_iff.2 hfinite)).symm
  | _ => rfl

theorem text_whole {p : Fronts × Expr} {s : String} (h : p.1.text ++ p.2.text = "" ++ s) :
    (Fronts.whole p).text = s := by
  rw [Fronts.whole, Fronts.text_wrap, h, String.empty_append]

mutual

/-- What a reader groups anew is listed as before. -/
theorem text_spine : ∀ e : Expr, e.Legible → ∀ fs : Fronts,
    (e.spine fs).1.text ++ (e.spine fs).2.text = fs.text ++ e.text
  | .literal l, h, fs => congrArg (fs.text ++ ·) (text_literal h)
  | .var name, _, fs => congrArg (fs.text ++ ·) (text_named name)
  | .assign target value, h, fs => by
    have htarget := (Fronts.text_target _ _).trans (target.text_spine h.1 fs)
    rw [spine, value.text_spine h.2, Fronts.text, Front.text]
    change _ = fs.text ++ (target.text ++ " = " ++ value.text)
    simp only [← String.append_assoc, htarget]
  | .update op target value, h, fs => by
    have htarget := (Fronts.text_target _ _).trans (target.text_spine h.2.1 fs)
    rw [spine, value.text_spine h.2.2, Fronts.text, Front.text]
    change _ = fs.text ++ (target.text ++ " " ++ op.symbol ++ "= " ++ value.text)
    simp only [← String.append_assoc, htarget]
  | .step op target, h, fs => by
    have htarget := target.text_spine h
    cases op with
    | preInc | preDec =>
      rw [spine, htarget, Fronts.text_push, String.append_assoc]
      rfl
    | postInc =>
      change _ ++ ((target.spine fs).2.text ++ "++") = fs.text ++ (target.text ++ "++")
      rw [← String.append_assoc, ← String.append_assoc, ← htarget fs]
      rfl
    | postDec =>
      change _ ++ ((target.spine fs).2.text ++ "--") = fs.text ++ (target.text ++ "--")
      rw [← String.append_assoc, ← String.append_assoc, ← htarget fs]
      rfl
  | .binary op left right, h, fs => by
    change fs.text ++ ("(" ++ (Fronts.whole _).text ++ " " ++ op.symbol ++ " "
      ++ (Fronts.whole _).text ++ ")") = _
    rw [text_whole (left.text_spine h.1 []), text_whole (right.text_spine h.2 [])]
    rfl
  | .unary op operand, h, fs => by
    rw [spine, operand.text_spine h, Fronts.text_push, String.append_assoc]
    rfl
  | .ternary condition thenValue elseValue, h, fs => by
    change fs.text ++ ("(" ++ (Fronts.whole _).text ++ " ? " ++ (Fronts.whole _).text ++ " : "
      ++ (Fronts.whole _).text ++ ")") = _
    rw [text_whole (condition.text_spine h.1 []), text_whole (thenValue.text_spine h.2.1 []),
      text_whole (elseValue.text_spine h.2.2 [])]
    rfl
  | .call name args, h, fs => by
    change fs.text ++ (name ++ "(" ++ commaJoin (texts (regroupAll args)) ++ ")") = _
    rw [texts_regroupAll args h.2]
    rfl
  | .method object name args, h, fs => by
    change _ ++ ((object.spine fs).2.text ++ "." ++ name ++ "("
      ++ commaJoin (texts (regroupAll args)) ++ ")") = fs.text ++ (object.text ++ "." ++ name ++ "("
      ++ commaJoin (texts args) ++ ")")
    rw [texts_regroupAll args h.2.2]
    simp only [← String.append_assoc, ← object.text_spine h.1 fs]
    rfl
  | .member object name, h, fs => by
    change _ ++ ((object.spine fs).2.text ++ "." ++ name) = fs.text ++ (object.text ++ "." ++ name)
    simp only [← String.append_assoc, ← object.text_spine h.1 fs]
    rfl
  | .index object key, h, fs => by
    change _ ++ ((object.spine fs).2.text ++ "[" ++ (Fronts.whole _).text ++ "]")
      = fs.text ++ (object.text ++ "[" ++ key.text ++ "]")
    rw [text_whole (key.text_spine h.2 [])]
    simp only [← String.append_assoc, ← object.text_spine h.1 fs]
    rfl

theorem texts_regroupAll : ∀ es : List Expr, AllLegible es → texts (regroupAll es) = texts es
  | [], _ => rfl
  | e :: es, h => by
    rw [regroupAll, texts, texts, texts_regroupAll es h.2, text_whole (e.text_spine h.1 [])]

end

/-- **An expression is listed as a reader groups it.** -/
theorem text_regroup {e : Expr} (h : e.Legible) : e.regroup.text = e.text :=
  text_whole (e.text_spine h [])

/-- **Expressions are listed alike if and only if they are grouped alike.** -/
theorem text_eq_iff {e e' : Expr} (h : e.Legible) (h' : e'.Legible) :
    e.text = e'.text ↔ e.regroup = e'.regroup := by
  constructor
  · intro htext
    have hwords : e.words = e'.words := by
      refine flatMap_chars_inj (e.phrase_words h).legible (e'.phrase_words h').legible ?_
      rw [← e.toList_text h, ← e'.toList_text h', htext]
    have hrun := e.run_words h [] []
    rw [hwords, e'.run_words h' [] []] at hrun
    obtain ⟨hfronts, -, hlast⟩ := State.mk.inj hrun
    rw [regroup, regroup, Fronts.whole, Fronts.whole, hfronts, Option.some.inj hlast]
  · intro hgroup
    rw [← text_regroup h, hgroup, text_regroup h']

end Expr

end Stepwise
