import Stepwise.Proofs.Listing.Words

/-!
# Expressions as words

An expression is listed word by word, and its words may stand next to each other.  The only words
that are not those of a single part of it are decrements: a minus sign in front of what begins with
a minus sign makes one, whatever the signs meant.

* `Expr.Legible` are the expressions that can be listed without doubt about their words.
* `Expr.words` are the words of an expression, and `Expr.toList_text` says that they are its text.
* `Expr.phrase_words`: a reader sees where they end.
-/

set_option autoImplicit false

namespace Stepwise

open Listing

/-! ## Legible expressions -/

/-- Numbers have no sign. -/
def Literal.Legible : Literal → Prop
  | int n => 0 ≤ n.toInt
  | float x => Binary64.IsUnsigned x
  | _ => True

mutual

/-- The expression is made of what a source text can have: numbers without a sign, names, and the
combined assignments that there are.  There are no guards. -/
def Expr.Legible : Expr → Prop
  | .literal l => l.Legible
  | .var name => TokenKind.isName name = true
  | .assign target value => target.Legible ∧ value.Legible
  | .update op target value =>
    Connective.updates.contains op = true ∧ target.Legible ∧ value.Legible
  | .step _ target => target.Legible
  | .binary _ left right => left.Legible ∧ right.Legible
  | .unary _ operand => operand.Legible
  | .ternary condition thenValue elseValue =>
    condition.Legible ∧ thenValue.Legible ∧ elseValue.Legible
  | .call name args => TokenKind.isName name = true ∧ Expr.AllLegible args
  | .method object name args =>
    object.Legible ∧ TokenKind.isName name = true ∧ Expr.AllLegible args
  | .member object name => object.Legible ∧ TokenKind.isName name = true
  | .index object key => object.Legible ∧ key.Legible
  | .guard _ => False

/-- All expressions of a list are legible. -/
def Expr.AllLegible : List Expr → Prop
  | [] => True
  | e :: es => e.Legible ∧ Expr.AllLegible es

end

/-! ## Their words -/

/-- The word of a literal. -/
def Literal.word : Literal → Word
  | int n => .int n
  | float x => if x.isFinite then .float x else .name "inf"
  | str s => .str s
  | bool b => .name (if b then "true" else "false")
  | null => .name "null"

/-- The words with a minus sign in front.  The first two minus signs are a decrement. -/
def Listing.negate : List Word → List Word
  | .mark .decrement :: ws => .mark .decrement :: negate ws
  | .mark (.unary .neg) :: ws => .mark .decrement :: ws
  | ws => .mark (.unary .neg) :: ws

/-- The words with a unary operator in front. -/
def Listing.apply (op : UnaryOp) (ws : List Word) : List Word :=
  match op with
  | .neg => negate ws
  | _ => .mark (.unary op) :: ws

/-- The words with a step around them. -/
def Listing.stepped (op : StepOp) (ws : List Word) : List Word :=
  match op with
  | .preInc => .mark .increment :: ws
  | .preDec => .mark .decrement :: ws
  | .postInc => ws ++ [.mark .increment]
  | .postDec => ws ++ [.mark .decrement]

/-- Arguments with commas between them, and the parentheses around them. -/
def Listing.parenthesized (args : List (List Word)) : List Word :=
  .mark .leftParen :: ([Word.mark .comma].intercalate args ++ [.mark .rightParen])

mutual

/-- The words of an expression. -/
def Expr.words : Expr → List Word
  | .literal l => [l.word]
  | .var name => [.name name]
  | .assign target value => target.words ++ .mark (.join .assign) :: value.words
  | .update op target value => target.words ++ .mark (.join (.update op)) :: value.words
  | .step op target => stepped op target.words
  | .binary op left right =>
    .mark .leftParen :: (left.words ++ .mark (.join (.binary op)) ::
      (right.words ++ [.mark .rightParen]))
  | .unary op operand => apply op operand.words
  | .ternary condition thenValue elseValue =>
    .mark .leftParen :: (condition.words ++ .mark (.join .question) ::
      (thenValue.words ++ .mark (.join .colon) :: (elseValue.words ++ [.mark .rightParen])))
  | .call name args => .name name :: parenthesized (Expr.allWords args)
  | .method object name args =>
    object.words ++ .member name :: parenthesized (Expr.allWords args)
  | .member object name => object.words ++ [.member name]
  | .index object key =>
    object.words ++ .mark .leftBracket :: (key.words ++ [.mark .rightBracket])
  | .guard condition => condition.words

/-- The words of each expression of a list. -/
def Expr.allWords : List Expr → List (List Word)
  | [] => []
  | e :: es => e.words :: Expr.allWords es

end

/-! ## The text of words -/

namespace Listing

theorem chars_negate (ws : List Word) :
    (negate ws).flatMap Word.chars = '-' :: ws.flatMap Word.chars := by
  fun_induction negate ws with
  | case1 ws ih =>
    rw [List.flatMap_cons, ih]
    rfl
  | case2 => rfl
  | case3 => rfl

theorem chars_apply (op : UnaryOp) (ws : List Word) :
    (apply op ws).flatMap Word.chars = op.symbol.toList ++ ws.flatMap Word.chars := by
  cases op with
  | neg => exact chars_negate ws
  | not => rfl
  | bitNot => rfl

theorem chars_stepped (op : StepOp) {ws : List Word} {s : String}
    (h : s.toList = ws.flatMap Word.chars) :
    (op.wrap s).toList = (stepped op ws).flatMap Word.chars := by
  cases op <;> simp [StepOp.wrap, stepped, Word.chars, Mark.chars, h]

theorem chars_intercalate : ∀ args : List (List Word),
    ([Word.mark .comma].intercalate args).flatMap Word.chars
      = [',', ' '].intercalate (args.map (List.flatMap Word.chars))
  | [] => rfl
  | [ws] => by simp
  | ws :: vs :: args => by
    have hrest := chars_intercalate (vs :: args)
    rw [List.map_cons] at hrest
    rw [List.map_cons, List.map_cons, List.intercalate_cons_cons, List.intercalate_cons_cons,
      ← hrest]
    simp [Word.chars, Mark.chars]

end Listing

theorem Literal.toList_text {l : Literal} (h : l.Legible) : l.text.toList = l.word.chars := by
  cases l with
  | float x =>
    rw [word]
    split
    · rfl
    · next hfinite =>
      have htext := Decimal.write_of_infinite h (Bool.eq_false_iff.2 hfinite)
      exact congrArg String.toList htext
  | bool b => cases b <;> rfl
  | _ => rfl

namespace Expr

theorem toList_parenthesized {args : List String} {ws : List (List Word)}
    (h : args.map String.toList = ws.map (List.flatMap Word.chars)) :
    ("(" ++ commaJoin args ++ ")").toList = (parenthesized ws).flatMap Word.chars := by
  rw [parenthesized, List.flatMap_cons, List.flatMap_append, chars_intercalate, ← h,
    String.toList_append, String.toList_append, commaJoin, String.toList_intercalate]
  rfl

mutual

/-- **The words of an expression are its text.** -/
theorem toList_text : ∀ e : Expr, e.Legible → e.text.toList = e.words.flatMap Word.chars
  | .literal l, h => (Literal.toList_text h).trans (List.flatMap_singleton _ _).symm
  | .var name, _ => (List.flatMap_singleton Word.chars (.name name)).symm
  | .assign target value, h => by
    change (target.text ++ " = " ++ value.text).toList = _
    simp [words, Word.chars, Mark.chars, Connective.symbol, target.toList_text h.1,
      value.toList_text h.2]
  | .update op target value, h => by
    change (target.text ++ " " ++ op.symbol ++ "= " ++ value.text).toList = _
    simp [words, Word.chars, Mark.chars, Connective.symbol, target.toList_text h.2.1,
      value.toList_text h.2.2]
  | .step op target, h => chars_stepped op (target.toList_text h)
  | .binary op left right, h => by
    change ("(" ++ left.text ++ " " ++ op.symbol ++ " " ++ right.text ++ ")").toList = _
    simp [words, Word.chars, Mark.chars, Connective.symbol, left.toList_text h.1,
      right.toList_text h.2]
  | .unary op operand, h => by
    change (op.symbol ++ operand.text).toList = _
    rw [words, chars_apply, String.toList_append, operand.toList_text h]
  | .ternary condition thenValue elseValue, h => by
    change ("(" ++ condition.text ++ " ? " ++ thenValue.text ++ " : " ++ elseValue.text
      ++ ")").toList = _
    simp [words, Word.chars, Mark.chars, Connective.symbol, condition.toList_text h.1,
      thenValue.toList_text h.2.1, elseValue.toList_text h.2.2]
  | .call name args, h => by
    have hargs := toList_parenthesized (map_toList_texts args h.2)
    change (name ++ "(" ++ commaJoin (texts args) ++ ")").toList = _
    rw [words, List.flatMap_cons, ← hargs]
    simp [Word.chars]
  | .method object name args, h => by
    have hargs := toList_parenthesized (map_toList_texts args h.2.2)
    change (object.text ++ "." ++ name ++ "(" ++ commaJoin (texts args) ++ ")").toList = _
    rw [words, List.flatMap_append, List.flatMap_cons, ← hargs]
    simp [Word.chars, object.toList_text h.1]
  | .member object name, h => by
    change (object.text ++ "." ++ name).toList = _
    simp [words, Word.chars, object.toList_text h.1]
  | .index object key, h => by
    change (object.text ++ "[" ++ key.text ++ "]").toList = _
    simp [words, Word.chars, Mark.chars, object.toList_text h.1, key.toList_text h.2]

theorem map_toList_texts : ∀ es : List Expr, AllLegible es →
    (texts es).map String.toList = (allWords es).map (List.flatMap Word.chars)
  | [], _ => rfl
  | e :: es, h => by
    rw [texts, allWords, List.map_cons, List.map_cons, e.toList_text h.1, map_toList_texts es h.2]

end

end Expr

/-! ## Phrases -/

/-- Whether the word can be the last one of an expression. -/
def Listing.Word.closes : Word → Bool
  | .mark .rightParen => true
  | .mark .rightBracket => true
  | .mark .increment => true
  | .mark .decrement => true
  | .mark _ => false
  | _ => true

/-- Whether there is a word other than a mark. -/
def Listing.isSpelled (ws : List Word) : Bool :=
  ws.any fun w => w.lead != .mark

/-- Legible words, of which the last one can be that of an expression. -/
structure Listing.Phrase (ws : List Word) : Prop where
  legible : Legible ws
  closes : ∃ w ∈ ws.getLast?, w.closes = true

namespace Listing

namespace Word

theorem mayPrecede_of_closes {w v : Word} (hw : w.closes = true)
    (hv : (v.lead = .dot || v.lead = .mark) = true) : w.mayPrecede v = true := by
  cases w with
  | str => rfl
  | mark m =>
    cases m with
    | unary => cases hw
    | _ => rfl
  | _ => exact hv

theorem mayPrecede_mark {m : Mark} (hm : m ≠ .unary .neg) (v : Word) :
    (mark m).mayPrecede v = true := by
  cases m with
  | unary op =>
    cases op with
    | neg => exact absurd rfl hm
    | not => rfl
    | bitNot => rfl
  | _ => rfl

end Word

namespace Phrase

variable {w v : Word} {ws vs : List Word}

theorem singleton (hw : w.Legible) (h : w.closes = true) : Phrase [w] :=
  ⟨⟨List.forall_mem_singleton.2 hw, List.isChain_singleton w⟩, w, rfl, h⟩

theorem ne_nil (h : Phrase ws) : ws ≠ [] := by
  rintro rfl
  obtain ⟨w, hw, -⟩ := h.closes
  cases hw

/-- A word in front of a phrase. -/
theorem cons (h : Phrase ws) (hw : w.Legible) (hjoin : ∀ v ∈ ws.head?, w.mayPrecede v = true) :
    Phrase (w :: ws) := by
  refine ⟨⟨List.forall_mem_cons.2 ⟨hw, h.legible.words⟩, ?_⟩, ?_⟩
  · exact List.isChain_cons.2 ⟨hjoin, h.legible.spaced⟩
  · rw [List.getLast?_cons_of_ne_nil h.ne_nil]
    exact h.closes

/-- A mark in front of a phrase. -/
theorem mark {m : Mark} (h : Phrase ws) (hm : m.isLegible = true) (hneg : m ≠ .unary .neg) :
    Phrase (.mark m :: ws) :=
  h.cons hm fun v _ => Word.mayPrecede_mark hneg v

/-- A phrase goes on with a dot or a mark. -/
theorem append (h : Phrase ws) (h' : Phrase (v :: vs))
    (hv : (v.lead = .dot || v.lead = .mark) = true) : Phrase (ws ++ v :: vs) := by
  obtain ⟨x, hx, hclose⟩ := h.closes
  refine ⟨⟨List.forall_mem_append.2 ⟨h.legible.words, h'.legible.words⟩, ?_⟩, ?_⟩
  · refine List.isChain_append.2 ⟨h.legible.spaced, h'.legible.spaced, ?_⟩
    intro a ha b hb
    obtain rfl := Option.some.inj (hx.symm.trans ha)
    obtain rfl := Option.some.inj hb
    exact Word.mayPrecede_of_closes hclose hv
  · rw [List.getLast?_append_of_ne_nil _ (List.cons_ne_nil v vs)]
    exact h'.closes

/-- A phrase closed by a mark. -/
theorem close {m : Mark} (h : Phrase ws) (hm : m.isLegible = true)
    (hclose : (Word.mark m).closes = true) : Phrase (ws ++ [.mark m]) :=
  h.append (singleton hm hclose) rfl

/-- Two phrases with a connective between them. -/
theorem join {c : Connective} (h : Phrase ws) (h' : Phrase vs) (hc : c.isLegible = true) :
    Phrase (ws ++ .mark (.join c) :: vs) :=
  h.append (h'.mark hc (by rintro ⟨⟩)) rfl

/-- What is left of a phrase after a mark that is not all of it. -/
theorem of_mark {m : Mark} (h : Phrase (.mark m :: ws)) (hs : isSpelled ws = true) : Phrase ws := by
  have hne : ws ≠ [] := by
    rintro rfl
    cases hs
  have hclose := h.closes
  rw [List.getLast?_cons_of_ne_nil hne] at hclose
  exact ⟨h.legible.tail, hclose⟩

/-- A minus sign in front of a phrase. -/
theorem negate (h : Phrase ws) (hs : isSpelled ws = true) : Phrase (negate ws) := by
  fun_induction Listing.negate ws with
  | case1 ws ih => exact (ih (h.of_mark hs) hs).mark rfl nofun
  | case2 ws => exact (h.of_mark hs).mark rfl nofun
  | case3 ws hdec hneg =>
    refine h.cons rfl fun v hv => ?_
    obtain ⟨vs, rfl⟩ := List.head?_eq_some_iff.1 hv
    cases v with
    | mark m =>
      cases m with
      | unary op =>
        cases op with
        | neg => exact absurd rfl (hneg vs)
        | not => rfl
        | bitNot => rfl
      | decrement => exact absurd rfl (hdec vs)
      | _ => rfl
    | _ => rfl

theorem apply (op : UnaryOp) (h : Phrase ws) (hs : isSpelled ws = true) : Phrase (apply op ws) := by
  cases op with
  | neg => exact h.negate hs
  | not => exact h.mark rfl nofun
  | bitNot => exact h.mark rfl nofun

theorem stepped (op : StepOp) (h : Phrase ws) : Phrase (stepped op ws) := by
  cases op with
  | preInc => exact h.mark rfl nofun
  | preDec => exact h.mark rfl nofun
  | postInc => exact h.close rfl rfl
  | postDec => exact h.close rfl rfl

theorem intercalate : ∀ {args : List (List Word)}, args ≠ [] → (∀ ws ∈ args, Phrase ws) →
    Phrase ([Word.mark .comma].intercalate args)
  | [], hne, _ => absurd rfl hne
  | [ws], _, h => by
    rw [List.intercalate_singleton]
    exact h ws List.mem_cons_self
  | ws :: vs :: args, _, h => by
    obtain ⟨hws, hrest⟩ := List.forall_mem_cons.1 h
    have hargs := intercalate (List.cons_ne_nil vs args) hrest
    rw [List.intercalate_cons_cons, List.append_assoc]
    exact hws.append (hargs.mark rfl nofun) rfl

theorem parenthesized {args : List (List Word)} (h : ∀ ws ∈ args, Phrase ws) :
    Phrase (parenthesized args) := by
  rcases List.eq_nil_or_concat args with rfl | ⟨init, last, rfl⟩
  · exact (singleton (w := .mark .rightParen) rfl rfl).mark rfl nofun
  · exact ((intercalate (by simp) h).close rfl rfl).mark rfl nofun

end Phrase

end Listing

namespace Expr

@[simp]
theorem isSpelled_negate (ws : List Word) : isSpelled (negate ws) = isSpelled ws := by
  fun_induction negate ws with
  | case1 ws ih => exact ih
  | case2 | case3 => rfl

theorem isSpelled_apply (op : UnaryOp) (ws : List Word) :
    isSpelled (apply op ws) = isSpelled ws := by
  cases op with
  | neg => exact isSpelled_negate ws
  | not | bitNot => rfl

theorem isSpelled_stepped (op : StepOp) (ws : List Word) :
    isSpelled (stepped op ws) = isSpelled ws := by
  cases op with
  | preInc | preDec => rfl
  | postInc | postDec => exact List.any_append.trans (Bool.or_false _)

theorem isSpelled_append {ws : List Word} (h : isSpelled ws = true) (vs : List Word) :
    isSpelled (ws ++ vs) = true := by
  rw [isSpelled, List.any_append, Bool.or_eq_true]
  exact .inl h

/-- Every expression has a name or a literal in it. -/
theorem isSpelled_words : ∀ e : Expr, isSpelled e.words = true
  | .literal l => by
    cases l with
    | float x =>
      rw [words, Literal.word]
      split <;> rfl
    | _ => rfl
  | .var _ => rfl
  | .assign target _ => isSpelled_append target.isSpelled_words _
  | .update _ target _ => isSpelled_append target.isSpelled_words _
  | .step op target => (isSpelled_stepped op _).trans target.isSpelled_words
  | .binary _ left _ => isSpelled_append left.isSpelled_words _
  | .unary op operand => (isSpelled_apply op _).trans operand.isSpelled_words
  | .ternary condition _ _ => isSpelled_append condition.isSpelled_words _
  | .call _ _ => rfl
  | .method object _ _ => isSpelled_append object.isSpelled_words _
  | .member object _ => isSpelled_append object.isSpelled_words _
  | .index object _ => isSpelled_append object.isSpelled_words _
  | .guard condition => condition.isSpelled_words

theorem legible_word {l : Literal} (h : l.Legible) : l.word.Legible ∧ l.word.closes = true := by
  cases l with
  | float x =>
    rw [Literal.word]
    split
    · next hfinite => exact ⟨⟨h, hfinite⟩, rfl⟩
    · exact ⟨rfl, rfl⟩
  | int n => exact ⟨h, rfl⟩
  | str s => exact ⟨trivial, rfl⟩
  | bool b => cases b <;> exact ⟨rfl, rfl⟩
  | null => exact ⟨rfl, rfl⟩

mutual

/-- **A reader sees where the words of an expression end.** -/
theorem phrase_words : ∀ e : Expr, e.Legible → Phrase e.words
  | .literal _, h => .singleton (legible_word h).1 (legible_word h).2
  | .var _, h => .singleton h rfl
  | .assign target value, h => (target.phrase_words h.1).join (value.phrase_words h.2) rfl
  | .update _ target value, h => (target.phrase_words h.2.1).join (value.phrase_words h.2.2) h.1
  | .step op target, h => (target.phrase_words h).stepped op
  | .binary _ left right, h =>
    ((left.phrase_words h.1).join ((right.phrase_words h.2).close rfl rfl) rfl).mark rfl nofun
  | .unary op operand, h => (operand.phrase_words h).apply op operand.isSpelled_words
  | .ternary condition thenValue elseValue, h =>
    have hvalues := (thenValue.phrase_words h.2.1).join
      ((elseValue.phrase_words h.2.2).close rfl rfl) rfl
    ((condition.phrase_words h.1).join hvalues rfl).mark rfl nofun
  | .call name args, h =>
    (Phrase.singleton (w := .name name) h.1 rfl).append
      (.parenthesized (phrase_allWords args h.2)) rfl
  | .method object name args, h =>
    have hcall := (Phrase.singleton (w := .member name) h.2.1 rfl).append
      (.parenthesized (phrase_allWords args h.2.2)) rfl
    (object.phrase_words h.1).append hcall rfl
  | .member object _, h => (object.phrase_words h.1).append (.singleton h.2 rfl) rfl
  | .index object key, h =>
    (object.phrase_words h.1).append (((key.phrase_words h.2).close rfl rfl).mark rfl nofun) rfl

theorem phrase_allWords : ∀ es : List Expr, AllLegible es → ∀ ws ∈ allWords es, Phrase ws
  | [], _ => nofun
  | e :: es, h => List.forall_mem_cons.2 ⟨e.phrase_words h.1, phrase_allWords es h.2⟩

end

end Expr

end Stepwise
