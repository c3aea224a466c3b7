import Stepwise.Proofs.Surface.Syntax

/-!
# Expressions are read back

An expression is read where it is an operand, where it is one of a list and where it stands on its
own.  All three follow from `Surface.Expr.Readable`, which says that it is read without parentheses
around it, given enough nesting levels.

* There is one lemma for each form of expression, which assumes that its parts are readable.
* `Surface.Expr.readable` says that every expression is readable, and
  `Surface.Expr.reads_written` that it is read on its own.
-/

set_option autoImplicit false

namespace Stepwise

/-- Whether an expression may begin with the token. -/
def TokenKind.startsExpr (k : TokenKind) : Bool :=
  k.startsOperand || (UnaryOp.ofToken? k).isSome || k.isSymbol .plusPlus || k.isSymbol .minusMinus

theorem TokenKind.isType_of_startsExpr {k : TokenKind} (h : k.startsExpr = true) :
    (!k.isType) = true := by
  cases k with
  | type => cases h
  | _ => rfl

namespace Surface

open Stepwise.Parser

theorem Name.ne_endl (name : Name) : name.text ≠ "endl" := fun h =>
  name.not_reserved (h ▸ List.mem_cons_self)

namespace Expr

/-! ## First tokens -/

-- what an expression is written as, and how deeply, is opened in most of the proofs
attribute [local simp] tokens listed levels listLevels

theorem begins_operand (e : Expr) : Begins TokenKind.startsOperand e.operand := by
  cases e with
  | literal l =>
    refine begins_cons ?_
    rw [TokenKind.startsOperand, l.literal?_token]
    rfl
  | _ => exact begins_cons rfl

theorem begins_operand_append (e : Expr) (ks : List TokenKind) :
    Begins TokenKind.startsExpr (e.operand ++ ks) := by
  refine (e.begins_operand.imp fun k hk => ?_).append ks
  rw [TokenKind.startsExpr, hk]
  rfl

theorem begins_tokens (e : Expr) : Begins TokenKind.startsExpr e.tokens := by
  cases e with
  | literal l => exact begins_operand_append (literal l) []
  | var name => exact begins_cons rfl
  | assign target value => exact begins_operand_append target _
  | update op target value => exact begins_operand_append target _
  | step op target =>
    rw [tokens]
    cases op with
    | preInc | preDec => exact begins_cons rfl
    | postInc | postDec => exact begins_operand_append target _
  | binary op left right => exact begins_operand_append left _
  | unary op operand =>
    rw [tokens]
    cases op <;> exact begins_cons rfl
  | ternary condition thenValue elseValue => exact begins_operand_append condition _
  | call name args => exact begins_cons rfl
  | method object name args => exact begins_operand_append object _
  | member object name => exact begins_operand_append object _
  | index object key => exact begins_operand_append object _

theorem begins_written (e : Expr) : Begins TokenKind.startsExpr e.written := by
  rw [written, parens]
  split
  · exact begins_cons rfl
  · exact e.begins_tokens

/-- A parenthesis that begins an operand does not begin a cast. -/
theorem begins_after_paren (e : Expr) (ks : List TokenKind) {rest : List TokenKind}
    (h : e.operand ++ ks = .symbol .leftParen :: rest) : Begins (fun k => !k.isType) rest := by
  rw [operand, parens] at h
  split at h
  · obtain rfl := (List.cons.inj h).2
    exact ((e.begins_tokens.imp fun _ => TokenKind.isType_of_startsExpr).append _).append _
  · rename_i hatom
    cases e with
    | literal l =>
      have hl := l.literal?_token
      rw [(List.cons.inj h).1] at hl
      cases hl
    | var name => cases (List.cons.inj h).1
    | _ => exact absurd rfl hatom

/-! ## Parts -/

/-- The expression is read, without parentheses around it, if enough nesting levels are left. -/
def Readable (e : Expr) : Prop :=
  ∀ depth, e.levels ≤ depth →
    Reads (assignment (inner depth)) e.tokens TokenKind.endsExpr e.lower

section Parts

variable {e : Expr} {depth : Nat} (h : e.Readable)

include h

theorem Readable.primary (hd : e.operandLevels ≤ depth) :
    Reads (primary (inner depth)) e.operand anything e.lower := by
  cases hatom : e.isAtom with
  | true =>
    cases e with
    | literal l => exact reads_primary_literal l.literal?_token
    | var name => exact reads_primary_var name.ne_endl
    | _ => cases hatom
  | false =>
    rw [operandLevels, hatom] at hd
    rw [operand, hatom]
    cases depth with
    | zero => cases hd
    | succ depth => exact reads_primary_paren (h depth (Nat.le_of_succ_le_succ hd))

/-- An operand and what follows it. -/
theorem Readable.trailing (hd : e.operandLevels ≤ depth) {ks : List TokenKind}
    {e' : Stepwise.Expr}
    (ht : ∀ fuel, Reads (trailers (inner depth) (fuel + 1) e.lower) ks TokenKind.endsOperand e') :
    Reads (Parser.unary (inner depth)) (e.operand ++ ks) TokenKind.endsOperand e' :=
  reads_unary_operand (reads_operand (h.primary hd) ht) (e.begins_operand.append ks)
    fun _ => e.begins_after_paren ks

theorem Readable.unary (hd : e.operandLevels ≤ depth) :
    Reads (Parser.unary (inner depth)) e.operand TokenKind.endsOperand e.lower := by
  have hend := h.trailing hd fun fuel => reads_trailers_nil (fuel + 1) e.lower
  rwa [List.append_nil] at hend

theorem Readable.ternary (hd : e.operandLevels ≤ depth) :
    Reads (Parser.ternary (inner depth)) e.operand TokenKind.endsChoice e.lower :=
  reads_ternary_chain (reads_binary_operand (h.unary hd))

/-- An operand one nesting level deeper. -/
theorem Readable.deeper (hd : e.operandLevels + 1 ≤ depth) :
    Reads (inner depth).expression e.operand TokenKind.endsExpr e.lower ∧
      Reads (inner depth).ternary e.operand TokenKind.endsChoice e.lower ∧
      Reads (inner depth).unary e.operand TokenKind.endsOperand e.lower := by
  cases depth with
  | zero => cases hd
  | succ depth =>
    have hle := Nat.le_of_succ_le_succ hd
    exact ⟨reads_assignment_operand (h.unary hle), h.ternary hle, h.unary hle⟩

/-- An expression on its own. -/
theorem Readable.written (hd : e.ownLevels ≤ depth) :
    Reads (inner depth).expression e.written TokenKind.endsExpr e.lower := by
  cases hgroup : e.isGrouped with
  | true =>
    have hatom : e.isAtom = false := by
      cases e with
      | literal | var => cases hgroup
      | _ => rfl
    have hsame : e.written = e.operand := by rw [Expr.written, operand, hgroup, hatom]; rfl
    rw [hsame]
    refine (h.deeper ?_).1
    rw [ownLevels, hgroup] at hd
    rwa [operandLevels, hatom]
  | false =>
    rw [ownLevels, hgroup] at hd
    rw [Expr.written, hgroup]
    cases depth with
    | zero => cases hd
    | succ depth => exact h depth (Nat.le_of_succ_le_succ hd)

end Parts

theorem readable_arguments {es : List Expr} {depth : Nat} (h : ∀ e ∈ es, e.Readable)
    (hd : listLevels es ≤ depth) :
    Reads (arguments (inner depth)) (commaTokens (listed es) ++ [.symbol .rightParen]) anything
      (lowerAll es) := by
  rw [listLevels_le_iff] at hd
  have hargs := @reads_arguments (inner depth) (es.map fun e => (e.written, e.lower))
    (List.forall_mem_map.2 fun e he => (h e he).written (hd e he))
    (List.forall_mem_map.2 fun e _ => e.begins_written.imp fun k hk => by
      cases k with
      | symbol c => cases c <;> first | rfl | cases hk
      | _ => rfl)
  rw [List.map_map, List.map_map] at hargs
  rw [listed_eq_map, lowerAll_eq_map]
  exact hargs

/-! ## Forms -/

theorem readable_literal (l : Literal) : (literal l).Readable := fun _ _ =>
  reads_assignment_operand (reads_unary_operand
    (reads_operand_nil (reads_primary_literal l.literal?_token)) (begins_operand (literal l))
    fun _ h => begins_after_paren (literal l) [] h)

theorem readable_var (name : Name) : (var name).Readable := fun _ _ =>
  reads_assignment_operand (reads_unary_operand
    (reads_operand_nil (reads_primary_var name.ne_endl)) (begins_cons rfl) nofun)

theorem readable_assign {target value : Expr} (ht : target.Readable) (hv : value.Readable) :
    (assign target value).Readable := by
  intro depth hd
  rw [levels, Nat.max_le] at hd
  exact reads_assignment_assign (ht.ternary hd.1) (hv.deeper hd.2).1

theorem readable_update (op : UpdateOp) {target value : Expr} (ht : target.Readable)
    (hv : value.Readable) : (update op target value).Readable := by
  intro depth hd
  rw [levels, Nat.max_le] at hd
  exact reads_assignment_update op.ofAssignment?_token (ht.ternary hd.1) (hv.deeper hd.2).1

theorem readable_step (op : StepOp) {target : Expr} (ht : target.Readable) :
    (step op target).Readable := by
  intro depth hd
  rw [levels] at hd
  rw [tokens]
  refine reads_assignment_operand ?_
  cases hpost : op.isPost with
  | true =>
    rw [hpost] at hd
    exact ht.trailing hd fun fuel => reads_trailers_step hpost fuel
  | false =>
    rw [hpost] at hd
    exact reads_unary_step hpost (ht.deeper hd).2.2

theorem readable_binary (op : BinaryOp) {left right : Expr} (hl : left.Readable)
    (hr : right.Readable) : (binary op left right).Readable := by
  intro depth hd
  rw [levels, Nat.max_le] at hd
  exact reads_assignment_choice (reads_ternary_chain
    (reads_binary_op (hl.unary hd.1) (hr.unary hd.2)))

theorem readable_unary (op : UnaryOp) {operand : Expr} (h : operand.Readable) :
    (unary op operand).Readable := by
  intro depth hd
  rw [levels] at hd
  exact reads_assignment_operand (reads_unary_op (h.deeper hd).2.2)

theorem readable_ternary {condition thenValue elseValue : Expr} (hc : condition.Readable)
    (ha : thenValue.Readable) (hb : elseValue.Readable) :
    (ternary condition thenValue elseValue).Readable := by
  intro depth hd
  rw [levels, Nat.max_le, Nat.succ_le_iff, Nat.max_lt] at hd
  exact reads_assignment_choice (reads_ternary_choice (reads_binary_operand (hc.unary hd.1))
    (ha.deeper hd.2.1).1 (hb.deeper hd.2.2).2.1)

theorem readable_call (name : Name) {args : List Expr} (h : ∀ e ∈ args, e.Readable) :
    (call name args).Readable := fun _ hd =>
  reads_assignment_operand ((readable_var name).trailing (Nat.zero_le _) fun fuel =>
    reads_trailers_call name.text (readable_arguments h hd) fuel)

theorem readable_method {object : Expr} (ho : object.Readable) (name : Name) {args : List Expr}
    (h : ∀ e ∈ args, e.Readable) : (method object name args).Readable := by
  intro depth hd
  rw [levels, Nat.max_le] at hd
  refine reads_assignment_operand (ho.trailing hd.1 fun fuel => reads_trailers_dot ?_ fuel)
  exact (reads_memberOf_method name.text (readable_arguments h hd.2)).imp fun _ _ => rfl

theorem readable_member {object : Expr} (ho : object.Readable) (name : Name) :
    (member object name).Readable := fun _ hd =>
  reads_assignment_operand (ho.trailing hd fun fuel =>
    reads_trailers_dot (reads_memberOf_member name.text) fuel)

theorem readable_index {object key : Expr} (ho : object.Readable) (hk : key.Readable) :
    (index object key).Readable := by
  intro depth hd
  rw [levels, Nat.max_le] at hd
  exact reads_assignment_operand (ho.trailing hd.1 fun fuel =>
    reads_trailers_index (hk.written hd.2) fuel)

mutual

/-- **Every expression is read back.** -/
theorem readable : ∀ e : Expr, e.Readable
  | literal l => readable_literal l
  | var name => readable_var name
  | assign target value => readable_assign target.readable value.readable
  | update op target value => readable_update op target.readable value.readable
  | step op target => readable_step op target.readable
  | binary op left right => readable_binary op left.readable right.readable
  | unary op operand => readable_unary op operand.readable
  | ternary condition thenValue elseValue =>
    readable_ternary condition.readable thenValue.readable elseValue.readable
  | call name args => readable_call name (readableAll args)
  | method object name args => readable_method object.readable name (readableAll args)
  | member object name => readable_member object.readable name
  | index object key => readable_index object.readable key.readable

theorem readableAll : ∀ es : List Expr, ∀ e ∈ es, e.Readable
  | [] => nofun
  | e :: es => List.forall_mem_cons.2 ⟨e.readable, readableAll es⟩

end

theorem reads_written {e : Expr} {depth : Nat} (hd : e.ownLevels ≤ depth) :
    Reads (inner depth).expression e.written TokenKind.endsExpr e.lower :=
  e.readable.written hd

/-! ## All tokens can be written -/

mutual

theorem writable_tokens : ∀ e : Expr, writable e.tokens = true
  | literal l => by simp
  | var name => by simp
  | assign target value => by simp [target.writable_tokens, value.writable_tokens]
  | update op target value => by simp [target.writable_tokens, value.writable_tokens]
  | step op target => by cases op <;> simp [StepOp.isPost, target.writable_tokens]
  | binary op left right => by simp [left.writable_tokens, right.writable_tokens]
  | unary op operand => by simp [operand.writable_tokens]
  | ternary condition thenValue elseValue => by
    simp [condition.writable_tokens, thenValue.writable_tokens, elseValue.writable_tokens]
  | call name args => by simp [writable_commaTokens (writable_listed args)]
  | method object name args => by
    simp [object.writable_tokens, writable_commaTokens (writable_listed args)]
  | member object name => by simp [object.writable_tokens]
  | index object key => by simp [object.writable_tokens, key.writable_tokens]

theorem writable_listed : ∀ es : List Expr, ∀ ks ∈ listed es, writable ks = true
  | [] => nofun
  | e :: es => by
    refine List.forall_mem_cons.2 ⟨?_, writable_listed es⟩
    rw [writable_parens, e.writable_tokens]

end

@[simp] theorem writable_written (e : Expr) : writable e.written = true := by
  rw [written, writable_parens, e.writable_tokens]

@[simp] theorem writable_commaTokens_written (es : List Expr) :
    writable (commaTokens (es.map written)) = true :=
  writable_commaTokens (List.forall_mem_map.2 fun e _ => e.writable_written)

@[simp] theorem writable_optional (e : Option Expr) : writable (optional e) = true := by
  cases e <;> simp [optional]

end Expr

end Surface

end Stepwise
