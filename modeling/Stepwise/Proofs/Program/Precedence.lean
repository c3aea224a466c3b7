import Mathlib.Data.List.Induction
import Stepwise.Proofs.Program.Reads

/-!
# Precedence of operators

Operators with their operands are read in a row and put together afterwards, by a stack of operands
that wait for their right-hand side (`Chain.build`).  The tree that is meant is described without
that stack: read from left to right it gives the row back, and no operator stands below one that it
should be above.  There is exactly one such tree, and it is the one that is built.

* `Expr.reading` is a tree read from left to right, and `Expr.Climbs` the condition on its
  operators: below an operator to the left none binds less tightly, and to the right all bind more
  tightly.
* `Chain.tree_reading` is the heart of the file.  A tree with that condition is built again from its
  reading, so that the condition leaves no choice.
* `Expr.attach` adds an operator and an operand at the right end of a tree.  It keeps the condition,
  which shows that every row has such a tree, without looking at the stack at all.
* `Parser.reads_atoms` is the result for the parser: literals and names with operators between them,
  as many as there are.
-/

set_option autoImplicit false

namespace Stepwise

/-! ## Trees that respect precedence -/

namespace Expr

/-- The operator at the root. -/
def root? : Expr → Option BinaryOp
  | binary op _ _ => some op
  | _ => none

/-- The operands of a tree of binary operators from left to right, each but the first with the
operator before it. -/
def reading : Expr → Expr × List (BinaryOp × Expr)
  | binary op left right =>
    (left.reading.1, left.reading.2 ++ (op, right.reading.1) :: right.reading.2)
  | e => (e, [])

/-- At every operator, the one at the root to its left binds at least as tightly, and the one at the
root to its right binds more tightly. -/
def Climbs : Expr → Prop
  | binary op left right =>
    (∀ lower ∈ left.root?, op.precedence ≤ lower.precedence) ∧
      (∀ lower ∈ right.root?, op.precedence < lower.precedence) ∧ left.Climbs ∧ right.Climbs
  | _ => True

/-- Add an operator and its right operand at the end, below all operators that bind less tightly. -/
def attach (e : Expr) (op : BinaryOp) (operand : Expr) : Expr :=
  match e with
  | binary upper left right =>
    if upper.precedence < op.precedence then binary upper left (right.attach op operand)
    else binary op (binary upper left right) operand
  | e => binary op e operand

variable {e operand : Expr}

theorem reading_of_root (h : e.root? = none) : e.reading = (e, []) := by
  cases e with
  | binary => cases h
  | _ => rfl

theorem climbs_of_root (h : e.root? = none) : e.Climbs := by
  cases e with
  | binary => cases h
  | _ => trivial

theorem reading_attach (h : operand.root? = none) (e : Expr) (op : BinaryOp) :
    (e.attach op operand).reading = (e.reading.1, e.reading.2 ++ [(op, operand)]) := by
  have hoperand := reading_of_root h
  fun_induction e.attach op operand with
  | case1 upper left right _ ih => simp [reading, ih]
  | case2 upper left right _ => simp [reading, hoperand]
  | case3 e hleaf =>
    rw [reading, hoperand]

/-- The root after an operand was added is the operator that came with it, or what it was before. -/
theorem root_attach (e : Expr) (op : BinaryOp) (operand : Expr) :
    (e.attach op operand).root? = some op ∨ (e.attach op operand).root? = e.root? := by
  cases e with
  | binary upper left right =>
    rw [attach]
    split
    · exact .inr rfl
    · exact .inl rfl
  | _ => exact .inl rfl

theorem climbs_attach (h : operand.root? = none) {e : Expr} (he : e.Climbs) (op : BinaryOp) :
    (e.attach op operand).Climbs := by
  fun_induction e.attach op operand with
  | case1 upper left right hbinds ih =>
    obtain ⟨hleft, hright, hl, hr⟩ := he
    refine ⟨hleft, fun lower hlower => ?_, hl, ih hr⟩
    obtain hroot | hroot := root_attach right op operand
    · rw [hroot] at hlower
      cases hlower
      exact hbinds
    · rw [hroot] at hlower
      exact hright lower hlower
  | case2 upper left right hbinds =>
    refine ⟨fun lower hlower => ?_, fun lower hlower => ?_, he, climbs_of_root h⟩
    · cases hlower
      exact Nat.le_of_not_lt hbinds
    · rw [h] at hlower
      cases hlower
  | case3 e hleaf =>
    refine ⟨fun lower hlower => ?_, fun lower hlower => ?_, he, climbs_of_root h⟩
    · cases e with
      | binary upper left right => exact (hleaf upper left right rfl).elim
      | _ => cases hlower
    · rw [h] at hlower
      cases hlower

/-- **Every row of operands has a tree that respects precedence.** -/
theorem exists_climbs {first : Expr} (hfirst : first.root? = none)
    {others : List (BinaryOp × Expr)} (hothers : ∀ q ∈ others, q.2.root? = none) :
    ∃ e : Expr, e.Climbs ∧ e.reading = (first, others) := by
  induction others using List.reverseRecOn with
  | nil => exact ⟨first, climbs_of_root hfirst, reading_of_root hfirst⟩
  | append_singleton others q ih =>
    obtain ⟨e, hclimbs, hreading⟩ := ih fun q hq => hothers q (List.mem_append_left _ hq)
    have hq := hothers q (List.mem_append_right _ List.mem_cons_self)
    refine ⟨e.attach q.1 q.2, climbs_attach hq hclimbs q.1, ?_⟩
    rw [reading_attach hq, hreading]

end Expr

/-! ## The tree that is built -/

namespace Chain

/-- Operands that wait for an operator that binds more tightly stay where they are. -/
theorem collapse_of_lt {pending : List (Expr × BinaryOp)} {strength : Nat}
    (h : ∀ p ∈ pending.head?, p.2.precedence < strength) (last : Expr) :
    collapse strength pending last = (pending, last) := by
  cases pending with
  | nil => rfl
  | cons p pending => rw [collapse, if_neg (Nat.not_le.2 (h p rfl))]

/-- An operation is put together before what follows it is read, if no operator that follows binds
more tightly. -/
theorem build_binary (pending : List (Expr × BinaryOp)) (op : BinaryOp) (left right : Expr)
    {rest : List (BinaryOp × Expr)} (h : ∀ q ∈ rest.head?, q.1.precedence ≤ op.precedence) :
    build ((left, op) :: pending) right rest = build pending (.binary op left right) rest := by
  cases rest with
  | nil => rw [build, collapse, if_pos (Nat.zero_le _), build]
  | cons q rest => rw [build, collapse, if_pos (h q rfl), build]

/-- **A tree that respects precedence is built from its reading.**  The operands before it wait for
an operator that binds less tightly than its root, and the operators after it do not bind more
tightly. -/
theorem build_reading {e : Expr} (he : e.Climbs) {pending : List (Expr × BinaryOp)}
    {rest : List (BinaryOp × Expr)}
    (hpending : ∀ p ∈ pending.head?, ∀ op ∈ e.root?, p.2.precedence < op.precedence)
    (hrest : ∀ q ∈ rest.head?, ∀ op ∈ e.root?, q.1.precedence ≤ op.precedence) :
    build pending e.reading.1 (e.reading.2 ++ rest) = build pending e rest := by
  fun_induction Expr.reading e generalizing pending rest with
  | case1 op left right ihl ihr =>
    obtain ⟨hleft, hright, hl, hr⟩ := he
    have hbefore : ∀ p ∈ pending.head?, p.2.precedence < op.precedence :=
      fun p hp => hpending p hp op rfl
    have hafter : ∀ q ∈ rest.head?, q.1.precedence ≤ op.precedence :=
      fun q hq => hrest q hq op rfl
    calc build pending left.reading.1
          ((left.reading.2 ++ (op, right.reading.1) :: right.reading.2) ++ rest)
        = build pending left.reading.1
            (left.reading.2 ++ (op, right.reading.1) :: (right.reading.2 ++ rest)) := by simp
      _ = build pending left ((op, right.reading.1) :: (right.reading.2 ++ rest)) :=
          ihl hl (fun p hp lower hlower => Nat.lt_of_lt_of_le (hbefore p hp) (hleft lower hlower))
            (by rintro _ ⟨⟩ lower hlower; exact hleft lower hlower)
      _ = build ((left, op) :: pending) right.reading.1 (right.reading.2 ++ rest) := by
          rw [build, collapse_of_lt hbefore]
      _ = build ((left, op) :: pending) right rest :=
          ihr hr (by rintro _ ⟨⟩ lower hlower; exact hright lower hlower)
            fun q hq lower hlower =>
              Nat.le_of_lt (Nat.lt_of_le_of_lt (hafter q hq) (hright lower hlower))
      _ = build pending (.binary op left right) rest := build_binary pending op left right hafter
  | case2 e hleaf => rfl

/-- **A tree that respects precedence is the tree of its reading.** -/
theorem tree_reading {e : Expr} (he : e.Climbs) : tree e.reading.1 e.reading.2 = e := by
  have hbuild := @build_reading e he [] [] (by simp) (by simp)
  rwa [List.append_nil] at hbuild

/-- **The tree of a row respects precedence and reads as the row**, and it is the only one that
does. -/
theorem climbs_iff_eq_tree {first : Expr} (hfirst : first.root? = none)
    {others : List (BinaryOp × Expr)} (hothers : ∀ q ∈ others, q.2.root? = none) (e : Expr) :
    e.Climbs ∧ e.reading = (first, others) ↔ e = tree first others := by
  constructor
  · rintro ⟨hclimbs, hreading⟩
    have htree := tree_reading hclimbs
    rw [hreading] at htree
    exact htree.symm
  · rintro rfl
    obtain ⟨e, hclimbs, hreading⟩ := Expr.exists_climbs hfirst hothers
    have htree := tree_reading hclimbs
    rw [hreading] at htree
    rw [htree]
    exact ⟨hclimbs, hreading⟩

/-- `a - b * c - d` -/
example : tree (.var "a") [(.sub, .var "b"), (.mul, .var "c"), (.sub, .var "d")] =
    .binary .sub (.binary .sub (.var "a") (.binary .mul (.var "b") (.var "c"))) (.var "d") := rfl

end Chain

/-! ## Reading literals and names with operators between them -/

/-- The expression that a single token stands for, which is a literal or a name. -/
def TokenKind.atom? : TokenKind → Option Expr
  | ident name => some (if name = "endl" then .literal (.str "\n") else .var name)
  | k => k.literal?.map .literal

theorem TokenKind.atom?_cases {k : TokenKind} {e : Expr} (h : k.atom? = some e) :
    (∃ name, name ≠ "endl" ∧ k = .ident name ∧ e = .var name) ∨
      (k = .ident "endl" ∧ e = .literal (.str "\n")) ∨
      ∃ l, k.literal? = some l ∧ e = .literal l := by
  unfold atom? at h
  split at h
  · rename_i name
    obtain rfl := Option.some.inj h
    by_cases hname : name = "endl"
    · exact .inr (.inl ⟨by rw [hname], if_pos hname⟩)
    · exact .inl ⟨name, hname, rfl, if_neg hname⟩
  · obtain ⟨l, hl, rfl⟩ := Option.map_eq_some_iff.1 h
    exact .inr (.inr ⟨l, hl, rfl⟩)

/-- A token that is an expression on its own. -/
structure Atom where
  kind : TokenKind
  expr : Expr
  stands : kind.atom? = some expr

namespace Atom

/-- The tokens of operators with the operands to their right. -/
def operationTokens (others : List (BinaryOp × Atom)) : List TokenKind :=
  others.flatMap fun q => [.symbol q.1.token, q.2.kind]

/-- Operators with the expressions to their right. -/
def operations (others : List (BinaryOp × Atom)) : List (BinaryOp × Expr) :=
  others.map fun q => (q.1, q.2.expr)

theorem root_expr (a : Atom) : a.expr.root? = none := by
  obtain ⟨name, -, -, h⟩ | ⟨-, h⟩ | ⟨l, -, h⟩ := TokenKind.atom?_cases a.stands <;> rw [h] <;> rfl

theorem startsOperand_kind (a : Atom) : a.kind.startsOperand = true := by
  obtain ⟨name, -, h, -⟩ | ⟨h, -⟩ | ⟨l, h, -⟩ := TokenKind.atom?_cases a.stands
  · rw [h]
    rfl
  · rw [h]
    rfl
  · rw [TokenKind.startsOperand, h]
    rfl

end Atom

namespace Parser

theorem reads_primary_endl (inner : Inner Parser) :
    Reads (primary inner) [.ident "endl"] anything (.literal (.str "\n")) := by
  intro s s' hs _
  obtain ⟨place, rest, finish, rfl, rfl⟩ := hs.eq_cons
  rfl

theorem reads_unary_atom (inner : Inner Parser) (a : Atom) :
    Reads (unary inner) [a.kind] TokenKind.endsOperand a.expr := by
  have hprimary : Reads (primary inner) [a.kind] anything a.expr := by
    obtain ⟨name, hname, hkind, hexpr⟩ | ⟨hkind, hexpr⟩ | ⟨l, hkind, hexpr⟩ :=
      TokenKind.atom?_cases a.stands
    · rw [hkind, hexpr]
      exact reads_primary_var hname
    · rw [hkind, hexpr]
      exact reads_primary_endl inner
    · rw [hexpr]
      exact reads_primary_literal hkind
  refine reads_unary_operand (reads_operand_nil hprimary) (begins_cons a.startsOperand_kind) ?_
  rintro rest hparen
  have hstands := a.stands
  rw [(List.cons.inj hparen).1] at hstands
  cases hstands

/-- Literals and names with operators between them are read as the tree that is built of them. -/
theorem reads_assignment_atoms (inner : Inner Parser) (first : Atom)
    (others : List (BinaryOp × Atom)) :
    Reads (assignment inner) (first.kind :: Atom.operationTokens others) TokenKind.endsExpr
      (Chain.tree first.expr (Atom.operations others)) := by
  have hothers : ∀ q ∈ others.map fun q => (q.1, [q.2.kind], q.2.expr),
      Reads (unary inner) q.2.1 TokenKind.endsOperand q.2.2 :=
    List.forall_mem_map.2 fun q _ => reads_unary_atom inner q.2
  have hchain := reads_binary (reads_unary_atom inner first) hothers
  rw [List.map_map, List.flatMap_map] at hchain
  exact reads_assignment_choice (reads_ternary_chain hchain)

/-- **Operators are read by their precedence.**  An expression of literals and names with operators
between them is read to its end, if no token follows that could continue it.  The result is the only
tree that gives the row back from left to right, and in which no operator binds less tightly than
one above it, or as tightly as one above it and to its right. -/
theorem reads_atoms (depth : Nat) (first : Atom) (others : List (BinaryOp × Atom)) {s s' : Stream}
    (hs : s.Ahead (first.kind :: Atom.operationTokens others) s') (hend : s'.kind.endsExpr = true) :
    ∃ e, (inner (depth + 1)).expression s = .ok e s' ∧
      ∀ e' : Expr, e'.Climbs ∧ e'.reading = (first.expr, Atom.operations others) ↔ e' = e := by
  refine ⟨Chain.tree first.expr (Atom.operations others),
    reads_assignment_atoms (inner depth) first others hs hend, fun e' => ?_⟩
  refine Chain.climbs_iff_eq_tree first.root_expr (fun q hq => ?_) e'
  obtain ⟨q, -, rfl⟩ := List.mem_map.1 hq
  exact q.2.root_expr

/-- `1 - x * endl - 'c';` -/
theorem reads_atoms_differences :
    let tokens := [.int 1, .symbol .minus, .ident "x", .symbol .star, .ident "endl", .symbol .minus,
      .char 'c', .symbol .semicolon].map fun k => (⟨k, .start⟩ : Token)
    let s' : Stream := ⟨[⟨.symbol .semicolon, .start⟩], .start⟩
    let others : List (BinaryOp × Atom) := [(.sub, ⟨.ident "x", _, rfl⟩),
      (.mul, ⟨.ident "endl", _, rfl⟩), (.sub, ⟨.char 'c', _, rfl⟩)]
    (⟨tokens, .start⟩ : Stream).Ahead (.int 1 :: Atom.operationTokens others) s' ∧
      s'.kind.endsExpr = true ∧
      ∃ e, (inner 1).expression ⟨tokens, .start⟩ = .ok e s' ∧
        ∀ e' : Expr,
          e'.Climbs ∧ e'.reading = (.literal (.int 1), Atom.operations others) ↔ e' = e := by
  intro tokens s' others
  have hs : (⟨tokens, .start⟩ : Stream).Ahead (.int 1 :: Atom.operationTokens others) s' := by
    simp [tokens, others, s', Atom.operationTokens, Stream.Ahead, Stream.kind, Stream.advance,
      BinaryOp.token]
  exact ⟨hs, rfl, reads_atoms 0 ⟨.int 1, _, rfl⟩ others hs rfl⟩

end Parser

end Stepwise
