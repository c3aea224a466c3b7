import Stepwise.Proofs.Program.Headers

/-!
# Angle brackets in expressions

An expression may look like a generic type: in `a < b > c` the lookahead finds a list of template
arguments.  It is not taken for the header of a function all the same, since an operand follows each
operator, and with what may follow a generic type there no operand can start.

* `Operates` says this of tokens: each closing angle bracket has something after it with which an
  operand may start.
* `Parser.operativeInner`: tokens that are read by an expression have this property if what follows
  them has it.
* `Parser.operates_of_expressionStatement`: so has an expression with a semicolon after it.
-/

set_option autoImplicit false

namespace Stepwise

/-- Whether no operand can start with the token, which belongs to a type or closes a block. -/
def TokenKind.startsNoOperand (k : TokenKind) : Bool :=
  k.isConst || k.isType || k.isPointer || k.isSymbol .rightBrace

/-- As far as a list of template arguments may go on, each closing angle bracket has something after
it with which an operand may start. -/
def Operates : List Token → Prop
  | [] => True
  | t :: ts => t.kind.breaksTemplate = true ∨
      (0 ≤ t.kind.angle ∨ (nextKind ts).startsNoOperand = false) ∧ Operates ts

/-- So no word of a type follows what is taken for a list of template arguments. -/
theorem Operates.nextKind {ts rest : List Token} (h : Operates ts) {depth : Int} (hpos : 0 < depth)
    (hend : templateEnd? depth ts = some rest) : (nextKind rest).startsNoOperand = false := by
  induction ts generalizing depth with
  | nil => cases hend
  | cons t ts ih =>
    rw [templateEnd?_cons] at hend
    split at hend
    · cases hend
    · next hbreaks =>
      obtain ⟨hnext, hrest⟩ := h.resolve_left hbreaks
      split at hend
      · next hclosed =>
        obtain rfl := Option.some.inj hend
        exact hnext.resolve_left (by omega)
      · next hopen => exact ih hrest (Int.not_le.1 hopen) hend

theorem operates_tail {s : Stream} (h : Operates s.rest) (hk : s.kind.breaksTemplate = false) :
    Operates s.advance.rest := by
  obtain ⟨_ | ⟨t, ts⟩, finish⟩ := s
  · trivial
  · exact (h.resolve_left fun hbreaks => Bool.false_ne_true (hk.symm.trans hbreaks)).2

theorem operates_of_advance {s : Stream} (h : Operates s.advance.rest)
    (hk : 0 ≤ s.kind.angle ∨ s.advance.kind.startsNoOperand = false) : Operates s.rest := by
  obtain ⟨_ | ⟨t, ts⟩, finish⟩ := s
  · trivial
  · refine .inr ⟨hk.imp id fun hnext => ?_, h⟩
    rwa [Parser.kind_eq_nextKind] at hnext

theorem UnaryOp.angle_of_ofToken? {k : TokenKind} {op : UnaryOp}
    (h : UnaryOp.ofToken? k = some op) :
    0 ≤ k.angle := by
  unfold UnaryOp.ofToken? at h
  split at h
  case h_4 => cases h
  all_goals decide

theorem BinaryOp.angle_of_ofAssignment? {k : TokenKind} {op : BinaryOp}
    (h : BinaryOp.ofAssignment? k = some op) : 0 ≤ k.angle := by
  unfold BinaryOp.ofAssignment? at h
  split at h
  case h_6 => cases h
  all_goals decide

theorem TokenKind.angle_of_isType {k : TokenKind} (h : k.isType = true) : 0 ≤ k.angle := by
  cases k with
  | type => exact Int.le_refl 0
  | _ => cases h

namespace Parser

variable {α : Type} {root : List Token} {s : Stream} {inner : Inner Parser}

/-! ## Where no operand starts -/

theorem fails_primary_of (hk : s.kind.startsNoOperand = true) (inner : Inner Parser) :
    Ends s (fun _ _ => False) (fun _ => True) (primary inner) := by
  rw [primary]
  refine ends_peek ?_
  cases hkind : s.kind with
  | symbol c =>
    rw [hkind] at hk
    cases c <;> first | exact ends_failHere trivial _ | cases hk
  | type => exact ends_failHere trivial _
  | _ =>
    rw [hkind] at hk
    cases hk

theorem fails_unary_of (hk : s.kind.startsNoOperand = true) (inner : Inner Parser) :
    Ends s (fun _ _ => False) (fun _ => True) (unary inner) := by
  have hoperand : Ends s (fun _ _ => False) (fun _ => True) (operand inner) :=
    (fails_primary_of hk inner).bind fun _ _ => False.elim
  rw [unary]
  refine ends_peek ?_
  cases hkind : s.kind with
  | symbol c =>
    rw [hkind] at hk
    cases c <;> first | exact hoperand | exact ends_failHere trivial _ | cases hk
  | type => exact hoperand
  | _ =>
    rw [hkind] at hk
    cases hk

/-- No expression starts with such a token. -/
theorem fails_expression_of (hk : s.kind.startsNoOperand = true) :
    ∀ depth, Ends s (fun _ _ => False) (fun _ => True) (Parser.inner depth).expression
  | 0 => ends_failHere trivial _
  | depth + 1 => by
    have hbinary : Ends s (fun _ _ => False) (fun _ => True) (binary (Parser.inner depth)) :=
      (fails_unary_of hk _).bind fun _ _ => False.elim
    have hternary : Ends s (fun _ _ => False) (fun _ => True) (ternary (Parser.inner depth)) :=
      hbinary.bind fun _ _ => False.elim
    exact hternary.bind fun _ _ => False.elim

/-! ## What is read -/

/-- The tokens of `root`, of which `s` is what is left, operate if what is left does. -/
def Upholds (root : List Token) (s : Stream) : Prop :=
  Operates s.rest → Operates root

/-- A parser that reads tokens which operate if what follows them does. -/
def Operative (p : Parser α) : Prop :=
  ∀ ⦃root : List Token⦄ ⦃s : Stream⦄, Upholds root s →
    Ends s (fun _ => Upholds root) (fun _ => True) p

theorem Upholds.skip (h : Upholds root s) (hk : 0 ≤ s.kind.angle) : Upholds root s.advance :=
  fun hrest => h (operates_of_advance hrest (.inl hk))

theorem Upholds.symbol (h : Upholds root s) {c : Symbol} (hk : s.kind = .symbol c)
    (hc : 0 ≤ (TokenKind.symbol c).angle) : Upholds root s.advance :=
  h.skip (hk ▸ hc)

theorem Upholds.skipWhile (h : Upholds root s) {p : TokenKind → Bool}
    (hp : ∀ k, p k = true → 0 ≤ k.angle) :
    Upholds root { s with rest := s.rest.dropWhile fun t => p t.kind } := by
  obtain ⟨rest, finish⟩ := s
  induction rest with
  | nil => exact h
  | cons t ts ih =>
    rw [List.dropWhile_cons]
    split
    · next hpt => exact ih (h.skip (hp t.kind hpt))
    · exact h

theorem operative_commaItems {item : Parser α} (h : Operative item) :
    ∀ fuel, Operative (commaItems item fuel)
  | 0, _, _, hs => ends_pure hs
  | fuel + 1, _, _, hs => by
    rw [commaItems]
    refine (h hs).bind fun first s' hs' => ends_ifAccept (fun hk => ?_) (ends_pure hs')
    have hnext := hs'.symbol hk (by decide)
    exact (operative_commaItems h fuel hnext).bind fun others s'' hs'' => ends_pure hs''

/-- The expression parsers of a level read tokens that operate if what follows them does. -/
structure OperativeInner (inner : Inner Parser) : Prop where
  /-- Full expressions. -/
  expression : Operative inner.expression
  /-- Expressions without assignments. -/
  ternary : Operative inner.ternary
  /-- Operands. -/
  unary : Operative inner.unary

namespace OperativeInner

variable (h : OperativeInner inner)
include h

theorem arguments : Operative (arguments inner) := by
  intro root s hs
  rw [Parser.arguments]
  refine ends_ifAccept (fun hk => ends_pure (hs.symbol hk (by decide))) ?_
  refine Ends.bind (ends_get (operative_commaItems h.expression _ hs)) fun args s' hs' => ?_
  exact ends_expect trivial fun hk => ends_pure (hs'.symbol hk (by decide))

omit h in
theorem literal (hs : Upholds root s) (hk : 0 ≤ s.kind.angle) (l : Literal) :
    Ends s (fun _ => Upholds root) (fun _ => True) (literal l) :=
  ends_advance (ends_pure (hs.skip hk))

theorem primary : Operative (primary inner) := by
  intro root s hs
  rw [Parser.primary]
  refine ends_peek ?_
  split
  case h_8 name hk =>
    have hnext := hs.skip (by rw [hk]; exact Int.le_refl 0)
    split
    · exact ends_advance (ends_pure hnext)
    · exact ends_advance (ends_pure hnext)
  case h_9 hk =>
    refine ends_advance ((h.expression (hs.symbol hk (by decide))).bind fun e s' hs' => ?_)
    exact ends_expect trivial fun hk' => ends_pure (hs'.symbol hk' (by decide))
  case h_10 | h_11 => exact ends_failHere trivial _
  all_goals exact literal hs (by simp_all [TokenKind.angle]) _

theorem memberOf (object : Expr) : Operative (memberOf inner object) := by
  intro root s hs
  rw [Parser.memberOf]
  refine ends_identifier trivial fun name hk => ?_
  have hname := hs.skip (by rw [hk]; exact Int.le_refl 0)
  refine ends_ifAccept (fun hk' => ?_) (ends_pure hname)
  exact (h.arguments (hname.symbol hk' (by decide))).bind fun args s' hs' => ends_pure hs'

theorem trailers : ∀ (fuel : Nat) (e : Expr), Operative (trailers inner fuel e)
  | 0, _, _, _, hs => ends_pure hs
  | fuel + 1, e, root, s, hs => by
    unfold Parser.trailers
    refine ends_peek ?_
    split
    · rename_i hk
      split
      · refine ends_advance ((h.arguments (hs.symbol hk (by decide))).bind fun args s' hs' => ?_)
        exact trailers fuel _ hs'
      · exact ends_failHere trivial _
    · rename_i hk
      exact ends_advance ((h.memberOf e (hs.symbol hk (by decide))).bind fun e' s' hs' =>
        trailers fuel e' hs')
    · rename_i hk
      exact ends_advance ((h.memberOf e (hs.symbol hk (by decide))).bind fun e' s' hs' =>
        trailers fuel e' hs')
    · rename_i hk
      refine ends_advance ((h.expression (hs.symbol hk (by decide))).bind fun index s' hs' => ?_)
      exact ends_expect trivial fun hk' => trailers fuel _ (hs'.symbol hk' (by decide))
    · rename_i hk
      exact ends_advance (trailers fuel _ (hs.symbol hk (by decide)))
    · rename_i hk
      exact ends_advance (trailers fuel _ (hs.symbol hk (by decide)))
    · exact ends_pure hs

theorem operand : Operative (operand inner) :=
  fun _ _ hs => (h.primary hs).bind fun e s' hs' => ends_get (h.trailers (s'.length + 1) e hs')

theorem cast (hs : Upholds root s) (hk : s.kind = .symbol .leftParen) :
    Ends s (fun _ => Upholds root) (fun _ => True) (cast inner) := by
  have htypes := (hs.symbol hk (by decide)).skipWhile fun _ => TokenKind.angle_of_isType
  refine ends_advance (ends_skipWhile (ends_expect trivial fun hk' => ?_))
  exact h.unary (htypes.symbol hk' (by decide))

theorem level_unary : Operative (Parser.unary inner) := by
  intro root s hs
  rw [Parser.unary]
  refine ends_peek ?_
  split
  · rename_i hop
    have hnext := hs.skip (UnaryOp.angle_of_ofToken? hop)
    exact ends_advance ((h.unary hnext).bind fun e s' hs' => ends_pure hs')
  · split
    · rename_i hk
      exact ends_advance (h.unary (hs.symbol hk (by decide)))
    · rename_i hk
      exact ends_advance ((h.unary (hs.symbol hk (by decide))).bind fun e s' hs' => ends_pure hs')
    · rename_i hk
      exact ends_advance ((h.unary (hs.symbol hk (by decide))).bind fun e s' hs' => ends_pure hs')
    · exact ends_failHere trivial _
    · exact ends_failHere trivial _
    · rename_i hk
      refine ends_peekAt ?_
      split
      · exact h.cast hs hk
      · exact h.operand hs
    · exact h.operand hs

/-- The operand after an operator has been read, so it started with the token there. -/
theorem operandAfter (hs : Upholds root s) :
    Ends s.advance (fun _ => Upholds root) (fun _ => True) (Parser.unary inner) := by
  by_cases hnext : s.advance.kind.startsNoOperand = true
  · exact (fails_unary_of hnext inner).imp (fun _ _ => False.elim) fun _ _ => trivial
  · exact h.level_unary fun hrest =>
      hs (operates_of_advance hrest (.inr (eq_false_of_ne_true hnext)))

theorem operations : ∀ fuel, Operative (operations inner fuel)
  | 0, _, _, hs => ends_pure hs
  | fuel + 1, root, s, hs => by
    rw [Parser.operations]
    refine ends_peek ?_
    split
    · refine ends_advance ((h.operandAfter hs).bind fun right s' hs' => ?_)
      exact (operations fuel hs').bind fun others s'' hs'' => ends_pure hs''
    · exact ends_pure hs

theorem binary : Operative (binary inner) :=
  fun _ _ hs => (h.level_unary hs).bind fun _ s' hs' =>
    ends_get ((h.operations (s'.length + 1) hs').bind fun _ _ hs'' => ends_pure hs'')

theorem level_ternary : Operative (Parser.ternary inner) := by
  intro root s hs
  rw [Parser.ternary]
  refine (h.binary hs).bind fun condition s₁ h₁ => ends_ifAccept (fun hk => ?_) (ends_pure h₁)
  refine (h.expression (h₁.symbol hk (by decide))).bind fun thenValue s₂ h₂ => ?_
  refine ends_expect trivial fun hk' => ?_
  exact (h.ternary (h₂.symbol hk' (by decide))).bind fun elseValue s₃ h₃ => ends_pure h₃

theorem level_expression : Operative (assignment inner) := by
  intro root s hs
  rw [assignment]
  refine (h.level_ternary hs).bind fun target s₁ h₁ => ends_ifAccept (fun hk => ?_) ?_
  · exact (h.expression (h₁.symbol hk (by decide))).bind fun value s₂ h₂ => ends_pure h₂
  · refine ends_peek ?_
    split
    · rename_i hop
      have hnext := h₁.skip (BinaryOp.angle_of_ofAssignment? hop)
      exact ends_advance ((h.expression hnext).bind fun value s₂ h₂ => ends_pure h₂)
    · exact ends_pure h₁

end OperativeInner

/-- **After each operator of an expression there is an operand.** -/
theorem operativeInner : ∀ depth, OperativeInner (Parser.inner depth)
  | 0 => ⟨fun _ _ _ => ends_failHere trivial _, fun _ _ _ => ends_failHere trivial _,
    fun _ _ _ => ends_failHere trivial _⟩
  | depth + 1 =>
    have h := operativeInner depth
    ⟨h.level_expression, h.level_ternary, h.level_unary⟩

/-- The tokens of an expression that is read as a statement operate. -/
theorem operates_of_expressionStatement {depth : Nat} {stmts : List Stmt} {s' : Stream}
    (h : expressionStatement (level depth) s = .ok stmts s') : Operates s.rest := by
  have hread : Ends s (fun _ _ => Operates s.rest) (fun _ => True)
      (expressionStatement (level depth)) := by
    refine ((operativeInner depth).expression id).bind fun e s₁ h₁ =>
      ends_expect trivial fun hk => ?_
    refine ends_pure (h₁ ?_)
    obtain ⟨t, ht, hrest⟩ := exists_cons_of_kind hk
    rw [hrest]
    exact .inl (by rw [ht]; rfl)
  rw [Ends, h] at hread
  exact hread

end Parser

end Stepwise
