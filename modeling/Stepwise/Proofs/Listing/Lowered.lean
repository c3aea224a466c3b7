import Stepwise.Program.Source
import Stepwise.Proofs.Listing.Phrases
import Stepwise.Proofs.Program.Ends
import Stepwise.Proofs.Program.Yields

/-!
# What is read from a source text can be listed

The lexer makes no number with a sign, no number that is none, and no name that does not have the
form of a name.  So whatever expression is read from the tokens of a source text is legible: it is
made of them, and a guard is not read.

* `Token.legible_tokenize` is about tokens.
* `Expr.Lowered` are the expressions that can be read somewhere in some source text, and
  `Expr.Lowered.legible` says that they can be listed.
-/

set_option autoImplicit false

namespace Stepwise

/-! ## Tokens -/

/-- Numbers have no sign, and names have the form of names. -/
def TokenKind.Legible : TokenKind → Prop
  | int n => 0 ≤ n.toInt
  | float x => Binary64.IsUnsigned x
  | ident name => isName name = true
  | _ => True

namespace Token

theorem legible_intKind (n : Nat) (otherwise : String) : (intKind n otherwise).Legible := by
  rw [intKind]
  split
  · next hlt =>
    change 0 ≤ (Int64.ofNat n).toInt
    have hpow : Nat.pow 2 63 = 9223372036854775808 := rfl
    have hsize : Int64.size = 18446744073709551616 := rfl
    rw [Int64.toInt_ofNat', Int.bmod_def, hsize]
    omega
  · trivial

theorem legible_stringLexeme (tail : List Char) : ∀ k ∈ (stringLexeme tail).kind, k.Legible := by
  rw [stringLexeme]
  split <;> exact fun k hk => by cases hk; trivial

theorem legible_charLexeme (tail : List Char) : ∀ k ∈ (charLexeme tail).kind, k.Legible := by
  have hclose : ∀ (c : Char) (rest : List Char) (n : Nat), ∀ k ∈
      (if rest.head? = some '\'' then ⟨some (.char c), n + 1⟩
        else ⟨some (.invalid "malformed character literal"), n⟩ : Lexeme).kind, k.Legible := by
    intro c rest n
    split <;> exact fun k hk => by cases hk; trivial
  have hmalformed : ∀ k ∈ some (TokenKind.invalid "malformed character literal"), k.Legible :=
    fun k hk => by cases hk; trivial
  simp only [charLexeme]
  split
  · exact hmalformed
  · exact hmalformed
  · exact hclose _ _ _
  · split
    · exact hmalformed
    · exact hclose _ _ _

theorem legible_hexLexeme (tail : List Char) : ∀ k ∈ (hexLexeme tail).kind, k.Legible := by
  intro k hk
  simp only [hexLexeme] at hk
  obtain rfl := Option.some.inj hk
  split
  · trivial
  · exact legible_intKind _ _

theorem legible_numberLexeme (first : Char) (tail : List Char) :
    ∀ k ∈ (numberLexeme first tail).kind, k.Legible := by
  intro k hk
  simp only [numberLexeme] at hk
  obtain rfl := Option.some.inj hk
  split
  · split
    · next hx => exact Decimal.isUnsigned_of_magnitude? hx
    · trivial
  · exact legible_intKind _ _

theorem legible_wordLexeme {first : Char} (h : isNameStart first = true) (tail : List Char) :
    ∀ k ∈ (wordLexeme first tail).kind, k.Legible := by
  intro k hk
  simp only [wordLexeme] at hk
  split at hk
  · cases hk
  · obtain rfl := Option.some.inj hk
    rw [wordKind]
    split
    · trivial
    · split
      · trivial
      · change TokenKind.isName _ = true
        rw [TokenKind.isName, String.toList_ofList]
        refine Bool.and_eq_true_iff.2 ⟨h, List.all_eq_true.2 fun c hc => ?_⟩
        exact List.mem_takeWhile_imp hc

theorem legible_symbolLexeme (c : Char) (tail : List Char) :
    ∀ k ∈ (symbolLexeme c tail).kind, k.Legible := by
  rw [symbolLexeme]
  split
  · exact fun k hk => by cases hk; trivial
  · split <;> exact fun k hk => by cases hk; trivial

theorem legible_lexeme (c : Char) (tail : List Char) : ∀ k ∈ (lexeme c tail).kind, k.Legible := by
  have hnone : ∀ n : Nat, ∀ k ∈ (⟨none, n⟩ : Lexeme).kind, k.Legible := fun n k hk => by cases hk
  rw [lexeme]
  -- blanks and comments give no token; then one case for each kind of lexeme
  split
  · exact hnone _
  split
  · exact hnone _
  split
  · exact hnone _
  split
  · exact legible_stringLexeme tail
  split
  · exact legible_charLexeme tail
  split
  · exact legible_hexLexeme _
  split
  · exact legible_numberLexeme c tail
  split
  · next hstart => exact legible_wordLexeme hstart tail
  exact legible_symbolLexeme c tail

theorem legible_scan (l : Location) (skip : Nat) (cs : List Char) :
    ∀ t ∈ scan l skip cs, t.kind.Legible := by
  fun_induction scan l skip cs with
  | case1 l => exact List.forall_mem_singleton.2 trivial
  | case2 l c tail n ih => exact ih
  | case3 l c tail lex rest kind hkind ih =>
    exact List.forall_mem_cons.2 ⟨legible_lexeme c tail kind hkind, ih⟩
  | case4 l c tail lex rest hkind ih => exact ih

/-- **The tokens of a text are legible.** -/
theorem legible_tokenize (source : String) : ∀ t ∈ tokenize source, t.kind.Legible :=
  legible_scan _ _ _

end Token

/-! ## Streams -/

/-- All tokens that are left are legible. -/
def Stream.Legible (s : Stream) : Prop :=
  ∀ t ∈ s.rest, t.kind.Legible

namespace Stream.Legible

variable {s : Stream}

theorem kind (h : s.Legible) : s.kind.Legible := by
  obtain ⟨rest, finish⟩ := s
  cases rest with
  | nil => trivial
  | cons t ts => exact h t List.mem_cons_self

theorem advance (h : s.Legible) : s.advance.Legible :=
  fun t ht => h t (List.mem_of_mem_tail ht)

theorem skipWhile (h : s.Legible) (p : TokenKind → Bool) :
    Stream.Legible { s with rest := s.rest.dropWhile fun t => p t.kind } :=
  fun t ht => h t ((List.dropWhile_suffix _).subset ht)

end Stream.Legible

/-! ## Parsers -/

namespace Parser

open Listing

variable {α : Type} {P : α → Prop} {s : Stream} {inner : Inner Parser}

/-- From legible tokens the parser yields something that satisfies `P`, and legible tokens are
left. -/
def Lowers (P : α → Prop) (p : Parser α) : Prop :=
  ∀ ⦃s : Stream⦄, s.Legible → Ends s (fun a s' => P a ∧ s'.Legible) (fun _ => True) p

theorem lowers_commaItems {item : Parser α} (h : Lowers P item) :
    ∀ fuel, Lowers (fun items => ∀ a ∈ items, P a) (commaItems item fuel)
  | 0, _, hs => ends_pure ⟨List.forall_mem_nil _, hs⟩
  | fuel + 1, _, hs => by
    rw [commaItems]
    refine (h hs).bind fun first s₁ h₁ => ends_ifAccept (fun _ => ?_) ?_
    · refine (lowers_commaItems h fuel h₁.2.advance).bind fun others s₂ h₂ => ?_
      exact ends_pure ⟨List.forall_mem_cons.2 ⟨h₁.1, h₂.1⟩, h₂.2⟩
    · exact ends_pure ⟨List.forall_mem_singleton.2 h₁.1, h₁.2⟩

/-- The expression parsers of a level yield legible expressions from legible tokens. -/
structure LowersInner (inner : Inner Parser) : Prop where
  /-- Full expressions. -/
  expression : Lowers Expr.Legible inner.expression
  /-- Expressions without assignments. -/
  ternary : Lowers Expr.Legible inner.ternary
  /-- Operands. -/
  unary : Lowers Expr.Legible inner.unary

end Parser

theorem Expr.allLegible_iff {es : List Expr} : Expr.AllLegible es ↔ ∀ e ∈ es, e.Legible := by
  induction es with
  | nil => exact iff_of_true trivial (List.forall_mem_nil _)
  | cons e es ih => rw [Expr.AllLegible, ih, List.forall_mem_cons]

namespace Parser.LowersInner

open Listing

variable {s : Stream} {inner : Inner Parser} (h : LowersInner inner)
include h

theorem arguments : Lowers Expr.AllLegible (arguments inner) := by
  intro s hs
  rw [Parser.arguments]
  refine ends_ifAccept (fun _ => ends_pure ⟨trivial, hs.advance⟩) ?_
  refine Ends.bind (ends_get (lowers_commaItems h.expression _ hs)) fun args s₁ ⟨hargs, h₁⟩ => ?_
  exact ends_expect trivial fun _ => ends_pure ⟨Expr.allLegible_iff.2 hargs, h₁.advance⟩

omit h in
theorem literal (hs : s.Legible) {l : Literal} (hl : l.Legible) :
    Ends s (fun e s' => e.Legible ∧ s'.Legible) (fun _ => True) (literal l) :=
  ends_advance (ends_pure ⟨hl, hs.advance⟩)

theorem primary : Lowers Expr.Legible (primary inner) := by
  intro s hs
  rw [Parser.primary]
  refine ends_peek ?_
  have hkind := hs.kind
  split
  case h_1 n hk => exact literal hs (by rw [hk] at hkind; exact hkind)
  case h_2 x hk => exact literal hs (by rw [hk] at hkind; exact hkind)
  case h_8 name hk =>
    rw [hk] at hkind
    split
    · exact literal hs trivial
    · exact ends_advance (ends_pure ⟨hkind, hs.advance⟩)
  case h_9 hk =>
    refine ends_advance ((h.expression hs.advance).bind fun e s₁ ⟨he, h₁⟩ => ?_)
    exact ends_expect trivial fun _ => ends_pure ⟨he, h₁.advance⟩
  case h_10 | h_11 => exact ends_failHere trivial _
  all_goals exact literal hs trivial

theorem memberOf {object : Expr} (ho : object.Legible) :
    Lowers Expr.Legible (memberOf inner object) := by
  intro s hs
  rw [Parser.memberOf]
  refine ends_identifier trivial fun name hk => ?_
  have hname := hs.kind
  rw [hk] at hname
  refine ends_ifAccept (fun _ => ?_) (ends_pure ⟨⟨ho, hname⟩, hs.advance⟩)
  exact (h.arguments hs.advance.advance).bind fun args s₁ ⟨hargs, h₁⟩ =>
    ends_pure ⟨⟨ho, hname, hargs⟩, h₁⟩

theorem trailers :
    ∀ (fuel : Nat) {e : Expr}, e.Legible → Lowers Expr.Legible (trailers inner fuel e)
  | 0, _, he, _, hs => ends_pure ⟨he, hs⟩
  | fuel + 1, e, he, s, hs => by
    unfold Parser.trailers
    refine ends_peek ?_
    split
    · split
      · refine ends_advance ((h.arguments hs.advance).bind fun args s₁ ⟨hargs, h₁⟩ => ?_)
        exact trailers fuel (e := .call _ args) ⟨he, hargs⟩ h₁
      · exact ends_failHere trivial _
    · exact ends_advance ((h.memberOf he hs.advance).bind fun e' s₁ ⟨he', h₁⟩ =>
        trailers fuel he' h₁)
    · exact ends_advance ((h.memberOf he hs.advance).bind fun e' s₁ ⟨he', h₁⟩ =>
        trailers fuel he' h₁)
    · refine ends_advance ((h.expression hs.advance).bind fun index s₁ ⟨hindex, h₁⟩ => ?_)
      exact ends_expect trivial fun _ =>
        trailers fuel (e := .index e index) ⟨he, hindex⟩ h₁.advance
    · exact ends_advance (trailers fuel (e := .step .postInc e) he hs.advance)
    · exact ends_advance (trailers fuel (e := .step .postDec e) he hs.advance)
    · exact ends_pure ⟨he, hs⟩

theorem operand : Lowers Expr.Legible (operand inner) :=
  fun _ hs => (h.primary hs).bind fun _ s₁ ⟨he, h₁⟩ => ends_get (h.trailers (s₁.length + 1) he h₁)

theorem cast : Lowers Expr.Legible (cast inner) :=
  fun _ hs => ends_advance (ends_skipWhile (ends_expect trivial fun _ =>
    h.unary (hs.advance.skipWhile _).advance))

theorem level_unary : Lowers Expr.Legible (Parser.unary inner) := by
  intro s hs
  rw [Parser.unary]
  refine ends_peek ?_
  split
  · exact ends_advance ((h.unary hs.advance).bind fun e s₁ he => ends_pure he)
  · split
    · exact ends_advance (h.unary hs.advance)
    · exact ends_advance ((h.unary hs.advance).bind fun e s₁ he => ends_pure he)
    · exact ends_advance ((h.unary hs.advance).bind fun e s₁ he => ends_pure he)
    · exact ends_failHere trivial _
    · exact ends_failHere trivial _
    · refine ends_peekAt ?_
      split
      · exact h.cast hs
      · exact h.operand hs
    · exact h.operand hs

theorem operations :
    ∀ fuel, Lowers (fun others => ∀ q ∈ others, q.2.Legible) (operations inner fuel)
  | 0, _, hs => ends_pure ⟨List.forall_mem_nil _, hs⟩
  | fuel + 1, s, hs => by
    rw [Parser.operations]
    refine ends_peek ?_
    split
    · refine ends_advance ((h.level_unary hs.advance).bind fun right s₁ ⟨hright, h₁⟩ => ?_)
      refine (operations fuel h₁).bind fun others s₂ ⟨hothers, h₂⟩ => ?_
      exact ends_pure ⟨List.forall_mem_cons.2 ⟨hright, hothers⟩, h₂⟩
    · exact ends_pure ⟨List.forall_mem_nil _, hs⟩

theorem binary : Lowers Expr.Legible (binary inner) := by
  intro s hs
  refine (h.level_unary hs).bind fun first s₁ ⟨hfirst, h₁⟩ => ends_get ?_
  refine (h.operations (s₁.length + 1) h₁).bind fun others s₂ ⟨hothers, h₂⟩ => ?_
  exact ends_pure ⟨Chain.holds_tree And.intro hfirst hothers, h₂⟩

theorem level_ternary : Lowers Expr.Legible (Parser.ternary inner) := by
  intro s hs
  rw [Parser.ternary]
  refine (h.binary hs).bind fun condition s₁ ⟨hcondition, h₁⟩ => ends_ifAccept (fun _ => ?_) ?_
  · refine (h.expression h₁.advance).bind fun thenValue s₂ ⟨hthen, h₂⟩ => ?_
    refine ends_expect trivial fun _ => ?_
    exact (h.ternary h₂.advance).bind fun elseValue s₃ ⟨helse, h₃⟩ =>
      ends_pure ⟨⟨hcondition, hthen, helse⟩, h₃⟩
  · exact ends_pure ⟨hcondition, h₁⟩

omit h in
theorem contains_of_ofAssignment? {k : TokenKind} {op : BinaryOp}
    (hk : BinaryOp.ofAssignment? k = some op) : Connective.updates.contains op = true := by
  rw [BinaryOp.ofAssignment?.eq_def] at hk
  split at hk <;> cases hk <;> rfl

theorem level_expression : Lowers Expr.Legible (assignment inner) := by
  intro s hs
  rw [assignment]
  refine (h.level_ternary hs).bind fun target s₁ ⟨htarget, h₁⟩ => ends_ifAccept (fun _ => ?_) ?_
  · exact (h.expression h₁.advance).bind fun value s₂ ⟨hvalue, h₂⟩ =>
      ends_pure ⟨⟨htarget, hvalue⟩, h₂⟩
  · refine ends_peek ?_
    split
    · next op hop =>
      have hupdate := contains_of_ofAssignment? hop
      exact ends_advance ((h.expression h₁.advance).bind fun value s₂ ⟨hvalue, h₂⟩ =>
        ends_pure ⟨⟨hupdate, htarget, hvalue⟩, h₂⟩)
    · exact ends_pure ⟨htarget, h₁⟩

end Parser.LowersInner

/-- **Expressions that are read from legible tokens are legible.** -/
theorem Parser.lowersInner : ∀ depth, LowersInner (Parser.inner depth)
  | 0 => ⟨fun _ _ => ends_failHere trivial _, fun _ _ => ends_failHere trivial _,
    fun _ _ => ends_failHere trivial _⟩
  | depth + 1 =>
    have h := lowersInner depth
    ⟨h.level_expression, h.level_ternary, h.level_unary⟩

/-! ## Lowered expressions -/

/-- The expression is read from somewhere in some source text. -/
def Expr.Lowered (e : Expr) : Prop :=
  ∃ (source : String) (depth : Nat) (s s' : Stream),
    s.rest <:+ (Stream.ofTokens (Token.tokenize source)).rest ∧
      (Parser.inner depth).expression s = .ok e s'

/-- **Whatever is read from a source text can be listed.** -/
theorem Expr.Lowered.legible {e : Expr} (h : e.Lowered) : e.Legible := by
  obtain ⟨source, depth, s, s', hsuffix, hread⟩ := h
  have hs : s.Legible := fun t ht =>
    Token.legible_tokenize source t ((List.takeWhile_prefix _).subset (hsuffix.subset ht))
  have hends := (Parser.lowersInner depth).expression hs
  rw [Parser.Ends, hread] at hends
  exact hends.1

end Stepwise
