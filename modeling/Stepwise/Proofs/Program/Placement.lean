import Stepwise.Proofs.Program.Fuel
import Stepwise.Proofs.Program.Headers
import Stepwise.Proofs.Program.Yields

/-!
# One text in two places

What is read of a declaration or of an expression depends on its tokens up to the semicolon that
ends it, and not on what stands after that, nor on where the tokens stand.  Besides, a text that is
read where few nesting levels are left is read where there are more.

* `Stream.Parallel` says that two streams are at one place of a text, which has something else after
  it in each.
* `Parser.Matches` says of two parsers that what the first one reads of such a text is read by the
  second one of the other copy, with the same result.
* `Parser.alikeInner` is this for expressions of which the second ones have more levels left.
* `Parser.alike_scalarDeclaration`, `Parser.matches_containerDeclaration`,
  `Parser.alike_expressionStatement` and `Parser.matches_namedStatement` are for statements: they
  end together, behind the semicolon.
-/

set_option autoImplicit false

namespace Stepwise

namespace Stream

variable {u v s t : Stream}

/-- Two streams are at one place of a text that goes on to the next semicolon.  After it there is
`u` in the one and `v` in the other. -/
def Parallel (u v s t : Stream) : Prop :=
  ∃ ks, TokenKind.symbol .semicolon ∉ ks ∧ s.Ahead (ks ++ [.symbol .semicolon]) u ∧
    t.Ahead (ks ++ [.symbol .semicolon]) v

namespace Parallel

theorem kind (h : Parallel u v s t) : t.kind = s.kind := by
  obtain ⟨ks, -, hs, ht⟩ := h
  cases ks with
  | nil => rw [hs.kind, ht.kind]
  | cons k ks => rw [hs.kind, ht.kind]

/-- One more token has been read of both. -/
theorem advance (h : Parallel u v s t) (hk : s.kind ≠ .symbol .semicolon) :
    Parallel u v s.advance t.advance := by
  obtain ⟨ks, hks, hs, ht⟩ := h
  cases ks with
  | nil => exact absurd hs.kind hk
  | cons k ks => exact ⟨ks, fun hmem => hks (List.mem_cons_of_mem k hmem), hs.advance, ht.advance⟩

theorem symbol (h : Parallel u v s t) {c : Symbol} (hk : s.kind = .symbol c)
    (hc : c ≠ .semicolon) : Parallel u v s.advance t.advance :=
  h.advance fun heq => hc (TokenKind.symbol.inj (hk.symm.trans heq))

theorem kindAt_one (h : Parallel u v s t) (hk : s.kind ≠ .symbol .semicolon) :
    t.kindAt 1 = s.kindAt 1 := by
  rw [Parser.kindAt_one, Parser.kindAt_one]
  exact Parser.kind_eq_nextKind t.advance ▸ Parser.kind_eq_nextKind s.advance ▸ (h.advance hk).kind

/-- The semicolon has been read of both. -/
theorem finish (h : Parallel u v s t) (hk : s.kind = .symbol .semicolon) :
    s.advance = u ∧ t.advance = v := by
  obtain ⟨ks, hks, hs, ht⟩ := h
  cases ks with
  | nil => exact ⟨hs.advance, ht.advance⟩
  | cons k ks => exact absurd (hs.kind.symm.trans hk ▸ List.mem_cons_self) hks

/-- The same tokens are passed over in both. -/
theorem skipWhile (h : Parallel u v s t) {p : TokenKind → Bool}
    (hp : p (.symbol .semicolon) = false) :
    Parallel u v { s with rest := s.rest.dropWhile fun t => p t.kind }
      { t with rest := t.rest.dropWhile fun t => p t.kind } := by
  obtain ⟨ks, hks, hs, ht⟩ := h
  induction ks generalizing s t with
  | nil =>
    obtain ⟨l, rest, finish, rfl, hu⟩ := hs.eq_cons
    obtain ⟨l', rest', finish', rfl, hv⟩ := ht.eq_cons
    simp only [List.dropWhile_cons, hp]
    exact ⟨[], hks, hs, ht⟩
  | cons k ks ih =>
    obtain ⟨l, rest, finish, rfl, hs'⟩ := hs.eq_cons
    obtain ⟨l', rest', finish', rfl, ht'⟩ := ht.eq_cons
    simp only [List.dropWhile_cons]
    cases p k with
    | true => exact ih (fun hmem => hks (List.mem_cons_of_mem k hmem)) hs' ht'
    | false => exact ⟨k :: ks, hks, hs, ht⟩

/-- A list of template arguments ends at the same place in both, or it does not end. -/
theorem templateEnd? (h : Parallel u v s t) (depth : Int) :
    (Stepwise.templateEnd? depth s.rest = none ∧ Stepwise.templateEnd? depth t.rest = none) ∨
      ∃ rest rest', Stepwise.templateEnd? depth s.rest = some rest ∧
        Stepwise.templateEnd? depth t.rest = some rest' ∧
        Parallel u v { s with rest } { t with rest := rest' } := by
  obtain ⟨ks, hks, hs, ht⟩ := h
  induction ks generalizing s t depth with
  | nil =>
    obtain ⟨l, rest, finish, rfl, -⟩ := hs.eq_cons
    obtain ⟨l', rest', finish', rfl, -⟩ := ht.eq_cons
    exact .inl ⟨rfl, rfl⟩
  | cons k ks ih =>
    obtain ⟨l, rest, finish, rfl, hs'⟩ := hs.eq_cons
    obtain ⟨l', rest', finish', rfl, ht'⟩ := ht.eq_cons
    have hmem : TokenKind.symbol .semicolon ∉ ks := fun hmem => hks (List.mem_cons_of_mem k hmem)
    rw [templateEnd?_cons, templateEnd?_cons]
    dsimp only
    split
    · exact .inl ⟨rfl, rfl⟩
    · split
      · exact .inr ⟨rest, rest', rfl, rfl, ks, hmem, hs', ht'⟩
      · exact ih _ hmem hs' ht'

end Parallel

end Stream

namespace Parser

open Stepwise.Stream (Parallel)

variable {α β : Type} {R R' : Stream → Stream → Prop} {u v s t : Stream} {c : Symbol}

/-- What `p` reads from `s` is read by `q` from `t`, with the same result, and they end where `R`
says. -/
def Matches (R : Stream → Stream → Prop) (s t : Stream) (p q : Parser α) : Prop :=
  ∀ a s', p s = .ok a s' → ∃ t', q t = .ok a t' ∧ R s' t'

theorem matches_pure (h : R s t) (a : α) : Matches R s t (pure a) (pure a) := by
  intro b s' hb
  cases hb
  exact ⟨t, rfl, h⟩

theorem matches_failHere (message : String) (q : Parser α) :
    Matches R s t (failHere message) q := by
  intro a s' h
  cases h

theorem Matches.bind {p q : Parser β} {f g : β → Parser α} (hp : Matches R s t p q)
    (hf : ∀ b s' t', R s' t' → Matches R' s' t' (f b) (g b)) :
    Matches R' s t (p >>= f) (q >>= g) := by
  intro a s'' h
  obtain ⟨b, s', hb, ha⟩ := bind_eq_ok h
  obtain ⟨t', hb', hR⟩ := hp b s' hb
  rw [bind_of_ok hb']
  exact hf b s' t' hR a s'' ha

theorem Matches.congr {p p' q q' : Parser α} (hp : p s = p' s) (hq : q t = q' t)
    (h : Matches R s t p' q') : Matches R s t p q := by
  rwa [Matches, hp, hq]

theorem matches_peek {f g : TokenKind → Parser α} (hs : Parallel u v s t)
    (h : Matches R s t (f s.kind) (g s.kind)) : Matches R s t (peek >>= f) (peek >>= g) := by
  intro a s' ha
  rw [peek_bind, hs.kind]
  exact h a s' ha

theorem matches_peekAt {f g : TokenKind → Parser α} (hs : Parallel u v s t)
    (hk : s.kind ≠ .symbol .semicolon)
    (h : Matches R s t (f (s.kindAt 1)) (g (s.kindAt 1))) :
    Matches R s t (peekAt 1 >>= f) (peekAt 1 >>= g) := by
  intro a s' ha
  rw [peekAt_bind, hs.kindAt_one hk]
  exact h a s' ha

theorem matches_advance {f g : Unit → Parser α}
    (h : Matches R s.advance t.advance (f ()) (g ())) :
    Matches R s t (advance >>= f) (advance >>= g) := h

theorem matches_check {f g : Bool → Parser α} (hs : Parallel u v s t)
    (htrue : s.kind = .symbol c → Matches R s t (f true) (g true))
    (hfalse : Matches R s t (f false) (g false)) :
    Matches R s t (check c >>= f) (check c >>= g) := by
  intro a s' ha
  rw [check_bind] at ha ⊢
  rw [hs.kind]
  cases hc : s.kind.isSymbol c with
  | true =>
    rw [hc] at ha
    exact htrue (TokenKind.isSymbol_iff.1 hc) a s' ha
  | false =>
    rw [hc] at ha
    exact hfalse a s' ha

theorem matches_accept {f g : Bool → Parser α} (hs : Parallel u v s t)
    (htrue : s.kind = .symbol c → Matches R s.advance t.advance (f true) (g true))
    (hfalse : Matches R s t (f false) (g false)) :
    Matches R s t (accept c >>= f) (accept c >>= g) := by
  intro a s' ha
  by_cases hk : s.kind = .symbol c
  · rw [bind_of_ok (accept_of_kind hk)] at ha
    rw [bind_of_ok (accept_of_kind (hs.kind.trans hk))]
    exact htrue hk a s' ha
  · rw [bind_of_ok (accept_of_kind_ne hk)] at ha
    rw [bind_of_ok (accept_of_kind_ne fun h => hk (hs.kind.symm.trans h))]
    exact hfalse a s' ha

/-- What is found by `check`, in one statement for both answers. -/
theorem matches_checked {f g : Bool → Parser α} (hs : Parallel u v s t)
    (h : ∀ found, Matches R s t (f found) (g found)) :
    Matches R s t (check c >>= f) (check c >>= g) :=
  matches_check hs (fun _ => h true) (h false)

/-- What is found by `accept`, in one statement for both answers. -/
theorem matches_found {f g : Bool → Parser α} (hs : Parallel u v s t) (hc : c ≠ .semicolon)
    (h : ∀ found s' t', Parallel u v s' t' → Matches R s' t' (f found) (g found)) :
    Matches R s t (accept c >>= f) (accept c >>= g) :=
  matches_accept hs (fun hk => h true _ _ (hs.symbol hk hc)) (h false s t hs)

theorem matches_expect {f g : Unit → Parser α} {context : String} (hs : Parallel u v s t)
    (h : s.kind = .symbol c → Matches R s.advance t.advance (f ()) (g ())) :
    Matches R s t (expect c context >>= f) (expect c context >>= g) := by
  intro a s' ha
  by_cases hk : s.kind = .symbol c
  · rw [bind_of_ok (expect_of_kind hk)] at ha
    rw [bind_of_ok (expect_of_kind (hs.kind.trans hk))]
    exact h hk a s' ha
  · have hc : ¬ s.kind.isSymbol c = true := fun hc => hk (TokenKind.isSymbol_iff.1 hc)
    rw [bind_of_error ((expect_apply context s).trans (if_neg hc))] at ha
    cases ha

theorem matches_identifier {f g : String → Parser α} (hs : Parallel u v s t)
    (h : ∀ name, s.kind = .ident name → Matches R s.advance t.advance (f name) (g name)) :
    Matches R s t (identifier >>= f) (identifier >>= g) := by
  intro a s' ha
  obtain ⟨name, s₁, hname, -⟩ := bind_eq_ok ha
  cases hk : s.kind with
  | ident name =>
    rw [bind_of_ok (identifier_of_kind hk)] at ha
    rw [bind_of_ok (identifier_of_kind (hs.kind.trans hk))]
    exact h name hk a s' ha
  | _ =>
    rw [identifier, peek_bind, hk] at hname
    cases hname

theorem matches_skipWhile {f g : Unit → Parser α} {p : TokenKind → Bool} (hs : Parallel u v s t)
    (hp : p (.symbol .semicolon) = false)
    (h : ∀ s' t', Parallel u v s' t' → Matches R s' t' (f ()) (g ())) :
    Matches R s t (skipWhile p >>= f) (skipWhile p >>= g) :=
  h _ _ (hs.skipWhile hp)

/-- Loops that end by themselves need not have the same number of turns. -/
theorem matches_loop {loop loop' : Nat → Parser α} (hl : Endless loop) (hl' : Endless loop')
    (h : ∀ fuel, Matches R s t (loop fuel) (loop' fuel)) :
    Matches R s t (get >>= fun s => loop (s.length + 1))
      (get >>= fun s => loop' (s.length + 1)) := by
  intro a s' ha
  have hs : s.length < s.length + t.length + 1 := by omega
  have ht : t.length < s.length + t.length + 1 := by omega
  have hloop : loop (s.length + t.length + 1) s = .ok a s' :=
    (hl hs (Nat.lt_succ_self _)).trans ha
  obtain ⟨t', ht', hR⟩ := h _ a s' hloop
  exact ⟨t', (hl' (Nat.lt_succ_self _) ht).trans ht', hR⟩

/-! ## Expressions -/

/-- What the one parser reads of a text up to a semicolon, the other one reads of it elsewhere. -/
def Alike (p q : Parser α) : Prop :=
  ∀ ⦃u v s t : Stream⦄, Parallel u v s t → Matches (Parallel u v) s t p q

theorem alike_commaItems {p q : Parser α} (h : Alike p q) :
    ∀ fuel, Alike (commaItems p fuel) (commaItems q fuel)
  | 0, _, _, _, _, hs => matches_pure hs []
  | fuel + 1, _, _, _, _, hs => by
    rw [commaItems, commaItems]
    refine (h hs).bind fun first s₁ t₁ h₁ => matches_accept h₁ (fun hk => ?_) (matches_pure h₁ _)
    refine (alike_commaItems h fuel (h₁.symbol hk (by decide))).bind fun others s₂ t₂ h₂ => ?_
    exact matches_pure h₂ _

/-- The expression parsers of one level read what those of another one read of a text elsewhere. -/
structure AlikeInner (i j : Inner Parser) : Prop where
  /-- Full expressions. -/
  expression : Alike i.expression j.expression
  /-- Expressions without assignments. -/
  ternary : Alike i.ternary j.ternary
  /-- Operands. -/
  unary : Alike i.unary j.unary

namespace AlikeInner

variable {d e : Nat} (h : AlikeInner (inner d) (inner e))
include h

theorem commaList :
    Alike (commaList (inner d).expression) (Parser.commaList (inner e).expression) :=
  fun _ _ _ _ hs => matches_loop (loopsEnd d).expressions (loopsEnd e).expressions fun fuel =>
    alike_commaItems h.expression fuel hs

theorem arguments : Alike (arguments (inner d)) (Parser.arguments (inner e)) := by
  intro u v s t hs
  refine matches_accept hs (fun hk => matches_pure (hs.symbol hk (by decide)) []) ?_
  refine (h.commaList hs).bind fun args s₁ t₁ h₁ => matches_expect h₁ fun hk => ?_
  exact matches_pure (h₁.symbol hk (by decide)) args

omit h in
theorem literal {u v s t : Stream} (hs : Parallel u v s t) (hk : s.kind ≠ .symbol .semicolon)
    (l : Literal) : Matches (Parallel u v) s t (literal l) (Parser.literal l) :=
  matches_advance (matches_pure (hs.advance hk) _)

theorem primary : Alike (primary (inner d)) (Parser.primary (inner e)) := by
  intro u v s t hs
  refine matches_peek hs ?_
  cases hk : s.kind with
  | symbol c =>
    have hnext := hs.symbol hk
    cases c with
    | leftParen =>
      refine matches_advance ((h.expression (hnext (by decide))).bind fun value s₁ t₁ h₁ => ?_)
      exact matches_expect h₁ fun hk' => matches_pure (h₁.symbol hk' (by decide)) value
    | «true» | «false» | null => exact literal hs (by rw [hk]; nofun) _
    | _ => exact matches_failHere _ _
  | ident name =>
    have hnext := hs.advance (by rw [hk]; nofun)
    dsimp only
    split
    · exact matches_advance (matches_pure hnext _)
    · exact matches_advance (matches_pure hnext _)
  | int | float | str | char => exact literal hs (by rw [hk]; nofun) _
  | _ => exact matches_failHere _ _

theorem memberOf (object : Expr) :
    Alike (memberOf (inner d) object) (Parser.memberOf (inner e) object) := by
  intro u v s t hs
  refine matches_identifier hs fun name hk => ?_
  have hname := hs.advance (by rw [hk]; nofun)
  refine matches_accept hname (fun hk' => ?_) (matches_pure hname _)
  refine (h.arguments (hname.symbol hk' (by decide))).bind fun args s₁ t₁ h₁ => ?_
  exact matches_pure h₁ _

theorem trailers : ∀ (fuel : Nat) (x : Expr),
    Alike (trailers (inner d) fuel x) (Parser.trailers (inner e) fuel x)
  | 0, _, _, _, _, _, hs => matches_pure hs _
  | fuel + 1, x, u, v, s, t, hs => by
    unfold Parser.trailers
    refine matches_peek hs ?_
    cases hk : s.kind with
    | symbol c =>
      have hnext := hs.symbol hk
      cases c with
      | leftParen =>
        cases x with
        | var name =>
          refine matches_advance ((h.arguments (hnext (by decide))).bind fun args s₁ t₁ h₁ => ?_)
          exact trailers fuel _ h₁
        | _ => exact matches_failHere _ _
      | dot =>
        exact matches_advance ((h.memberOf x (hnext (by decide))).bind fun x' s₁ t₁ h₁ =>
          trailers fuel x' h₁)
      | arrow =>
        exact matches_advance ((h.memberOf x (hnext (by decide))).bind fun x' s₁ t₁ h₁ =>
          trailers fuel x' h₁)
      | leftBracket =>
        refine matches_advance ((h.expression (hnext (by decide))).bind fun index s₁ t₁ h₁ => ?_)
        exact matches_expect h₁ fun hk' => trailers fuel _ (h₁.symbol hk' (by decide))
      | plusPlus => exact matches_advance (trailers fuel _ (hnext (by decide)))
      | minusMinus => exact matches_advance (trailers fuel _ (hnext (by decide)))
      | _ => exact matches_pure hs _
    | _ => exact matches_pure hs _

theorem operand : Alike (operand (inner d)) (Parser.operand (inner e)) :=
  fun _ _ _ _ hs => (h.primary hs).bind fun x _ _ h₁ =>
    matches_loop ((loopsEnd d).trailers x) ((loopsEnd e).trailers x) fun fuel =>
      h.trailers fuel x h₁

theorem cast {u v s t : Stream} (hs : Parallel u v s t) (hk : s.kind = .symbol .leftParen) :
    Matches (Parallel u v) s t (cast (inner d)) (Parser.cast (inner e)) := by
  refine matches_advance (matches_skipWhile (hs.symbol hk (by decide)) rfl fun s₁ t₁ h₁ => ?_)
  exact matches_expect h₁ fun hk' => h.unary (h₁.symbol hk' (by decide))

theorem level_unary : Alike (Parser.unary (inner d)) (Parser.unary (inner e)) := by
  intro u v s t hs
  refine matches_peek hs ?_
  cases hk : s.kind with
  | symbol c =>
    have hnext := hs.symbol hk
    cases c with
    | minus | bang | tilde | plusPlus | minusMinus =>
      refine matches_advance ((h.unary (hnext (by decide))).bind fun x s₁ t₁ h₁ => ?_)
      exact matches_pure h₁ _
    | plus => exact matches_advance (h.unary (hnext (by decide)))
    | star | ampersand => exact matches_failHere _ _
    | leftParen =>
      refine matches_peekAt hs (by rw [hk]; nofun) ?_
      split
      · exact h.cast hs hk
      · exact h.operand hs
    | _ => exact h.operand hs
  | _ => exact h.operand hs

theorem operations : ∀ fuel,
    Alike (operations (inner d) fuel) (Parser.operations (inner e) fuel)
  | 0, _, _, _, _, hs => matches_pure hs []
  | fuel + 1, u, v, s, t, hs => by
    rw [Parser.operations, Parser.operations]
    refine matches_peek hs ?_
    cases hop : BinaryOp.ofToken? s.kind with
    | none => exact matches_pure hs []
    | some op =>
      have hnext := hs.advance fun hk => by rw [hk] at hop; cases hop
      refine matches_advance ((h.level_unary hnext).bind fun right s₁ t₁ h₁ => ?_)
      exact (operations fuel h₁).bind fun others s₂ t₂ h₂ => matches_pure h₂ _

theorem binary : Alike (binary (inner d)) (Parser.binary (inner e)) := by
  intro u v s t hs
  refine (h.level_unary hs).bind fun first s₁ t₁ h₁ => ?_
  rw [← bind_assoc, ← bind_assoc]
  refine Matches.bind (R := Parallel u v) ?_ fun others s₂ t₂ h₂ => matches_pure h₂ _
  exact matches_loop (endless_operations d) (endless_operations e) fun fuel => h.operations fuel h₁

theorem level_ternary : Alike (Parser.ternary (inner d)) (Parser.ternary (inner e)) := by
  intro u v s t hs
  refine (h.binary hs).bind fun condition s₁ t₁ h₁ =>
    matches_accept h₁ (fun hk => ?_) (matches_pure h₁ _)
  refine (h.expression (h₁.symbol hk (by decide))).bind fun thenValue s₂ t₂ h₂ => ?_
  refine matches_expect h₂ fun hk' => ?_
  exact (h.ternary (h₂.symbol hk' (by decide))).bind fun elseValue s₃ t₃ h₃ => matches_pure h₃ _

theorem level_expression : Alike (assignment (inner d)) (assignment (inner e)) := by
  intro u v s t hs
  refine (h.level_ternary hs).bind fun target s₁ t₁ h₁ => matches_accept h₁ (fun hk => ?_) ?_
  · exact (h.expression (h₁.symbol hk (by decide))).bind fun value s₂ t₂ h₂ => matches_pure h₂ _
  · refine matches_peek h₁ ?_
    cases hop : BinaryOp.ofAssignment? s₁.kind with
    | none => exact matches_pure h₁ _
    | some op =>
      have hnext := h₁.advance fun hk => by rw [hk] at hop; cases hop
      refine matches_advance ((h.expression hnext).bind fun value s₂ t₂ h₂ => ?_)
      exact matches_pure h₂ _

end AlikeInner

/-- **Expressions are read alike,** if there are as many nesting levels left or more. -/
theorem alikeInner : ∀ {d e : Nat}, d ≤ e → AlikeInner (inner d) (inner e)
  | 0, _, _ => ⟨fun _ _ _ _ _ => matches_failHere _ _, fun _ _ _ _ _ => matches_failHere _ _,
    fun _ _ _ _ _ => matches_failHere _ _⟩
  | _ + 1, 0, hle => absurd hle (Nat.not_succ_le_zero _)
  | _ + 1, _ + 1, hle =>
    have h := alikeInner (Nat.le_of_succ_le_succ hle)
    ⟨h.level_expression, h.level_ternary, h.level_unary⟩

/-! ## Declarations -/

section Initializers

variable {p q : Parser Expr} {p' q' : Parser (List Expr)}

theorem alike_initializerItems (h : Alike p q) (h' : Alike p' q') :
    ∀ fuel, Alike (initializerItems p p' fuel) (initializerItems q q' fuel)
  | 0, _, _, _, _, hs => matches_pure hs []
  | fuel + 1, u, v, s, t, hs => by
    rw [initializerItems, initializerItems]
    refine matches_accept hs (fun hk => matches_pure (hs.symbol hk (by decide)) []) ?_
    refine matches_found hs (by decide) fun found s₁ t₁ h₁ => ?_
    extract_lets rest rest'
    have hrest : ∀ items, Alike (rest items) (rest' items) := by
      intro items u v s₂ t₂ h₂
      refine matches_accept h₂ (fun hk => ?_) (matches_expect h₂ fun hk => ?_)
      · have hmore := alike_initializerItems h h' fuel (h₂.symbol hk (by decide))
        exact hmore.bind fun others s₃ t₃ h₃ => matches_pure h₃ _
      · exact matches_pure (h₂.symbol hk (by decide)) items
    cases found with
    | true => exact (h' h₁).bind fun items s₂ t₂ h₂ => hrest items h₂
    | false => exact (h h₁).bind fun item s₂ t₂ h₂ => hrest [item] h₂

end Initializers

section Levels

variable {d e : Nat}

theorem alike_nestedInitializer :
    ∀ {d e : Nat}, d ≤ e → Alike (nestedInitializer d) (nestedInitializer e)
  | 0, _, _ => fun _ _ _ _ _ => matches_failHere _ _
  | _ + 1, 0, hle => absurd hle (Nat.not_succ_le_zero _)
  | d + 1, e + 1, hle => by
    have hle' := Nat.le_of_succ_le_succ hle
    intro u v s t hs
    rw [nestedInitializer, nestedInitializer, initializerList_eq, initializerList_eq]
    refine matches_loop (loopsEnd d).initializers (loopsEnd e).initializers fun fuel => ?_
    exact alike_initializerItems (alikeInner hle').expression (alike_nestedInitializer hle') fuel hs

theorem alike_initializerList (hle : d ≤ e) : Alike (initializerList d) (initializerList e) :=
  alike_nestedInitializer (Nat.succ_le_succ hle)

theorem alike_arrayDeclarator (hle : d ≤ e) (name : String) :
    Alike (arrayDeclarator (level d) name) (arrayDeclarator (level e) name) := by
  intro u v s t hs
  rw [arrayDeclarator, arrayDeclarator]
  refine matches_checked hs fun unsized => ?_
  extract_lets rest rest'
  have hrest : ∀ size, Alike (rest size) (rest' size) := by
    intro size u v s₁ t₁ h₁
    refine matches_expect h₁ fun hk => ?_
    have h₂ := h₁.symbol hk (by decide)
    refine matches_check h₂ (fun _ => matches_failHere _ _) ?_
    refine matches_found h₂ (by decide) fun assign s₃ t₃ h₃ => matches_checked h₃ fun brace => ?_
    split
    · refine matches_expect h₃ fun hk' => ?_
      refine (alike_initializerList hle (h₃.symbol hk' (by decide))).bind fun items s₄ t₄ h₄ => ?_
      exact matches_pure h₄ _
    · split
      · exact matches_failHere _ _
      · exact matches_pure h₃ _
  cases unsized with
  | true => exact hrest none hs
  | false =>
    exact ((alikeInner hle).expression hs).bind fun size s₁ t₁ h₁ => hrest (some size) h₁

theorem alike_declarator (hle : d ≤ e) : Alike (declarator (level d)) (declarator (level e)) := by
  have hinner := (alikeInner hle).expression
  intro u v s t hs
  refine matches_skipWhile hs rfl fun s₁ t₁ h₁ => matches_identifier h₁ fun name hk => ?_
  have hname := h₁.advance (by rw [hk]; nofun)
  refine matches_accept hname (fun hk => ?_) (matches_accept hname (fun hk => ?_)
    (matches_accept hname (fun hk => ?_) (matches_accept hname (fun hk => ?_) ?_)))
  · exact alike_arrayDeclarator hle name (hname.symbol hk (by decide))
  · exact (hinner (hname.symbol hk (by decide))).bind fun value s₂ t₂ h₂ => matches_pure h₂ _
  · refine (hinner (hname.symbol hk (by decide))).bind fun value s₂ t₂ h₂ => ?_
    exact matches_expect h₂ fun hk' => matches_pure (h₂.symbol hk' (by decide)) _
  · refine (alike_initializerList hle (hname.symbol hk (by decide))).bind fun items s₂ t₂ h₂ => ?_
    exact matches_pure h₂ _
  · exact matches_pure hname _

theorem alike_containerDeclarator (kind : SequenceKind) :
    Alike (containerDeclarator kind) (containerDeclarator kind) := by
  intro u v s t hs
  refine matches_identifier hs fun name hk => ?_
  have hname := hs.advance (by rw [hk]; nofun)
  refine matches_peek hname ?_
  split
  · exact matches_failHere _ _
  · exact matches_pure hname _

/-! ## Statements -/

/-- What the one parser reads of a text through a semicolon, the other one reads of it elsewhere. -/
def AlikeThrough (p q : Parser α) : Prop :=
  ∀ ⦃u v s t : Stream⦄, Parallel u v s t → Matches (fun s' t' => s' = u ∧ t' = v) s t p q

theorem matches_finish {context : String} (hs : Parallel u v s t) (a : α) :
    Matches (fun s' t' => s' = u ∧ t' = v) s t (expect .semicolon context >>= fun _ => pure a)
      (expect .semicolon context >>= fun _ => pure a) :=
  matches_expect hs fun hk => matches_pure (hs.finish hk) a

theorem alike_scalarDeclaration (hle : d ≤ e) :
    AlikeThrough (scalarDeclaration (level d)) (scalarDeclaration (level e)) := by
  intro u v s t hs
  refine matches_skipWhile hs rfl fun s₁ t₁ h₁ => matches_peek h₁ ?_
  split
  · refine matches_skipWhile h₁ rfl fun s₂ t₂ h₂ => Matches.bind (R := Parallel u v) ?_
      fun stmts s₃ t₃ h₃ => matches_finish h₃ stmts
    exact matches_loop (loopsEnd d).declarators (loopsEnd e).declarators fun fuel =>
      alike_commaItems (alike_declarator hle) fuel h₂
  · exact matches_failHere _ _

theorem alike_templateArguments : Alike templateArguments templateArguments := by
  intro u v s t hs a s' ha
  rw [templateArguments, get_bind] at ha ⊢
  rw [hs.kind]
  generalize s.kind.isSymbol .less = less at ha ⊢
  rcases hs.templateEnd? 0 with ⟨hend, -⟩ | ⟨rest, rest', hend, hend', hrest⟩
  · rw [hend] at ha
    cases less <;> cases ha
  · rw [hend] at ha
    rw [hend']
    cases less with
    | false => cases ha
    | true =>
      cases ha
      exact ⟨_, rfl, hrest⟩

theorem matches_containerDeclaration (kind : SequenceKind) {u v s t : Stream}
    (hs : Parallel u v s t)
    (hk : s.kind ≠ .symbol .semicolon) :
    Matches (fun s' t' => s' = u ∧ t' = v) s t (containerDeclaration kind)
      (containerDeclaration kind) := by
  refine matches_advance ((alike_templateArguments (hs.advance hk)).bind fun _ s₁ t₁ h₁ => ?_)
  refine Matches.bind (R := Parallel u v) ?_ fun stmts s₂ t₂ h₂ => matches_finish h₂ stmts
  exact matches_loop ((loopsEnd 0).containers kind) ((loopsEnd 0).containers kind) fun fuel =>
    alike_commaItems (alike_containerDeclarator kind) fuel h₁

theorem alike_expressionStatement (hle : d ≤ e) :
    AlikeThrough (expressionStatement (level d)) (expressionStatement (level e)) :=
  fun _ _ _ _ hs => ((alikeInner hle).expression hs).bind fun _ _ _ h₁ => matches_finish h₁ _

theorem skipStatement_of_ahead {ks : List TokenKind} (hs : s.Ahead (ks ++ [.symbol .semicolon]) u)
    (hks : TokenKind.symbol .semicolon ∉ ks) : (skipStatement : Parser Unit) s = .ok () u := by
  obtain ⟨s₁, h₁, h₂⟩ := Stream.ahead_append.1 hs
  have hskip : (skipStatement : Parser Unit) s
      = (skipWhile (fun k => !k.isSymbol .semicolon) >>= fun _ => advance : Parser Unit) s := rfl
  rw [hskip, bind_of_ok (skipWhile_of_ahead h₁ (fun k hk => ?_) (by rw [h₂.kind]; rfl)),
    Stream.ahead_singleton h₂]
  · rfl
  · rw [Bool.not_eq_true', ← Bool.not_eq_true, TokenKind.isSymbol_iff]
    rintro rfl
    exact hks hk

/-- Whether a list of template arguments is next, and a name after it. -/
def namesGeneric (ts : List Token) : Bool :=
  match templateEnd? 0 ts with
  | some (t :: _) => t.kind.isIdent
  | _ => false

theorem namesGeneric_eq (ts : List Token) :
    namesGeneric ts = (templateEnd? 0 ts).any fun rest => (nextKind rest).isIdent := by
  rw [namesGeneric]
  rcases templateEnd? 0 ts with _ | _ | ⟨t, ts⟩ <;> rfl

theorem namedStatement_apply (depth : Nat) (name : String) (s : Stream) :
    namedStatement (level depth) name s
      = (if consoleStreams.contains name ||
            (consoleCalls.contains name && (s.kindAt 1).isSymbol .leftParen) then
          skipStatement >>= fun _ => pure []
        else if (s.kindAt 1).isSymbol .less then
          match SequenceKind.ofTypeName? name with
          | some kind => containerDeclaration kind
          | none =>
            if namesGeneric s.rest.tail then
              failHere ("Unsupported container type '" ++ name ++ "'")
            else expressionStatement (level depth)
        else expressionStatement (level depth) : Parser (List Stmt)) s :=
  rfl

theorem matches_skipStatement (hs : Parallel u v s t) (a : α) :
    Matches (fun s' t' => s' = u ∧ t' = v) s t (skipStatement >>= fun _ => pure a)
      (skipStatement >>= fun _ => pure a) := by
  obtain ⟨ks, hks, hs, ht⟩ := hs
  intro b s' hb
  rw [bind_of_ok (skipStatement_of_ahead hs hks)] at hb
  rw [bind_of_ok (skipStatement_of_ahead ht hks)]
  cases hb
  exact ⟨v, rfl, rfl, rfl⟩

theorem matches_namedStatement (hle : d ≤ e) {name : String} (hs : Parallel u v s t)
    (hk : s.kind = .ident name) :
    Matches (fun s' t' => s' = u ∧ t' = v) s t (namedStatement (level d) name)
      (namedStatement (level e) name) := by
  have hname : s.kind ≠ .symbol .semicolon := by rw [hk]; nofun
  have hnames : namesGeneric t.rest.tail = namesGeneric s.rest.tail := by
    rw [namesGeneric_eq, namesGeneric_eq]
    obtain ⟨hend, hend'⟩ | ⟨rest, rest', hend, hend', hrest⟩ := (hs.advance hname).templateEnd? 0
    · rw [Stream.advance] at hend hend'
      rw [hend, hend']
    · have hkind := hrest.kind
      rw [kind_eq_nextKind, kind_eq_nextKind] at hkind
      rw [Stream.advance] at hend hend'
      rw [hend, hend']
      exact congrArg TokenKind.isIdent hkind
  refine Matches.congr (namedStatement_apply d name s) (namedStatement_apply e name t) ?_
  rw [hs.kindAt_one hname, hnames]
  split
  · exact matches_skipStatement hs []
  · split
    · cases SequenceKind.ofTypeName? name with
      | some kind => exact matches_containerDeclaration kind hs hname
      | none =>
        dsimp only
        split
        · exact matches_failHere _ _
        · exact alike_expressionStatement hle hs
    · exact alike_expressionStatement hle hs

end Levels

end Parser

end Stepwise
