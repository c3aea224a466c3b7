import Stepwise.Proofs.Surface.Expression

/-!
# Declarations are read back

What stands in a declaration is known to end with a semicolon, so it is read as intended whether or
not it has a size, an initial value or initial elements.

* `Surface.Expr.check_optional` is what all places have in common where an expression may be
  missing.
* `Surface.Decl.reads_scalarDeclaration` reads declarations, and
  `Surface.reads_containerDeclaration` those of containers.
-/

set_option autoImplicit false

namespace Stepwise

namespace Parser

variable {p : TokenKind → Bool} {s : Stream}

theorem skipWhile_of_kind (h : p s.kind = false) : (skipWhile p : Parser Unit) s = .ok () s := by
  obtain ⟨rest, finish⟩ := s
  cases rest with
  | nil => rfl
  | cons t ts =>
    have hdrop : (t :: ts).dropWhile (fun t => p t.kind) = t :: ts :=
      List.dropWhile_cons_of_neg (Bool.not_eq_true _ ▸ h)
    exact congrArg (fun rest => EStateM.Result.ok () (Stream.mk rest finish)) hdrop

/-- A single token is skipped. -/
theorem skipWhile_one (hne : s.rest ≠ []) (h : p s.kind = true) (hnext : p s.advance.kind = false) :
    (skipWhile p : Parser Unit) s = .ok () s.advance := by
  obtain ⟨rest, finish⟩ := s
  cases rest with
  | nil => exact absurd rfl hne
  | cons t ts =>
    have hdrop : (t :: ts).dropWhile (fun t => p t.kind) = ts.dropWhile fun t => p t.kind :=
      List.dropWhile_cons_of_pos h
    have hskip : (skipWhile p : Parser Unit) ⟨t :: ts, finish⟩
        = (skipWhile p : Parser Unit) ⟨ts, finish⟩ :=
      congrArg (fun rest => EStateM.Result.ok () (Stream.mk rest finish)) hdrop
    rw [hskip]
    exact skipWhile_of_kind hnext

/-- A list of one item. -/
theorem commaList_one {α : Type} {item : Parser α} {a : α} {s' : Stream} (h : item s = .ok a s')
    (hend : s'.kind ≠ .symbol .comma) : commaList item s = .ok [a] s' := by
  have hlist : commaList item s = commaItems item (s.length + 1) s := rfl
  rw [hlist, commaItems, bind_of_ok h, bind_of_ok (accept_of_kind_ne hend)]
  rfl

end Parser

namespace Surface

open Stepwise.Parser

namespace Expr

/-! ## Lists of expressions and expressions that may be missing -/

/-- The first token of an expression is none of those that end one. -/
theorem isSymbol_of_ahead {e : Expr} {s s' : Stream} (hs : s.Ahead e.written s') {c : Symbol}
    (hc : (TokenKind.symbol c).startsExpr = false) : s.kind ≠ .symbol c := by
  intro hk
  have hstart := e.begins_written.kind hs
  rw [hk, hc] at hstart
  cases hstart

theorem reads_commaList {es : List Expr} {depth : Nat} (hne : es ≠ [])
    (hd : listLevels es ≤ depth) :
    Reads (commaList (inner depth).expression) (commaTokens (es.map written))
      (fun k => k.endsExpr && !k.isSymbol .comma) (es.map lower) := by
  rw [listLevels_le_iff] at hd
  have hlist := @Parser.reads_commaList _ (inner depth).expression TokenKind.endsExpr rfl
    (es.map fun e => (e.written, e.lower)) (by simpa using hne)
    (List.forall_mem_map.2 fun e he => reads_written (hd e he))
  rwa [List.map_map, List.map_map] at hlist

/-- An expression is read unless the symbol after it is next. -/
theorem check_optional {α : Type} {o : Option Expr} {depth : Nat} {c : Symbol}
    (rest : Option Stepwise.Expr → Parser α) (hd : listLevels o.toList ≤ depth)
    (hc : (TokenKind.symbol c).endsExpr = true ∧ (TokenKind.symbol c).startsExpr = false)
    {s s' : Stream} (hs : s.Ahead (optional o) s') (hk : s'.kind = .symbol c) :
    (check c >>= fun missing => if missing = true then pure none >>= rest
      else (inner depth).expression >>= fun e => pure (some e) >>= rest) s
      = rest (o.map lower) s' := by
  rw [check_bind]
  cases o with
  | none =>
    cases hs
    rw [TokenKind.isSymbol_iff.2 hk, if_pos rfl]
    rfl
  | some e =>
    have hne : ¬ s.kind.isSymbol c = true := fun h =>
      isSymbol_of_ahead hs hc.2 (TokenKind.isSymbol_iff.1 h)
    have hown : e.ownLevels ≤ depth := listLevels_le_iff.1 hd e (List.mem_singleton_self e)
    rw [if_neg hne, bind_of_ok (reads_written hown hs (by rw [hk]; exact hc.1))]
    rfl

/-- Expressions with commas between them are read unless a closing parenthesis is next. -/
theorem check_list {α : Type} {es : List Expr} {depth : Nat}
    (rest : List Stepwise.Expr → Parser α) (hd : listLevels es ≤ depth) {s s' : Stream}
    (hs : s.Ahead (commaTokens (es.map written)) s') (hk : s'.kind = .symbol .rightParen) :
    (check .rightParen >>= fun missing => if missing = true then pure [] >>= rest
      else commaList (inner depth).expression >>= rest) s = rest (es.map lower) s' := by
  rw [check_bind]
  cases es with
  | nil =>
    cases hs
    rw [TokenKind.isSymbol_iff.2 hk, if_pos rfl]
    rfl
  | cons e es =>
    have hstart := (begins_commaTokens e.begins_written (es.map written)).kind hs
    have hne : ¬ s.kind.isSymbol .rightParen = true := by
      intro h
      rw [TokenKind.isSymbol_iff.1 h] at hstart
      cases hstart
    have hlist := reads_commaList (List.cons_ne_nil e es) hd hs (by rw [hk]; rfl)
    rw [if_neg hne, bind_of_ok hlist]

/-! ## Initial elements -/

/-- An element, and then a comma and more elements or the closing brace. -/
theorem initializerItems_element {expression : Parser Stepwise.Expr}
    {nested : Parser (List Stepwise.Expr)} {fuel : Nat} {s s' : Stream} {e : Stepwise.Expr}
    (hclose : s.kind ≠ .symbol .rightBrace) (hopen : s.kind ≠ .symbol .leftBrace)
    (h : expression s = .ok e s') :
    initializerItems expression nested (fuel + 1) s
      = (accept .comma >>= fun more =>
          if more = true then do
            let others ← initializerItems expression nested fuel
            return [e] ++ others
          else do
            expect .rightBrace "after initializer list"
            return [e]) s' := by
  rw [initializerItems, bind_of_ok (accept_of_kind_ne hclose), if_neg Bool.false_ne_true,
    bind_of_ok (accept_of_kind_ne hopen), if_neg Bool.false_ne_true, bind_of_ok h]
  rfl

theorem reads_initializerItems (nested : Parser (List Stepwise.Expr)) {depth : Nat} :
    ∀ {es : List Expr} {fuel : Nat}, es.length < fuel → listLevels es ≤ depth →
      Reads (initializerItems (inner depth).expression nested fuel)
        (commaTokens (es.map written) ++ [.symbol .rightBrace]) anything (es.map lower)
  | _, 0, hfuel, _ => absurd hfuel (Nat.not_lt_zero _)
  | [], fuel + 1, _, _ => by
    intro s s' hs _
    rw [initializerItems, bind_of_ok (accept_of_kind hs.kind), if_pos rfl,
      Stream.ahead_singleton hs]
    rfl
  | [e], fuel + 1, _, hd => by
    intro s s' hs _
    obtain ⟨s₁, h₁, h₂⟩ := Stream.ahead_append.1 hs
    have hread := reads_written (listLevels_le_iff.1 hd e List.mem_cons_self) h₁
      (by rw [h₂.kind]; rfl)
    have hend : s₁.kind ≠ .symbol .comma := by rw [h₂.kind]; rintro ⟨⟩
    rw [initializerItems_element (isSymbol_of_ahead h₁ rfl) (isSymbol_of_ahead h₁ rfl) hread,
      bind_of_ok (accept_of_kind_ne hend), if_neg Bool.false_ne_true,
      bind_of_ok (expect_of_kind h₂.kind), Stream.ahead_singleton h₂]
    rfl
  | e :: e' :: es, fuel + 1, hfuel, hd => by
    intro s s' hs _
    have hsplit : commaTokens ((e :: e' :: es).map written) ++ [.symbol .rightBrace]
        = e.written ++ .symbol .comma ::
            (commaTokens ((e' :: es).map written) ++ [.symbol .rightBrace]) :=
      List.append_assoc _ _ _
    rw [hsplit] at hs
    obtain ⟨s₁, h₁, h₂⟩ := Stream.ahead_append.1 hs
    rw [listLevels, Nat.max_le] at hd
    have hread := reads_written hd.1 h₁ (by rw [h₂.kind]; rfl)
    have hothers := reads_initializerItems nested (Nat.lt_of_succ_lt_succ hfuel) hd.2 h₂.advance rfl
    rw [initializerItems_element (isSymbol_of_ahead h₁ rfl) (isSymbol_of_ahead h₁ rfl) hread,
      bind_of_ok (accept_of_kind h₂.kind), if_pos rfl, bind_of_ok hothers]
    rfl

theorem reads_initializerList {es : List Expr} {depth : Nat} (hd : listLevels es ≤ depth) :
    Reads (initializerList depth) (commaTokens (es.map written) ++ [.symbol .rightBrace]) anything
      (es.map lower) := by
  intro s s' hs hk
  have hlength := hs.length
  have hcount := length_le_commaTokens (es.map written)
  rw [List.length_map] at hcount
  rw [List.length_append, List.length_singleton] at hlength
  have hfuel : es.length < s.length + 1 := by omega
  cases depth with
  | zero => exact reads_initializerItems _ hfuel hd hs hk
  | succ depth => exact reads_initializerItems _ hfuel hd hs hk

end Expr

/-! ## Scalars and arrays -/

namespace Decl

/-- The part of an array declaration after the opening bracket. -/
theorem reads_arrayDeclarator {depth : Nat} (name : String) {size : Option Expr}
    {init : Option (List Expr)} (shaped : size.isSome ∨ init.isSome)
    (hsize : Expr.listLevels size.toList ≤ depth)
    (hinit : Expr.listLevels (init.getD []) ≤ depth) :
    Reads (arrayDeclarator (level depth) name)
      (Expr.optional size ++ .symbol .rightBracket :: init.elim [] braces)
      (TokenKind.isSymbol .semicolon)
      (.array name (size.map Expr.lower) (init.elim [] fun es => es.map Expr.lower)) := by
  intro s s' hs hk
  obtain ⟨s₁, h₁, h₂⟩ := Stream.ahead_append.1 hs
  rw [arrayDeclarator]
  refine (Expr.check_optional _ hsize ⟨rfl, rfl⟩ h₁ h₂.kind).trans ?_
  dsimp only
  rw [bind_of_ok (expect_of_kind h₂.kind), check_bind]
  cases init with
  | none =>
    have hnext : s₁.advance = s' := h₂.advance
    have hsome : (size.map Expr.lower).isNone = false := by
      cases size with
      | none => simp at shaped
      | some e => rfl
    have hsemi := TokenKind.isSymbol_iff.1 hk
    rw [hnext, hsemi, hsome]
    have hne : s'.kind ≠ .symbol .assign := by rw [hsemi]; rintro ⟨⟩
    rw [if_neg (by rintro ⟨⟩), bind_of_ok (accept_of_kind_ne hne), check_bind, hsemi]
    rfl
  | some es =>
    have hassign := h₂.advance
    have hbrace := hassign.advance
    rw [hassign.kind, if_neg (by rintro ⟨⟩), bind_of_ok (accept_of_kind hassign.kind), check_bind]
    rw [Bool.true_or, if_pos rfl, bind_of_ok (expect_of_kind hbrace.kind),
      bind_of_ok (Expr.reads_initializerList hinit hbrace.advance rfl)]
    rfl

/-- A declared name. -/
theorem reads_declarator {depth : Nat} (d : Decl) (hd : Expr.listLevels d.parts ≤ depth) :
    Reads (declarator (level depth)) d.declared (TokenKind.isSymbol .semicolon) d.lower := by
  intro s s' hs hk
  have hsemi := TokenKind.isSymbol_iff.1 hk
  cases d with
  | scalar type name init =>
    have hname := hs.kind
    have hinit := hs.advance
    rw [declarator, bind_of_ok (skipWhile_of_kind (by rw [hname]; rfl)),
      bind_of_ok (identifier_of_kind hname)]
    cases init with
    | none =>
      have hnext : s.advance = s' := hinit
      have hno : ∀ c : Symbol, c ≠ .semicolon → (accept c : Parser Bool) s' = .ok false s' := by
        refine fun c hc => accept_of_kind_ne fun heq => hc ?_
        rw [hsemi] at heq
        exact (TokenKind.symbol.inj heq).symm
      rw [hnext, bind_of_ok (hno .leftBracket (by rintro ⟨⟩)), if_neg Bool.false_ne_true,
        bind_of_ok (hno .assign (by rintro ⟨⟩)), if_neg Bool.false_ne_true,
        bind_of_ok (hno .leftParen (by rintro ⟨⟩)), if_neg Bool.false_ne_true,
        bind_of_ok (hno .leftBrace (by rintro ⟨⟩))]
      rfl
    | some e =>
      have hown : e.ownLevels ≤ depth := Expr.listLevels_le_iff.1 hd e (List.mem_singleton_self e)
      have hread := Expr.reads_written hown hinit.advance (by rw [hsemi]; rfl)
      have hne : s.advance.kind ≠ .symbol .leftBracket := by rw [hinit.kind]; rintro ⟨⟩
      rw [bind_of_ok (accept_of_kind_ne hne), if_neg Bool.false_ne_true,
        bind_of_ok (accept_of_kind hinit.kind), if_pos rfl, bind_of_ok hread]
      rfl
  | array type name size init shaped =>
    have hname := hs.kind
    have hbracket := hs.advance
    rw [parts, Expr.listLevels_append, Nat.max_le] at hd
    rw [declarator, bind_of_ok (skipWhile_of_kind (by rw [hname]; rfl)),
      bind_of_ok (identifier_of_kind hname), bind_of_ok (accept_of_kind hbracket.kind), if_pos rfl]
    exact reads_arrayDeclarator name.text shaped hd.1 hd.2 hbracket.advance hk

/-- **Declarations are read back.** -/
theorem reads_scalarDeclaration {depth : Nat} (d : Decl) (hd : Expr.listLevels d.parts ≤ depth) :
    Reads (scalarDeclaration (level depth)) d.tokens anything [d.lower] := by
  intro s s' hs _
  have htype := hs.kind
  have hscalar : d.type.token.isType = true := rfl
  obtain ⟨s₁, h₁, h₂⟩ := Stream.ahead_append.1 hs.advance
  have hname : (s.advance.kind.isType || s.advance.kind.isConst) = false := by
    cases d with
    | scalar type name init => rw [h₁.kind]; rfl
    | array type name size init shaped => rw [h₁.kind]; rfl
  have hread := d.reads_declarator hd h₁ (by rw [h₂.kind]; rfl)
  have hend : s₁.kind ≠ .symbol .comma := by rw [h₂.kind]; nofun
  rw [scalarDeclaration, bind_of_ok (skipWhile_of_kind (by rw [htype]; rfl)), peek_bind, htype,
    if_pos hscalar, bind_of_ok (skipWhile_one hs.1 (by rw [htype]; rfl) hname),
    bind_of_ok (commaList_one hread hend), bind_of_ok (expect_of_kind h₂.kind),
    Stream.ahead_singleton h₂]
  rfl

end Decl

/-! ## Containers -/

theorem reads_templateArguments (element : ScalarType) :
    Reads templateArguments [.symbol .less, element.token, .symbol .greater] anything () := by
  intro s s' hs _
  obtain ⟨l₁, rest₁, finish, rfl, hs₁⟩ := hs.eq_cons
  obtain ⟨l₂, rest₂, finish₂, heq₂, hs₂⟩ := hs₁.eq_cons
  cases heq₂
  obtain ⟨l₃, rest₃, finish₃, heq₃, rfl⟩ := hs₂.eq_cons
  cases heq₃
  rfl

/-- **Declarations of containers are read back.** -/
theorem reads_containerDeclaration (kind : SequenceKind) (element : ScalarType) (name : Name) :
    Reads (containerDeclaration kind)
      [.ident (typeName kind), .symbol .less, element.token, .symbol .greater, name.token,
        .symbol .semicolon] anything [.construct name.text kind] := by
  intro s s' hs _
  have htail := hs.advance
  obtain ⟨s₁, h₁, h₂⟩ := (@Stream.ahead_append s.advance s'
    [.symbol .less, element.token, .symbol .greater] [name.token, .symbol .semicolon]).1 htail
  have hsemi := h₂.advance
  have hread : (containerDeclarator kind : Parser _) s₁
      = .ok (.construct name.text kind) s₁.advance := by
    rw [containerDeclarator, bind_of_ok (identifier_of_kind h₂.kind), peek_bind, hsemi.kind]
    rfl
  have hend : s₁.advance.kind ≠ .symbol .comma := by rw [hsemi.kind]; nofun
  rw [containerDeclaration, advance_bind, bind_of_ok (reads_templateArguments element h₁ rfl),
    bind_of_ok (commaList_one hread hend), bind_of_ok (expect_of_kind hsemi.kind),
    Stream.ahead_singleton hsemi]
  rfl

end Surface

end Stepwise
