import Stepwise.Proofs.Program.Progress

/-!
# Fuel is never used up

The loops inside of statements are given one turn more than there are tokens.  This file shows that
any larger number of turns gives the same result: every turn takes a token, so these are loops that
end by themselves.

`Parser.Endless loop` says this of a loop, and `Parser.loopsEnd` of all of them.  In each of them
the turns are compared one by one: `Parser.bind_congr_of_ends` says that two parsers which begin in
the same way need to agree only on the streams where the common part may stop.
-/

set_option autoImplicit false

namespace Stepwise

namespace Parser

variable {α β : Type} {s : Stream}

/-- More turns than there are tokens make no difference. -/
def Endless (loop : Nat → Parser α) : Prop :=
  ∀ ⦃fuel fuel' : Nat⦄ ⦃s : Stream⦄, s.length < fuel → s.length < fuel' → loop fuel s = loop fuel' s

theorem bind_congr_of_ends {p : Parser β} {f g : β → Parser α} {ok : β → Stream → Prop}
    {err : Stream → Prop} (hp : Ends s ok err p) (h : ∀ b s', ok b s' → f b s' = g b s') :
    (p >>= f) s = (p >>= g) s := by
  rw [Ends] at hp
  cases hps : p s with
  | ok b s' =>
    rw [hps] at hp
    rw [bind_of_ok hps, bind_of_ok hps, h b s' hp]
  | error e s' => rw [bind_of_error hps, bind_of_error hps]

theorem bind_congr_left {p q : Parser β} (f : β → Parser α) (h : p s = q s) :
    (p >>= f) s = (q >>= f) s := by
  simp only [bind, EStateM.bind, h]

/-- To compare a loop with different numbers of turns, one turn is enough: it may be assumed that
the remaining turns agree on all shorter streams. -/
theorem endless_of_turn {γ : Type} {loop : Nat → γ → Parser α}
    (h : ∀ (fuel fuel' : Nat) (c : γ) (s : Stream),
      (∀ c s', s'.length < s.length → loop fuel c s' = loop fuel' c s') →
      loop (fuel + 1) c s = loop (fuel' + 1) c s) :
    ∀ c, Endless fun fuel => loop fuel c := by
  intro c fuel
  induction fuel generalizing c with
  | zero => exact fun _ _ hlt => absurd hlt (Nat.not_lt_zero _)
  | succ fuel ih =>
    intro fuel' s hlt hlt'
    cases fuel' with
    | zero => exact absurd hlt' (Nat.not_lt_zero _)
    | succ fuel' => exact h fuel fuel' c s fun c s' hs => ih c (by omega) (by omega)

/-- A parser that leaves part of its stream, on success and on failure. -/
def Onward (p : Parser α) : Prop :=
  ∀ s : Stream, Trails s.rest s (s.length + 1) p

theorem Onward.trails {p : Parser α} {root : List Token} {room : Nat} (hp : Onward p)
    (h : Tail root room s) : Trails root s room p :=
  (hp s).imp (fun _ _ hs => h.of_suffix hs.2) fun _ hs => hs.trans h.2

theorem Steady.onward {p : Parser α} (h : Steady p) : Onward p :=
  fun s => h.trails (tail_start s)

theorem length_advance_lt (hk : s.kind ≠ .eof) : s.advance.length < s.length :=
  ((tail_start s).next hk).1

/-- After a token and what is read from there on, there are fewer tokens. -/
theorem Onward.after_token {p : Parser β} (hp : Onward p) (hk : s.kind ≠ .eof)
    {f g : β → Parser α} (h : ∀ b s', s'.length < s.length → f b s' = g b s') :
    (p >>= f) s.advance = (p >>= g) s.advance := by
  refine bind_congr_of_ends (hp s.advance) fun b s' hs => h b s' ?_
  have hnext := length_advance_lt hk
  have hlen := hs.1
  omega

/-- After a comma there are fewer tokens. -/
theorem accept_bind_congr {c : Symbol} {f g : Bool → Parser α}
    (htrue : s.advance.length < s.length → f true s.advance = g true s.advance)
    (hfalse : f false s = g false s) : (accept c >>= f) s = (accept c >>= g) s := by
  by_cases hk : s.kind = .symbol c
  · rw [bind_of_ok (accept_of_kind hk), bind_of_ok (accept_of_kind hk)]
    exact htrue (length_advance_lt (by rw [hk]; nofun))
  · rw [bind_of_ok (accept_of_kind_ne hk), bind_of_ok (accept_of_kind_ne hk)]
    exact hfalse

theorem expect_bind_congr {c : Symbol} {context : String} {f g : Unit → Parser α}
    (h : s.advance.length < s.length → f () s.advance = g () s.advance) :
    (expect c context >>= f) s = (expect c context >>= g) s := by
  by_cases hc : s.kind.isSymbol c = true
  · have hk := TokenKind.isSymbol_iff.1 hc
    rw [bind_of_ok (expect_of_kind hk), bind_of_ok (expect_of_kind hk)]
    exact h (length_advance_lt (by rw [hk]; nofun))
  · have herror := (expect_apply context s).trans (if_neg hc)
    rw [bind_of_error herror, bind_of_error herror]

theorem endless_commaItems {item : Parser α} (h : Onward item) : Endless (commaItems item) := by
  refine @endless_of_turn _ Unit (fun fuel _ => commaItems item fuel)
    (fun fuel fuel' _ s ih => ?_) ()
  rw [commaItems, commaItems]
  refine bind_congr_of_ends (h s) fun first s₁ h₁ => accept_bind_congr (fun hlt => ?_) rfl
  exact bind_congr_left _ (ih () _ (Nat.lt_of_lt_of_le hlt (Nat.le_of_lt_succ h₁.1)))

/-! ## Expressions -/

theorem onward_arguments (depth : Nat) : Onward (arguments (inner depth)) := by
  intro s
  have hstart := tail_start s
  refine ends_ifAccept (fun _ => ends_pure hstart.advance) ?_
  refine ((steady_commaList (steadyInner depth).expression).trails hstart).bind fun args s₁ h₁ => ?_
  exact ends_expect h₁.2 fun _ => ends_pure h₁.advance

theorem endless_trailers (depth : Nat) :
    ∀ e, Endless fun fuel => trailers (inner depth) fuel e := by
  have hinner := steadyInner depth
  refine endless_of_turn fun fuel fuel' e s ih => ?_
  obtain ⟨rest, finish⟩ := s
  cases rest with
  | nil => rfl
  | cons t ts =>
    obtain ⟨kind, l⟩ := t
    cases kind with
    | symbol c =>
      have hk : Stream.kind ⟨⟨.symbol c, l⟩ :: ts, finish⟩ ≠ .eof := nofun
      cases c with
      | leftParen =>
        cases e with
        | var name => exact (onward_arguments depth).after_token hk fun args => ih (.call name args)
        | _ => rfl
      | dot => exact (hinner.memberOf e).onward.after_token hk ih
      | arrow => exact (hinner.memberOf e).onward.after_token hk ih
      | leftBracket =>
        refine hinner.expression.onward.after_token hk fun key s' hs => ?_
        exact expect_bind_congr fun hlt => ih (.index e key) s'.advance (Nat.lt_trans hlt hs)
      | plusPlus => exact ih (.step .postInc e) _ (length_advance_lt hk)
      | minusMinus => exact ih (.step .postDec e) _ (length_advance_lt hk)
      | _ => rfl
    | _ => rfl

theorem endless_operations (depth : Nat) : Endless (operations (inner depth)) := by
  refine @endless_of_turn _ Unit (fun fuel _ => operations (inner depth) fuel)
    (fun fuel fuel' _ s ih => ?_) ()
  rw [operations, operations, peek_bind, peek_bind]
  cases hop : BinaryOp.ofToken? s.kind with
  | none => rfl
  | some op =>
    have hk : s.kind ≠ .eof := by
      intro heof
      rw [heof] at hop
      cases hop
    refine (steadyInner depth).level_unary.onward.after_token hk fun right s' hs => ?_
    exact bind_congr_left _ (ih () s' hs)

/-! ## Declarations -/

section Initializers

variable {expression : Parser Expr} {nested : Parser (List Expr)}

theorem onward_initializerItems (he : Onward expression) (hn : Onward nested) :
    ∀ fuel, Onward (initializerItems expression nested fuel)
  | 0, s => ends_pure (tail_start s)
  | fuel + 1, s => by
    have hstart := tail_start s
    rw [initializerItems]
    refine ends_ifAccept (fun _ => ends_pure hstart.advance) ?_
    refine ends_found fun found s₁ ht hf => ?_
    extract_lets rest
    have hrest : ∀ items s', Tail s.rest (s.length + 1) s' →
        Trails s.rest s' (s.length + 1) (rest items) := by
      intro items s' h'
      refine ends_ifAccept (fun _ => ?_) (ends_expect h'.2 fun _ => ends_pure h'.advance)
      have hitems := (onward_initializerItems he hn fuel).trails h'.advance
      exact hitems.bind fun others s'' h'' => ends_pure h''
    cases found with
    | true =>
      obtain ⟨-, rfl⟩ := ht rfl
      exact (hn.trails hstart.advance).bind hrest
    | false =>
      obtain rfl := hf rfl
      exact (he.trails hstart).bind fun e s' h' => hrest [e] s' h'

theorem endless_initializerItems (he : Onward expression) (hn : Onward nested) :
    Endless (initializerItems expression nested) := by
  refine @endless_of_turn _ Unit (fun fuel _ => initializerItems expression nested fuel)
    (fun fuel fuel' _ s ih => ?_) ()
  rw [initializerItems, initializerItems]
  refine accept_bind_congr (fun _ => rfl) ?_
  refine accept_bind_congr (fun hlt => ?_) ?_
  · refine bind_congr_of_ends (hn s.advance) fun items s₁ h₁ =>
      accept_bind_congr (fun hlt₁ => ?_) rfl
    have hlen := h₁.1
    exact bind_congr_left _ (ih () _ (by omega))
  · refine bind_congr_of_ends (he s) fun e s₁ h₁ => accept_bind_congr (fun hlt₁ => ?_) rfl
    have hlen := h₁.1
    exact bind_congr_left _ (ih () _ (by omega))

end Initializers

/-- A brace initializer inside of another one, under which `depth` nesting levels are left. -/
def nestedInitializer : Nat → Parser (List Expr)
  | 0 => failHere "Nesting too deep"
  | depth + 1 => initializerList depth

theorem initializerList_eq (depth : Nat) :
    initializerList depth = initializer (inner depth).expression (nestedInitializer depth) := by
  cases depth <;> rfl

theorem onward_nestedInitializer : ∀ depth, Onward (nestedInitializer depth)
  | 0, _ => ends_failHere List.suffix_rfl _
  | depth + 1, s => by
    rw [nestedInitializer, initializerList_eq]
    exact onward_initializerItems (steadyInner depth).expression.onward
      (onward_nestedInitializer depth) _ s

/-! ## Parameters -/

theorem endless_parameterTokens : ∀ p, Endless fun fuel => parameterTokens fuel p := by
  refine endless_of_turn fun fuel fuel' p s ih => ?_
  rw [parameterTokens, parameterTokens, peek_bind, peek_bind]
  split
  · rfl
  · split
    · rfl
    · rename_i hend
      refine ih _ _ (length_advance_lt fun hk => hend ?_)
      rw [hk]
      rfl

theorem endless_parameterList : ∀ isFirst, Endless fun fuel => parameterList fuel isFirst := by
  refine endless_of_turn fun fuel fuel' isFirst s ih => ?_
  rw [parameterList, parameterList]
  have hp := trails_parameterTokens (s.length + 1) {} (tail_start s)
  change ((parameterTokens (s.length + 1) {} : Parser Param) >>= _) s
    = ((parameterTokens (s.length + 1) {} : Parser Param) >>= _) s
  refine bind_congr_of_ends hp fun p s₁ h₁ => ?_
  rw [check_bind, check_bind]
  cases s₁.kind.isSymbol .rightParen with
  | true => rfl
  | false =>
    refine expect_bind_congr fun hlt => ?_
    exact bind_congr_left _ (ih false _ (Nat.lt_of_lt_of_le hlt (Nat.le_of_lt_succ h₁.1)))

/-! ## All loops -/

/-- The loops inside of a statement, when `depth` nesting levels are left, end by themselves. -/
structure LoopsEnd (depth : Nat) : Prop where
  /-- The arguments of a call, and what a `for` loop does after each turn. -/
  expressions : Endless (commaItems (inner depth).expression)
  /-- The names of a declaration. -/
  declarators : Endless (commaItems (declarator (level depth)))
  /-- The names of a declaration of containers. -/
  containers : ∀ kind, Endless (commaItems (containerDeclarator kind))
  /-- What follows an operand. -/
  trailers : ∀ e, Endless fun fuel => trailers (inner depth) fuel e
  /-- Binary operators. -/
  operations : Endless (operations (inner depth))
  /-- The elements of a brace initializer. -/
  initializers : Endless (initializerItems (inner depth).expression (nestedInitializer depth))
  /-- The tokens of a parameter. -/
  parameterTokens : ∀ p, Endless fun fuel => parameterTokens fuel p
  /-- The parameters of a function. -/
  parameters : ∀ isFirst, Endless fun fuel => parameterList fuel isFirst

/-- **No loop inside of a statement is cut short.** -/
theorem loopsEnd (depth : Nat) : LoopsEnd depth where
  expressions := endless_commaItems (steadyInner depth).expression.onward
  declarators := endless_commaItems (steady_declarator depth).onward
  containers := fun kind => endless_commaItems (steady_containerDeclarator kind).onward
  trailers := endless_trailers depth
  operations := endless_operations depth
  initializers :=
    endless_initializerItems (steadyInner depth).expression.onward (onward_nestedInitializer depth)
  parameterTokens := endless_parameterTokens
  parameters := endless_parameterList

end Parser

end Stepwise
