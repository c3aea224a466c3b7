import Stepwise.Proofs.Program.Blocks

/-!
# Reading what is ahead

To show that a text is read as intended one has to know the tokens that are next, and what comes
after them, since parsers decide by the next token whether to go on.

* `Stream.Ahead s ks s'` says that tokens of the kinds `ks` are next in `s`, and that `s'` is what
  follows them.
* `Parser.Reads p ks follow a` says that the parser reads such tokens and yields `a`, if what
  follows them satisfies `follow`.

Lists, parameters and expressions are read in this sense.  For expressions there are four conditions
on what may follow, one for each level of binding: a token that ends an operand may be an operator,
one that ends a chain of operators may be a question mark, and so on.
-/

set_option autoImplicit false

namespace Stepwise

namespace Stream

/-- Tokens of the given kinds are next in a stream, and the last argument is what follows them. -/
def Ahead : Stream → List TokenKind → Stream → Prop
  | s, [], s' => s = s'
  | s, k :: ks, s' => s.rest ≠ [] ∧ s.kind = k ∧ s.advance.Ahead ks s'

variable {s s' : Stream} {k : TokenKind} {ks ks' : List TokenKind}

theorem ahead_append :
    s.Ahead (ks ++ ks') s' ↔ ∃ s₁, s.Ahead ks s₁ ∧ s₁.Ahead ks' s' := by
  induction ks generalizing s with
  | nil => simp [Ahead]
  | cons k ks ih =>
    simp only [List.cons_append, Ahead, ih]
    constructor
    · rintro ⟨hne, hk, s₁, h₁, h₂⟩
      exact ⟨s₁, ⟨hne, hk, h₁⟩, h₂⟩
    · rintro ⟨s₁, ⟨hne, hk, h₁⟩, h₂⟩
      exact ⟨hne, hk, s₁, h₁, h₂⟩

theorem Ahead.length (h : s.Ahead ks s') : s.length = ks.length + s'.length := by
  induction ks generalizing s with
  | nil =>
    cases h
    exact (Nat.zero_add _).symm
  | cons k ks ih =>
    obtain ⟨hne, -, h⟩ := h
    have hpos := List.length_pos_iff.2 hne
    have hrest := ih h
    rw [Parser.length_advance] at hrest
    rw [Stream.length] at hrest ⊢
    rw [List.length_cons]
    omega

/-- The next token, spelled out. -/
theorem Ahead.eq_cons (h : s.Ahead (k :: ks) s') :
    ∃ l rest finish, s = ⟨⟨k, l⟩ :: rest, finish⟩ ∧ Ahead ⟨rest, finish⟩ ks s' := by
  obtain ⟨rest, finish⟩ := s
  obtain ⟨hne, hk, h⟩ := h
  cases rest with
  | nil => exact absurd rfl hne
  | cons t rest =>
    obtain ⟨kind, l⟩ := t
    cases hk
    exact ⟨l, rest, finish, rfl, h⟩

theorem Ahead.kind (h : s.Ahead (k :: ks) s') : s.kind = k := h.2.1

theorem Ahead.advance (h : s.Ahead (k :: ks) s') : s.advance.Ahead ks s' := h.2.2

theorem ahead_singleton (h : s.Ahead [k] s') : s' = s.advance := h.2.2.symm

end Stream

namespace TokenKind

/-- Whether the token may follow an operand and make it part of a larger one. -/
def isTrailer (k : TokenKind) : Bool :=
  k.isSymbol .leftParen || k.isSymbol .dot || k.isSymbol .arrow || k.isSymbol .leftBracket ||
    k.isSymbol .plusPlus || k.isSymbol .minusMinus

/-- Whether an operand ends before the token. -/
def endsOperand (k : TokenKind) : Bool :=
  !k.isTrailer

/-- Whether a chain of operators ends before the token. -/
def endsChain (k : TokenKind) : Bool :=
  k.endsOperand && (BinaryOp.ofToken? k).isNone

/-- Whether a choice ends before the token. -/
def endsChoice (k : TokenKind) : Bool :=
  k.endsChain && !k.isSymbol .question

/-- Whether a whole expression ends before the token. -/
def endsExpr (k : TokenKind) : Bool :=
  k.endsChoice && !k.isSymbol .assign && (BinaryOp.ofAssignment? k).isNone

/-- The literal that a token stands for. -/
def literal? : TokenKind → Option Literal
  | int n => some (.int n)
  | float x => some (.float x)
  | str s => some (.str s)
  | char c => some (.str (String.singleton c))
  | symbol .true => some (.bool true)
  | symbol .false => some (.bool false)
  | symbol .null => some .null
  | _ => none

/-- Whether an operand without operators in front of it may begin with the token. -/
def startsOperand (k : TokenKind) : Bool :=
  k.literal?.isSome || k.isIdent || k.isSymbol .leftParen

theorem endsOperand_of_endsChain {k : TokenKind} (h : k.endsChain = true) :
    k.endsOperand = true := (Bool.and_eq_true _ _ ▸ h).1

end TokenKind

/-- The symbol of a binary operator in source texts. -/
def BinaryOp.token : BinaryOp → Symbol
  | add => .plus
  | sub => .minus
  | mul => .star
  | div => .slash
  | mod => .percent
  | eq => .equal
  | ne => .notEqual
  | lt => .less
  | le => .lessEqual
  | gt => .greater
  | ge => .greaterEqual
  | and => .andAnd
  | or => .orOr
  | bitAnd => .ampersand
  | bitOr => .pipe
  | bitXor => .caret
  | shl => .shiftLeft
  | shr => .shiftRight

theorem BinaryOp.ofToken?_token (op : BinaryOp) : ofToken? (.symbol op.token) = some op := by
  cases op <;> rfl

theorem BinaryOp.endsOperand_token (op : BinaryOp) :
    (TokenKind.symbol op.token).endsOperand = true := by
  cases op <;> rfl

/-- The symbol of a unary operator in source texts. -/
def UnaryOp.token : UnaryOp → Symbol
  | neg => .minus
  | not => .bang
  | bitNot => .tilde

/-- The symbol of a step in source texts. -/
def StepOp.token : StepOp → Symbol
  | preInc | postInc => .plusPlus
  | preDec | postDec => .minusMinus

/-- The tokens begin with one that satisfies `p`. -/
def Begins (p : TokenKind → Bool) (ks : List TokenKind) : Prop :=
  ∃ k rest, ks = k :: rest ∧ p k = true

section Begins

variable {p p' : TokenKind → Bool} {ks : List TokenKind}

theorem begins_cons {k : TokenKind} (h : p k = true) : Begins p (k :: ks) := ⟨k, ks, rfl, h⟩

theorem Begins.append (h : Begins p ks) (ks' : List TokenKind) : Begins p (ks ++ ks') := by
  obtain ⟨k, rest, rfl, hk⟩ := h
  exact ⟨k, rest ++ ks', rfl, hk⟩

theorem Begins.imp (h : Begins p ks) (hp : ∀ k, p k = true → p' k = true) : Begins p' ks := by
  obtain ⟨k, rest, rfl, hk⟩ := h
  exact ⟨k, rest, rfl, hp k hk⟩

theorem Begins.kind (h : Begins p ks) {s s' : Stream} (hs : s.Ahead ks s') : p s.kind = true := by
  obtain ⟨k, rest, rfl, hk⟩ := h
  rwa [hs.kind]

end Begins

namespace Parser

variable {α β : Type}

/-- The parser reads tokens of the kinds `ks` and yields `a`, if the kind of the next token after
them satisfies `follow`. -/
def Reads (p : Parser α) (ks : List TokenKind) (follow : TokenKind → Bool) (a : α) : Prop :=
  ∀ ⦃s s' : Stream⦄, s.Ahead ks s' → follow s'.kind = true → p s = .ok a s'

/-- Anything may follow. -/
def anything : TokenKind → Bool := fun _ => true

theorem Reads.imp {p : Parser α} {ks : List TokenKind} {follow follow' : TokenKind → Bool} {a : α}
    (h : Reads p ks follow a) (hf : ∀ k, follow' k = true → follow k = true) :
    Reads p ks follow' a :=
  fun _ _ hs hk => h hs (hf _ hk)

/-! ## Lists -/

/-- Stretches of tokens with commas between them. -/
def commaTokens : List (List TokenKind) → List TokenKind
  | [] => []
  | [ks] => ks
  | ks :: others => ks ++ .symbol .comma :: commaTokens others

theorem begins_commaTokens {p : TokenKind → Bool} {ks : List TokenKind} (h : Begins p ks)
    (parts : List (List TokenKind)) : Begins p (commaTokens (ks :: parts)) := by
  cases parts with
  | nil => exact h
  | cons ks' parts => exact h.append _

theorem length_le_commaTokens : ∀ parts : List (List TokenKind),
    parts.length ≤ (commaTokens parts).length + 1
  | [] => Nat.zero_le _
  | [_] => Nat.succ_le_succ (Nat.zero_le _)
  | ks :: ks' :: others => by
    have hlater := length_le_commaTokens (ks' :: others)
    have hjoin : commaTokens (ks :: ks' :: others)
        = ks ++ .symbol .comma :: commaTokens (ks' :: others) := rfl
    simp only [hjoin, List.length_append, List.length_cons] at hlater ⊢
    omega

/-- Items are read until there is no comma. -/
theorem reads_commaItems {item : Parser α} {follow : TokenKind → Bool}
    (hcomma : follow (.symbol .comma) = true) :
    ∀ {items : List (List TokenKind × α)} {fuel : Nat}, items ≠ [] → items.length ≤ fuel →
      (∀ q ∈ items, Reads item q.1 follow q.2) →
      Reads (commaItems item fuel) (commaTokens (items.map Prod.fst))
        (fun k => follow k && !k.isSymbol .comma) (items.map Prod.snd)
  | [], _, hne, _, _ => absurd rfl hne
  | _ :: _, 0, _, hfuel, _ => absurd hfuel (Nat.not_succ_le_zero _)
  | [q], fuel + 1, _, _, hitems => by
    intro s s' hs hk
    rw [Bool.and_eq_true, Bool.not_eq_true'] at hk
    have hfirst := hitems q List.mem_cons_self hs hk.1
    have hstop : (accept .comma : Parser Bool) s' = .ok false s' := by rw [accept_apply, hk.2]; rfl
    rw [commaItems, bind_of_ok hfirst, bind_of_ok hstop]
    rfl
  | q :: q' :: others, fuel + 1, _, hfuel, hitems => by
    intro s s' hs hk
    obtain ⟨s₁, h₁, h₂⟩ := Stream.ahead_append.1 hs
    have hfirst := hitems q List.mem_cons_self h₁ (by rw [h₂.kind]; exact hcomma)
    have hothers := reads_commaItems hcomma (List.cons_ne_nil q' others)
      (Nat.le_of_succ_le_succ hfuel) (fun x hx => hitems x (List.mem_cons_of_mem _ hx))
      h₂.advance hk
    rw [commaItems, bind_of_ok hfirst, bind_of_ok (accept_of_kind h₂.kind), if_pos rfl,
      bind_of_ok hothers]
    rfl

theorem reads_commaList {item : Parser α} {follow : TokenKind → Bool}
    (hcomma : follow (.symbol .comma) = true) {items : List (List TokenKind × α)}
    (hne : items ≠ []) (hitems : ∀ q ∈ items, Reads item q.1 follow q.2) :
    Reads (commaList item) (commaTokens (items.map Prod.fst))
      (fun k => follow k && !k.isSymbol .comma) (items.map Prod.snd) := by
  intro s s' hs hk
  have hlength := hs.length
  have hcount := length_le_commaTokens (items.map Prod.fst)
  rw [List.length_map] at hcount
  exact reads_commaItems hcomma hne (by omega : items.length ≤ s.length + 1) hitems hs hk

/-! ## Parameters -/

/-- The tokens are read as a parameter of the given name, up to the comma or parenthesis after
it. -/
def NamesParameter (ks : List TokenKind) (name : String) : Prop :=
  ∀ ⦃s s' : Stream⦄, s.Ahead ks s' →
    (s'.kind.isSymbol .comma || s'.kind.isSymbol .rightParen) = true →
      ∃ p, (parameterTokens (s.length + 1) {} : Parser Param) s = .ok p s' ∧ p.name = some name

/-- A named parameter is kept, even if it is the only one. -/
theorem names_of_name {p : Param} {name : String} (h : p.name = some name) (isFirst isLast : Bool) :
    (if (p.onlyVoid && p.name.isNone && isFirst && isLast) = true then [] else [p.name])
      = [some name] := by
  simp [h]

theorem reads_parameterList :
    ∀ {items : List (List TokenKind × String)} {fuel : Nat} (isFirst : Bool), items ≠ [] →
      items.length ≤ fuel → (∀ q ∈ items, NamesParameter q.1 q.2) →
      Reads (parameterList fuel isFirst)
        (commaTokens (items.map Prod.fst) ++ [.symbol .rightParen]) anything
        (items.map fun q => some q.2)
  | [], _, _, hne, _, _ => absurd rfl hne
  | _ :: _, 0, _, _, hfuel, _ => absurd hfuel (Nat.not_succ_le_zero _)
  | [q], fuel + 1, isFirst, _, _, hitems => by
    intro s s' hs _
    obtain ⟨s₁, h₁, h₂⟩ := Stream.ahead_append.1 hs
    obtain ⟨p, hp, hname⟩ := hitems q List.mem_cons_self h₁ (by rw [h₂.kind]; rfl)
    have hlast := TokenKind.isSymbol_iff.2 h₂.kind
    rw [parameterList, get_bind, bind_of_ok hp, check_bind, names_of_name hname, if_pos hlast,
      advance_bind, Stream.ahead_singleton h₂]
    rfl
  | q :: q' :: items, fuel + 1, isFirst, _, hfuel, hitems => by
    intro s s' hs _
    have hsplit : commaTokens ((q :: q' :: items).map Prod.fst) ++ [.symbol .rightParen]
        = q.1 ++ .symbol .comma ::
            (commaTokens ((q' :: items).map Prod.fst) ++ [.symbol .rightParen]) :=
      List.append_assoc _ _ _
    rw [hsplit] at hs
    obtain ⟨s₁, h₁, h₂⟩ := Stream.ahead_append.1 hs
    obtain ⟨p, hp, hname⟩ := hitems q List.mem_cons_self h₁ (by rw [h₂.kind]; rfl)
    have hothers := reads_parameterList false (List.cons_ne_nil q' items)
      (Nat.le_of_succ_le_succ hfuel) (fun x hx => hitems x (List.mem_cons_of_mem _ hx))
      h₂.advance rfl
    have hlast : ¬ s₁.kind.isSymbol .rightParen = true := by rw [h₂.kind]; rintro ⟨⟩
    rw [parameterList, get_bind, bind_of_ok hp, check_bind, names_of_name hname, if_neg hlast,
      bind_of_ok (expect_of_kind h₂.kind), bind_of_ok hothers]
    rfl

/-- A parameter does not begin with a parenthesis that closes the list. -/
theorem NamesParameter.kind_ne {ks : List TokenKind} {name : String} (h : NamesParameter ks name)
    {s s' : Stream} (hs : s.Ahead ks s')
    (hstop : (s'.kind.isSymbol .comma || s'.kind.isSymbol .rightParen) = true) :
    s.kind ≠ .symbol .rightParen := by
  intro hparen
  obtain ⟨p, hp, hname⟩ := h hs hstop
  rw [parameterTokens, peek_bind, hparen] at hp
  cases hp
  cases hname

theorem reads_parameters {items : List (List TokenKind × String)}
    (hitems : ∀ q ∈ items, NamesParameter q.1 q.2) :
    Reads parameters (commaTokens (items.map Prod.fst) ++ [.symbol .rightParen]) anything
      (items.map fun q => some q.2) := by
  intro s s' hs hk
  cases items with
  | nil =>
    rw [parameters, bind_of_ok (accept_of_kind hs.kind), Stream.ahead_singleton hs]
    rfl
  | cons q items =>
    have hne : s.kind ≠ .symbol .rightParen := by
      cases items with
      | nil =>
        obtain ⟨s₁, h₁, h₂⟩ := Stream.ahead_append.1 hs
        exact (hitems q List.mem_cons_self).kind_ne h₁ (by rw [h₂.kind]; rfl)
      | cons q' items =>
        obtain ⟨s₁, h₁, -⟩ := Stream.ahead_append.1 hs
        obtain ⟨s₂, h₂, h₃⟩ := Stream.ahead_append.1 h₁
        exact (hitems q List.mem_cons_self).kind_ne h₂ (by rw [h₃.kind]; rfl)
    have hlength := hs.length
    have hcount := length_le_commaTokens ((q :: items).map Prod.fst)
    rw [List.length_map] at hcount
    rw [List.length_append, List.length_singleton] at hlength
    rw [parameters, bind_of_ok (accept_of_kind_ne hne), if_neg Bool.false_ne_true, get_bind]
    exact reads_parameterList true (List.cons_ne_nil q items) (by omega) hitems hs hk

/-! ## Operands -/

section Expressions

variable {inner : Inner Parser} {ks ks' : List TokenKind} {e : Expr}

theorem reads_primary_literal {k : TokenKind} {l : Literal} (h : k.literal? = some l) :
    Reads (primary inner) [k] anything (.literal l) := by
  intro s s' hs _
  obtain ⟨place, rest, finish, rfl, rfl⟩ := hs.eq_cons
  unfold TokenKind.literal? at h
  split at h <;> cases h <;> rfl

theorem reads_primary_var {name : String} (h : name ≠ "endl") :
    Reads (primary inner) [.ident name] anything (.var name) := by
  intro s s' hs _
  obtain ⟨place, rest, finish, rfl, rfl⟩ := hs.eq_cons
  have hname : primary inner ⟨⟨.ident name, place⟩ :: rest, finish⟩
      = (if name = "endl" then literal (.str "\n") else advance >>= fun _ => pure (.var name) :
          Parser Expr) ⟨⟨.ident name, place⟩ :: rest, finish⟩ := rfl
  rw [hname, if_neg h]
  rfl

/-- An expression in parentheses. -/
theorem reads_primary_paren (h : Reads inner.expression ks TokenKind.endsExpr e) :
    Reads (primary inner) (.symbol .leftParen :: (ks ++ [.symbol .rightParen])) anything e := by
  intro s s' hs _
  obtain ⟨place, rest, finish, rfl, hnext⟩ := hs.eq_cons
  obtain ⟨s₁, h₁, h₂⟩ := Stream.ahead_append.1 hnext
  have hparen : primary inner ⟨⟨.symbol .leftParen, place⟩ :: rest, finish⟩
      = (inner.expression >>= fun e => expect .rightParen "after expression" >>= fun _ => pure e :
          Parser Expr) ⟨rest, finish⟩ := rfl
  rw [hparen, bind_of_ok (h h₁ (by rw [h₂.kind]; rfl)), bind_of_ok (expect_of_kind h₂.kind),
    Stream.ahead_singleton h₂]
  rfl

/-- Arguments and the closing parenthesis. -/
theorem reads_arguments {args : List (List TokenKind × Expr)}
    (hargs : ∀ q ∈ args, Reads inner.expression q.1 TokenKind.endsExpr q.2)
    (hbegin : ∀ q ∈ args, Begins (fun k => !k.isSymbol .rightParen) q.1) :
    Reads (arguments inner) (commaTokens (args.map Prod.fst) ++ [.symbol .rightParen]) anything
      (args.map Prod.snd) := by
  intro s s' hs _
  obtain ⟨s₁, h₁, h₂⟩ := Stream.ahead_append.1 hs
  rw [Stream.ahead_singleton h₂]
  cases args with
  | nil =>
    cases h₁
    rw [arguments, bind_of_ok (accept_of_kind h₂.kind)]
    rfl
  | cons q args =>
    have hopen : (accept .rightParen : Parser Bool) s = .ok false s := by
      have hk := (begins_commaTokens (hbegin q List.mem_cons_self) (args.map Prod.fst)).kind h₁
      rw [Bool.not_eq_true'] at hk
      rw [accept_apply, hk]
      rfl
    have hlist := reads_commaList rfl (List.cons_ne_nil q args) hargs h₁ (by rw [h₂.kind]; rfl)
    rw [arguments, bind_of_ok hopen, if_neg Bool.false_ne_true, bind_of_ok hlist,
      bind_of_ok (expect_of_kind h₂.kind)]
    rfl

/-! ## Trailers -/

/-- Nothing is added to an operand that ends here. -/
theorem reads_trailers_nil (fuel : Nat) (e : Expr) :
    Reads (trailers inner fuel e) [] TokenKind.endsOperand e := by
  rintro s s' rfl hk
  cases fuel with
  | zero => rfl
  | succ fuel =>
    unfold trailers
    rw [peek_bind]
    refine congrArg (fun p : Parser Expr => p s) (?_ : _ = pure e)
    split
    case h_7 => rfl
    all_goals
      rename_i hkind
      rw [hkind] at hk
      cases hk

/-- An operand and what follows it. -/
theorem reads_operand {e' : Expr} {follow : TokenKind → Bool}
    (h : Reads (primary inner) ks anything e)
    (ht : ∀ fuel, Reads (trailers inner (fuel + 1) e) ks' follow e') :
    Reads (operand inner) (ks ++ ks') follow e' := by
  intro s s' hs hk
  obtain ⟨s₁, h₁, h₂⟩ := Stream.ahead_append.1 hs
  rw [operand, bind_of_ok (h h₁ rfl)]
  exact ht s₁.length h₂ hk

theorem reads_operand_nil (h : Reads (primary inner) ks anything e) :
    Reads (operand inner) ks TokenKind.endsOperand e := by
  have hend := reads_operand h fun fuel => reads_trailers_nil (fuel + 1) e
  rwa [List.append_nil] at hend

/-- A step after its operand. -/
theorem reads_trailers_step {op : StepOp} (hop : op.isPost = true) (fuel : Nat) :
    Reads (trailers inner (fuel + 1) e) [.symbol op.token] TokenKind.endsOperand (.step op e) := by
  intro s s' hs hk
  obtain ⟨place, rest, finish, rfl, rfl⟩ := hs.eq_cons
  have hstep : trailers inner (fuel + 1) e ⟨⟨.symbol op.token, place⟩ :: rest, finish⟩
      = trailers inner fuel (.step op e) ⟨rest, finish⟩ := by
    cases op <;> first | rfl | cases hop
  rw [hstep]
  exact reads_trailers_nil fuel _ rfl hk

theorem reads_trailers_dot {e' : Expr} {ks : List TokenKind}
    (h : Reads (memberOf inner e) ks TokenKind.endsOperand e') (fuel : Nat) :
    Reads (trailers inner (fuel + 1) e) (.symbol .dot :: ks) TokenKind.endsOperand e' := by
  intro s s' hs hk
  obtain ⟨place, rest, finish, rfl, hnext⟩ := hs.eq_cons
  have hdot : trailers inner (fuel + 1) e ⟨⟨.symbol .dot, place⟩ :: rest, finish⟩
      = (memberOf inner e >>= trailers inner fuel) ⟨rest, finish⟩ := rfl
  rw [hdot, bind_of_ok (h hnext hk)]
  exact reads_trailers_nil fuel e' rfl hk

theorem reads_memberOf_member (name : String) :
    Reads (memberOf inner e) [.ident name] TokenKind.endsOperand (.member e name) := by
  intro s s' hs hk
  obtain rfl := Stream.ahead_singleton hs
  have hne : s.advance.kind ≠ .symbol .leftParen := by
    intro hparen
    rw [hparen] at hk
    cases hk
  rw [memberOf, bind_of_ok (identifier_of_kind hs.kind), bind_of_ok (accept_of_kind_ne hne)]
  rfl

theorem reads_memberOf_method (name : String) {args : List Expr}
    (h : Reads (arguments inner) ks anything args) :
    Reads (memberOf inner e) (.ident name :: .symbol .leftParen :: ks) anything
      (.method e name args) := by
  intro s s' hs _
  have hparen := hs.advance
  rw [memberOf, bind_of_ok (identifier_of_kind hs.kind), bind_of_ok (accept_of_kind hparen.kind),
    if_pos rfl, bind_of_ok (h hparen.advance rfl)]
  rfl

theorem reads_trailers_index {key : Expr} (h : Reads inner.expression ks TokenKind.endsExpr key)
    (fuel : Nat) :
    Reads (trailers inner (fuel + 1) e)
      (.symbol .leftBracket :: (ks ++ [.symbol .rightBracket])) TokenKind.endsOperand
      (.index e key) := by
  intro s s' hs hk
  obtain ⟨place, rest, finish, rfl, hnext⟩ := hs.eq_cons
  obtain ⟨s₁, h₁, h₂⟩ := Stream.ahead_append.1 hnext
  have hbracket : trailers inner (fuel + 1) e ⟨⟨.symbol .leftBracket, place⟩ :: rest, finish⟩
      = (inner.expression >>= fun key => expect .rightBracket "after index" >>= fun _ =>
          trailers inner fuel (.index e key)) ⟨rest, finish⟩ := rfl
  rw [hbracket, bind_of_ok (h h₁ (by rw [h₂.kind]; rfl)), bind_of_ok (expect_of_kind h₂.kind)]
  exact reads_trailers_nil fuel _ (Stream.ahead_singleton h₂).symm hk

theorem reads_trailers_call (name : String) {args : List Expr}
    (h : Reads (arguments inner) ks anything args) (fuel : Nat) :
    Reads (trailers inner (fuel + 1) (.var name)) (.symbol .leftParen :: ks)
      TokenKind.endsOperand (.call name args) := by
  intro s s' hs hk
  obtain ⟨place, rest, finish, rfl, hnext⟩ := hs.eq_cons
  have hparen : trailers inner (fuel + 1) (.var name) ⟨⟨.symbol .leftParen, place⟩ :: rest, finish⟩
      = (arguments inner >>= fun args => trailers inner fuel (.call name args))
          ⟨rest, finish⟩ := rfl
  rw [hparen, bind_of_ok (h hnext rfl)]
  exact reads_trailers_nil fuel _ rfl hk

/-! ## Operators -/

/-- An operand without operators in front of it.  A parenthesis that begins it does not begin a
cast. -/
theorem reads_unary_operand {follow : TokenKind → Bool} (h : Reads (operand inner) ks follow e)
    (hbegin : Begins TokenKind.startsOperand ks)
    (hcast : ∀ rest, ks = .symbol .leftParen :: rest → Begins (fun k => !k.isType) rest) :
    Reads (unary inner) ks follow e := by
  intro s s' hs hk
  refine Eq.trans ?_ (h hs hk)
  obtain ⟨k, rest, rfl, hstart⟩ := hbegin
  obtain ⟨place, ts, finish, rfl, hnext⟩ := hs.eq_cons
  cases k with
  | symbol c =>
    cases c with
    | leftParen =>
      have hparen : unary inner ⟨⟨.symbol .leftParen, place⟩ :: ts, finish⟩
          = (if (nextKind ts).isType = true then cast inner else operand inner)
              ⟨⟨.symbol .leftParen, place⟩ :: ts, finish⟩ := by
        cases ts <;> rfl
      have htype := (hcast rest rfl).kind hnext
      rw [kind_eq_nextKind, Bool.not_eq_true'] at htype
      rw [hparen, htype, if_neg Bool.false_ne_true]
    | true | false | null => rfl
    | _ => cases hstart
  | int | float | str | char | ident => rfl
  | type | invalid | eof => cases hstart

theorem reads_unary_op {op : UnaryOp} {follow : TokenKind → Bool}
    (h : Reads inner.unary ks follow e) :
    Reads (unary inner) (.symbol op.token :: ks) follow (.unary op e) := by
  intro s s' hs hk
  obtain ⟨place, ts, finish, rfl, hnext⟩ := hs.eq_cons
  have hop : unary inner ⟨⟨.symbol op.token, place⟩ :: ts, finish⟩
      = (inner.unary >>= fun e => pure (.unary op e)) ⟨ts, finish⟩ := by cases op <;> rfl
  rw [hop, bind_of_ok (h hnext hk)]
  rfl

theorem reads_unary_step {op : StepOp} (hop : op.isPost = false) {follow : TokenKind → Bool}
    (h : Reads inner.unary ks follow e) :
    Reads (unary inner) (.symbol op.token :: ks) follow (.step op e) := by
  intro s s' hs hk
  obtain ⟨place, ts, finish, rfl, hnext⟩ := hs.eq_cons
  have hstep : unary inner ⟨⟨.symbol op.token, place⟩ :: ts, finish⟩
      = (inner.unary >>= fun e => pure (.step op e)) ⟨ts, finish⟩ := by
    cases op <;> first | rfl | cases hop
  rw [hstep, bind_of_ok (h hnext hk)]
  rfl

/-- Operators, each with the operand to its right. -/
theorem reads_operations :
    ∀ {others : List (BinaryOp × List TokenKind × Expr)} {fuel : Nat}, others.length ≤ fuel →
      (∀ q ∈ others, Reads (unary inner) q.2.1 TokenKind.endsOperand q.2.2) →
      Reads (operations inner fuel) (others.flatMap fun q => .symbol q.1.token :: q.2.1)
        TokenKind.endsChain (others.map fun q => (q.1, q.2.2))
  | [], 0, _, _ => by
    rintro s s' rfl -
    rfl
  | [], fuel + 1, _, _ => by
    rintro s s' rfl hk
    have hnone : BinaryOp.ofToken? s.kind = none := by
      rw [TokenKind.endsChain, Bool.and_eq_true, Option.isNone_iff_eq_none] at hk
      exact hk.2
    rw [operations, peek_bind, hnone]
    rfl
  | _ :: _, 0, hfuel, _ => absurd hfuel (Nat.not_succ_le_zero _)
  | (op, ks, e) :: others, fuel + 1, hfuel, hothers => by
    intro s s' hs hk
    rw [List.flatMap_cons, List.cons_append] at hs
    obtain ⟨s₁, h₁, h₂⟩ := Stream.ahead_append.1 hs.advance
    have hfollow : s₁.kind.endsOperand = true := by
      cases others with
      | nil =>
        cases h₂
        exact TokenKind.endsOperand_of_endsChain hk
      | cons q others =>
        rw [h₂.kind]
        exact BinaryOp.endsOperand_token q.1
    have hright := hothers _ List.mem_cons_self h₁ hfollow
    have hlater := reads_operations (Nat.le_of_succ_le_succ hfuel)
      (fun q hq => hothers q (List.mem_cons_of_mem _ hq)) h₂ hk
    rw [operations, peek_bind, hs.kind, BinaryOp.ofToken?_token]
    simp only
    rw [advance_bind, bind_of_ok hright, bind_of_ok hlater]
    rfl

theorem length_le_flatMap (others : List (BinaryOp × List TokenKind × Expr)) :
    others.length ≤ (others.flatMap fun q => TokenKind.symbol q.1.token :: q.2.1).length := by
  induction others with
  | nil => exact Nat.le_refl _
  | cons q others ih =>
    rw [List.flatMap_cons, List.length_append, List.length_cons, List.length_cons]
    omega

/-- Operands with operators between them. -/
theorem reads_binary {others : List (BinaryOp × List TokenKind × Expr)}
    (h : Reads (unary inner) ks TokenKind.endsOperand e)
    (hothers : ∀ q ∈ others, Reads (unary inner) q.2.1 TokenKind.endsOperand q.2.2) :
    Reads (binary inner) (ks ++ others.flatMap fun q => .symbol q.1.token :: q.2.1)
      TokenKind.endsChain (Chain.tree e (others.map fun q => (q.1, q.2.2))) := by
  intro s s' hs hk
  obtain ⟨s₁, h₁, h₂⟩ := Stream.ahead_append.1 hs
  have hfollow : s₁.kind.endsOperand = true := by
    cases others with
    | nil =>
      cases h₂
      exact TokenKind.endsOperand_of_endsChain hk
    | cons q others =>
      rw [h₂.kind]
      exact BinaryOp.endsOperand_token q.1
  have hlength := h₂.length
  have hcount := length_le_flatMap others
  have hlater := reads_operations (by omega : others.length ≤ s₁.length + 1) hothers h₂ hk
  have hbinary : binary inner s = (unary inner >>= fun first => get >>= fun s =>
      operations inner (s.length + 1) >>= fun others => pure (Chain.tree first others)) s := rfl
  rw [hbinary, bind_of_ok (h h₁ hfollow)]
  exact bind_of_ok hlater

theorem reads_binary_operand (h : Reads (unary inner) ks TokenKind.endsOperand e) :
    Reads (binary inner) ks TokenKind.endsChain e := by
  have hbinary := @reads_binary inner ks e [] h fun _ hq => by cases hq
  rwa [List.flatMap_nil, List.append_nil] at hbinary

theorem reads_binary_op {op : BinaryOp} {left right : Expr}
    (hl : Reads (unary inner) ks TokenKind.endsOperand left)
    (hr : Reads (unary inner) ks' TokenKind.endsOperand right) :
    Reads (binary inner) (ks ++ .symbol op.token :: ks') TokenKind.endsChain
      (.binary op left right) := by
  have hbinary := @reads_binary inner ks left [(op, ks', right)] hl (by simpa using hr)
  rwa [List.flatMap_singleton] at hbinary

/-! ## Choices and assignments -/

theorem reads_ternary_chain (h : Reads (binary inner) ks TokenKind.endsChain e) :
    Reads (ternary inner) ks TokenKind.endsChoice e := by
  intro s s' hs hk
  rw [TokenKind.endsChoice, Bool.and_eq_true, Bool.not_eq_true'] at hk
  have hstop : (accept .question : Parser Bool) s' = .ok false s' := by rw [accept_apply, hk.2]; rfl
  rw [ternary, bind_of_ok (h hs hk.1), bind_of_ok hstop]
  rfl

theorem reads_ternary_choice {ks₁ ks₂ ks₃ : List TokenKind} {c a b : Expr}
    (hc : Reads (binary inner) ks₁ TokenKind.endsChain c)
    (ha : Reads inner.expression ks₂ TokenKind.endsExpr a)
    (hb : Reads inner.ternary ks₃ TokenKind.endsChoice b) :
    Reads (ternary inner) (ks₁ ++ .symbol .question :: (ks₂ ++ .symbol .colon :: ks₃))
      TokenKind.endsChoice (.ternary c a b) := by
  intro s s' hs hk
  obtain ⟨s₁, h₁, hs₁⟩ := Stream.ahead_append.1 hs
  obtain ⟨s₂, h₂, hs₂⟩ := Stream.ahead_append.1 hs₁.advance
  rw [ternary, bind_of_ok (hc h₁ (by rw [hs₁.kind]; rfl)), bind_of_ok (accept_of_kind hs₁.kind),
    if_pos rfl, bind_of_ok (ha h₂ (by rw [hs₂.kind]; rfl)), bind_of_ok (expect_of_kind hs₂.kind),
    bind_of_ok (hb hs₂.advance hk)]
  rfl

theorem reads_assignment_choice (h : Reads (ternary inner) ks TokenKind.endsChoice e) :
    Reads (assignment inner) ks TokenKind.endsExpr e := by
  intro s s' hs hk
  rw [TokenKind.endsExpr, Bool.and_eq_true, Bool.and_eq_true, Bool.not_eq_true',
    Option.isNone_iff_eq_none] at hk
  have hstop : (accept .assign : Parser Bool) s' = .ok false s' := by rw [accept_apply, hk.1.2]; rfl
  rw [assignment, bind_of_ok (h hs hk.1.1), bind_of_ok hstop, if_neg Bool.false_ne_true, peek_bind,
    hk.2]
  rfl

theorem reads_assignment_assign {target value : Expr}
    (ht : Reads (ternary inner) ks TokenKind.endsChoice target)
    (hv : Reads inner.expression ks' TokenKind.endsExpr value) :
    Reads (assignment inner) (ks ++ .symbol .assign :: ks') TokenKind.endsExpr
      (.assign target value) := by
  intro s s' hs hk
  obtain ⟨s₁, h₁, h₂⟩ := Stream.ahead_append.1 hs
  rw [assignment, bind_of_ok (ht h₁ (by rw [h₂.kind]; rfl)), bind_of_ok (accept_of_kind h₂.kind),
    if_pos rfl, bind_of_ok (hv h₂.advance hk)]
  rfl

theorem reads_assignment_update {op : BinaryOp} {c : Symbol}
    (hop : BinaryOp.ofAssignment? (.symbol c) = some op) {target value : Expr}
    (ht : Reads (ternary inner) ks TokenKind.endsChoice target)
    (hv : Reads inner.expression ks' TokenKind.endsExpr value) :
    Reads (assignment inner) (ks ++ .symbol c :: ks') TokenKind.endsExpr
      (.update op target value) := by
  intro s s' hs hk
  obtain ⟨s₁, h₁, h₂⟩ := Stream.ahead_append.1 hs
  have hc : (TokenKind.symbol c).endsChoice = true ∧ c ≠ .assign := by
    unfold BinaryOp.ofAssignment? at hop
    split at hop <;> simp_all <;> decide
  have hne : s₁.kind ≠ .symbol .assign := by
    rw [h₂.kind]
    simpa using hc.2
  rw [assignment, bind_of_ok (ht h₁ (by rw [h₂.kind]; exact hc.1)),
    bind_of_ok (accept_of_kind_ne hne), if_neg Bool.false_ne_true, peek_bind, h₂.kind, hop]
  simp only
  rw [advance_bind, bind_of_ok (hv h₂.advance hk)]
  rfl

/-- Operands are expressions. -/
theorem reads_assignment_operand (h : Reads (unary inner) ks TokenKind.endsOperand e) :
    Reads (assignment inner) ks TokenKind.endsExpr e :=
  reads_assignment_choice (reads_ternary_chain (reads_binary_operand h))

/-- An expression and its semicolon. -/
theorem reads_expressionStatement {depth : Nat}
    (h : Reads (Parser.inner depth).expression ks TokenKind.endsExpr e) :
    Reads (expressionStatement (level depth)) (ks ++ [.symbol .semicolon]) anything [.expr e] := by
  intro s s' hs _
  obtain ⟨s₁, h₁, h₂⟩ := Stream.ahead_append.1 hs
  rw [expressionStatement, bind_of_ok (h h₁ (by rw [h₂.kind]; rfl)),
    bind_of_ok (expect_of_kind h₂.kind), Stream.ahead_singleton h₂]
  rfl

end Expressions

end Parser

end Stepwise
