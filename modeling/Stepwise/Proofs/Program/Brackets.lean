import Stepwise.Program.Statement
import Stepwise.Proofs.Program.Ends

/-!
# The brackets that a parser reads

Expressions and declarations are read by parsers that may give up anywhere.  What matters about the
place where they stop, for whoever has to go on from there, is how many brackets are open.

* `BracketPair.climb` is the number of brackets that are open after some tokens.  It is `none` if
  more were closed than had been open, at whatever point.
* `Parser.At` says where a stream is, seen from an earlier one: how many braces and parentheses are
  open.  A brace can only be open where an initializer has begun, which `initializes` decides.
* `Parser.Lands` says where a parser stops.  If it succeeds the levels are given; if it fails there
  are some.
* `Parser.steadyInner` says that expressions leave all levels as they were, and
  `Parser.lands_scalarDeclaration` that declarations do.
-/

set_option autoImplicit false

namespace Stepwise

/-! ## Levels -/

/-- A pair of symbols that enclose something. -/
structure BracketPair where
  opening : Symbol
  closing : Symbol

namespace BracketPair

/-- Curly braces. -/
def brace : BracketPair := ⟨.leftBrace, .rightBrace⟩

/-- Parentheses. -/
def paren : BracketPair := ⟨.leftParen, .rightParen⟩

/-- The number of open brackets after a token, unless it closes one that was not open. -/
def step (q : BracketPair) (k : TokenKind) (level : Nat) : Option Nat :=
  if k.isSymbol q.opening then some (level + 1)
  else if k.isSymbol q.closing then
    match level with
    | 0 => none
    | lower + 1 => some lower
  else some level

/-- The number of open brackets after some tokens, unless they close one that was not open. -/
def climb (q : BracketPair) : Nat → List Token → Option Nat
  | level, [] => some level
  | level, t :: ts =>
    match q.step t.kind level with
    | some next => climb q next ts
    | none => none

/-- The brackets stand in pairs: each that is opened is closed, and each that is closed was open. -/
abbrev Paired (q : BracketPair) (ts : List Token) : Prop :=
  q.climb 0 ts = some 0

variable {q : BracketPair}

theorem climb_append (level : Nat) (ts us : List Token) :
    q.climb level (ts ++ us) = (q.climb level ts).bind fun next => q.climb next us := by
  induction ts generalizing level with
  | nil => rfl
  | cons t ts ih =>
    rw [List.cons_append, climb, climb]
    cases q.step t.kind level with
    | none => rfl
    | some next => exact ih next

theorem step_add {k : TokenKind} {level next : Nat} (h : q.step k level = some next) (more : Nat) :
    q.step k (level + more) = some (next + more) := by
  simp only [step] at h ⊢
  split at h
  · rename_i hopen
    cases h
    rw [if_pos hopen, Nat.add_right_comm]
  · rename_i hopen
    rw [if_neg hopen]
    split at h
    · rename_i hclose
      rw [if_pos hclose]
      cases level with
      | zero => cases h
      | succ lower =>
        cases h
        rw [Nat.add_right_comm]
    · rename_i hclose
      cases h
      rw [if_neg hclose]

/-- Tokens that can be read at some level can be read at a higher one. -/
theorem climb_add {ts : List Token} {level next : Nat} (h : q.climb level ts = some next)
    (more : Nat) : q.climb (level + more) ts = some (next + more) := by
  induction ts generalizing level with
  | nil =>
    cases h
    rfl
  | cons t ts ih =>
    rw [climb] at h ⊢
    cases hstep : q.step t.kind level with
    | none => rw [hstep] at h; cases h
    | some m =>
      rw [hstep] at h
      rw [step_add hstep more]
      exact ih h

end BracketPair

open BracketPair

/-- Whether the token is a brace or a parenthesis. -/
def TokenKind.isBracket (k : TokenKind) : Bool :=
  k.isSymbol .leftBrace || k.isSymbol .rightBrace || k.isSymbol .leftParen ||
    k.isSymbol .rightParen

/-- Whether a brace after the token may open an initializer. -/
def TokenKind.awaitsValue (k : TokenKind) : Bool :=
  k.isSymbol .assign || k.isSymbol .rightBracket || k.isIdent

/-- Whether an initializer is opened somewhere: a brace after a name, bracket or equals sign. -/
def initializes : List Token → Bool
  | t :: u :: ts => t.kind.awaitsValue && u.kind.isSymbol .leftBrace || initializes (u :: ts)
  | _ => false

theorem TokenKind.isBracket_of_awaitsValue {k : TokenKind} (h : k.awaitsValue = true) :
    k.isBracket = false := by
  cases k with
  | symbol c => cases c <;> first | rfl | cases h
  | _ => rfl

theorem TokenKind.isBracket_of_isType {k : TokenKind} (h : k.isType = true) :
    k.isBracket = false := by
  cases k with
  | type name => rfl
  | _ => cases h

theorem TokenKind.isBracket_of_isConst {k : TokenKind} (h : k.isConst = true) :
    k.isBracket = false := by
  rw [TokenKind.isSymbol_iff.1 h]
  rfl

theorem TokenKind.isBracket_of_isPointer {k : TokenKind} (h : k.isPointer = true) :
    k.isBracket = false := by
  rw [isPointer, Bool.or_eq_true, isSymbol_iff, isSymbol_iff] at h
  rcases h with rfl | rfl <;> rfl

theorem UnaryOp.isBracket_of_ofToken? {k : TokenKind} {op : UnaryOp}
    (h : UnaryOp.ofToken? k = some op) : k.isBracket = false := by
  unfold UnaryOp.ofToken? at h
  split at h
  case h_4 => cases h
  all_goals rfl

theorem BinaryOp.isBracket_of_ofToken? {k : TokenKind} {op : BinaryOp}
    (h : BinaryOp.ofToken? k = some op) : k.isBracket = false := by
  unfold BinaryOp.ofToken? at h
  split at h
  case h_19 => cases h
  all_goals rfl

theorem BinaryOp.isBracket_of_ofAssignment? {k : TokenKind} {op : BinaryOp}
    (h : BinaryOp.ofAssignment? k = some op) : k.isBracket = false := by
  unfold BinaryOp.ofAssignment? at h
  split at h
  case h_6 => cases h
  all_goals rfl

theorem BracketPair.step_of_not_isBracket {k : TokenKind} (h : k.isBracket = false) (level : Nat) :
    brace.step k level = some level ∧ paren.step k level = some level := by
  simp only [TokenKind.isBracket, Bool.or_eq_false_iff] at h
  obtain ⟨⟨⟨h1, h2⟩, h3⟩, h4⟩ := h
  simp [step, brace, paren, h1, h2, h3, h4]

theorem initializes_append_left {ts : List Token} (h : initializes ts = true) (us : List Token) :
    initializes (ts ++ us) = true := by
  fun_induction initializes ts with
  | case1 t u ts ih =>
    rw [List.cons_append, List.cons_append, initializes, Bool.or_eq_true]
    rw [Bool.or_eq_true] at h
    exact h.imp id ih
  | case2 => cases h

theorem initializes_append_right {us : List Token} (h : initializes us = true) (ts : List Token) :
    initializes (ts ++ us) = true := by
  induction ts with
  | nil => exact h
  | cons t ts ih =>
    rw [List.cons_append]
    cases hts : ts ++ us with
    | nil => rw [hts] at ih; cases ih
    | cons u rest => rw [initializes, ← hts, ih, Bool.or_true]

namespace Parser

variable {α : Type} {root : List Token} {room b i : Nat} {s : Stream}

/-! ## Places -/

/-- The stream is what is left of `root`, with fewer than `room` tokens, after some were read that
leave `b` braces and `i` parentheses open.  No brace is open unless they open an initializer. -/
def At (root : List Token) (room b i : Nat) (s : Stream) : Prop :=
  s.length < room ∧ ∃ read, root = read ++ s.rest ∧ brace.climb 0 read = some b ∧
    paren.climb 0 read = some i ∧ (b = 0 ∨ initializes read = true)

theorem at_start (s : Stream) : At s.rest (s.length + 1) 0 0 s :=
  ⟨Nat.lt_succ_self _, [], rfl, rfl, rfl, .inl rfl⟩

theorem At.mono (h : At root room b i s) {wide : Nat} (hle : room ≤ wide) : At root wide b i s :=
  ⟨Nat.lt_of_lt_of_le h.1 hle, h.2⟩

theorem length_advance (s : Stream) : s.advance.length = s.length - 1 := by
  simp [Stream.advance, Stream.length]

theorem exists_cons (h : s.kind ≠ .eof) :
    ∃ t, t.kind = s.kind ∧ s.rest = t :: s.advance.rest := by
  rw [Stream.kind] at h ⊢
  cases hrest : s.rest with
  | nil =>
    rw [hrest] at h
    exact absurd rfl h
  | cons t ts => exact ⟨t, rfl, by rw [Stream.advance, hrest, List.tail_cons]⟩

theorem exists_cons_of_kind {c : Symbol} (h : s.kind = .symbol c) :
    ∃ t, t.kind = .symbol c ∧ s.rest = t :: s.advance.rest := by
  obtain ⟨t, ht, hs⟩ := exists_cons (s := s) (by rw [h]; nofun)
  exact ⟨t, ht.trans h, hs⟩

/-- One more token has been read. -/
theorem At.next (h : At root room b i s) {t : Token} (hs : s.rest = t :: s.advance.rest)
    {b' i' : Nat} (hb : brace.step t.kind b = some b') (hi : paren.step t.kind i = some i')
    (hopen : b' = 0 ∨ b ≠ 0) : At root (room - 1) b' i' s.advance := by
  obtain ⟨hroom, read, hread, hbrace, hparen, hinit⟩ := h
  refine ⟨?_, read ++ [t], ?_, ?_, ?_, ?_⟩
  · have hlen : s.length = s.advance.length + 1 := by
      rw [Stream.length, hs]
      rfl
    omega
  · rw [List.append_assoc, List.singleton_append, ← hs]
    exact hread
  · rw [climb_append, hbrace, Option.bind_some, climb, hb]
    rfl
  · rw [climb_append, hparen, Option.bind_some, climb, hi]
    rfl
  · exact hopen.imp id fun hne => initializes_append_left (hinit.resolve_left hne) [t]

theorem At.symbol (h : At root room b i s) {c : Symbol} (hk : s.kind = .symbol c)
    {b' i' : Nat} (hb : brace.step (.symbol c) b = some b')
    (hi : paren.step (.symbol c) i = some i') (hopen : b' = 0 ∨ b ≠ 0) :
    At root (room - 1) b' i' s.advance := by
  obtain ⟨t, ht, hs⟩ := exists_cons_of_kind hk
  rw [← ht] at hb hi
  exact h.next hs hb hi hopen

/-- A token has been read that is no bracket, or there was none. -/
theorem At.skip (h : At root room b i s) (hk : s.kind.isBracket = false) :
    At root room b i s.advance := by
  by_cases hnil : s.rest = []
  · have hsame : s.advance = s := by
      cases s
      cases hnil
      rfl
    rwa [hsame]
  · obtain ⟨t, ts, hrest⟩ := List.exists_cons_of_ne_nil hnil
    have hs : s.rest = t :: s.advance.rest := by rw [Stream.advance, hrest, List.tail_cons]
    rw [Stream.kind, hrest] at hk
    have hstep := step_of_not_isBracket hk
    exact (h.next hs (hstep b).1 (hstep i).2 (Decidable.em (b = 0))).mono (Nat.sub_le room 1)

/-- A symbol has been read that is no bracket. -/
theorem At.consume (h : At root (room + 1) b i s) {c : Symbol} (hk : s.kind = .symbol c)
    (hc : (TokenKind.symbol c).isBracket = false) : At root room b i s.advance :=
  h.symbol hk (step_of_not_isBracket hc b).1 (step_of_not_isBracket hc i).2
    (Decidable.em (b = 0))

theorem At.openParen (h : At root room b i s) (hk : s.kind = .symbol .leftParen) :
    At root room b (i + 1) s.advance :=
  (h.symbol hk rfl rfl (Decidable.em (b = 0))).mono (Nat.sub_le room 1)

theorem At.closeParen (h : At root room b (i + 1) s) (hk : s.kind = .symbol .rightParen) :
    At root room b i s.advance :=
  (h.symbol hk rfl rfl (Decidable.em (b = 0))).mono (Nat.sub_le room 1)

theorem At.openBrace (h : At root room (b + 1) i s) (hk : s.kind = .symbol .leftBrace) :
    At root room (b + 2) i s.advance :=
  (h.symbol hk rfl rfl (.inr (Nat.succ_ne_zero b))).mono (Nat.sub_le room 1)

theorem At.closeBrace (h : At root room (b + 1) i s) (hk : s.kind = .symbol .rightBrace) :
    At root room b i s.advance :=
  (h.symbol hk rfl rfl (.inr (Nat.succ_ne_zero b))).mono (Nat.sub_le room 1)

/-- A brace that opens an initializer has been read, and the token before it. -/
theorem At.initialize (h : At root room b i s) (hk : s.kind.awaitsValue = true)
    (hbrace : s.advance.kind = .symbol .leftBrace) :
    At root room (b + 1) i s.advance.advance := by
  obtain ⟨u, hu, hs'⟩ := exists_cons_of_kind hbrace
  obtain ⟨t, ht, hs⟩ := exists_cons fun heof => by rw [heof] at hk; cases hk
  rw [← ht] at hk
  obtain ⟨hroom, read, hread, hb, hi, -⟩ := h
  have hstep := step_of_not_isBracket (TokenKind.isBracket_of_awaitsValue hk)
  refine ⟨?_, read ++ [t, u], ?_, ?_, ?_, .inr ?_⟩
  · rw [length_advance, length_advance]
    omega
  · rw [hread, hs, hs', List.append_assoc]
    rfl
  · rw [climb_append, hb, Option.bind_some, climb, (hstep b).1]
    simp only [climb, hu]
    rfl
  · rw [climb_append, hi, Option.bind_some, climb, (hstep i).2]
    simp only [climb, hu]
    rfl
  · refine initializes_append_right ?_ read
    rw [initializes, hk, hu]
    rfl

theorem At.skipWhile (h : At root room b i s) {p : TokenKind → Bool}
    (hp : ∀ k, p k = true → k.isBracket = false) :
    At root room b i { s with rest := s.rest.dropWhile fun t => p t.kind } := by
  obtain ⟨rest, finish⟩ := s
  induction rest with
  | nil => exact h
  | cons t ts ih =>
    rw [List.dropWhile_cons]
    split
    · rename_i hpt
      exact ih (h.skip (hp t.kind hpt))
    · exact h

/-! ## Parsers -/

/-- The stream is what is left of `root` at some levels. -/
def Left (root : List Token) (s : Stream) : Prop :=
  ∃ room b i, At root room b i s

theorem At.left (h : At root room b i s) : Left root s :=
  ⟨room, b, i, h⟩

/-- Where a parser stops, seen from `root`: if it succeeds, at the given levels with fewer than
`room` tokens left, and otherwise at some levels. -/
abbrev Lands (root : List Token) (s : Stream) (room b i : Nat) (p : Parser α) : Prop :=
  Ends s (fun _ => At root room b i) (Left root) p

/-- A parser that leaves the levels as they were. -/
def Steady (p : Parser α) : Prop :=
  ∀ ⦃root : List Token⦄ ⦃room b i : Nat⦄ ⦃s : Stream⦄, At root room b i s → Lands root s room b i p

theorem lands_skipWhile {f : Unit → Parser α} {room' b' i' : Nat} (h : At root room b i s)
    {p : TokenKind → Bool} (hp : ∀ k, p k = true → k.isBracket = false)
    (hf : ∀ s', At root room b i s' → Lands root s' room' b' i' (f ())) :
    Lands root s room' b' i' (skipWhile p >>= f) :=
  hf _ (h.skipWhile hp)

/-! ## Expressions -/

theorem steady_commaItems {item : Parser α} (h : Steady item) :
    ∀ fuel, Steady (commaItems item fuel)
  | 0, _, _, _, _, _, hs => ends_pure hs
  | fuel + 1, _, _, _, _, _, hs => by
    rw [commaItems]
    refine (h hs).bind fun first s' hs' => ends_ifAccept (fun hk => ?_) (ends_pure hs')
    have hnext := hs'.skip (by rw [hk]; rfl)
    exact (steady_commaItems h fuel hnext).bind fun others s'' hs'' => ends_pure hs''

theorem steady_commaList {item : Parser α} (h : Steady item) : Steady (commaList item) :=
  fun _ _ _ _ s hs => steady_commaItems h (s.length + 1) hs

/-- The expression parsers of a level leave the levels of brackets as they were. -/
structure SteadyInner (inner : Inner Parser) : Prop where
  /-- Full expressions. -/
  expression : Steady inner.expression
  /-- Expressions without assignments. -/
  ternary : Steady inner.ternary
  /-- Operands. -/
  unary : Steady inner.unary

variable {inner : Inner Parser}

/-- Arguments close the parenthesis that was opened before them. -/
theorem SteadyInner.arguments (h : SteadyInner inner) (hs : At root room b (i + 1) s) :
    Lands root s room b i (arguments inner) := by
  rw [Parser.arguments]
  refine ends_ifAccept (fun hk => ends_pure (hs.closeParen hk)) ?_
  refine (steady_commaList h.expression hs).bind fun args s' hs' => ?_
  exact ends_expect hs'.left fun hk => ends_pure (hs'.closeParen hk)

theorem lands_literal (hs : At root room b i s) (hk : s.kind.isBracket = false) (l : Literal) :
    Lands root s room b i (literal l) :=
  ends_advance (ends_pure (hs.skip hk))

theorem SteadyInner.primary (h : SteadyInner inner) : Steady (primary inner) := by
  intro root room b i s hs
  rw [Parser.primary]
  refine ends_peek ?_
  split
  case h_8 name hk =>
    have hnext := hs.skip (by rw [hk]; rfl)
    split
    · exact ends_advance (ends_pure hnext)
    · exact ends_advance (ends_pure hnext)
  case h_9 hk =>
    refine ends_advance ((h.expression (hs.openParen hk)).bind fun e s' hs' => ?_)
    exact ends_expect hs'.left fun hk' => ends_pure (hs'.closeParen hk')
  case h_10 | h_11 => exact ends_failHere hs.left _
  all_goals exact lands_literal hs (by simp_all [TokenKind.isBracket, TokenKind.isSymbol]) _

theorem SteadyInner.memberOf (h : SteadyInner inner) (object : Expr) :
    Steady (memberOf inner object) := by
  intro root room b i s hs
  rw [Parser.memberOf]
  refine ends_identifier hs.left fun name hk => ?_
  have hname := hs.skip (by rw [hk]; rfl)
  refine ends_ifAccept (fun hk' => ?_) (ends_pure hname)
  exact (h.arguments (hname.openParen hk')).bind fun args s' hs' => ends_pure hs'

theorem SteadyInner.trailers (h : SteadyInner inner) :
    ∀ (fuel : Nat) (e : Expr), Steady (trailers inner fuel e)
  | 0, _, _, _, _, _, _, hs => ends_pure hs
  | fuel + 1, e, root, room, b, i, s, hs => by
    unfold Parser.trailers
    refine ends_peek ?_
    split
    · rename_i hk
      split
      · refine ends_advance ((h.arguments (hs.openParen hk)).bind fun args s' hs' => ?_)
        exact h.trailers fuel _ hs'
      · exact ends_failHere hs.left _
    · rename_i hk
      refine ends_advance ((h.memberOf e (hs.skip (by rw [hk]; rfl))).bind fun e' s' hs' => ?_)
      exact h.trailers fuel e' hs'
    · rename_i hk
      refine ends_advance ((h.memberOf e (hs.skip (by rw [hk]; rfl))).bind fun e' s' hs' => ?_)
      exact h.trailers fuel e' hs'
    · rename_i hk
      refine ends_advance ((h.expression (hs.skip (by rw [hk]; rfl))).bind fun index s' hs' => ?_)
      refine ends_expect hs'.left fun hk' => ?_
      exact h.trailers fuel _ (hs'.skip (by rw [hk']; rfl))
    · rename_i hk
      exact ends_advance (h.trailers fuel _ (hs.skip (by rw [hk]; rfl)))
    · rename_i hk
      exact ends_advance (h.trailers fuel _ (hs.skip (by rw [hk]; rfl)))
    · exact ends_pure hs

theorem SteadyInner.operand (h : SteadyInner inner) : Steady (operand inner) :=
  fun _ _ _ _ _ hs => (h.primary hs).bind fun e s' hs' =>
    ends_get (h.trailers (s'.length + 1) e hs')

theorem SteadyInner.cast (h : SteadyInner inner) (hs : At root room b i s)
    (hk : s.kind = .symbol .leftParen) : Lands root s room b i (cast inner) := by
  rw [Parser.cast]
  refine ends_advance (lands_skipWhile (hs.openParen hk) (fun _ => TokenKind.isBracket_of_isType)
    fun s' hs' => ?_)
  exact ends_expect hs'.left fun hk' => h.unary (hs'.closeParen hk')

theorem SteadyInner.level_unary (h : SteadyInner inner) : Steady (Parser.unary inner) := by
  intro root room b i s hs
  rw [Parser.unary]
  refine ends_peek ?_
  split
  · rename_i hop
    have hnext := hs.skip (UnaryOp.isBracket_of_ofToken? hop)
    exact ends_advance ((h.unary hnext).bind fun e s' hs' => ends_pure hs')
  · split
    · rename_i hk
      exact ends_advance (h.unary (hs.skip (by rw [hk]; rfl)))
    · rename_i hk
      have hnext := hs.skip (by rw [hk]; rfl)
      exact ends_advance ((h.unary hnext).bind fun e s' hs' => ends_pure hs')
    · rename_i hk
      have hnext := hs.skip (by rw [hk]; rfl)
      exact ends_advance ((h.unary hnext).bind fun e s' hs' => ends_pure hs')
    · exact ends_failHere hs.left _
    · exact ends_failHere hs.left _
    · rename_i hk
      refine ends_peekAt ?_
      split
      · exact h.cast hs hk
      · exact h.operand hs
    · exact h.operand hs

theorem SteadyInner.operations (h : SteadyInner inner) :
    ∀ fuel, Steady (operations inner fuel)
  | 0, _, _, _, _, _, hs => ends_pure hs
  | fuel + 1, root, room, b, i, s, hs => by
    rw [Parser.operations]
    refine ends_peek ?_
    split
    · rename_i hop
      have hnext := hs.skip (BinaryOp.isBracket_of_ofToken? hop)
      refine ends_advance ((h.level_unary hnext).bind fun right s' hs' => ?_)
      exact (h.operations fuel hs').bind fun others s'' hs'' => ends_pure hs''
    · exact ends_pure hs

theorem SteadyInner.binary (h : SteadyInner inner) : Steady (binary inner) :=
  fun _ _ _ _ _ hs => (h.level_unary hs).bind fun _ s' hs' =>
    ends_get ((h.operations (s'.length + 1) hs').bind fun _ _ hs'' => ends_pure hs'')

theorem SteadyInner.level_ternary (h : SteadyInner inner) : Steady (Parser.ternary inner) := by
  intro root room b i s hs
  rw [Parser.ternary]
  refine (h.binary hs).bind fun condition s₁ h₁ => ends_ifAccept (fun hk => ?_) (ends_pure h₁)
  refine (h.expression (h₁.skip (by rw [hk]; rfl))).bind fun thenValue s₂ h₂ => ?_
  refine ends_expect h₂.left fun hk' => ?_
  exact (h.ternary (h₂.skip (by rw [hk']; rfl))).bind fun elseValue s₃ h₃ => ends_pure h₃

theorem SteadyInner.level_expression (h : SteadyInner inner) : Steady (assignment inner) := by
  intro root room b i s hs
  rw [assignment]
  refine (h.level_ternary hs).bind fun target s₁ h₁ => ends_ifAccept (fun hk => ?_) ?_
  · exact (h.expression (h₁.skip (by rw [hk]; rfl))).bind fun value s₂ h₂ => ends_pure h₂
  · refine ends_peek ?_
    split
    · rename_i hop
      have hnext := h₁.skip (BinaryOp.isBracket_of_ofAssignment? hop)
      exact ends_advance ((h.expression hnext).bind fun value s₂ h₂ => ends_pure h₂)
    · exact ends_pure h₁

/-- **Expressions leave all brackets as they were.** -/
theorem steadyInner : ∀ depth, SteadyInner (Parser.inner depth)
  | 0 => ⟨fun _ _ _ _ _ hs => ends_failHere hs.left _, fun _ _ _ _ _ hs => ends_failHere hs.left _,
    fun _ _ _ _ _ hs => ends_failHere hs.left _⟩
  | depth + 1 =>
    have h := steadyInner depth
    ⟨h.level_expression, h.level_ternary, h.level_unary⟩

/-! ## Declarations -/

theorem Lands.mono {p : Parser α} {wide : Nat} (h : Lands root s room b i p) (hle : room ≤ wide) :
    Lands root s wide b i p :=
  h.imp (fun _ _ hs => hs.mono hle) fun _ => id

/-- A parser that closes the brace which was opened before it. -/
def Closing (p : Parser α) : Prop :=
  ∀ ⦃root : List Token⦄ ⦃room b i : Nat⦄ ⦃s : Stream⦄, At root room (b + 1) i s →
    Lands root s room b i p

/-- The fuel of an initializer is never used up: every element but the last has a comma. -/
theorem lands_initializerItems {expression : Parser Expr} {nested : Parser (List Expr)}
    (he : Steady expression) (hn : Closing nested) :
    ∀ (fuel : Nat) {root : List Token} {b i : Nat} {s : Stream}, At root fuel (b + 1) i s →
      Lands root s fuel b i (initializerItems expression nested fuel)
  | 0, _, _, _, _, hs => absurd hs.1 (Nat.not_lt_zero _)
  | fuel + 1, root, b, i, s, hs => by
    rw [initializerItems]
    refine ends_ifAccept (fun hk => ends_pure (hs.closeBrace hk)) ?_
    refine ends_found fun found s₁ ht hf => ?_
    extract_lets rest
    have hrest : ∀ items s', At root (fuel + 1) (b + 1) i s' →
        Lands root s' (fuel + 1) b i (rest items) := by
      intro items s' hs'
      refine ends_ifAccept (fun hk => ?_) (ends_expect hs'.left fun hk => ?_)
      -- The comma takes one from the room, as the recursion does from the fuel.
      · have hitems := lands_initializerItems he hn fuel (hs'.consume hk rfl)
        exact (hitems.mono (Nat.le_succ fuel)).bind fun others s'' hs'' => ends_pure hs''
      · exact ends_pure (hs'.closeBrace hk)
    cases found with
    | true =>
      obtain ⟨hk, rfl⟩ := ht rfl
      exact (hn (hs.openBrace hk)).bind hrest
    | false =>
      obtain rfl := hf rfl
      exact (he hs).bind fun e s' hs' => hrest [e] s' hs'

theorem closing_initializer {expression : Parser Expr} {nested : Parser (List Expr)}
    (he : Steady expression) (hn : Closing nested) : Closing (initializer expression nested) := by
  intro root room b i s hs
  have hitems := lands_initializerItems he hn (s.length + 1) ⟨Nat.lt_succ_self s.length, hs.2⟩
  exact ends_get (hitems.mono hs.1)

theorem closing_initializerList : ∀ depth, Closing (initializerList depth)
  | 0 => closing_initializer (steadyInner 0).expression fun _ _ _ _ _ hs => ends_failHere hs.left _
  | depth + 1 =>
    closing_initializer (steadyInner (depth + 1)).expression (closing_initializerList depth)

theorem steady_arrayDeclarator (depth : Nat) (name : String) :
    Steady (arrayDeclarator (level depth) name) := by
  intro root room b i s hs
  rw [arrayDeclarator]
  refine ends_checked fun unsized => ?_
  extract_lets rest
  have hrest : ∀ size s', At root room b i s' → Lands root s' room b i (rest size) := by
    intro size s' hs'
    refine ends_expect hs'.left fun hbracket => ?_
    have hnext := hs'.skip (by rw [hbracket]; rfl)
    refine ends_ifCheck (fun _ => ends_failHere hnext.left _) ?_
    refine ends_accept (fun hassign => ?_) (ends_check (fun hbrace => ?_) ?_)
    · have hvalue := hnext.skip (by rw [hassign]; rfl)
      refine ends_checked fun brace => ?_
      rw [Bool.true_or, if_pos rfl]
      refine ends_expect hvalue.left fun hbrace => ?_
      have hopen := hnext.initialize (by rw [hassign]; rfl) hbrace
      exact (closing_initializerList depth hopen).bind fun items s'' hs'' => ends_pure hs''
    · rw [Bool.false_or, if_pos rfl]
      refine ends_expect hnext.left fun _ => ?_
      have hopen := hs'.initialize (by rw [hbracket]; rfl) hbrace
      exact (closing_initializerList depth hopen).bind fun items s'' hs'' => ends_pure hs''
    · rw [Bool.false_or, if_neg Bool.false_ne_true]
      split
      · exact ends_failHere hnext.left _
      · exact ends_pure hnext
  split
  · exact hrest none s hs
  · exact ((steadyInner depth).expression hs).bind fun e s' hs' => hrest (some e) s' hs'

theorem steady_declarator (depth : Nat) : Steady (declarator (level depth)) := by
  intro root room b i s hs
  rw [declarator]
  refine lands_skipWhile hs (fun _ => TokenKind.isBracket_of_isPointer) fun s₁ h₁ => ?_
  refine ends_identifier h₁.left fun name hname => ?_
  have hnext := h₁.skip (by rw [hname]; rfl)
  refine ends_ifAccept (fun hk => ?_) (ends_ifAccept (fun hk => ?_)
    (ends_ifAccept (fun hk => ?_) (ends_ifAccept (fun hk => ?_) (ends_pure hnext))))
  · exact steady_arrayDeclarator depth name (hnext.skip (by rw [hk]; rfl))
  · have hvalue := hnext.skip (by rw [hk]; rfl)
    exact ((steadyInner depth).expression hvalue).bind fun e s' hs' => ends_pure hs'
  · refine ((steadyInner depth).expression (hnext.openParen hk)).bind fun e s' hs' => ?_
    exact ends_expect hs'.left fun hk' => ends_pure (hs'.closeParen hk')
  · have hopen := h₁.initialize (by rw [hname]; rfl) hk
    exact (closing_initializerList depth hopen).bind fun items s' hs' => ends_pure hs'

/-- **Declarations leave all brackets as they were,** and read at least a semicolon. -/
theorem lands_scalarDeclaration (depth : Nat) (hs : At root (room + 1) b i s) :
    Lands root s room b i (scalarDeclaration (level depth)) := by
  rw [scalarDeclaration]
  refine lands_skipWhile hs (fun _ => TokenKind.isBracket_of_isConst) fun s₁ h₁ => ends_peek ?_
  have hwords : ∀ k : TokenKind, (k.isType || k.isConst) = true → k.isBracket = false := by
    intro k hk
    rw [Bool.or_eq_true] at hk
    exact hk.elim TokenKind.isBracket_of_isType TokenKind.isBracket_of_isConst
  split
  · refine lands_skipWhile h₁ hwords fun s₂ h₂ => ?_
    refine (steady_commaList (steady_declarator depth) h₂).bind fun stmts s₃ h₃ => ?_
    exact ends_expect h₃.left fun hk => ends_pure (h₃.consume hk rfl)
  · exact ends_failHere h₁.left _

end Parser

end Stepwise
