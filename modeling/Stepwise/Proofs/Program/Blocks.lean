import Stepwise.Proofs.Program.Brackets

/-!
# Reading inside of a block

Statements are read one after another until a closing brace, and one that cannot be understood is
skipped.  So it depends on the parser's view of braces where a block ends, and this file is about
what that view is worth.

* `orderly` decides whether a block is free of the places at which braces are not looked at: tokens
  that are passed over, by `passedOver`, and bodies that are missing, by `bodyStart?`.
* `Parser.Upto` says where a stream is inside of a block, seen from an earlier one.  No brace may
  have been closed that was open before, and one may have been left open only with an excuse.
* `Parser.skips_skipMalformed` says that the search for the end of a malformed statement is right
  about braces if it starts at the level that it believes to be at.
* `Parser.recovers_recovered` and `Parser.recovers_body` say that statements and bodies never fail
  inside of a block, given that the parser for a single statement keeps to it.
-/

set_option autoImplicit false

namespace Stepwise

open BracketPair

/-! ## Statements that were understood -/

mutual

/-- Whether no part of a statement had to be replaced by an error. -/
def Stmt.understood : Stmt → Bool
  | .branch _ thenBody => Stmt.allUnderstood thenBody
  | .branchElse _ thenBody elseBody => Stmt.allUnderstood thenBody && Stmt.allUnderstood elseBody
  | .whileLoop _ body => Stmt.allUnderstood body
  | .doWhile body _ => Stmt.allUnderstood body
  | .forLoop init _ _ body => Stmt.allUnderstood init && Stmt.allUnderstood body
  | .block body => Stmt.allUnderstood body
  | .malformed _ => false
  | _ => true

/-- Whether no part of any statement of a list had to be replaced by an error. -/
def Stmt.allUnderstood : List Stmt → Bool
  | [] => true
  | s :: rest => s.understood && Stmt.allUnderstood rest

end

theorem Stmt.allUnderstood_singleton (stmt : Stmt) :
    Stmt.allUnderstood [stmt] = stmt.understood := by
  rw [allUnderstood, allUnderstood, Bool.and_true]

theorem Stmt.allUnderstood_append (stmts others : List Stmt) :
    Stmt.allUnderstood (stmts ++ others)
      = (Stmt.allUnderstood stmts && Stmt.allUnderstood others) := by
  induction stmts with
  | nil => rw [List.nil_append, allUnderstood, Bool.true_and]
  | cons s stmts ih => rw [List.cons_append, allUnderstood, allUnderstood, ih, Bool.and_assoc]

/-! ## Places where braces are not looked at -/

/-- The tokens through the next semicolon. -/
def throughSemicolon (ts : List Token) : List Token :=
  ts.takeWhile (fun t => !t.kind.isSymbol .semicolon)
    ++ (ts.dropWhile fun t => !t.kind.isSymbol .semicolon).take 1

/-- The tokens of a list of template arguments, if it is closed. -/
def templateTokens (ts : List Token) : List Token :=
  match templateEnd? 0 ts with
  | some rest => ts.take (ts.length - rest.length)
  | none => []

/-- The kind of the first token, the end of the text counting as one. -/
def nextKind : List Token → TokenKind
  | t :: _ => t.kind
  | [] => .eof

/-- The tokens that are passed over here without a look at their braces: all of a statement that is
dropped, and the template arguments of a container. -/
def passedOver (ts : List Token) : List Token :=
  match nextKind ts with
  | .symbol .using => throughSemicolon ts
  | .ident name =>
    if Parser.consoleStreams.contains name ||
        (Parser.consoleCalls.contains name && (nextKind ts.tail).isSymbol .leftParen) then
      throughSemicolon ts
    else if (nextKind ts.tail).isSymbol .less && (SequenceKind.ofTypeName? name).isSome then
      templateTokens ts.tail
    else []
  | _ => []

/-- What follows the parenthesis that closes a group in which `level` others are open. -/
def groupEnd? : Nat → List Token → Option (List Token)
  | _, [] => none
  | level, t :: ts =>
    match paren.step t.kind level with
    | some next => groupEnd? next ts
    | none => some ts

/-- What follows a condition or the clauses of a loop, which stand in parentheses. -/
def headEnd? (ts : List Token) : Option (List Token) :=
  if (nextKind ts).isSymbol .leftParen then groupEnd? 0 ts.tail else none

/-- Where a body has to start, if the first token is one that asks for a body. -/
def bodyStart? (ts : List Token) : Option (List Token) :=
  match nextKind ts with
  | .symbol .else => some ts.tail
  | .symbol .do => some ts.tail
  | .symbol .if => headEnd? ts.tail
  | .symbol .while => headEnd? ts.tail
  | .symbol .for => headEnd? ts.tail
  | _ => none

/-- Whether the place is one from which a statement is not misread: what is passed over has its
braces in pairs, and there is no closing brace where a body has to start. -/
def inOrder (ts : List Token) : Bool :=
  brace.climb 0 (passedOver ts) == some 0 &&
    !(bodyStart? ts).any fun body => (nextKind body).isSymbol .rightBrace

/-- Whether all places are in order, up to the closing brace of a block of which `level` braces are
open. -/
def orderly : Nat → List Token → Bool
  | _, [] => true
  | level, t :: ts =>
    inOrder (t :: ts) &&
      match brace.step t.kind level with
      | some next => orderly next ts
      | none => true

theorem orderly_append {level next : Nat} {ts us : List Token} (h : orderly level (ts ++ us) = true)
    (hts : brace.climb level ts = some next) : orderly next us = true := by
  induction ts generalizing level with
  | nil =>
    cases hts
    exact h
  | cons t ts ih =>
    rw [climb] at hts
    rw [List.cons_append, orderly, Bool.and_eq_true] at h
    cases hstep : brace.step t.kind level with
    | none => rw [hstep] at hts; cases hts
    | some m =>
      rw [hstep] at hts h
      exact ih h.2 hts

/-- A block inside of a block is in order if that is. -/
theorem orderly_of_add {level : Nat} (more : Nat) {ts : List Token}
    (h : orderly (level + more) ts = true) : orderly level ts = true := by
  induction ts generalizing level with
  | nil => rfl
  | cons t ts ih =>
    rw [orderly, Bool.and_eq_true] at h ⊢
    refine ⟨h.1, ?_⟩
    cases hstep : brace.step t.kind level with
    | none => rfl
    | some next =>
      rw [step_add hstep more] at h
      exact ih h.2

/-- The tokens of a block after its opening brace: the block is closed, and all its places are in
order. -/
structure Enclosed (ts : List Token) : Prop where
  closes : brace.climb 0 ts = none
  orderly : orderly 0 ts = true

theorem Enclosed.after {ts us : List Token} (h : Enclosed (ts ++ us)) {level : Nat}
    (hts : brace.climb 0 ts = some level) : Enclosed us where
  closes := by
    cases hus : brace.climb 0 us with
    | none => rfl
    | some next =>
      have hall := h.closes
      have hadd := climb_add hus level
      rw [Nat.zero_add] at hadd
      rw [climb_append, hts, Option.bind_some, hadd] at hall
      cases hall
  orderly := by
    refine orderly_of_add level ?_
    rw [Nat.zero_add]
    exact orderly_append h.orderly hts

theorem Enclosed.ne_nil {ts : List Token} (h : Enclosed ts) : ts ≠ [] := by
  rintro rfl
  cases h.closes

theorem Enclosed.inOrder {ts : List Token} (h : Enclosed ts) : inOrder ts = true := by
  cases ts with
  | nil => exact absurd rfl h.ne_nil
  | cons t ts =>
    have hall := h.orderly
    rw [Stepwise.orderly, Bool.and_eq_true] at hall
    exact hall.1

namespace Parser

variable {α : Type} {root : List Token} {room : Nat} {excused : Prop} {s : Stream}

/-! ## Places of a block -/

/-- The stream is what is left of `root`, with fewer than `room` tokens, after some were read that
close no brace which was open before.  They leave a brace open only with an excuse: they open an
initializer, and `excused` is true. -/
def Upto (root : List Token) (room : Nat) (excused : Prop) (s : Stream) : Prop :=
  s.length < room ∧ ∃ read level, root = read ++ s.rest ∧ brace.climb 0 read = some level ∧
    (level = 0 ∨ initializes read = true ∧ excused)

theorem upto_start (s : Stream) : Upto s.rest (s.length + 1) False s :=
  ⟨Nat.lt_succ_self _, [], 0, rfl, rfl, .inl rfl⟩

theorem Upto.imp (h : Upto root room excused s) {wide : Nat} (hle : room ≤ wide) {excused' : Prop}
    (hexcused : excused → excused') : Upto root wide excused' s := by
  obtain ⟨hroom, read, level, hread, hlevel, hopen⟩ := h
  exact ⟨Nat.lt_of_lt_of_le hroom hle, read, level, hread, hlevel,
    hopen.imp id (And.imp id hexcused)⟩

theorem At.upto {b i : Nat} (h : At root room b i s) : Upto root room (b ≠ 0) s := by
  obtain ⟨hroom, read, hread, hb, -, hopen⟩ := h
  refine ⟨hroom, read, b, hread, hb, ?_⟩
  by_cases hzero : b = 0
  · exact .inl hzero
  · exact .inr ⟨hopen.resolve_left hzero, hzero⟩

theorem Upto.trans (h : Upto root room excused s) {s' : Stream} {room' : Nat} {excused' : Prop}
    (h' : Upto s.rest room' excused' s') : Upto root room' (excused ∨ excused') s' := by
  obtain ⟨-, read, level, hread, hlevel, hopen⟩ := h
  obtain ⟨hroom, read', level', hread', hlevel', hopen'⟩ := h'
  refine ⟨hroom, read ++ read', level' + level, ?_, ?_, ?_⟩
  · rw [hread, hread', List.append_assoc]
  · have hadd := climb_add hlevel' level
    rw [Nat.zero_add] at hadd
    rw [climb_append, hlevel, Option.bind_some, hadd]
  · rcases hopen with rfl | ⟨hinit, hex⟩
    · rcases hopen' with rfl | ⟨hinit', hex'⟩
      · exact .inl rfl
      · exact .inr ⟨initializes_append_right hinit' read, .inr hex'⟩
    · exact .inr ⟨initializes_append_left hinit read', .inl hex⟩

theorem Upto.enclosed (hs : Upto root room excused s) (h : Enclosed root) : Enclosed s.rest := by
  obtain ⟨-, read, level, rfl, hlevel, -⟩ := hs
  exact h.after hlevel

/-- Some tokens have been read in which braces are in pairs. -/
theorem upto_of_climb {s s' : Stream} {read : List Token} (hread : s.rest = read ++ s'.rest)
    (hne : read ≠ []) (hlevel : brace.climb 0 read = some 0) : Upto s.rest s.length False s' := by
  refine ⟨?_, read, 0, hread, hlevel, .inl rfl⟩
  have hpos := List.length_pos_iff.2 hne
  rw [Stream.length, Stream.length, hread, List.length_append]
  omega

theorem upto_advance {c : Symbol} (hk : s.kind = .symbol c)
    (hc : brace.step (.symbol c) 0 = some 0) : Upto s.rest s.length False s.advance := by
  obtain ⟨t, ht, hs⟩ := exists_cons_of_kind hk
  have hread : s.rest = [t] ++ s.advance.rest := hs
  refine upto_of_climb hread (List.cons_ne_nil t []) ?_
  rw [climb, ht, hc]
  rfl

theorem Upto.symbol (h : Upto root room excused s) {c : Symbol} (hk : s.kind = .symbol c)
    (hc : brace.step (.symbol c) 0 = some 0) : Upto root room excused s.advance :=
  (h.trans (upto_advance hk hc)).imp (Nat.le_of_lt h.1) (Or.elim · id False.elim)

/-- The stream is what is left of `root` after a statement that could not be understood. -/
def Within (root : List Token) (s : Stream) : Prop :=
  ∃ room, Upto root room True s

theorem Upto.within (h : Upto root room excused s) : Within root s :=
  ⟨room, h.imp (Nat.le_refl room) fun _ => trivial⟩

/-- Part of a statement, read by a parser for expressions or declarations. -/
theorem Upto.enter {p : Parser α} {s' : Stream} {room' b i : Nat} (h : Upto root room excused s)
    (hp : Lands s.rest s' room' b i p) : Ends s' (fun _ => At s.rest room' b i) (Within root) p :=
  hp.imp (fun _ _ => id) fun _ ⟨_, _, _, hs⟩ => (h.trans hs.upto).within

theorem Upto.leaf {s' : Stream} {room' i : Nat} (h : Upto root room excused s)
    (hs : At s.rest room' 0 i s') (hle : room' ≤ room) : Upto root room excused s' :=
  (h.trans hs.upto).imp hle (Or.elim · id (absurd rfl))

/-! ## Going on after an error -/

/-- From a point where `depth` braces of the statement are open, tokens are skipped that close all
of them and no other brace.  None at all are skipped only in front of a closing brace. -/
def Skips (depth : Nat) (ts rest : List Token) : Prop :=
  ∃ read, ts = read ++ rest ∧ brace.climb depth read = some 0 ∧
    (read = [] → nextKind ts = .symbol .rightBrace)

theorem Skips.cons {t : Token} {ts rest : List Token} {depth next : Nat}
    (hstep : brace.step t.kind depth = some next) (h : Skips next ts rest) :
    Skips depth (t :: ts) rest := by
  obtain ⟨read, rfl, hlevel, -⟩ := h
  refine ⟨t :: read, rfl, ?_, fun hnil => by cases hnil⟩
  rw [climb, hstep]
  exact hlevel

theorem climb_tail {t : Token} {ts : List Token} {depth next : Nat}
    (h : brace.climb depth (t :: ts) = none) (hstep : brace.step t.kind depth = some next) :
    brace.climb next ts = none := by
  rwa [climb, hstep] at h

/-- **Recovery finds the end of the statement,** as long as it starts where it says, with as many
braces open. -/
theorem skips_skipMalformed {depth : Nat} {ts : List Token} (h : brace.climb depth ts = none) :
    Skips depth ts (skipMalformed depth ts) := by
  fun_induction skipMalformed depth ts with
  | case1 depth => cases h
  | case2 t ts hk =>
    refine ⟨[t], rfl, ?_, fun hnil => by cases hnil⟩
    rw [climb, hk]
    rfl
  | case3 depth t ts hk hdepth ih =>
    have hstep : brace.step t.kind depth = some depth := by rw [hk]; rfl
    exact (ih (climb_tail h hstep)).cons hstep
  | case4 depth t ts hk ih =>
    have hstep : brace.step t.kind depth = some (depth + 1) := by rw [hk]; rfl
    exact (ih (climb_tail h hstep)).cons hstep
  | case5 t ts hk => exact ⟨[], rfl, rfl, fun _ => hk⟩
  | case6 t ts hk =>
    refine ⟨[t], rfl, ?_, fun hnil => by cases hnil⟩
    rw [climb, hk]
    rfl
  | case7 t ts hk deeper ih =>
    have hstep : brace.step t.kind (deeper + 2) = some (deeper + 1) := by rw [hk]; rfl
    exact (ih (climb_tail h hstep)).cons hstep
  | case8 depth t ts hsemi hopen hclose ih =>
    have hstep : brace.step t.kind depth = some depth := by
      have hopen' : ¬t.kind.isSymbol .leftBrace = true := fun hk =>
        hopen (TokenKind.isSymbol_iff.1 hk)
      have hclose' : ¬t.kind.isSymbol .rightBrace = true := fun hk =>
        hclose (TokenKind.isSymbol_iff.1 hk)
      rw [step.eq_def, brace, if_neg hopen', if_neg hclose']
    exact (ih (climb_tail h hstep)).cons hstep

theorem kind_eq_nextKind (s : Stream) : s.kind = nextKind s.rest := by
  rw [Stream.kind]
  cases s.rest <;> rfl

/-! ## Blocks and bodies -/

/-- Where a statement ends, seen from `root`: no brace that was open before has been closed, and if
the statement was understood then none has been left open. -/
abbrev Keeps (root : List Token) (room : Nat) (s : Stream) (p : Parser (List Stmt)) : Prop :=
  Ends s (fun stmts => Upto root room (Stmt.allUnderstood stmts = false)) (Within root) p

/-- The parser never fails inside of a block, unless it starts at the block's closing brace. -/
def Recovers (p : Parser (List Stmt)) : Prop :=
  ∀ s : Stream, Enclosed s.rest → s.kind ≠ .symbol .rightBrace →
    ∃ stmts s', p s = .ok stmts s' ∧
      Upto s.rest s.length (Stmt.allUnderstood stmts = false) s'

theorem synchronize_eq {start : Stream} {s : Stream} {room : Nat} (hs : Upto start.rest room True s)
    (hk : start.kind ≠ .symbol .rightBrace) :
    s.synchronize start.length = { s with rest := skipMalformed 0 s.rest } := by
  obtain ⟨-, read, level, hread, -, -⟩ := hs
  rw [Stream.synchronize]
  refine if_neg fun h => hk ?_
  rw [Bool.and_eq_true, decide_eq_true_eq, TokenKind.isSymbol_iff] at h
  obtain ⟨hlen, hclose⟩ := h
  obtain rfl : read = [] := by
    rw [← List.length_eq_zero_iff]
    rw [Stream.length, Stream.length, hread, List.length_append] at hlen
    omega
  rw [kind_eq_nextKind, hread, List.nil_append, ← kind_eq_nextKind]
  exact hclose

/-- The tokens of a malformed statement are read to their end. -/
theorem upto_synchronize {start : Stream} {s : Stream} {room : Nat}
    (henclosed : Enclosed start.rest) (hs : Upto start.rest room True s)
    (hk : start.kind ≠ .symbol .rightBrace) :
    Upto start.rest start.length True (s.synchronize start.length) := by
  rw [synchronize_eq hs hk]
  obtain ⟨read', hread', hlevel', hnil⟩ := skips_skipMalformed (hs.enclosed henclosed).closes
  have hrest : Upto s.rest (s.length + 1) True { s with rest := skipMalformed 0 s.rest } := by
    refine ⟨?_, read', 0, hread', hlevel', .inl rfl⟩
    have hlen := congrArg List.length hread'
    rw [List.length_append] at hlen
    simp only [Stream.length]
    omega
  obtain ⟨-, hall⟩ := (hs.trans hrest).imp (Nat.le_refl _) fun _ => trivial
  refine ⟨?_, hall⟩
  obtain ⟨-, read, level, hread, -, -⟩ := hs
  have hlen := congrArg List.length hread
  have hlen' := congrArg List.length hread'
  rw [List.length_append] at hlen hlen'
  simp only [Stream.length]
  -- Where nothing has been read, the search starts at the statement's first token, which is no
  -- closing brace, and so skips it.
  by_cases hread0 : read = []
  · have hne : read' ≠ [] := fun h => hk <| by
      rw [kind_eq_nextKind, hread, hread0]
      exact hnil h
    have hpos := List.length_pos_iff.2 hne
    omega
  · have hpos := List.length_pos_iff.2 hread0
    omega

/-- **A statement with recovery never fails.** -/
theorem recovers_recovered {lineText : Nat → String} {p : Parser (List Stmt)}
    (h : ∀ s : Stream, Enclosed s.rest → Keeps s.rest s.length s p) :
    Recovers (recovered lineText p) := by
  intro s hs hk
  have hp := h s hs
  rw [Keeps, Ends] at hp
  rw [recovered_apply]
  cases hps : p s with
  | ok stmts s' =>
    rw [hps] at hp
    cases stmts with
    | nil => exact ⟨[], s', rfl, hp⟩
    | cons stmt stmts =>
      refine ⟨_, s', rfl, hp.imp (Nat.le_refl _) fun hex => ?_⟩
      rw [Stmt.allUnderstood, hex, Bool.and_false]
  | error e s' =>
    rw [hps] at hp
    obtain ⟨room, hroom⟩ := hp
    exact ⟨_, _, rfl, (upto_synchronize hs hroom hk).imp (Nat.le_refl _) fun _ => rfl⟩

/-- Statements are read up to a closing brace.  The fuel is not used up, because every statement
takes a token. -/
theorem statementItems_spec {member : Parser (List Stmt)} (hm : Recovers member) :
    ∀ (fuel : Nat) (s : Stream), Enclosed s.rest → s.length < fuel →
      ∃ stmts s', statementItems member fuel s = .ok stmts s' ∧ s'.kind = .symbol .rightBrace ∧
        Upto s.rest (s.length + 1) (Stmt.allUnderstood stmts = false) s'
  | 0, _, _, hlt => absurd hlt (Nat.not_lt_zero _)
  | fuel + 1, s, hs, hlt => by
    have heq : statementItems member (fuel + 1) s
        = (if (s.rest.isEmpty || s.kind.isSymbol .rightBrace) = true then pure []
            else do
              let first ← member
              return first ++ (← statementItems member fuel) : Parser (List Stmt)) s := rfl
    rw [heq, List.isEmpty_eq_false_iff.2 hs.ne_nil, Bool.false_or]
    by_cases hclose : s.kind.isSymbol .rightBrace = true
    · rw [if_pos hclose]
      exact ⟨[], s, rfl, TokenKind.isSymbol_iff.1 hclose,
        (upto_start s).imp (Nat.le_refl _) False.elim⟩
    · rw [if_neg hclose]
      obtain ⟨first, s₁, hfirst, h₁⟩ := hm s hs fun hk => hclose (TokenKind.isSymbol_iff.2 hk)
      have hlen : s₁.length < s.length := h₁.1
      obtain ⟨others, s₂, hothers, hk₂, h₂⟩ :=
        statementItems_spec hm fuel s₁ (h₁.enclosed hs) (by omega)
      refine ⟨first ++ others, s₂, ?_, hk₂, (h₁.trans h₂).imp (by omega) fun hex => ?_⟩
      · rw [bind_of_ok hfirst, bind_of_ok hothers]
        rfl
      · rw [Stmt.allUnderstood_append, Bool.and_eq_false_iff]
        exact hex

theorem statements_spec {member : Parser (List Stmt)} (hm : Recovers member)
    (hs : Enclosed s.rest) :
    ∃ stmts s', statements member s = .ok stmts s' ∧ s'.kind = .symbol .rightBrace ∧
      Upto s.rest (s.length + 1) (Stmt.allUnderstood stmts = false) s' :=
  statementItems_spec hm (s.length + 1) s hs (Nat.lt_succ_self _)

theorem climb_openBrace {t : Token} (ht : t.kind = .symbol .leftBrace) (level : Nat) :
    brace.climb level [t] = some (level + 1) := by
  rw [climb, ht]
  rfl

theorem climb_closeBrace {t : Token} (ht : t.kind = .symbol .rightBrace) (level : Nat) :
    brace.climb (level + 1) [t] = some level := by
  rw [climb, ht]
  rfl

/-- A block has been read, from its opening brace through its closing one. -/
theorem upto_block {s' : Stream} (hk : s.kind = .symbol .leftBrace)
    (h : Upto s.advance.rest (s.advance.length + 1) excused s')
    (hk' : s'.kind = .symbol .rightBrace) : Upto s.rest s.length excused s'.advance := by
  obtain ⟨t, ht, hs⟩ := exists_cons_of_kind hk
  obtain ⟨u, hu, hs'⟩ := exists_cons_of_kind hk'
  obtain ⟨-, read, level, hread, hlevel, hexcuse⟩ := h
  have hall : s.rest = [t] ++ read ++ [u] ++ s'.advance.rest := by
    rw [hs, hread, hs']
    simp
  refine ⟨?_, [t] ++ read ++ [u], level, hall, ?_, ?_⟩
  · have hlen := congrArg List.length hall
    simp only [List.length_append, List.length_singleton] at hlen
    rw [Stream.length, Stream.length]
    omega
  · have hinner := climb_add hlevel 1
    rw [Nat.zero_add] at hinner
    rw [climb_append, climb_append, climb_openBrace ht, Option.bind_some, Nat.zero_add, hinner,
      Option.bind_some, climb_closeBrace hu]
  · refine hexcuse.imp id (And.imp (fun hinit => ?_) id)
    exact initializes_append_left (initializes_append_right hinit [t]) [u]

theorem block_spec {member : Parser (List Stmt)} (hm : Recovers member) (hs : Enclosed s.rest)
    (hk : s.kind = .symbol .leftBrace) :
    ∃ stmts s', block member s.advance = .ok stmts s' ∧
      Upto s.rest s.length (Stmt.allUnderstood stmts = false) s' := by
  obtain ⟨t, ht, hst⟩ := exists_cons_of_kind hk
  have hsplit : Enclosed ([t] ++ s.advance.rest) := by
    rw [List.singleton_append, ← hst]
    exact hs
  obtain ⟨stmts, s₁, hstmts, hk₁, h₁⟩ := statements_spec hm (hsplit.after (climb_openBrace ht 0))
  refine ⟨stmts, s₁.advance, ?_, upto_block hk h₁ hk₁⟩
  rw [block, bind_of_ok hstmts, bind_of_ok (expect_of_kind hk₁)]
  rfl

/-- A body is read whole, unless it is missing. -/
theorem recovers_body {member : Parser (List Stmt)} (hm : Recovers member) :
    Recovers (body member) := by
  intro s hs hk
  have heq : body member s
      = (accept .leftBrace >>= fun brace => if brace = true then block member else member :
          Parser (List Stmt)) s := rfl
  by_cases hopen : s.kind = .symbol .leftBrace
  · obtain ⟨stmts, s', hblock, hupto⟩ := block_spec hm hs hopen
    refine ⟨stmts, s', ?_, hupto⟩
    rw [heq, bind_of_ok (accept_of_kind hopen), if_pos rfl, hblock]
  · obtain ⟨stmts, s', hmember, hupto⟩ := hm s hs hk
    refine ⟨stmts, s', ?_, hupto⟩
    rw [heq, bind_of_ok (accept_of_kind_ne hopen), if_neg Bool.false_ne_true, hmember]

theorem ends_body {member : Parser (List Stmt)} (hm : Recovers member) (hroot : Enclosed root)
    (h : Upto root room excused s) (hk : s.kind ≠ .symbol .rightBrace) :
    Ends s (fun stmts => Upto root room (excused ∨ Stmt.allUnderstood stmts = false))
      (Within root) (body member) := by
  obtain ⟨stmts, s', heq, hupto⟩ := recovers_body hm s (h.enclosed hroot) hk
  rw [Ends, heq]
  exact (h.trans hupto).imp (Nat.le_of_lt h.1) id

end Parser

end Stepwise
