import Stepwise.Program.Source
import Stepwise.Proofs.Program.Recovery

/-!
# Every statement is a step forward

A parser leaves part of its stream unread, whether it succeeds or fails.  Reading statements one
after another comes to an end because each of them takes at least one token, and that is not obvious
of a statement that could not be understood: nothing may have been read of it, and the search for
its end may stop where it starts.

* `Parser.Tail` says that a stream is what is left of some tokens, and `Parser.Trails` says where a
  parser stops.
* `Parser.trails_statement` says that a statement that is understood takes a token, and
  `Parser.Advances` that one that is not understood does so as well (`Parser.advances_recovered`).
* `Parser.BlockRun` and `Parser.TopRun` are the two loops over statements without a bound on their
  turns.  `Parser.blockRun_statements` and `Parser.topRun_topLevels` say that these always end, and
  that the bound which `statements` and `topLevels` have is never reached.
-/

set_option autoImplicit false

namespace Stepwise

namespace Parser

variable {α : Type} {root : List Token} {room : Nat} {s : Stream}

/-! ## What is left -/

/-- The stream is what is left of `root`, with fewer than `room` tokens. -/
def Tail (root : List Token) (room : Nat) (s : Stream) : Prop :=
  s.length < room ∧ s.rest <:+ root

/-- Where a parser stops: at what is left of `root`, and if it succeeds with fewer than `room`
tokens. -/
abbrev Trails (root : List Token) (s : Stream) (room : Nat) (p : Parser α) : Prop :=
  Ends s (fun _ => Tail root room) (fun s' => s'.rest <:+ root) p

theorem tail_start (s : Stream) : Tail s.rest (s.length + 1) s :=
  ⟨Nat.lt_succ_self _, List.suffix_rfl⟩

/-- Some more tokens have been read. -/
theorem Tail.of_suffix (h : Tail root room s) {s' : Stream} (hs : s'.rest <:+ s.rest) :
    Tail root room s' :=
  ⟨Nat.lt_of_le_of_lt hs.length_le h.1, hs.trans h.2⟩

theorem Tail.advance (h : Tail root room s) : Tail root room s.advance :=
  h.of_suffix (List.tail_suffix s.rest)

/-- A token has been read. -/
theorem Tail.next (h : Tail root (room + 1) s) (hk : s.kind ≠ .eof) : Tail root room s.advance := by
  obtain ⟨t, -, hs⟩ := exists_cons hk
  refine ⟨?_, h.advance.2⟩
  have hlen : s.length = s.advance.length + 1 := congrArg List.length hs
  have hroom := h.1
  omega

theorem Tail.symbol (h : Tail root (room + 1) s) {c : Symbol} (hk : s.kind = .symbol c) :
    Tail root room s.advance :=
  h.next (by rw [hk]; nofun)

theorem Tail.skipWhile (h : Tail root room s) (p : TokenKind → Bool) :
    Tail root room { s with rest := s.rest.dropWhile fun t => p t.kind } :=
  h.of_suffix (List.dropWhile_suffix _)

theorem At.suffix {b i : Nat} (h : At root room b i s) : s.rest <:+ root := by
  obtain ⟨-, read, hread, -⟩ := h
  exact ⟨read, hread.symm⟩

/-- Parsers that are known by the brackets they read. -/
theorem Steady.trails {p : Parser α} (hp : Steady p) (h : Tail root room s) :
    Trails root s room p :=
  (hp (at_start s)).imp (fun _ _ hs => h.of_suffix hs.suffix)
    fun _ ⟨_, _, _, hs⟩ => hs.suffix.trans h.2

/-- Parsers for simple statements, which end with a semicolon. -/
theorem Tail.leaf {p : Parser α} {b i : Nat} (h : Tail root (room + 1) s)
    (hp : Lands s.rest s s.length b i p) : Trails root s room p := by
  refine hp.imp (fun _ s' hs => ⟨?_, hs.suffix.trans h.2⟩)
    fun _ ⟨_, _, _, hs⟩ => hs.suffix.trans h.2
  have hroom := h.1
  have hlen := hs.1
  omega

/-! ## Simple statements -/

theorem trails_scalarDeclaration (depth : Nat) (h : Tail root (room + 1) s) :
    Trails root s room (scalarDeclaration (level depth)) :=
  h.leaf (lands_scalarDeclaration depth (at_start s))

theorem trails_expressionStatement (depth : Nat) (h : Tail root (room + 1) s) :
    Trails root s room (expressionStatement (level depth)) :=
  h.leaf (lands_expressionStatement depth (at_start s))

theorem trails_returnStatement (depth : Nat) (h : Tail root (room + 1) s) :
    Trails root s room (returnStatement (level depth)) :=
  h.leaf (lands_returnStatement depth (at_start s))

theorem trails_jumpStatement (jump : Jump) (h : Tail root (room + 1) s) :
    Trails root s room (jumpStatement jump) :=
  h.leaf (lands_jumpStatement jump (at_start s))

theorem trails_skipStatement (h : Tail root (room + 1) s) (hk : s.kind ≠ .eof) :
    Trails root s room (skipStatement >>= fun _ => (pure [] : Parser (List Stmt))) := by
  have hsplit := throughSemicolon_append s.rest
  have hne : throughSemicolon s.rest ≠ [] := throughSemicolon_ne_nil fun hnil => hk <| by
    rw [Stream.kind, hnil]
  have hlen := congrArg List.length hsplit
  have hpos := List.length_pos_iff.2 hne
  have hroom := h.1
  rw [List.length_append] at hlen
  rw [Stream.length] at hroom
  refine ⟨?_, (List.IsSuffix.trans ⟨_, hsplit⟩ h.2)⟩
  simp only [Stream.length]
  omega

theorem trails_templateArguments (h : Tail root room s) : Trails root s room templateArguments := by
  rw [templateArguments]
  refine ends_get ?_
  split
  · rename_i rest hless hend
    exact h.of_suffix (templateEnd?_suffix hend)
  · exact ends_failHere h.2 _

theorem trails_containerDeclaration (kind : SequenceKind) (h : Tail root (room + 1) s)
    (hk : s.kind ≠ .eof) : Trails root s room (containerDeclaration kind) := by
  refine ends_advance ((trails_templateArguments (h.next hk)).bind fun _ s₁ h₁ => ?_)
  refine ((steady_commaList (steady_containerDeclarator kind)).trails h₁).bind fun stmts s₂ h₂ => ?_
  exact ends_expect h₂.2 fun _ => ends_pure h₂.advance

theorem trails_namedStatement (depth : Nat) {name : String} (h : Tail root (room + 1) s)
    (hk : s.kind ≠ .eof) : Trails root s room (namedStatement (level depth) name) := by
  rw [namedStatement]
  refine ends_get ?_
  extract_lets next declares
  split
  · exact trails_skipStatement h hk
  · split
    · split
      · exact trails_containerDeclaration _ h hk
      · split
        · exact ends_failHere h.2 _
        · exact trails_expressionStatement depth h
    · exact trails_expressionStatement depth h

/-! ## Statements with bodies -/

/-- The parser never fails, and takes a token if there is one. -/
def Advances (member : Parser (List Stmt)) : Prop :=
  ∀ s : Stream, ∃ stmts s', member s = .ok stmts s' ∧ s'.rest <:+ s.rest ∧
    (s.rest ≠ [] → s'.length < s.length)

theorem suffix_skipMalformed (depth : Nat) (ts : List Token) : skipMalformed depth ts <:+ ts := by
  fun_induction skipMalformed depth ts with
  | case1 depth => exact List.suffix_rfl
  | case2 t ts hk => exact List.suffix_cons t ts
  | case3 depth t ts hk hdepth ih => exact ih.trans (List.suffix_cons t ts)
  | case4 depth t ts hk ih => exact ih.trans (List.suffix_cons t ts)
  | case5 t ts hk => exact List.suffix_rfl
  | case6 t ts hk => exact List.suffix_cons t ts
  | case7 t ts hk deeper ih => exact ih.trans (List.suffix_cons t ts)
  | case8 depth t ts hsemi hopen hclose ih => exact ih.trans (List.suffix_cons t ts)

/-- The search for the end of a statement does not stop where it starts, except at a closing
brace. -/
theorem length_skipMalformed_lt {ts : List Token} (hne : ts ≠ [])
    (hk : nextKind ts ≠ .symbol .rightBrace) : (skipMalformed 0 ts).length < ts.length := by
  cases ts with
  | nil => exact absurd rfl hne
  | cons t ts =>
    have hlater : ∀ depth, (skipMalformed depth ts).length < (t :: ts).length := fun depth =>
      Nat.lt_succ_of_le (suffix_skipMalformed depth ts).length_le
    rw [skipMalformed.eq_def]
    simp only
    split
    · exact Nat.lt_succ_self _
    · exact hlater 1
    · rename_i hclose
      exact absurd hclose hk
    · exact hlater 0

/-- Recovery leaves fewer tokens than there were before the statement, however many of them had been
read when it failed. -/
theorem synchronize_spec {start : Stream} (hs : s.rest <:+ start.rest) :
    (s.synchronize start.length).rest <:+ start.rest ∧
      (start.rest ≠ [] → (s.synchronize start.length).length < start.length) := by
  rw [Stream.synchronize]
  split
  · refine ⟨(List.tail_suffix _).trans hs, fun hne => ?_⟩
    have hpos := List.length_pos_iff.2 hne
    have hle : s.length ≤ start.length := hs.length_le
    rw [length_advance]
    simp only [Stream.length] at hle ⊢
    omega
  · rename_i hstop
    have hskip := suffix_skipMalformed 0 s.rest
    refine ⟨hskip.trans hs, fun hne => ?_⟩
    have hle : s.length ≤ start.length := hs.length_le
    by_cases hread : s.length = start.length
    · -- Nothing has been read, so the first token is not a closing brace.
      have hsame : s.rest = start.rest := hs.eq_of_length hread
      have hk : nextKind s.rest ≠ .symbol .rightBrace := by
        intro hk
        rw [← kind_eq_nextKind] at hk
        simp [hread, hk, TokenKind.isSymbol] at hstop
      have hlt := length_skipMalformed_lt (by rwa [hsame]) hk
      exact Nat.lt_of_lt_of_le hlt hs.length_le
    · exact Nat.lt_of_le_of_lt hskip.length_le (Nat.lt_of_le_of_ne hle hread)

/-- **A statement takes a token, whether it is understood or not.** -/
theorem advances_recovered {lineText : Nat → String} {p : Parser (List Stmt)}
    (h : ∀ s : Stream, Trails s.rest s s.length p) : Advances (recovered lineText p) := by
  intro s
  have hp := h s
  rw [Trails, Ends] at hp
  rw [recovered_apply]
  cases hps : p s with
  | ok stmts s' =>
    rw [hps] at hp
    cases stmts with
    | nil => exact ⟨[], s', rfl, hp.2, fun _ => hp.1⟩
    | cons stmt stmts => exact ⟨_, s', rfl, hp.2, fun _ => hp.1⟩
  | error e s' =>
    rw [hps] at hp
    exact ⟨_, _, rfl, synchronize_spec hp⟩

/-- The loop over the statements of a block: from the first stream the statements are read one after
another, each of which takes a token, until there is a closing brace or nothing left. -/
inductive BlockRun (member : Parser (List Stmt)) : Stream → List Stmt → Stream → Prop
  | stop {s : Stream} (h : s.rest = [] ∨ s.kind = .symbol .rightBrace) : BlockRun member s [] s
  | step {s s' t : Stream} {first others : List Stmt} (hne : s.rest ≠ [])
    (hk : s.kind ≠ .symbol .rightBrace) (h : member s = .ok first s') (hs : s'.rest <:+ s.rest)
    (hlt : s'.length < s.length) (hrun : BlockRun member s' others t) :
    BlockRun member s (first ++ others) t

theorem BlockRun.suffix {member : Parser (List Stmt)} {stmts : List Stmt} {t : Stream}
    (h : BlockRun member s stmts t) : t.rest <:+ s.rest := by
  induction h with
  | stop => exact List.suffix_rfl
  | step _ _ _ hs _ _ ih => exact ih.trans hs

theorem blockRun_statementItems {member : Parser (List Stmt)} (hm : Advances member) :
    ∀ (fuel : Nat) (s : Stream), s.length < fuel →
      ∃ stmts t, statementItems member fuel s = .ok stmts t ∧ BlockRun member s stmts t
  | 0, _, hlt => absurd hlt (Nat.not_lt_zero _)
  | fuel + 1, s, hlt => by
    have heq : statementItems member (fuel + 1) s
        = (if (s.rest.isEmpty || s.kind.isSymbol .rightBrace) = true then pure []
            else do
              let first ← member
              return first ++ (← statementItems member fuel) : Parser (List Stmt)) s := rfl
    rw [heq]
    by_cases hstop : (s.rest.isEmpty || s.kind.isSymbol .rightBrace) = true
    · rw [if_pos hstop]
      rw [Bool.or_eq_true, List.isEmpty_iff, TokenKind.isSymbol_iff] at hstop
      exact ⟨[], s, rfl, .stop hstop⟩
    · rw [if_neg hstop]
      rw [Bool.or_eq_true, List.isEmpty_iff, TokenKind.isSymbol_iff, not_or] at hstop
      obtain ⟨first, s₁, hfirst, hs, hshort⟩ := hm s
      have hlt₁ := hshort hstop.1
      obtain ⟨others, t, hothers, hrun⟩ := blockRun_statementItems hm fuel s₁ (by omega)
      refine ⟨first ++ others, t, ?_, .step hstop.1 hstop.2 hfirst hs hlt₁ hrun⟩
      rw [bind_of_ok hfirst, bind_of_ok hothers]
      rfl

/-- **A block is read to its end.** -/
theorem blockRun_statements {member : Parser (List Stmt)} (hm : Advances member) (s : Stream) :
    ∃ stmts t, statements member s = .ok stmts t ∧ BlockRun member s stmts t :=
  blockRun_statementItems hm (s.length + 1) s (Nat.lt_succ_self _)

section Bodies

variable {member : Parser (List Stmt)} (hm : Advances member)

include hm

theorem trails_member (h : Tail root room s) : Trails root s room member := by
  obtain ⟨stmts, s', heq, hs, -⟩ := hm s
  rw [Trails, Ends, heq]
  exact h.of_suffix hs

theorem trails_statements (h : Tail root room s) : Trails root s room (statements member) := by
  obtain ⟨stmts, s', heq, hrun⟩ := blockRun_statements hm s
  rw [Trails, Ends, heq]
  exact h.of_suffix hrun.suffix

theorem trails_block (h : Tail root room s) : Trails root s room (block member) :=
  (trails_statements hm h).bind fun _ _ hs => ends_expect hs.2 fun _ => ends_pure hs.advance

theorem trails_body (h : Tail root room s) : Trails root s room (body member) :=
  ends_ifAccept (fun _ => trails_block hm h.advance) (trails_member hm h)

omit hm in
theorem trails_condition (depth : Nat) (keyword : String) (h : Tail root room s) :
    Trails root s room (condition (level depth) keyword) := by
  refine ends_expect h.2 fun _ => ?_
  refine ((steadyInner depth).expression.trails h.advance).bind fun e s' hs => ?_
  exact ends_expect hs.2 fun _ => ends_pure hs.advance

theorem trails_ifStatement (depth : Nat) (h : Tail root room s) :
    Trails root s room (ifStatement (level depth) member) := by
  refine (trails_condition depth _ h).bind fun test s₁ h₁ => ?_
  refine (trails_body hm h₁).bind fun thenBody s₂ h₂ => ends_ifAccept (fun _ => ?_) (ends_pure h₂)
  exact (trails_body hm h₂.advance).bind fun elseBody s₃ h₃ => ends_pure h₃

theorem trails_whileStatement (depth : Nat) (h : Tail root room s) :
    Trails root s room (whileStatement (level depth) member) := by
  refine (trails_condition depth _ h).bind fun test s₁ h₁ => ?_
  exact (trails_body hm h₁).bind fun stmts s₂ h₂ => ends_pure h₂

theorem trails_doStatement (depth : Nat) (h : Tail root room s) :
    Trails root s room (doStatement (level depth) member) := by
  refine (trails_body hm h).bind fun stmts s₁ h₁ => ends_expect h₁.2 fun _ => ?_
  refine (trails_condition depth _ h₁.advance).bind fun test s₂ h₂ => ?_
  exact ends_expect h₂.2 fun _ => ends_pure h₂.advance

theorem trails_forStatement (depth : Nat) (h : Tail root room s) :
    Trails root s room (forStatement (level depth) member) := by
  rw [forStatement]
  refine ends_expect h.2 fun _ => ?_
  refine ((steady_forInit depth).trails h.advance).bind fun init s₁ h₁ => ?_
  refine ends_checked fun untested => ?_
  extract_lets rest
  have hrest : ∀ test s', Tail root room s' → Trails root s' room (rest test) := by
    intro test s' h'
    refine ends_expect h'.2 fun _ => ends_checked fun unstepped => ?_
    extract_lets loop
    have hloop : ∀ increment s'', Tail root room s'' → Trails root s'' room (loop increment) := by
      intro increment s'' h''
      refine ends_expect h''.2 fun _ => ?_
      exact (trails_body hm h''.advance).bind fun stmts _ hs => ends_pure hs
    split
    · exact hloop [] _ h'.advance
    · exact ((steady_commaList (steadyInner depth).expression).trails h'.advance).bind hloop
  split
  · exact hrest none _ h₁
  · exact ((steadyInner depth).expression.trails h₁).bind fun e s' h' => hrest (some e) s' h'

theorem trails_statementBy {depth : Nat} {nested : Parser (List Stmt)}
    (hn : ∀ {s : Stream} {room : Nat}, Tail root (room + 1) s → Trails root s room nested)
    (h : Tail root (room + 1) s) :
    Trails root s room (statementBy (level depth) nested member) := by
  rw [statementBy]
  refine ends_peek ?_
  split
  · rename_i hk
    exact ends_advance (ends_pure (h.symbol hk))
  · rename_i hk
    exact ends_advance ((trails_block hm (h.symbol hk)).bind fun stmts s' hs => ends_pure hs)
  · rename_i hk
    exact ends_advance (trails_ifStatement hm depth (h.symbol hk))
  · rename_i hk
    exact ends_advance (trails_whileStatement hm depth (h.symbol hk))
  · rename_i hk
    exact ends_advance (trails_doStatement hm depth (h.symbol hk))
  · rename_i hk
    exact ends_advance (trails_forStatement hm depth (h.symbol hk))
  · exact ends_advance (trails_returnStatement depth h.advance)
  · exact ends_advance (trails_jumpStatement .break h.advance)
  · exact ends_advance (trails_jumpStatement .continue h.advance)
  · rename_i hk
    exact trails_skipStatement h (by rw [hk]; rintro ⟨⟩)
  · refine ends_peekAt ?_
    split
    · exact ends_advance (hn h.advance)
    · exact trails_scalarDeclaration depth h
  · exact trails_scalarDeclaration depth h
  · rename_i name hk
    exact trails_namedStatement depth h (by rw [hk]; rintro ⟨⟩)
  · exact trails_expressionStatement depth h

end Bodies

/-- A statement that is understood takes a token. -/
theorem trails_statement (lineText : Nat → String) :
    ∀ (depth : Nat) {root : List Token} {room : Nat} {s : Stream}, Tail root (room + 1) s →
      Trails root s room (statement lineText depth)
  | 0, _, _, _, h => ends_failHere h.2 _
  | depth + 1, _, _, _, h =>
    trails_statementBy
      (advances_recovered fun s => trails_statement lineText depth (tail_start s))
      (trails_statement lineText depth) h

theorem advances_statement (lineText : Nat → String) (depth : Nat) :
    Advances (recovered lineText (statement lineText depth)) :=
  advances_recovered fun s => trails_statement lineText depth (tail_start s)

/-! ## The top level -/

theorem trails_skipWhile {f : Unit → Parser α} {room' : Nat} (h : Tail root room s)
    (p : TokenKind → Bool) (hf : ∀ s', Tail root room s' → Trails root s' room' (f ())) :
    Trails root s room' (skipWhile p >>= f) :=
  hf _ (h.skipWhile p)

theorem trails_returnType (h : Tail root room s) : Trails root s room returnType := by
  rw [returnType]
  refine trails_skipWhile h _ fun s₁ h₁ => ends_peek ?_
  extract_lets rest
  have hrest : ∀ s', Tail root room s' → Trails root s' room (rest ()) := fun s' h' =>
    h'.skipWhile _
  split
  · exact trails_skipWhile h₁ _ hrest
  · refine ends_identifier h₁.2 fun name hk => ends_ifCheck (fun _ => ?_) (hrest _ h₁.advance)
    exact (trails_templateArguments h₁.advance).bind fun _ => hrest

theorem trails_parameterTokens :
    ∀ (fuel : Nat) (p : Param) {s : Stream}, Tail root room s →
      Trails root s room (parameterTokens fuel p)
  | 0, _, _, h => ends_failHere h.2 _
  | fuel + 1, p, s, h => by
    rw [parameterTokens]
    refine ends_peek ?_
    split
    · exact ends_pure h
    · split
      · exact ends_failHere h.2 _
      · exact ends_advance (trails_parameterTokens fuel _ h.advance)

theorem trails_parameterList :
    ∀ (fuel : Nat) (isFirst : Bool) {s : Stream}, Tail root room s →
      Trails root s room (parameterList fuel isFirst)
  | 0, _, _, h => ends_failHere h.2 _
  | fuel + 1, isFirst, s, h => by
    rw [parameterList]
    refine ends_get ((trails_parameterTokens _ _ h).bind fun p s₁ h₁ => ?_)
    refine ends_checked fun isLast => ?_
    extract_lets names
    split
    · exact ends_advance (ends_pure h₁.advance)
    · refine ends_expect h₁.2 fun _ => ?_
      exact (trails_parameterList fuel false h₁.advance).bind fun others s₂ h₂ => ends_pure h₂

theorem trails_parameters (h : Tail root room s) : Trails root s room parameters :=
  ends_ifAccept (fun _ => ends_pure h.advance) (ends_get (trails_parameterList _ _ h))

theorem trails_namedParams (name : String) (location : Location) :
    ∀ (params : List (Option String)) {s : Stream}, Tail root room s →
      Trails root s room (namedParams name location params)
  | [], _, h => ends_pure h
  | some _ :: params, _, h =>
    (trails_namedParams name location params h).bind fun _ _ hs => ends_pure hs
  | none :: _, _, h => h.2

/-- A function takes a token. -/
theorem trails_functionDefinition {member : Parser (List Stmt)} (hm : Advances member)
    (h : Tail root (room + 1) s) : Trails root s room (functionDefinition member) := by
  rw [functionDefinition]
  refine ends_get ?_
  extract_lets location
  refine (trails_returnType h).bind fun _ s₁ h₁ => ends_identifier h₁.2 fun name hk => ?_
  have hname := h₁.next (by rw [hk]; nofun)
  refine ends_expect hname.2 fun _ => (trails_parameters hname.advance).bind fun params s₂ h₂ => ?_
  refine ends_ifAccept (fun _ => ends_pure h₂.advance) ?_
  refine (trails_namedParams name location params h₂).bind fun names s₃ h₃ => ?_
  refine ends_expect h₃.2 fun _ => (trails_statements hm h₃.advance).bind fun stmts s₄ h₄ => ?_
  exact ends_expect h₄.2 fun _ => ends_pure h₄.advance

/-- **Each piece of the top level takes a token.** -/
theorem topLevel_spec {member : Parser (List Stmt)} (hm : Advances member)
    (lineText : Nat → String) (p : Program) (hne : s.rest ≠ []) :
    (topLevel lineText member p s).2.rest <:+ s.rest ∧
      (topLevel lineText member p s).2.length < s.length := by
  have hpos := List.length_pos_iff.2 hne
  rw [topLevel]
  split
  · refine ⟨List.tail_suffix _, ?_⟩
    rw [length_advance]
    simp only [Stream.length]
    omega
  · split
    · have hf := trails_functionDefinition hm (tail_start s)
      rw [Trails, Ends] at hf
      split <;> rename_i heq <;> rw [heq] at hf
      · exact ⟨hf.2, hf.1⟩
      · exact ⟨hf.2, hf.1⟩
      · obtain ⟨hs, hlt⟩ := synchronize_spec hf
        exact ⟨hs, hlt hne⟩
    · obtain ⟨stmts, s', heq, hs, hlt⟩ := hm s
      rw [heq]
      exact ⟨hs, hlt hne⟩

/-- The loop over the top level: from the first stream and program its pieces are read one after
another, each of which takes a token, until nothing is left. -/
inductive TopRun (lineText : Nat → String) (member : Parser (List Stmt)) :
    Program → Stream → Program → Stream → Prop
  | stop {p : Program} {s : Stream} (h : s.rest = []) : TopRun lineText member p s p s
  | step {p p' q : Program} {s s' t : Stream} (hne : s.rest ≠ [])
    (h : topLevel lineText member p s = (p', s')) (hs : s'.rest <:+ s.rest)
    (hlt : s'.length < s.length) (hrun : TopRun lineText member p' s' q t) :
    TopRun lineText member p s q t

/-- **The top level is read to the end of the text.** -/
theorem topRun_topLevels {member : Parser (List Stmt)} (hm : Advances member)
    (lineText : Nat → String) :
    ∀ (fuel : Nat) (p : Program) (s : Stream), s.length < fuel →
      ∃ t, t.rest = [] ∧ TopRun lineText member p s (topLevels lineText member fuel p s) t
  | 0, _, _, hlt => absurd hlt (Nat.not_lt_zero _)
  | fuel + 1, p, s, hlt => by
    by_cases hnil : s.rest = []
    · refine ⟨s, hnil, ?_⟩
      rw [topLevels, hnil, if_pos List.isEmpty_nil]
      exact .stop hnil
    · obtain ⟨hs, hlt'⟩ := topLevel_spec hm lineText p hnil
      obtain ⟨t, hend, hrun⟩ := topRun_topLevels hm lineText fuel
        (topLevel lineText member p s).1 (topLevel lineText member p s).2 (by omega)
      refine ⟨t, hend, ?_⟩
      rw [topLevels, List.isEmpty_eq_false_iff.2 hnil]
      exact .step hnil rfl hs hlt' hrun

end Parser

end Stepwise
