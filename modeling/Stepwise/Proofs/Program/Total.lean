import Stepwise.Proofs.Program.Counter
import Stepwise.Proofs.Program.Positions

/-!
# Reading a text comes to an end

`Program.ofSource` gives every loop a number of turns, and every recursion a number of nesting
levels that may still be opened.  This file says that the first is no restriction, and that the
second comes to the same as a counter of the levels that are open.

* `Parser.Counting.Mutual.nesting` says that the counter is the same after each level that is opened
  as before, and that what is read with it is what is read with the levels that are left.
* `Program.reading_ends` says that a text is read to its end, one token or more at a time.
-/

set_option autoImplicit false

namespace Stepwise

namespace Parser

variable {α : Type}

namespace Counting

/-- A level is opened around `p` and closed again, and as far as there are levels left, what is read
is read by `inside` and `outer`. -/
structure Nests (p : Counting α) (outer inside : Nat → Parser α) : Prop where
  /-- What is read inside of the level. -/
  inside : p = ofLevels inside
  /-- What is read with the level. -/
  outer : nested p = ofLevels outer
  /-- The level is closed again. -/
  restores : Restores (nested p)

/-- The parsers that open a level, and what is built on them. -/
structure Nesting {lineText : Nat → String} (k : Mutual lineText) : Prop where
  /-- Expressions. -/
  expression : Nests (assignment k.toInner) (fun depth => (inner depth).expression)
    fun depth => assignment (inner depth)
  /-- The last part of a choice between two values. -/
  ternary : Nests (Parser.ternary k.toInner) (fun depth => (inner depth).ternary)
    fun depth => Parser.ternary (inner depth)
  /-- What an operator stands before. -/
  unary : Nests (Parser.unary k.toInner) (fun depth => (inner depth).unary)
    fun depth => Parser.unary (inner depth)
  /-- A brace initializer inside of another one. -/
  initializer : Nests k.initializers nestedInitializer initializerList
  /-- Statements. -/
  statement : Nests (statementBy k.toLevel k.statement (recovered lineText k.statement))
    (Parser.statement lineText) fun depth => statementBy (level depth)
      (Parser.statement lineText depth) (recovered lineText (Parser.statement lineText depth))
  /-- Statements of a body or of the top level. -/
  member : recovered lineText k.statement
    = ofLevels fun depth => recovered lineText (Parser.statement lineText depth)
  /-- Functions. -/
  function : functionDefinition (recovered lineText k.statement)
    = ofLevels fun depth =>
        functionDefinition (recovered lineText (Parser.statement lineText depth))

theorem nests {p : Counting α} {outer inside : Nat → Parser α} (h : Deeper outer inside)
    (hp : ∀ opened, Tracks opened p (inside (maxNesting - opened))) : Nests p outer inside := by
  have houter : nested p = ofLevels outer :=
    eq_ofLevels fun opened => h.tracks fun _ => hp (opened + 1)
  exact ⟨eq_ofLevels hp, houter, houter ▸ restores_ofLevels outer⟩

/-- **Every level that is opened is closed again,** and the counter does what the levels that are
left do. -/
theorem Mutual.nesting {lineText : Nat → String} (k : Mutual lineText) : Nesting k where
  expression := nests deeper_expression fun opened => (k.tracksInner opened).level_expression
  ternary := nests deeper_ternary fun opened => (k.tracksInner opened).level_ternary
  unary := nests deeper_unary fun opened => (k.tracksInner opened).level_unary
  initializer := nests deeper_initializer k.tracks_initializers
  statement := nests (deeper_statement lineText) fun opened =>
    (k.tracksLevel opened).statementBy (k.tracks_statement opened)
      (tracks_recovered (k.tracks_statement opened) lineText)
  member := eq_ofLevels fun opened => tracks_recovered (k.tracks_statement opened) lineText
  function := eq_ofLevels fun opened =>
    tracks_functionDefinition (tracks_recovered (k.tracks_statement opened) lineText)

end Counting

end Parser

namespace Program

open Stepwise.Parser

/-- **A text is read to its end, and each turn of the loops over statements takes a token.** -/
theorem reading_ends (source : String) :
    let tokens := Token.tokenize source
    let start := Stream.ofTokens tokens
    let text := lineText source
    let member := fun depth => recovered text (statement text depth)
    -- The tokens end with the end token, and streams stand for positions before it or at it.
    (tokens = start.rest ++ [⟨.eof, start.finish⟩] ∧ (∀ t ∈ start.rest, t.kind ≠ .eof) ∧
      ∀ s : Stream, s.rest <:+ start.rest → s.InRange tokens) ∧
    -- The loop over the top level.
    (∃ p t, TopRun text (member maxNesting) {} start p t ∧ t.rest = [] ∧
      ofSource source = callMain p) ∧
    -- The loop over the statements of a block, and what is read in its turns.
    (∀ depth s, ∃ stmts t, statements (member depth) s = .ok stmts t ∧
      BlockRun (member depth) s stmts t) ∧
    (∀ depth s, Trails s.rest s s.length (statement text depth)) ∧
    (∀ depth s, Trails s.rest s s.length (functionDefinition (member depth))) ∧
    -- The loops inside of a statement.
    (∀ depth, LoopsEnd depth) ∧
    -- The levels that are open, as a counter.
    (∃ k : Counting.Mutual text, (∀ l, l = k) ∧ Counting.Nesting k) := by
  intro tokens start text member
  obtain ⟨htokens, hkinds⟩ := Token.tokenize_eq source
  have hmember : ∀ depth, Advances (member depth) := advances_statement text
  obtain ⟨t, hend, hrun⟩ :=
    topRun_topLevels (hmember maxNesting) text (start.length + 1) {} start (Nat.lt_succ_self _)
  refine ⟨⟨htokens, hkinds, fun s hs => Stream.inRange htokens hs⟩, ⟨_, t, hrun, hend, rfl⟩,
    fun depth s => blockRun_statements (hmember depth) s, fun depth s => ?_, fun depth s => ?_,
    loopsEnd, Counting.Mutual.byLevels text, fun l => l.eq_byLevels, Counting.Mutual.nesting _⟩
  · exact trails_statement text depth (tail_start s)
  · exact trails_functionDefinition (hmember depth) (tail_start s)

end Program

end Stepwise
