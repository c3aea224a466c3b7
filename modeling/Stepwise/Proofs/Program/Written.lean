import Stepwise.Proofs.Program.Positions
import Stepwise.Proofs.Program.Reads
import Stepwise.Proofs.Token.Spelling

/-!
# Reading lines that were written

The stream of a text that was written by `Token.spellLines` has the tokens of its lines one after
another, and the first token of a line stands at its beginning.

* `Stream.Lays s n lines s'` says that the tokens of these lines are next in `s`, the first of them
  being line `n` of the text, and that `s'` is what follows them.
* `Program.ofSource_spellLines` is the program of such a text, by its stream.
-/

set_option autoImplicit false

namespace Stepwise

namespace Stream

/-- The tokens of lines are next in a stream, of which the first has the given number, and the last
argument is what follows them. -/
def Lays (s : Stream) (number : Nat) (lines : List (List TokenKind)) (s' : Stream) : Prop :=
  s.rest = Token.placeLines number lines ++ s'.rest ∧ s.finish = s'.finish

variable {s s' : Stream} {number : Nat}

theorem ahead_placeLine (ks : List TokenKind) :
    ∀ (l : Location) (rest : List Token) (finish : Location),
      Ahead ⟨Token.placeLine l ks ++ rest, finish⟩ ks ⟨rest, finish⟩ := by
  induction ks with
  | nil => exact fun _ _ _ => rfl
  | cons k ks ih => exact fun l rest finish => ⟨nofun, rfl, ih _ rest finish⟩

theorem lays_nil : s.Lays number [] s' ↔ s = s' := by
  obtain ⟨rest, finish⟩ := s
  obtain ⟨rest', finish'⟩ := s'
  simp [Lays, Token.placeLines]

theorem placeLines_append (number : Nat) (lines lines' : List (List TokenKind)) :
    Token.placeLines number (lines ++ lines')
      = Token.placeLines number lines ++ Token.placeLines (number + lines.length) lines' := by
  induction lines generalizing number with
  | nil => rfl
  | cons ks lines ih =>
    rw [List.cons_append, Token.placeLines, Token.placeLines, ih, List.append_assoc,
      List.length_cons, Nat.add_assoc, Nat.add_comm 1]

theorem Lays.append {lines lines' : List (List TokenKind)}
    (h : s.Lays number (lines ++ lines') s') :
    ∃ s₁, s.Lays number lines s₁ ∧ s₁.Lays (number + lines.length) lines' s' := by
  obtain ⟨hrest, hfinish⟩ := h
  rw [placeLines_append, List.append_assoc] at hrest
  exact ⟨⟨_, s.finish⟩, ⟨hrest, rfl⟩, rfl, hfinish⟩

/-- A line is next, and its first token is at its beginning. -/
theorem Lays.cons {ks : List TokenKind} {lines : List (List TokenKind)}
    (h : s.Lays number (ks :: lines) s') :
    ∃ s₁, s.Ahead ks s₁ ∧ s₁.Lays (number + 1) lines s' ∧ (ks ≠ [] → s.location = ⟨number, 1⟩) := by
  obtain ⟨rest, finish⟩ := s
  obtain ⟨hrest, hfinish⟩ := h
  simp only [Token.placeLines, List.append_assoc] at hrest
  subst hrest
  refine ⟨⟨_, finish⟩, ahead_placeLine ks _ _ _, ⟨rfl, hfinish⟩, fun hne => ?_⟩
  cases ks with
  | nil => exact absurd rfl hne
  | cons k ks => rfl

theorem Lays.singleton {ks : List TokenKind} (h : s.Lays number [ks] s') :
    s.Ahead ks s' ∧ (ks ≠ [] → s.location = ⟨number, 1⟩) := by
  obtain ⟨s₁, hs, hnil, hplace⟩ := h.cons
  obtain rfl := lays_nil.1 hnil
  exact ⟨hs, hplace⟩

end Stream

theorem Token.kind_mem_placeLine {ks : List TokenKind} {l : Location} {t : Token}
    (h : t ∈ placeLine l ks) : t.kind ∈ ks := by
  induction ks generalizing l with
  | nil => cases h
  | cons k ks ih =>
    rcases List.mem_cons.1 h with rfl | h
    · exact List.mem_cons_self
    · exact List.mem_cons_of_mem _ (ih h)

theorem Token.kind_mem_placeLines {lines : List (List TokenKind)} {number : Nat} {t : Token}
    (h : t ∈ placeLines number lines) : ∃ ks ∈ lines, t.kind ∈ ks := by
  induction lines generalizing number with
  | nil => cases h
  | cons ks lines ih =>
    rcases List.mem_append.1 h with h | h
    · exact ⟨ks, List.mem_cons_self, kind_mem_placeLine h⟩
    · obtain ⟨ks', hks', hk⟩ := ih h
      exact ⟨ks', List.mem_cons_of_mem _ hks', hk⟩

/-- The stream of written lines. -/
theorem Stream.ofTokens_placeLines {lines : List (List TokenKind)}
    (h : ∀ ks ∈ lines, ∀ k ∈ ks, k.isWritable = true) (finish : Location) :
    Stream.ofTokens (Token.placeLines 1 lines ++ [⟨.eof, finish⟩])
      = ⟨Token.placeLines 1 lines, finish⟩ := by
  refine ofTokens_append_eof (fun t ht heof => ?_) finish
  obtain ⟨ks, hks, hk⟩ := Token.kind_mem_placeLines ht
  have hwritable := h ks hks _ hk
  rw [heof] at hwritable
  cases hwritable

namespace Parser

variable {lineText : Nat → String} {member : Parser (List Stmt)} {p : Program} {s : Stream}

/-- A statement that is understood has its marker in front of it. -/
theorem recovered_of_ok {statement : Parser (List Stmt)} {stmt : Stmt} {stmts : List Stmt}
    {s' : Stream} (h : statement s = .ok (stmt :: stmts) s') :
    recovered lineText statement s = .ok (s.marker lineText :: stmt :: stmts) s' := by
  rw [recovered_apply, h]

theorem topLevels_end (h : s.rest = []) (fuel : Nat) : topLevels lineText member fuel p s = p := by
  cases fuel with
  | zero => rfl
  | succ fuel => rw [topLevels, h, if_pos List.isEmpty_nil]

theorem topLevels_step {s' : Stream} {p' : Program} (hne : s.rest ≠ [])
    (h : topLevel lineText member p s = (p', s')) (fuel : Nat) :
    topLevels lineText member (fuel + 1) p s = topLevels lineText member fuel p' s' := by
  rw [topLevels, List.isEmpty_eq_false_iff.2 hne, h]
  rfl

theorem topLevel_statement {stmts : List Stmt} {s' : Stream}
    (hbrace : s.kind.isSymbol .rightBrace = false) (hfunction : looksLikeFunction s.rest = false)
    (h : member s = .ok stmts s') :
    topLevel lineText member p s = ({ p with body := p.body ++ stmts }, s') := by
  rw [topLevel, hbrace, hfunction, h]
  rfl

theorem topLevel_function {f : Function} {s' : Stream}
    (hbrace : s.kind.isSymbol .rightBrace = false) (hfunction : looksLikeFunction s.rest = true)
    (h : functionDefinition member s = .ok (some f) s') :
    topLevel lineText member p s = (p.define f, s') := by
  rw [topLevel, hbrace, hfunction, h]
  rfl

end Parser

/-- **The program of lines that were written.** -/
theorem Program.ofSource_spellLines {lines : List (List TokenKind)}
    (h : ∀ ks ∈ lines, ∀ k ∈ ks, k.isWritable = true) {source : String}
    (hsource : source = String.ofList (Token.spellLines lines)) :
    ∃ s s' : Stream, s.Lays 1 lines s' ∧ s'.rest = [] ∧
      ofSource source = callMain (Parser.topLevels (lineText source)
        (Parser.recovered (lineText source) (Parser.statement (lineText source) maxNesting))
        (s.length + 1) {} s) := by
  refine ⟨⟨Token.placeLines 1 lines, ⟨lines.length + 1, 1⟩⟩, ⟨[], ⟨lines.length + 1, 1⟩⟩,
    ⟨(List.append_nil _).symm, rfl⟩, rfl, ?_⟩
  rw [ofSource, hsource, Token.tokenize_spellLines h, ofTokens, Stream.ofTokens_placeLines h]

end Stepwise
