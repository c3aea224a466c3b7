import Stepwise.Proofs.Program.Markers
import Stepwise.Proofs.Program.Positions
import Stepwise.Proofs.Program.Progress
import Stepwise.Proofs.Token.Places

/-!
# Where statements start

A statement that has been read stands right behind the marker of the line on which it starts.

* `Program.ReadAt` says at which token of the source text a statement starts and that this is what
  it is read as.
* `Program.starts` are the statements of a program that stand behind a marker, each with that
  marker.
* `Stmt.allPlaced` says of statements that are executed one after another that the first of them
  marks a line, that each marker has a statement or an error behind it, and that loops stand right
  behind a marker of their own.
* `Parser.isWord_of_statement`: a statement starts with a word.  An error may also stand at the end
  of the text or at characters that form no word, but then there is no statement.
* `Program.allStand_ofSource`: in what is read from a source text each marker cites the line of the
  token at which the statement behind it starts, and `Program.ReadAt.exists_line`: that is a line of
  the text which is not blank.
-/

set_option autoImplicit false

namespace Stepwise

/-! ## Statements behind markers -/

/-- Whether a statement does something other than to mark a line or to report an error. -/
def Stmt.acts : Stmt → Bool
  | .line _ | .malformed _ => false
  | _ => true

/-- Whether a statement does something itself and has no other statements in it. -/
def Stmt.isSimple : Stmt → Bool
  | .declare _ _ => true
  | .construct _ _ => true
  | .array _ _ _ => true
  | .expr _ => true
  | .ret _ => true
  | .jump _ => true
  | _ => false

/-- The statement right behind a marker, with that marker. -/
def Stmt.markedStart : Stmt → List Stmt → List (SourceLine × Stmt)
  | .line l, stmt :: _ => if stmt.acts then [(l, stmt)] else []
  | _, _ => []

mutual

/-- The statements within a statement that stand behind a marker, each with that marker. -/
def Stmt.starts : Stmt → List (SourceLine × Stmt)
  | .branch _ thenBody => Stmt.allStarts thenBody
  | .branchElse _ thenBody elseBody => Stmt.allStarts thenBody ++ Stmt.allStarts elseBody
  | .whileLoop _ body => Stmt.allStarts body
  | .doWhile body _ => Stmt.allStarts body
  | .forLoop _ _ _ body => Stmt.allStarts body
  | .block body => Stmt.allStarts body
  | _ => []

/-- The same among statements and within them. -/
def Stmt.allStarts : List Stmt → List (SourceLine × Stmt)
  | [] => []
  | s :: rest => s.markedStart rest ++ (s.starts ++ Stmt.allStarts rest)

end

/-- The statements of a program that stand behind a marker, each with that marker. -/
def Program.starts (p : Program) : List (SourceLine × Stmt) :=
  Stmt.allStarts p.body ++ p.functions.flatMap fun f => Stmt.allStarts f.body

/-- Whether a statement is a marker. -/
def Stmt.isMarker : Stmt → Bool
  | .line _ => true
  | _ => false

/-- Where a statement stands: with no marker before it, right behind one, or further behind one. -/
inductive Standing where
  | unmarked
  | behindMarker
  | marked
deriving DecidableEq, Repr

/-- Where the next statement stands. -/
def Stmt.standing (s : Stmt) : Standing :=
  if s.isMarker then .behindMarker else .marked

/-- Whether a statement may stand there, in front of `rest`: a marker has something other than a
marker behind it, a loop has a marker of its own, and any other statement has a marker somewhere
before it. -/
def Stmt.mayStand (place : Standing) : Stmt → List Stmt → Bool
  | .line _, rest => rest.head?.any fun s => !s.isMarker
  | s, _ => if s.isLoop then place = .behindMarker else place ≠ .unmarked

mutual

/-- Whether all that is executed in the bodies of a statement stands behind markers. -/
def Stmt.placed : Stmt → Bool
  | .branch _ thenBody => Stmt.allPlaced .unmarked thenBody
  | .branchElse _ thenBody elseBody =>
    Stmt.allPlaced .unmarked thenBody && Stmt.allPlaced .unmarked elseBody
  | .whileLoop _ body => Stmt.allPlaced .unmarked body
  | .doWhile body _ => Stmt.allPlaced .unmarked body
  | .forLoop init _ _ body =>
    (init.all fun s => s.isSimple && s.isStraight) && Stmt.allPlaced .unmarked body
  | .block body => Stmt.allPlaced .unmarked body
  | _ => true

/-- Whether statements stand behind markers, the first of them standing as `place` says. -/
def Stmt.allPlaced (place : Standing) : List Stmt → Bool
  | [] => true
  | s :: rest => s.mayStand place rest && (s.placed && Stmt.allPlaced s.standing rest)

end

namespace Stmt

variable {place : Standing} {good : SourceLine × Stmt → Prop} {s : Stmt} {stmts others : List Stmt}

theorem isSimple_spec (h : s.isSimple = true) :
    s.acts = true ∧ s.isLoop = false ∧ s.lines = [] ∧ s.placed = true ∧ s.starts = [] := by
  cases s <;> first | exact ⟨rfl, rfl, rfl, rfl, rfl⟩ | cases h

theorem standing_ne_unmarked (s : Stmt) : s.standing ≠ .unmarked := by
  rw [standing]
  split <;> nofun

theorem mayStand_of_acts (place : Standing) (h : s.acts = true) (rest : List Stmt) :
    s.mayStand place rest = decide (if s.isLoop then place = .behindMarker else place ≠ .unmarked)
      ∧ s.markedStart rest = [] := by
  cases s with
  | line => cases h
  | malformed => cases h
  | _ => exact ⟨rfl, rfl⟩

theorem ne_unmarked_of_mayStand {rest : List Stmt} (hs : s.acts = true)
    (h : s.mayStand place rest = true) : place ≠ .unmarked := by
  rw [(mayStand_of_acts place hs rest).1] at h
  rintro rfl
  cases hloop : s.isLoop <;> rw [hloop] at h <;> cases h

/-- What comes later does not matter to a statement that has what it needs behind it. -/
theorem mayStand_append (h : s.mayStand place stmts = true) (others : List Stmt) :
    s.mayStand place (stmts ++ others) = true ∧
      s.markedStart (stmts ++ others) = s.markedStart stmts := by
  cases s with
  | line l =>
    cases stmts with
    | nil => cases h
    | cons => exact ⟨h, rfl⟩
  | _ => exact ⟨h, rfl⟩

/-- Only a marker may stand where nothing is marked, and it may stand anywhere. -/
theorem allPlaced_of_unmarked (h : allPlaced .unmarked stmts = true) (place : Standing) :
    allPlaced place stmts = true := by
  cases stmts with
  | nil => rfl
  | cons s rest =>
    rw [allPlaced, Bool.and_eq_true] at h ⊢
    refine ⟨?_, h.2⟩
    cases s with
    | line => exact h.1
    | _ => cases h.1

theorem allStarts_append (others : List Stmt) :
    ∀ {place : Standing} {stmts : List Stmt}, allPlaced place stmts = true →
      allStarts (stmts ++ others) = allStarts stmts ++ allStarts others
  | _, [], _ => rfl
  | _, s :: rest, h => by
    rw [allPlaced, Bool.and_eq_true, Bool.and_eq_true] at h
    obtain ⟨hstand, -, hrest⟩ := h
    rw [List.cons_append, allStarts, allStarts, (mayStand_append hstand others).2,
      allStarts_append others hrest]
    simp only [List.append_assoc]

/-- Statements may be followed by others that may stand wherever they come to stand. -/
theorem allPlaced_append : ∀ {place : Standing} {stmts : List Stmt},
    allPlaced place stmts = true →
      (∀ place', place' = place ∨ place' ≠ .unmarked → allPlaced place' others = true) →
      allPlaced place (stmts ++ others) = true
  | place, [], _, hothers => hothers place (.inl rfl)
  | _, s :: rest, h, hothers => by
    rw [allPlaced, Bool.and_eq_true, Bool.and_eq_true] at h
    obtain ⟨hstand, hs, hrest⟩ := h
    have happend : allPlaced s.standing (rest ++ others) = true :=
      allPlaced_append hrest fun place' h' => hothers place' (.inr ?_)
    · rw [List.cons_append, allPlaced, (mayStand_append hstand others).1, hs, happend]
      rfl
    · rcases h' with rfl | h'
      · exact s.standing_ne_unmarked
      · exact h'

/-- A statement does something, and so on behind good markers in its bodies. -/
structure Stands (good : SourceLine × Stmt → Prop) (s : Stmt) : Prop where
  acts : s.acts = true
  placed : s.placed = true
  starts : ∀ x ∈ s.starts, good x

/-- What one statement of the text is read as: statements that do something, and a loop only as the
first of them. -/
structure StandTogether (good : SourceLine × Stmt → Prop) (stmts : List Stmt) : Prop where
  stands : ∀ s ∈ stmts, s.Stands good
  single : ∀ s ∈ stmts.tail, s.isLoop = false

theorem standTogether_nil : StandTogether good [] :=
  ⟨List.forall_mem_nil _, List.forall_mem_nil _⟩

theorem Stands.single (h : s.Stands good) : StandTogether good [s] :=
  ⟨by simpa using h, List.forall_mem_nil _⟩

theorem standTogether_of_isSimple (h : ∀ s ∈ stmts, s.isSimple = true) :
    StandTogether good stmts := by
  refine ⟨fun s hs => ?_, fun s hs => (isSimple_spec (h s (List.mem_of_mem_tail hs))).2.1⟩
  obtain ⟨hacts, -, -, hplaced, hstarts⟩ := isSimple_spec (h s hs)
  exact ⟨hacts, hplaced, by rw [hstarts]; exact List.forall_mem_nil _⟩

/-- Statements stand behind markers of their own, and those that do something behind good ones. -/
structure AllStand (good : SourceLine × Stmt → Prop) (stmts : List Stmt) : Prop where
  placed : allPlaced .unmarked stmts = true
  starts : ∀ x ∈ allStarts stmts, good x

theorem allStand_nil : AllStand good [] :=
  ⟨rfl, List.forall_mem_nil _⟩

theorem AllStand.append (h : AllStand good stmts) (h' : AllStand good others) :
    AllStand good (stmts ++ others) := by
  refine ⟨allPlaced_append h.placed fun place _ => allPlaced_of_unmarked h'.placed place, ?_⟩
  rw [allStarts_append others h.placed]
  exact List.forall_mem_append.2 ⟨h.starts, h'.starts⟩

theorem standing_of_acts (h : s.acts = true) : s.standing = .marked := by
  cases s with
  | line => cases h
  | _ => rfl

/-- Statements further behind a marker. -/
theorem allPlaced_of_stands (h : ∀ s ∈ stmts, s.Stands good)
    (hloops : ∀ s ∈ stmts, s.isLoop = false) :
    allPlaced .marked stmts = true ∧ ∀ x ∈ allStarts stmts, good x := by
  induction stmts with
  | nil => exact ⟨rfl, List.forall_mem_nil _⟩
  | cons s rest ih =>
    obtain ⟨hs, hrest⟩ := List.forall_mem_cons.1 h
    obtain ⟨hloop, hloops⟩ := List.forall_mem_cons.1 hloops
    obtain ⟨hplaced, hstarts⟩ := ih hrest hloops
    obtain ⟨hstand, hstart⟩ := mayStand_of_acts .marked hs.acts rest
    rw [allPlaced, allStarts, hstand, hs.placed, standing_of_acts hs.acts, hplaced, hstart, hloop,
      List.nil_append]
    exact ⟨rfl, List.forall_mem_append.2 ⟨hs.starts, hstarts⟩⟩

theorem allStand_mark {l : SourceLine} (hl : good (l, s)) (h : StandTogether good (s :: stmts)) :
    AllStand good (.line l :: s :: stmts) := by
  obtain ⟨hs, hrest⟩ := List.forall_mem_cons.1 h.stands
  obtain ⟨hplaced, hstarts⟩ := allPlaced_of_stands hrest h.single
  obtain ⟨hstand, hstart⟩ := mayStand_of_acts .behindMarker hs.acts stmts
  have hmarker : s.isMarker = false := by
    have hacts := hs.acts
    cases s with
    | line => cases hacts
    | _ => rfl
  refine ⟨?_, ?_⟩
  · have hbehind : (Stmt.line l).standing = .behindMarker := rfl
    rw [allPlaced, mayStand, List.head?_cons, Option.any_some, hmarker, hbehind, allPlaced, hstand,
      hs.placed, standing_of_acts hs.acts, hplaced]
    cases s.isLoop <;> rfl
  · have hnone : (Stmt.line l).starts = [] := rfl
    rw [allStarts, markedStart, if_pos hs.acts, hnone, List.nil_append, List.singleton_append,
      allStarts, hstart, List.nil_append]
    exact List.forall_mem_cons.2 ⟨hl, List.forall_mem_append.2 ⟨hs.starts, hstarts⟩⟩

theorem allStand_error (l : SourceLine) (e : ParseError) :
    AllStand good [.line l, .malformed e] :=
  ⟨rfl, List.forall_mem_nil _⟩

end Stmt

/-! ## What starts no statement -/

namespace Parser

variable {α β : Type} {root : List Token} {s : Stream}

/-- From the stream `s`, the parser fails. -/
abbrev Fails (s : Stream) (p : Parser α) : Prop :=
  Ends s (fun _ _ => False) (fun _ => True) p

theorem Fails.bind {p : Parser α} (h : Fails s p) (f : α → Parser β) : Fails s (p >>= f) :=
  Ends.bind h fun _ _ => False.elim

section

variable (hk : s.kind.isWord = false)
include hk

theorem fails_primary (inner : Inner Parser) : Fails s (primary inner) := by
  rw [primary]
  refine ends_peek ?_
  cases hkind : s.kind with
  | invalid | eof => exact ends_failHere trivial _
  | _ =>
    rw [hkind] at hk
    cases hk

theorem fails_unary (inner : Inner Parser) : Fails s (unary inner) := by
  have hoperand : Fails s (operand inner) := (fails_primary hk inner).bind _
  rw [unary]
  refine ends_peek ?_
  cases hkind : s.kind with
  | invalid | eof => exact hoperand
  | _ =>
    rw [hkind] at hk
    cases hk

/-- **No expression starts with what is no word.** -/
theorem fails_expression : ∀ depth, Fails s (inner depth).expression
  | 0 => ends_failHere trivial _
  | depth + 1 =>
    have hbinary : Fails s (binary (inner depth)) := (fails_unary hk (inner depth)).bind _
    have hternary : Fails s (ternary (inner depth)) := hbinary.bind _
    hternary.bind _

theorem fails_statement (lineText : Nat → String) : ∀ depth, Fails s (statement lineText depth)
  | 0 => ends_failHere trivial _
  | depth + 1 => by
    have hexpression : Fails s (expressionStatement (level depth)) :=
      (fails_expression hk depth).bind _
    rw [statement, statementBy]
    refine ends_peek ?_
    cases hkind : s.kind with
    | invalid | eof => exact hexpression
    | _ =>
      rw [hkind] at hk
      cases hk

end

/-- **A statement starts with a word.** -/
theorem isWord_of_statement {lineText : Nat → String} {depth : Nat} {stmts : List Stmt}
    {s' : Stream} (h : statement lineText depth s = .ok stmts s') : s.kind.isWord = true := by
  by_contra hk
  have hfails := fails_statement (eq_false_of_ne_true hk) lineText depth
  rw [Fails, Ends, h] at hfails
  exact hfails

/-! ## What statements yield -/

/-- From the stream `s`, the parser leaves a part of `root` and yields something that satisfies `P`,
unless it fails. -/
abbrev YieldsAt (root : List Token) (s : Stream) (P : α → Prop) (p : Parser α) : Prop :=
  Ends s (fun a s' => s'.rest <:+ root ∧ P a) (fun _ => True) p

theorem suffix_advance (hs : s.rest <:+ root) : s.advance.rest <:+ root :=
  (List.tail_suffix s.rest).trans hs

/-- What is known of all that a parser yields, and where it stops. -/
theorem Trails.yieldsAt {room : Nat} {p : Parser α} {P : α → Prop} (h : Trails root s room p)
    (hy : Yields P p) : YieldsAt root s P p := by
  rw [Trails, Ends] at h
  rw [YieldsAt, Ends]
  cases hp : p s with
  | ok a s' =>
    rw [hp] at h
    exact ⟨h.2, hy s a s' hp⟩
  | error e s' => exact trivial

/-- A parser of which only matters where it stops. -/
theorem Trails.passes {room : Nat} {p : Parser α} (h : Trails root s room p) :
    YieldsAt root s (fun _ => True) p :=
  h.yieldsAt fun _ _ _ _ => trivial

theorem tail_of_suffix (hs : s.rest <:+ root) : Tail root (s.length + 1) s :=
  ⟨Nat.lt_succ_self _, hs⟩

theorem buildsStmt_simple :
    BuildsStmt (fun _ => True) (fun _ => True) (fun _ => True) (fun s => s.isSimple = true)
      (fun _ => True) where
  declare _ := rfl
  construct _ _ := rfl
  array _ _ := rfl
  expr _ := rfl
  ret _ := rfl
  jump _ := rfl
  whole _ := trivial
  same _ := trivial
  branch _ _ := trivial
  branchElse _ _ _ := trivial
  whileLoop _ _ := trivial
  doWhile _ _ := trivial
  forLoop _ _ _ _ _ := trivial
  block _ := trivial
  line _ := trivial
  malformed _ := trivial

section Bodies

variable {good : SourceLine × Stmt → Prop} {member : Parser (List Stmt)}
  (hm : ∀ s : Stream, s.rest <:+ root → YieldsAt root s (Stmt.AllStand good) member)

include hm

theorem yieldsAt_statementItems :
    ∀ (fuel : Nat) {s : Stream}, s.rest <:+ root →
      YieldsAt root s (Stmt.AllStand good) (statementItems member fuel)
  | 0, _, hs => ends_pure ⟨hs, Stmt.allStand_nil⟩
  | fuel + 1, s, hs => by
    rw [statementItems]
    refine ends_get ?_
    split
    · exact ends_pure ⟨hs, Stmt.allStand_nil⟩
    · refine (hm s hs).bind fun first s₁ h₁ => ?_
      refine (yieldsAt_statementItems fuel h₁.1).bind fun others s₂ h₂ => ?_
      exact ends_pure ⟨h₂.1, h₁.2.append h₂.2⟩

theorem yieldsAt_statements (hs : s.rest <:+ root) :
    YieldsAt root s (Stmt.AllStand good) (statements member) :=
  ends_get (yieldsAt_statementItems hm _ hs)

theorem yieldsAt_block (hs : s.rest <:+ root) :
    YieldsAt root s (Stmt.AllStand good) (block member) :=
  (yieldsAt_statements hm hs).bind fun _ _ h =>
    ends_expect trivial fun _ => ends_pure ⟨suffix_advance h.1, h.2⟩

theorem yieldsAt_body (hs : s.rest <:+ root) :
    YieldsAt root s (Stmt.AllStand good) (body member) :=
  ends_ifAccept (fun _ => yieldsAt_block hm (suffix_advance hs)) (hm s hs)

end Bodies

section Statements

variable {good : SourceLine × Stmt → Prop}

/-- Whatever the parser yields does something, and so on in its bodies. -/
abbrev YieldsStanding (good : SourceLine × Stmt → Prop) (root : List Token) (s : Stream)
    (p : Parser (List Stmt)) : Prop :=
  YieldsAt root s (Stmt.StandTogether good) p

theorem yieldsStanding_pure {stmt : Stmt} (hs : s.rest <:+ root) (h : stmt.Stands good) :
    YieldsStanding good root s (pure [stmt]) :=
  ends_pure ⟨hs, h.single⟩

/-- Parsers for simple statements. -/
theorem Trails.standing {room : Nat} {p : Parser (List Stmt)} (h : Trails root s room p)
    (hp : Yields (fun stmts => ∀ s ∈ stmts, s.isSimple = true) p) :
    YieldsStanding good root s p :=
  (h.yieldsAt hp).imp (fun _ _ h => ⟨h.1, Stmt.standTogether_of_isSimple h.2⟩) fun _ _ => trivial

variable {member : Parser (List Stmt)}
  (hm : ∀ s : Stream, s.rest <:+ root → YieldsAt root s (Stmt.AllStand good) member)

include hm

theorem standing_ifStatement (depth : Nat) (hs : s.rest <:+ root) :
    YieldsStanding good root s (ifStatement (level depth) member) := by
  refine (trails_condition depth _ (tail_of_suffix hs)).passes.bind fun test s₁ h₁ => ?_
  refine (yieldsAt_body hm h₁.1).bind fun thenBody s₂ h₂ => ends_ifAccept (fun _ => ?_) ?_
  · refine (yieldsAt_body hm (suffix_advance h₂.1)).bind fun elseBody s₃ h₃ => ?_
    exact yieldsStanding_pure h₃.1 ⟨rfl, Bool.and_eq_true_iff.2 ⟨h₂.2.placed, h₃.2.placed⟩,
      List.forall_mem_append.2 ⟨h₂.2.starts, h₃.2.starts⟩⟩
  · exact yieldsStanding_pure h₂.1 ⟨rfl, h₂.2.placed, h₂.2.starts⟩

theorem standing_whileStatement (depth : Nat) (hs : s.rest <:+ root) :
    YieldsStanding good root s (whileStatement (level depth) member) := by
  refine (trails_condition depth _ (tail_of_suffix hs)).passes.bind fun test s₁ h₁ => ?_
  refine (yieldsAt_body hm h₁.1).bind fun stmts s₂ h₂ => ?_
  exact yieldsStanding_pure h₂.1 ⟨rfl, h₂.2.placed, h₂.2.starts⟩

theorem standing_doStatement (depth : Nat) (hs : s.rest <:+ root) :
    YieldsStanding good root s (doStatement (level depth) member) := by
  refine (yieldsAt_body hm hs).bind fun stmts s₁ h₁ => ends_expect trivial fun _ => ?_
  have hs₁ := tail_of_suffix (suffix_advance h₁.1)
  refine (trails_condition depth _ hs₁).passes.bind fun test s₂ h₂ => ?_
  refine ends_expect trivial fun _ => ?_
  exact yieldsStanding_pure (suffix_advance h₂.1) ⟨rfl, h₁.2.placed, h₁.2.starts⟩

theorem standing_forStatement (depth : Nat) (hs : s.rest <:+ root) :
    YieldsStanding good root s (forStatement (level depth) member) := by
  have hinits := (yields_forInit (fun _ => buildsExpr_any) (fun _ => buildsStmt_simple) depth).and
    (yields_straightInit depth)
  rw [forStatement]
  refine ends_expect trivial fun _ => ?_
  have hinit := (steady_forInit depth).trails (tail_of_suffix (suffix_advance hs))
  refine (hinit.yieldsAt hinits).bind fun init s₁ h₁ => ends_checked fun untested => ?_
  extract_lets rest
  have hrest : ∀ test s', s'.rest <:+ root → YieldsStanding good root s' (rest test) := by
    intro test s' h'
    refine ends_expect trivial fun _ => ends_checked fun unstepped => ?_
    extract_lets loop
    have hloop : ∀ increment s'', s''.rest <:+ root →
        YieldsStanding good root s'' (loop increment) := by
      intro increment s'' h''
      refine ends_expect trivial fun _ => ?_
      refine (yieldsAt_body hm (suffix_advance h'')).bind fun stmts s₃ h₃ => ?_
      refine yieldsStanding_pure h₃.1 ⟨rfl, Bool.and_eq_true_iff.2 ⟨?_, h₃.2.placed⟩, h₃.2.starts⟩
      exact List.all_eq_true.2 fun s hs =>
        Bool.and_eq_true_iff.2 ⟨h₁.2.1 s hs, h₁.2.2 s hs⟩
    have hadvance := suffix_advance h'
    split
    · exact hloop [] _ hadvance
    · have hlist := steady_commaList (steadyInner depth).expression
      exact (hlist.trails (tail_of_suffix hadvance)).passes.bind
        fun increment s'' h'' => hloop increment s'' h''.1
  split
  · exact hrest none _ h₁.1
  · exact ((steadyInner depth).expression.trails (tail_of_suffix h₁.1)).passes.bind
      fun e s' h' => hrest (some e) s' h'.1

theorem standing_statementBy {depth : Nat} {nested : Parser (List Stmt)}
    (hn : ∀ s : Stream, s.rest <:+ root → YieldsStanding good root s nested)
    (hs : s.rest <:+ root) :
    YieldsStanding good root s (statementBy (level depth) nested member) := by
  have hE : ∀ _ : Nat, BuildsExpr (fun _ => True) (fun _ => True) (fun _ => True) :=
    fun _ => buildsExpr_any
  have hS : ∀ _ : Nat, BuildsStmt (fun _ => True) (fun _ => True) (fun _ => True)
      (fun s => s.isSimple = true) (fun _ => True) :=
    fun _ => buildsStmt_simple
  have hadvance := suffix_advance hs
  have hnone : ∀ {s' : Stream}, s'.rest <:+ root → YieldsStanding good root s' (pure []) :=
    fun h => ends_pure ⟨h, Stmt.standTogether_nil⟩
  have hskip : s.kind ≠ .eof →
      YieldsStanding good root s (skipStatement >>= fun _ => (pure [] : Parser (List Stmt))) :=
    fun hk => (trails_skipStatement (tail_of_suffix hs) hk).yieldsAt
      (yields_after fun _ => yields_pure Stmt.standTogether_nil)
  have hjump : ∀ j, YieldsStanding good root s.advance (jumpStatement j) := fun j =>
    (trails_jumpStatement j (tail_of_suffix hadvance)).standing
      (yields_after fun _ => yields_pure (by simpa using (hS depth).jump j))
  have hscalar : YieldsStanding good root s (scalarDeclaration (level depth)) :=
    (trails_scalarDeclaration depth (tail_of_suffix hs)).standing (yields_scalarLeaves hE hS depth)
  rw [statementBy]
  refine ends_peek ?_
  split
  · exact ends_advance (hnone hadvance)
  · refine ends_advance ((yieldsAt_block hm hadvance).bind fun stmts s' h => ?_)
    exact yieldsStanding_pure h.1 ⟨rfl, h.2.placed, h.2.starts⟩
  · exact ends_advance (standing_ifStatement hm depth hadvance)
  · exact ends_advance (standing_whileStatement hm depth hadvance)
  · exact ends_advance (standing_doStatement hm depth hadvance)
  · exact ends_advance (standing_forStatement hm depth hadvance)
  · exact ends_advance ((trails_returnStatement depth (tail_of_suffix hadvance)).standing
      (yields_returnLeaf hE hS depth))
  · exact ends_advance (hjump .break)
  · exact ends_advance (hjump .continue)
  · rename_i hk
    exact hskip (by rw [hk]; rintro ⟨⟩)
  · refine ends_peekAt ?_
    split
    · exact ends_advance (hn _ hadvance)
    · exact hscalar
  · exact hscalar
  · rename_i name hk
    have hword : s.kind ≠ .eof := by rw [hk]; rintro ⟨⟩
    exact (trails_namedStatement depth (tail_of_suffix hs) hword).standing
      (yields_namedLeaves hE hS depth name)
  · exact (trails_expressionStatement depth (tail_of_suffix hs)).standing
      (yields_expressionLeaf hE hS depth)

omit hm

section

variable {lineText : Nat → String}
  (hgood : ∀ {depth s t stmt others s'}, s.rest <:+ root → s.rest.head? = some t →
    statement lineText depth s = .ok (stmt :: others) s' →
      good (⟨t.location.line, lineText t.location.line⟩, stmt))
include hgood

/-- A marker is put in front of what a statement yields, and the statement starts with a token of
the line that is marked. -/
theorem yieldsAt_recovered {depth : Nat}
    (h : ∀ s : Stream, s.rest <:+ root → YieldsStanding good root s (statement lineText depth))
    (hs : s.rest <:+ root) :
    YieldsAt root s (Stmt.AllStand good) (recovered lineText (statement lineText depth)) := by
  obtain ⟨stmts, s', heq, hsuffix, -⟩ := advances_statement lineText depth s
  have hstmts := h s hs
  rw [YieldsStanding, YieldsAt, Ends] at hstmts
  rw [YieldsAt, Ends, heq]
  refine ⟨hsuffix.trans hs, ?_⟩
  rw [recovered_apply] at heq
  split at heq
  · cases heq
    exact Stmt.allStand_nil
  · next stmts s' hne hok =>
    cases heq
    rw [hok] at hstmts
    have hword := isWord_of_statement hok
    obtain ⟨t, ht, hrest⟩ := exists_cons (s := s) fun heof => by
      rw [heof] at hword
      cases hword
    have hlocation : s.location = t.location := by rw [Stream.location, hrest]
    cases stmts with
    | nil => exact absurd rfl hne
    | cons stmt rest =>
      have hhead : s.rest.head? = some t := by rw [hrest, List.head?_cons]
      rw [Stream.marker, hlocation]
      exact Stmt.allStand_mark (hgood hs hhead hok) hstmts.2
  · cases heq
    exact Stmt.allStand_error _ _

theorem standing_statement :
    ∀ (depth : Nat) {s : Stream}, s.rest <:+ root →
      YieldsStanding good root s (statement lineText depth)
  | 0, _, _ => ends_failHere trivial _
  | depth + 1, _, hs => by
    have hnested := fun (s : Stream) (hs : s.rest <:+ root) => standing_statement depth hs
    exact standing_statementBy (fun s hs => yieldsAt_recovered hgood hnested hs) hnested hs

end

end Statements

end Parser

/-! ## Programs -/

/-- All statements of a program stand behind markers, and those that do something behind good
ones. -/
structure Program.AllStand (good : SourceLine × Stmt → Prop) (p : Program) : Prop where
  body : Stmt.AllStand good p.body
  functions : ∀ f ∈ p.functions, Stmt.AllStand good f.body

namespace Program

variable {good : SourceLine × Stmt → Prop} {p : Program}

theorem AllStand.append (h : p.AllStand good) {stmts : List Stmt} (hs : Stmt.AllStand good stmts) :
    ({ p with body := p.body ++ stmts } : Program).AllStand good :=
  ⟨h.body.append hs, h.functions⟩

theorem AllStand.define (h : p.AllStand good) {f : Function} (hf : Stmt.AllStand good f.body) :
    (p.define f).AllStand good := by
  refine ⟨h.body, fun g hg => ?_⟩
  rcases List.mem_append.1 hg with hg | hg
  · exact h.functions g (List.mem_filter.1 hg).1
  · rw [List.mem_singleton.1 hg]
    exact hf

theorem functions_callMain (p : Program) : p.callMain.functions = p.functions := by
  rw [callMain]
  split <;> rfl

theorem body_callMain (p : Program) :
    p.callMain.body = p.body ∨ p.callMain.body = p.body ++ [.expr (.call "main" [])] := by
  rw [callMain]
  split
  · exact .inr rfl
  · exact .inl rfl

/-- A call to `main` stands behind no marker of its own. -/
theorem starts_callMain (h : p.AllStand good) : p.callMain.starts = p.starts := by
  rw [starts, starts, functions_callMain]
  rcases body_callMain p with hbody | hbody
  · rw [hbody]
  · have hcall : Stmt.allStarts [.expr (.call "main" [])] = [] := rfl
    rw [hbody, Stmt.allStarts_append _ h.body.placed, hcall, List.append_nil]

end Program

namespace Parser

variable {root : List Token} {good : SourceLine × Stmt → Prop} {member : Parser (List Stmt)}
  (hm : ∀ s : Stream, s.rest <:+ root → YieldsAt root s (Stmt.AllStand good) member)

include hm

theorem yieldsAt_functionDefinition {s : Stream} (hs : s.rest <:+ root) :
    YieldsAt root s (fun f => ∀ g ∈ f, Stmt.AllStand good g.body) (functionDefinition member) := by
  rw [functionDefinition]
  refine ends_get ?_
  extract_lets location
  refine (trails_returnType (tail_of_suffix hs)).passes.bind fun _ s₁ h₁ => ?_
  refine ends_identifier trivial fun name _ => ends_expect trivial fun _ => ?_
  have hname := tail_of_suffix (suffix_advance (suffix_advance h₁.1))
  refine (trails_parameters hname).passes.bind fun params s₂ h₂ => ends_ifAccept (fun _ => ?_) ?_
  · exact ends_pure ⟨suffix_advance h₂.1, by rintro g ⟨⟩⟩
  · refine (trails_namedParams name location params (tail_of_suffix h₂.1)).passes.bind ?_
    refine fun names s₃ h₃ => ends_expect trivial fun _ => ?_
    refine (yieldsAt_statements hm (suffix_advance h₃.1)).bind fun stmts s₄ h₄ => ?_
    exact ends_expect trivial fun _ => ends_pure ⟨suffix_advance h₄.1, by simpa using h₄.2⟩

theorem allStand_topLevel (lineText : Nat → String) {p : Program} (hp : p.AllStand good)
    {s : Stream} (hs : s.rest <:+ root) : (topLevel lineText member p s).1.AllStand good := by
  rw [topLevel]
  split
  · exact hp.append (Stmt.allStand_error _ _)
  · split
    · have hf := yieldsAt_functionDefinition hm hs
      rw [YieldsAt, Ends] at hf
      split
      · next f s' heq =>
        rw [heq] at hf
        exact hp.define (hf.2 f rfl)
      · exact hp
      · exact hp.append (Stmt.allStand_error _ _)
    · have hstmts := hm s hs
      rw [YieldsAt, Ends] at hstmts
      split
      · next stmts s' heq =>
        rw [heq] at hstmts
        exact hp.append hstmts.2
      · exact hp

theorem allStand_of_topRun {lineText : Nat → String} {p q : Program} {s t : Stream}
    (h : TopRun lineText member p s q t) (hp : p.AllStand good) (hs : s.rest <:+ root) :
    q.AllStand good := by
  induction h with
  | stop => exact hp
  | @step p p' q s s' t _ heq hsuffix _ _ ih =>
    have hp' := allStand_topLevel hm lineText hp hs
    rw [heq] at hp'
    exact ih hp' (hsuffix.trans hs)

end Parser

namespace Program

/-- A statement of the source text starts with the token `t`, and it is read as `stmt`, or as
several statements of which this is the first. -/
def ReadAt (source : String) (t : Token) (stmt : Stmt) : Prop :=
  ∃ depth s others s', s.rest <:+ (Stream.ofTokens (Token.tokenize source)).rest ∧
    s.rest.head? = some t ∧
    Parser.statement (lineText source) depth s = .ok (stmt :: others) s'

/-- The marker in front of a statement cites the line of the token with which it starts. -/
def StandsAt (source : String) (x : SourceLine × Stmt) : Prop :=
  ∃ t, ReadAt source t x.2 ∧ x.1 = ⟨t.location.line, lineText source t.location.line⟩

/-- **What is read from a source text stands behind markers,** and each of them cites the line of
the token with which the statement behind it starts. -/
theorem allStand_ofSource (source : String) :
    ∃ p : Program, ofSource source = p.callMain ∧ p.AllStand (StandsAt source) := by
  have hgood : ∀ {depth s t stmt others s'},
      s.rest <:+ (Stream.ofTokens (Token.tokenize source)).rest → s.rest.head? = some t →
      Parser.statement (lineText source) depth s = .ok (stmt :: others) s' →
        StandsAt source (⟨t.location.line, lineText source t.location.line⟩, stmt) :=
    fun hs ht hok => ⟨_, ⟨_, _, _, _, hs, ht, hok⟩, rfl⟩
  have hm := fun (s : Stream) (hs : s.rest <:+ (Stream.ofTokens (Token.tokenize source)).rest) =>
    Parser.yieldsAt_recovered hgood
      (fun s hs => Parser.standing_statement hgood maxNesting hs) hs
  obtain ⟨t, -, hrun⟩ := Parser.topRun_topLevels
    (Parser.advances_statement (lineText source) maxNesting) (lineText source)
    ((Stream.ofTokens (Token.tokenize source)).length + 1) {}
    (Stream.ofTokens (Token.tokenize source)) (Nat.lt_succ_self _)
  exact ⟨_, rfl, Parser.allStand_of_topRun hm hrun ⟨Stmt.allStand_nil, nofun⟩ List.suffix_rfl⟩

section

variable {source : String} {t : Token} {stmt : Stmt}

theorem ReadAt.marked (h : ReadAt source t stmt) : stmt.Marked (lineText source) := by
  obtain ⟨depth, s, others, s', -, -, hok⟩ := h
  exact Parser.yields_marked (lineText source) depth s _ s' hok stmt List.mem_cons_self

/-- **A statement starts on a line of the source text** that is not blank. -/
theorem ReadAt.exists_line (h : ReadAt source t stmt) :
    ∃ n line, t.location.line = n + 1 ∧ (Text.lines source)[n]? = some line ∧
      lineText source t.location.line = Text.trim line ∧ Text.trim line ≠ "" := by
  obtain ⟨depth, s, others, s', hs, ht, hok⟩ := h
  obtain ⟨rest, hrest⟩ := List.head?_eq_some_iff.1 ht
  have hword : t.kind.isWord = true := by
    have hkind := Parser.isWord_of_statement hok
    rwa [Stream.kind, hrest] at hkind
  have hmem : t ∈ Token.tokenize source := by
    rw [(Token.tokenize_eq source).1]
    exact List.mem_append_left _ (hs.subset (by rw [hrest]; exact List.mem_cons_self))
  obtain ⟨n, line, hnumber, hline, hne⟩ := Token.exists_line_of_mem hmem hword
  refine ⟨n, line, hnumber, hline, ?_, hne⟩
  rw [hnumber, lineText]
  dsimp only
  rw [if_neg (Nat.succ_ne_zero n), Nat.add_sub_cancel]
  simp [hline]

theorem standsAt_of_mem_starts {l : SourceLine} (h : (l, stmt) ∈ (ofSource source).starts) :
    StandsAt source (l, stmt) := by
  obtain ⟨p, hp, hstand⟩ := allStand_ofSource source
  rw [hp, starts_callMain hstand] at h
  rcases List.mem_append.1 h with h | h
  · exact hstand.body.starts _ h
  · obtain ⟨f, hf, h⟩ := List.mem_flatMap.1 h
    exact (hstand.functions f hf).starts _ h

end

end Program

end Stepwise
