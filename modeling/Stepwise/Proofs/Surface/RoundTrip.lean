import Stepwise.Proofs.Surface.Statement

/-!
# Programs are read back

Reading the text of a program gives the program it was written from:
`Surface.Program.ofSource_text`. The statements are known to be read back.  What is left is to tell
functions from statements, to read the line that begins a function, and to see that functions of
distinct names do not replace each other.
-/

set_option autoImplicit false

namespace Stepwise

namespace Surface

open Stepwise.Parser

variable {text : Nat → String} {depth number : Nat} {s s' : Stream}

/-! ## Telling functions from statements -/

theorem looksLikeFunction_symbol {c : Symbol} (hc : c ≠ .const) (l : Location) (ts : List Token) :
    looksLikeFunction (⟨.symbol c, l⟩ :: ts) = false := by
  cases c <;> first | rfl | exact absurd rfl hc

theorem Decl.looksLikeFunction_tokens (d : Decl) (hs : s.Ahead d.tokens s') :
    looksLikeFunction s.rest = false := by
  obtain ⟨l₁, ts₁, finish₁, rfl, hs₁⟩ := hs.eq_cons
  cases d with
  | scalar type name init =>
    obtain ⟨l₂, ts₂, finish₂, heq₂, hs₂⟩ := hs₁.eq_cons
    cases heq₂
    cases init with
    | none =>
      obtain ⟨l₃, ts₃, finish₃, heq₃, hs₃⟩ := hs₂.eq_cons
      cases heq₃
      rfl
    | some e =>
      obtain ⟨l₃, ts₃, finish₃, heq₃, hs₃⟩ := hs₂.eq_cons
      cases heq₃
      rfl
  | array type name size init shaped =>
    obtain ⟨l₂, ts₂, finish₂, heq₂, hs₂⟩ := hs₁.eq_cons
    cases heq₂
    obtain ⟨l₃, ts₃, finish₃, heq₃, hs₃⟩ := hs₂.eq_cons
    cases heq₃
    rfl

theorem Expr.looksLikeFunction_written (e : Expr)
    (hs : s.Ahead (e.written ++ [.symbol .semicolon]) s') : looksLikeFunction s.rest = false := by
  have hstart := (e.begins_written.append [.symbol .semicolon]).kind hs
  rcases e.plain_written with h | ⟨name, k, rest, heq, hk⟩
  · have hident := h.kind hs
    obtain ⟨k, ks, hks, -⟩ := h
    rw [hks] at hs
    obtain ⟨place, ts, finish, rfl, -⟩ := hs.eq_cons
    cases k with
    | symbol c =>
      refine looksLikeFunction_symbol ?_ place ts
      rintro rfl
      cases hstart
    | int | float | str | char => rfl
    | ident => cases hident
    | type | invalid | eof => cases hstart
  · rw [heq] at hs
    obtain ⟨place, ts, finish, rfl, hnext⟩ := hs.eq_cons
    obtain ⟨place', ts', finish', heq', -⟩ := hnext.eq_cons
    cases heq'
    rw [mayFollowName, Bool.and_eq_true, Bool.not_eq_true', Bool.not_eq_true'] at hk
    have hnone : returnTypeEnd? (⟨name.token, place⟩ :: ⟨k, place'⟩ :: ts')
        = if k.isSymbol .less = true then
            (templateEnd? 0 (⟨k, place'⟩ :: ts')).map
              (List.dropWhile fun t : Token => t.kind.isConst || t.kind.isType)
          else if k.isIdent = true then some (⟨k, place'⟩ :: ts')
          else none := rfl
    rw [hk.1, hk.2, if_neg Bool.false_ne_true, if_neg Bool.false_ne_true] at hnone
    rw [looksLikeFunction, hnone]

/-- No statement is taken for a function. -/
theorem Stmt.looksLikeFunction_lines {st : Stmt} {lines : List (List TokenKind)}
    (hs : s.Lays number (st.lines ++ lines) s') : looksLikeFunction s.rest = false := by
  have hsymbol : ∀ {c : Symbol} {ks : List TokenKind} {s₁ : Stream},
      s.Ahead (.symbol c :: ks) s₁ → c ≠ .const → looksLikeFunction s.rest = false := by
    intro c ks s₁ h₁ hc
    obtain ⟨place, ts, finish, rfl, -⟩ := h₁.eq_cons
    exact looksLikeFunction_symbol hc place ts
  cases st with
  | declare d =>
    obtain ⟨s₁, h₁, -⟩ := hs.cons
    exact d.looksLikeFunction_tokens h₁
  | expr e =>
    obtain ⟨s₁, h₁, -⟩ := hs.cons
    exact e.looksLikeFunction_written h₁
  | construct kind element name =>
    obtain ⟨s₁, h₁, -⟩ := hs.cons
    obtain ⟨l₁, ts₁, finish₁, rfl, hs₁⟩ := h₁.eq_cons
    obtain ⟨l₂, ts₂, finish₂, heq₂, hs₂⟩ := hs₁.eq_cons
    cases heq₂
    obtain ⟨l₃, ts₃, finish₃, heq₃, hs₃⟩ := hs₂.eq_cons
    cases heq₃
    obtain ⟨l₄, ts₄, finish₄, heq₄, hs₄⟩ := hs₃.eq_cons
    cases heq₄
    obtain ⟨l₅, ts₅, finish₅, heq₅, hs₅⟩ := hs₄.eq_cons
    cases heq₅
    obtain ⟨l₆, ts₆, finish₆, heq₆, hs₆⟩ := hs₅.eq_cons
    cases heq₆
    rfl
  | jump kind =>
    obtain ⟨s₁, h₁, -⟩ := hs.cons
    exact hsymbol h₁ (by cases kind <;> nofun)
  | branch | branchElse | whileLoop | doWhile | forLoop | block | ret =>
    obtain ⟨s₁, h₁, -⟩ := hs.cons
    exact hsymbol h₁ nofun

/-! ## Functions -/

namespace Function

theorem namesParameter_param (p : ScalarType × Name) : NamesParameter (param p) p.2.text := by
  intro s s' hs hk
  obtain ⟨l₁, ts₁, finish₁, rfl, hs₁⟩ := hs.eq_cons
  obtain ⟨l₂, ts₂, finish₂, heq₂, rfl⟩ := hs₁.eq_cons
  cases heq₂
  refine ⟨(Param.step {} p.1.token).step p.2.token, ?_, rfl⟩
  have hparam : (parameterTokens (ts₂.length + 3) {} : Parser Param)
        ⟨⟨p.1.token, l₁⟩ :: ⟨p.2.token, l₂⟩ :: ts₂, finish₁⟩
      = (parameterTokens (ts₂.length + 1) ((Param.step {} p.1.token).step p.2.token) :
          Parser Param) ⟨ts₂, finish₁⟩ := rfl
  refine hparam.trans ?_
  rw [parameterTokens, peek_bind, hk]
  rfl

theorem reads_params (params : List (ScalarType × Name)) :
    Reads parameters (commaTokens (params.map param) ++ [.symbol .rightParen]) anything
      (params.map fun p => some p.2.text) := by
  have hread := @reads_parameters (params.map fun p => (param p, p.2.text)) fun q hq => by
    obtain ⟨p, -, rfl⟩ := List.mem_map.1 hq
    exact namesParameter_param p
  rwa [List.map_map, List.map_map] at hread

theorem namedParams_some (name : String) (location : Location)
    (params : List (ScalarType × Name)) :
    (namedParams name location (params.map fun p => some p.2.text) : Parser _) s
      = .ok (params.map fun p => p.2.text) s := by
  induction params with
  | nil => rfl
  | cons p params ih =>
    rw [List.map_cons, namedParams, bind_of_ok ih]
    rfl

theorem reads_returnType (type : ScalarType) :
    Reads returnType [type.token] TokenKind.isIdent () := by
  intro s s' hs hk
  obtain rfl := Stream.ahead_singleton hs
  have htype := hs.kind
  have hscalar : type.token.isType = true := rfl
  have hident : ∀ {p : TokenKind → Bool}, (∀ name, p (.ident name) = false) →
      p s.advance.kind = false := by
    intro p hp
    cases hname : s.advance.kind with
    | ident name => exact hp name
    | _ => rw [hname] at hk; cases hk
  rw [returnType, bind_of_ok (skipWhile_of_kind (by rw [htype]; rfl)), peek_bind, htype,
    if_pos hscalar, bind_of_ok (skipWhile_one hs.1 (by rw [htype]; rfl) (hident fun _ => rfl))]
  exact skipWhile_of_kind (hident fun _ => rfl)

/-- **Functions are read back.** -/
theorem functionDefinition_lays (f : Function) (text : Nat → String)
    (hd : Stmt.allLevels f.body ≤ depth) (hs : s.Lays number f.lines s') :
    functionDefinition (recovered text (statement text depth)) s
      = .ok (some (f.lower text number)) s' := by
  obtain ⟨s₁, hline, hlines, hplace⟩ := hs.cons
  have hname := hline.advance
  have hopen := hname.advance
  have hsplit : (commaTokens (f.params.map param) ++ [.symbol .rightParen, .symbol .leftBrace]
        : List TokenKind)
      = (commaTokens (f.params.map param) ++ [.symbol .rightParen]) ++ [.symbol .leftBrace] := by
    simp
  have htype := reads_returnType f.type ⟨hline.1, hline.kind, rfl⟩ (by rw [hname.kind]; rfl)
  have hparams : s.advance.advance.advance.Ahead _ s₁ := hopen.advance
  rw [hsplit] at hparams
  obtain ⟨s₂, h₂, hbrace⟩ := Stream.ahead_append.1 hparams
  have hne : s₂.kind ≠ .symbol .semicolon := by rw [hbrace.kind]; rintro ⟨⟩
  obtain ⟨s₃, s₄, hbody, hclose, hnil⟩ :=
    Stmt.statements_lays (fun st _ => st.readable) text hd hlines
  obtain rfl := Stream.lays_nil.1 hnil
  rw [Stream.ahead_singleton hbrace] at hbody
  rw [functionDefinition, get_bind, bind_of_ok htype, bind_of_ok (identifier_of_kind hname.kind),
    bind_of_ok (expect_of_kind hopen.kind), bind_of_ok (reads_params f.params h₂ rfl),
    bind_of_ok (accept_of_kind_ne hne), if_neg Bool.false_ne_true,
    bind_of_ok (namedParams_some f.name.text s.location f.params),
    bind_of_ok (expect_of_kind hbrace.kind), bind_of_ok hbody,
    bind_of_ok (expect_of_kind hclose.kind), hplace (by rintro ⟨⟩), Stream.ahead_singleton hclose]
  rfl

/-- A function is told from a statement by its first line. -/
theorem looksLikeFunction_header (f : Function) (hs : s.Ahead f.header s') :
    looksLikeFunction s.rest = true := by
  obtain ⟨l₁, ts₁, finish₁, rfl, hs₁⟩ := hs.eq_cons
  obtain ⟨l₂, ts₂, finish₂, heq₂, hs₂⟩ := hs₁.eq_cons
  cases heq₂
  obtain ⟨l₃, ts₃, finish₃, heq₃, -⟩ := hs₂.eq_cons
  cases heq₃
  rfl

end Function

/-! ## Programs -/

namespace Item

theorem kind_ne_else {items : List Item} (hs : s.Lays number (items.flatMap lines) s')
    (hend : s'.rest = []) : s.kind ≠ .symbol .else := by
  intro hk
  cases items with
  | nil =>
    obtain rfl := Stream.lays_nil.1 hs
    rw [Stream.kind, hend] at hk
    cases hk
  | cons item rest =>
    cases item with
    | function f =>
      obtain ⟨s₁, h₁, -⟩ := hs.cons
      have htype := h₁.kind.symm.trans hk
      cases htype
    | statement st =>
      have hstart := (Stmt.lays_first hs).2.1
      rw [hk] at hstart
      cases hstart

theorem map_name_functions (text : Nat → String) (items : List Item) (number : Nat) :
    (functions text number items).map Stepwise.Function.name = items.filterMap name? := by
  induction items generalizing number with
  | nil => rfl
  | cons item rest ih =>
    cases item with
    | function f => exact congrArg (f.name.text :: ·) (ih _)
    | statement st => exact ih _

/-- A function of a new name is added after the others. -/
theorem define_of_not_mem {p : Stepwise.Program} {f : Stepwise.Function}
    (h : f.name ∉ p.functions.map Stepwise.Function.name) :
    p.define f = { p with functions := p.functions ++ [f] } := by
  have hfilter : (p.functions.filter fun g => g.name != f.name) = p.functions := by
    rw [List.filter_eq_self]
    intro g hg
    refine bne_iff_ne.2 fun heq => h ?_
    rw [← heq]
    exact List.mem_map_of_mem hg
  rw [Program.define, hfilter]

/-- The rest of the top level, after a piece that is next. -/
theorem topLevels_piece {p p' : Stepwise.Program} {fuel : Nat} (hne : s.rest ≠ [])
    (h : topLevel text (recovered text (Parser.statement text depth)) p s = (p', s'))
    (hfuel : s.length < fuel) :
    ∃ fuel', s'.length < fuel' ∧
      topLevels text (recovered text (Parser.statement text depth)) fuel p s
        = topLevels text (recovered text (Parser.statement text depth)) fuel' p' s' := by
  cases fuel with
  | zero => cases hfuel
  | succ fuel =>
    have hshort := (topLevel_spec (advances_statement text depth) text p hne).2
    rw [h] at hshort
    exact ⟨fuel, Nat.lt_of_lt_of_le hshort (Nat.le_of_lt_succ hfuel), topLevels_step hne h fuel⟩

/-- The top level is read piece by piece. -/
theorem topLevels_lays {items : List Item} {p : Stepwise.Program} {fuel : Nat}
    (hd : ∀ item ∈ items, item.levels ≤ depth) (hs : s.Lays number (items.flatMap lines) s')
    (hend : s'.rest = []) (hfuel : s.length < fuel)
    (hnew : (p.functions.map Stepwise.Function.name ++ items.filterMap name?).Nodup) :
    topLevels text (recovered text (Parser.statement text depth)) fuel p s
      = { p with
          functions := p.functions ++ functions text number items
          body := p.body ++ body text number items } := by
  induction items generalizing fuel number p s with
  | nil =>
    obtain rfl := Stream.lays_nil.1 hs
    rw [topLevels_end hend, functions, body, List.append_nil, List.append_nil]
  | cons item rest ih =>
    obtain ⟨s₁, h₁, h₂⟩ := hs.append
    obtain ⟨hlevels, hrest⟩ := List.forall_mem_cons.1 hd
    cases item with
    | function f =>
      obtain ⟨s₂, hline, -⟩ := h₁.cons
      have hbrace : s.kind.isSymbol .rightBrace = false := by rw [hline.kind]; rfl
      obtain ⟨fuel', hfuel', heq⟩ := topLevels_piece hline.1
        (topLevel_function hbrace (f.looksLikeFunction_header hline)
          (f.functionDefinition_lays text hlevels h₁)) hfuel
      have hname : (f.lower text number).name ∉ p.functions.map Stepwise.Function.name :=
        fun hmem => (List.nodup_append.1 hnew).2.2 _ hmem _ List.mem_cons_self rfl
      have hnew' : ((p.functions ++ [f.lower text number]).map Stepwise.Function.name
          ++ rest.filterMap name?).Nodup := by
        rwa [List.map_append, List.append_assoc]
      rw [define_of_not_mem hname] at heq
      refine heq.trans ((ih hrest h₂ hfuel' hnew').trans ?_)
      rw [List.append_assoc]
      rfl
    | statement st =>
      obtain ⟨hne, hstart, -⟩ := Stmt.lays_first hs
      rw [Stmt.starts, Bool.and_eq_true, Bool.not_eq_true'] at hstart
      obtain ⟨fuel', hfuel', heq⟩ := topLevels_piece hne
        (topLevel_statement hstart.1 (Stmt.looksLikeFunction_lines hs)
          (st.readable.recovered text hlevels h₁ (kind_ne_else h₂ hend))) hfuel
      refine heq.trans (Eq.trans (ih hrest h₂ hfuel' ?_) ?_)
      · exact hnew
      · rw [List.append_assoc]
        rfl

end Item

/-! ## All lines can be written -/

/-- Whether all tokens of lines can be written. -/
def allWritable (lines : List (List TokenKind)) : Bool := lines.all writable

@[simp] theorem allWritable_nil : allWritable [] = true := rfl

@[simp] theorem allWritable_cons (ks : List TokenKind) (lines : List (List TokenKind)) :
    allWritable (ks :: lines) = (writable ks && allWritable lines) := rfl

@[simp] theorem allWritable_append (lines lines' : List (List TokenKind)) :
    allWritable (lines ++ lines') = (allWritable lines && allWritable lines') := List.all_append

@[simp] theorem Decl.writable_tokens (d : Decl) : writable d.tokens = true := by
  cases d with
  | scalar type name init => cases init <;> simp [tokens, declared]
  | array type name size init shaped => cases init <;> simp [tokens, declared, braces]

@[simp] theorem Clause.writable_tokens (c : Clause) : writable c.tokens = true := by
  cases c <;> simp [tokens]

@[simp] theorem isWritable_typeName (kind : SequenceKind) :
    (TokenKind.ident (typeName kind)).isWritable = true := by
  cases kind <;> decide

namespace Stmt

mutual

theorem allWritable_lines : ∀ st : Stmt, allWritable st.lines = true
  | declare d => by simp [lines]
  | construct kind element name => by simp [lines]
  | expr e => by simp [lines]
  | branch condition thenBody => by simp [lines, header, allWritable_allLines thenBody]
  | branchElse condition thenBody elseBody => by
    simp [lines, header, allWritable_allLines thenBody, allWritable_allLines elseBody]
  | whileLoop condition body => by simp [lines, header, allWritable_allLines body]
  | doWhile body condition => by simp [lines, allWritable_allLines body]
  | forLoop init condition increment body => by
    simp [lines, clauses, allWritable_allLines body]
  | block body => by simp [lines, allWritable_allLines body]
  | ret value => by simp [lines]
  | jump kind => by simp [lines]

theorem allWritable_allLines : ∀ body : List Stmt, allWritable (allLines body) = true
  | [] => rfl
  | st :: rest => by simp [allLines, st.allWritable_lines, allWritable_allLines rest]

end

end Stmt

theorem Item.allWritable_lines (item : Item) : allWritable item.lines = true := by
  cases item with
  | function f =>
    have hparams : writable (commaTokens (f.params.map Function.param)) = true :=
      writable_commaTokens (List.forall_mem_map.2 fun p _ => by simp [Function.param])
    simp [lines, Function.lines, Function.header, hparams, Stmt.allWritable_allLines]
  | statement st => exact st.allWritable_lines

/-! ## Nothing is malformed -/

namespace Stmt

theorem understood_decl (d : Decl) : d.lower.understood = true := by
  cases d <;> rfl

theorem understood_clause (c : Clause) : Stepwise.Stmt.allUnderstood c.lower = true := by
  cases c with
  | declare d => rw [Clause.lower, Stmt.allUnderstood_singleton, understood_decl]
  | _ => rfl

mutual

theorem understood_lower (text : Nat → String) :
    ∀ (st : Stmt) (number : Nat), (st.lower text number).understood = true
  | declare d, _ => understood_decl d
  | construct _ _ _, _ => rfl
  | expr _, _ => rfl
  | branch _ thenBody, number => understood_lowerAll text thenBody (number + 1)
  | branchElse _ thenBody elseBody, number => by
    rw [lower, Stmt.understood, understood_lowerAll text thenBody,
      understood_lowerAll text elseBody]
    rfl
  | whileLoop _ body, number => understood_lowerAll text body (number + 1)
  | doWhile body _, number => understood_lowerAll text body (number + 1)
  | forLoop init _ _ body, number => by
    rw [lower, Stmt.understood, understood_clause, understood_lowerAll text body]
    rfl
  | block body, number => understood_lowerAll text body (number + 1)
  | ret _, _ => rfl
  | jump _, _ => rfl

theorem understood_lowerAll (text : Nat → String) :
    ∀ (body : List Stmt) (number : Nat),
      Stepwise.Stmt.allUnderstood (lowerAll text number body) = true
  | [], _ => rfl
  | st :: rest, number => by
    rw [lowerAll, Stmt.allUnderstood, Stmt.allUnderstood, understood_lower text st,
      understood_lowerAll text rest]
    rfl

end

end Stmt

namespace Item

theorem understood_body (text : Nat → String) (items : List Item) (number : Nat) :
    Stmt.allUnderstood (body text number items) = true := by
  induction items generalizing number with
  | nil => rfl
  | cons item rest ih =>
    cases item with
    | function f => exact ih _
    | statement st =>
      rw [body, Stmt.allUnderstood, Stmt.allUnderstood, Stmt.understood_lower text st, ih]
      rfl

theorem understood_functions (text : Nat → String) (items : List Item) (number : Nat) :
    ∀ f ∈ functions text number items, Stmt.allUnderstood f.body = true := by
  induction items generalizing number with
  | nil => nofun
  | cons item rest ih =>
    cases item with
    | function f =>
      exact List.forall_mem_cons.2 ⟨Stmt.understood_lowerAll text f.body (number + 1), ih _⟩
    | statement st => exact ih _

end Item

namespace Program

/-- The program that is run, without the call to `main`. -/
def uncalled (p : Program) : Stepwise.Program where
  functions := Item.functions (Program.lineText p.text) 1 p.items
  body := Item.body (Program.lineText p.text) 1 p.items

theorem isSome_main (p : Program) : (p.uncalled.function? "main").isSome = p.hasMain := by
  rw [Bool.eq_iff_iff, Program.function?, List.find?_isSome, hasMain, List.contains_iff_mem,
    ← Item.map_name_functions (Program.lineText p.text) p.items 1, List.mem_map]
  simp [uncalled]

theorem callMain_uncalled (p : Program) : p.uncalled.callMain = p.lower := by
  have hmain := p.isSome_main
  rw [Program.callMain, lower]
  cases hfind : p.uncalled.function? "main" with
  | some f =>
    rw [hfind] at hmain
    rw [← hmain]
    rfl
  | none =>
    rw [hfind] at hmain
    rw [← hmain]
    exact congrArg (Stepwise.Program.mk _ · none) (List.append_nil _).symm

theorem levels_le_iff {p : Program} {n : Nat} :
    p.levels ≤ n ↔ ∀ item ∈ p.items, item.levels ≤ n := by
  rw [levels]
  induction p.items with
  | nil => simp
  | cons item rest ih =>
    rw [List.map_cons, List.foldr_cons, Nat.max_le, ih, List.forall_mem_cons]

/-- **Reading inverts writing.**  The text of a program that is not nested too deeply is read as the
program it was written from, and all of it is understood. -/
theorem ofSource_text (p : Program) (h : p.levels ≤ maxNesting) :
    Program.ofSource p.text = p.lower ∧
      Stmt.allUnderstood (Program.ofSource p.text).body = true ∧
      ∀ f ∈ (Program.ofSource p.text).functions, Stmt.allUnderstood f.body = true := by
  have hwritable : ∀ ks ∈ p.items.flatMap Item.lines, ∀ k ∈ ks, k.isWritable = true := by
    intro ks hks
    obtain ⟨item, -, hitem⟩ := List.mem_flatMap.1 hks
    have hline := List.all_eq_true.1 item.allWritable_lines ks hitem
    exact List.all_eq_true.1 hline
  obtain ⟨s, s', hs, hend, hprogram⟩ := Program.ofSource_spellLines hwritable (rfl : p.text = _)
  have htop := @Item.topLevels_lays (Program.lineText p.text) maxNesting 1 s s' p.items {}
    (s.length + 1) (levels_le_iff.1 h) hs hend (Nat.lt_succ_self _) p.distinct
  have hlower : Program.ofSource p.text = p.lower := by
    rw [hprogram, htop]
    exact p.callMain_uncalled
  refine ⟨hlower, ?_, ?_⟩
  · rw [hlower, lower, Stmt.allUnderstood_append, Item.understood_body]
    split <;> rfl
  · rw [hlower]
    exact Item.understood_functions _ p.items 1

/-- A program that fills a stack and empties it again:
```
stack < int > s ;
int total = 0 ;
void fill ( int n ) {
for ( int i = 0 ; ( i < n ) ; i ++ ) {
s . push ( ( i * 2 ) ) ;
}
}
int main ( ) {
fill ( 3 ) ;
do {
total += ( s . top ( ) ) ;
s . pop ( ) ;
} while ( ! ( s . empty ( ) ) ) ;
return total ;
}
``` -/
def fillAndDrain : Program where
  items :=
    let s : Name := ⟨"s", by decide, by decide⟩
    let total : Name := ⟨"total", by decide, by decide⟩
    let n : Name := ⟨"n", by decide, by decide⟩
    let i : Name := ⟨"i", by decide, by decide⟩
    let fill : Name := ⟨"fill", by decide, by decide⟩
    let int : ScalarType := ⟨"int", by decide⟩
    let method (name : Name) (args : List Expr) : Expr := .method (.var s) name args
    let number (n : Int64) (h : 0 ≤ n) : Expr := .literal (.int n h)
    [.statement (.construct .stack int s),
     .statement (.declare (.scalar int total (some (number 0 (by decide))))),
     .function ⟨⟨"void", by decide⟩, fill, [(int, n)],
       [.forLoop (.declare (.scalar int i (some (number 0 (by decide)))))
         (some (.binary .lt (.var i) (.var n))) [.step .postInc (.var i)]
         [.expr (method ⟨"push", by decide, by decide⟩
           [.binary .mul (.var i) (number 2 (by decide))])]]⟩,
     .function ⟨int, ⟨"main", by decide, by decide⟩, [],
       [.expr (.call fill [number 3 (by decide)]),
        .doWhile
          [.expr (.update .add (.var total) (method ⟨"top", by decide, by decide⟩ [])),
           .expr (method ⟨"pop", by decide, by decide⟩ [])]
          (.unary .not (method ⟨"empty", by decide, by decide⟩ [])),
        .ret (some (.var total))]⟩]
  distinct := by decide

theorem ofSource_text_fillAndDrain :
    fillAndDrain.levels ≤ maxNesting ∧
      (Program.ofSource fillAndDrain.text = fillAndDrain.lower ∧
        Stmt.allUnderstood (Program.ofSource fillAndDrain.text).body = true ∧
        ∀ f ∈ (Program.ofSource fillAndDrain.text).functions,
          Stmt.allUnderstood f.body = true) :=
  ⟨by decide, ofSource_text fillAndDrain (by decide)⟩

end Program

end Surface

end Stepwise
