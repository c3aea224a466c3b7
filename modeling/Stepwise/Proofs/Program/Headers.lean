import Stepwise.Program.Source
import Stepwise.Proofs.Program.Reads

/-!
# Headers of functions

Two parts of the parser know what the header of a function looks like.  At the top level
`looksLikeFunction` looks ahead to tell a function from a statement, and `functionDefinition` reads
it.  They do not know the same.

* `TypeWords` are the words of a return type as both describe it: scalar types, a generic type, or a
  name.  `Stream.Header` is a whole header, with `const` before these words and pointer marks after
  them.
* `Parser.functionHeader_of_header`: each header is read.
* `Parser.looksLikeFunction_iff`: each is recognized, except those where pointer marks follow a mere
  name.
* `Parser.functionHeader_iff`: what is recognized is read, except where `const`, or after a generic
  type also a scalar type, follows the words of the type.
-/

set_option autoImplicit false

namespace Stepwise

/-! ## Types -/

/-- The number of angle brackets that a token opens, less those that it closes. -/
def TokenKind.angle : TokenKind → Int
  | .symbol .less => 1
  | .symbol .greater => -1
  | .symbol .shiftRight => -2
  | _ => 0

/-- Whether a list of template arguments cannot go on with the token. -/
def TokenKind.breaksTemplate : TokenKind → Bool
  | .symbol .semicolon | .symbol .leftBrace | .eof => true
  | _ => false

/-- Tokens of which the last one, and none before it, closes the `depth` angle brackets that are
open before them. -/
inductive Closes : Int → List TokenKind → Prop
  | last {depth : Int} {k : TokenKind} (hk : k.breaksTemplate = false) (h : depth + k.angle ≤ 0) :
      Closes depth [k]
  | more {depth : Int} {k : TokenKind} {ks : List TokenKind} (hk : k.breaksTemplate = false)
      (h : 0 < depth + k.angle) (hrest : Closes (depth + k.angle) ks) : Closes depth (k :: ks)

/-- The words of a return type: scalar types, a generic type with its arguments, or a name. -/
inductive TypeWords : List TokenKind → Prop
  | scalars (name : String) (names : List String) :
      TypeWords (.type name :: names.map TokenKind.type)
  | generic (name : String) {arguments : List TokenKind} (h : Closes 1 arguments) :
      TypeWords (.ident name :: .symbol .less :: arguments)
  | user (name : String) : TypeWords [.ident name]

theorem templateEnd?_cons (depth : Int) (t : Token) (ts : List Token) :
    templateEnd? depth (t :: ts)
      = if t.kind.breaksTemplate then none
        else if depth + t.kind.angle ≤ 0 then some ts
        else templateEnd? (depth + t.kind.angle) ts := by
  obtain ⟨k, l⟩ := t
  have hother : k.angle = 0 → depth = depth + k.angle := fun h => by rw [h, Int.add_zero]
  cases k with
  | symbol c => cases c <;> first | rfl | exact hother rfl ▸ rfl
  | _ => first | rfl | exact hother rfl ▸ rfl

theorem closes_cons {depth : Int} {k : TokenKind} {ks : List TokenKind} :
    Closes depth (k :: ks) ↔ k.breaksTemplate = false ∧
      if depth + k.angle ≤ 0 then ks = [] else Closes (depth + k.angle) ks := by
  constructor
  · rintro (⟨hk, h⟩ | ⟨hk, h, hrest⟩)
    · exact ⟨hk, by rw [if_pos h]⟩
    · exact ⟨hk, by rwa [if_neg (Int.not_le.2 h)]⟩
  · rintro ⟨hk, h⟩
    split at h
    · next hclosed => exact h ▸ .last hk hclosed
    · next hopen => exact .more hk (Int.not_le.1 hopen) h

/-- What follows a list of template arguments is what follows its closing bracket. -/
theorem templateEnd?_iff {ts rest : List Token} : ∀ {depth : Int},
    templateEnd? depth ts = some rest ↔
      ∃ read, ts = read ++ rest ∧ Closes depth (read.map Token.kind) := by
  induction ts with
  | nil =>
    intro depth
    refine ⟨nofun, ?_⟩
    rintro ⟨read, hread, hcloses⟩
    obtain ⟨rfl, -⟩ := List.append_eq_nil_iff.1 hread.symm
    cases hcloses
  | cons t ts ih =>
    intro depth
    have hread : (∃ read, t :: ts = read ++ rest ∧ Closes depth (read.map Token.kind)) ↔
        ∃ read, ts = read ++ rest ∧ Closes depth (t.kind :: read.map Token.kind) := by
      constructor
      · rintro ⟨_ | ⟨u, read⟩, heq, hcloses⟩
        · cases hcloses
        · cases heq
          exact ⟨read, rfl, hcloses⟩
      · rintro ⟨read, rfl, hcloses⟩
        exact ⟨t :: read, rfl, hcloses⟩
    rw [hread, templateEnd?_cons]
    simp only [closes_cons]
    cases t.kind.breaksTemplate with
    | true => simp
    | false =>
      by_cases hclosed : depth + t.kind.angle ≤ 0
      · simp [hclosed]
      · simp [hclosed, ih]

/-- Nothing is passed over where the next token does not satisfy `p`. -/
theorem dropWhile_of_nextKind {p : TokenKind → Bool} {ts : List Token}
    (h : p (nextKind ts) = false) : ts.dropWhile (fun t => p t.kind) = ts := by
  cases ts with
  | nil => rfl
  | cons t ts => exact List.dropWhile_cons_of_neg (Bool.not_eq_true _ ▸ h)

/-! ## Headers -/

/-- The tokens of a header: `const`, the words of a type, pointer marks, a name and a
parenthesis. -/
def headerTokens (consts : Nat) (words marks : List TokenKind) (name : String) : List TokenKind :=
  List.replicate consts (.symbol .const) ++ (words ++ (marks ++ [.ident name, .symbol .leftParen]))

/-- The words of a type and a word after them that might belong to it, but has to stand before them:
`const` after scalar types, or `const` or a scalar type after a generic one. -/
inductive LateWords : List TokenKind → Prop
  | scalars (name : String) (names : List String) :
      LateWords ((.type name :: names.map TokenKind.type) ++ [.symbol .const])
  | generic (name : String) {arguments : List TokenKind} {k : TokenKind} (h : Closes 1 arguments)
      (hk : (k.isConst || k.isType) = true) :
      LateWords ((.ident name :: .symbol .less :: arguments) ++ [k])

namespace Stream

variable {s s' : Stream} {k : TokenKind} {ks : List TokenKind} {p : TokenKind → Bool}

/-- A type is next that has such a word after it. -/
def Late (s : Stream) : Prop :=
  ∃ consts words s', LateWords words ∧ s.Ahead (List.replicate consts (.symbol .const) ++ words) s'

theorem ahead_iff : s.Ahead ks s' ↔
    ∃ read, s = ⟨read ++ s'.rest, s'.finish⟩ ∧ read.map Token.kind = ks := by
  constructor
  · intro h
    induction ks generalizing s with
    | nil => exact ⟨[], h, rfl⟩
    | cons k ks ih =>
      obtain ⟨l, rest, finish, rfl, hrest⟩ := h.eq_cons
      obtain ⟨read, heq, hkinds⟩ := ih hrest
      cases heq
      exact ⟨⟨k, l⟩ :: read, rfl, congrArg (k :: ·) hkinds⟩
  · rintro ⟨read, rfl, rfl⟩
    induction read with
    | nil => rfl
    | cons t read ih => exact ⟨nofun, rfl, ih⟩

/-- The tokens that satisfy `p` are passed over. -/
theorem Ahead.dropWhile (hs : s.Ahead ks s') (hks : ∀ k ∈ ks, p k = true)
    (hstop : p s'.kind = false) :
    s.rest.dropWhile (fun t => p t.kind) = s'.rest := by
  obtain ⟨read, rfl, rfl⟩ := ahead_iff.1 hs
  rw [List.dropWhile_append_of_pos fun t ht => hks t.kind (List.mem_map_of_mem ht)]
  exact dropWhile_of_nextKind (Parser.kind_eq_nextKind s' ▸ hstop)

/-- The longest run of tokens that satisfy `p`. -/
theorem exists_ahead_dropWhile (s : Stream) (p : TokenKind → Bool) (heof : p .eof = false) :
    ∃ ks s', s.Ahead ks s' ∧ s'.rest = s.rest.dropWhile (fun t => p t.kind) ∧
      (∀ k ∈ ks, p k = true) ∧ p s'.kind = false := by
  refine ⟨(s.rest.takeWhile fun t => p t.kind).map Token.kind,
    ⟨s.rest.dropWhile fun t => p t.kind, s.finish⟩, ?_, rfl, ?_, ?_⟩
  · rw [ahead_iff]
    exact ⟨_, by rw [List.takeWhile_append_dropWhile], rfl⟩
  · intro k hk
    obtain ⟨t, ht, rfl⟩ := List.mem_map.1 hk
    exact List.all_eq_true.1 List.all_takeWhile t ht
  · have hnot := List.head?_dropWhile_not (fun t : Token => p t.kind) s.rest
    rw [Stream.kind]
    cases hrest : s.rest.dropWhile fun t => p t.kind with
    | nil => exact heof
    | cons t ts =>
      rw [hrest] at hnot
      exact hnot

end Stream

namespace Parser

variable {s s' : Stream} {p : TokenKind → Bool} {consts : Nat} {name : String}
  {words marks : List TokenKind}

/-- The header of a function: its return type, its name and the parenthesis that opens its
parameters. -/
def functionHeader : Parser String := do
  returnType
  let name ← identifier
  expect .leftParen "after function name"
  return name

/-- What is read of a function after its header, which starts at `location`. -/
def functionAfter (member : Parser (List Stmt)) (location : Location) (name : String) :
    Parser (Option Function) := do
  let params ← parameters
  if ← accept .semicolon then
    return none
  else
    let names ← namedParams name location params
    expect .leftBrace "before function body"
    let stmts ← statements member
    expect .rightBrace "after function body"
    return some { name, params := names, body := stmts, location }

/-- A function is read by its header. -/
theorem functionDefinition_eq (member : Parser (List Stmt)) (s : Stream) :
    functionDefinition member s = (functionHeader >>= functionAfter member s.location) s := by
  rw [functionDefinition, get_bind, functionHeader]
  simp only [bind_assoc, pure_bind]
  rfl

theorem skipWhile_of_ahead {ks : List TokenKind} (hs : s.Ahead ks s') (hks : ∀ k ∈ ks, p k = true)
    (hstop : p s'.kind = false) : (skipWhile p : Parser Unit) s = .ok () s' := by
  have hskip : (skipWhile p : Parser Unit) s
      = .ok () { s with rest := s.rest.dropWhile fun t => p t.kind } := rfl
  rw [hskip, hs.dropWhile hks hstop]
  obtain ⟨read, rfl, -⟩ := Stream.ahead_iff.1 hs
  rfl

theorem isConst_of_mem_replicate {k : TokenKind}
    (h : k ∈ List.replicate consts (TokenKind.symbol .const)) : k.isConst = true := by
  rw [List.eq_of_mem_replicate h]
  rfl

theorem TypeWords.kind_cases (hw : TypeWords words) (hs : s.Ahead words s') :
    s.kind.isConst = false ∧ (s.kind.isType = true ∨ s.kind.isIdent = true) := by
  cases hw with
  | scalars => rw [hs.kind]; exact ⟨rfl, .inl rfl⟩
  | generic => rw [hs.kind]; exact ⟨rfl, .inr rfl⟩
  | user => rw [hs.kind]; exact ⟨rfl, .inr rfl⟩

/-- Template arguments are read through their closing bracket. -/
theorem templateArguments_of_ahead {arguments : List TokenKind}
    (hs : s.Ahead (.symbol .less :: arguments) s') (hcloses : Closes 1 arguments) :
    (templateArguments : Parser Unit) s = .ok () s' := by
  obtain ⟨read, hread, hkinds⟩ := Stream.ahead_iff.1 hs
  have hend : templateEnd? 0 s.rest = some s'.rest := by
    refine templateEnd?_iff.2 ⟨read, by rw [hread], ?_⟩
    rw [hkinds]
    exact .more rfl (by decide) hcloses
  rw [templateArguments, get_bind, hs.kind, hend, hread]
  rfl

/-- The words of a type are read, and pointer marks after them.  What follows the words must not be
taken for more of them. -/
theorem returnType_of_words (hw : TypeWords words)
    (hs : s.Ahead (List.replicate consts (.symbol .const) ++ words) s')
    (htype : (∀ k ∈ words.head?, k.isType = true) → s'.kind.isType = false)
    (hless : s'.kind ≠ .symbol .less) :
    (returnType : Parser Unit) s = (skipWhile TokenKind.isPointer : Parser Unit) s' := by
  obtain ⟨s₁, h₁, h₂⟩ := Stream.ahead_append.1 hs
  have hkind := TypeWords.kind_cases hw h₂
  rw [returnType, bind_of_ok (skipWhile_of_ahead h₁ (fun _ => isConst_of_mem_replicate) hkind.1),
    peek_bind]
  cases hw with
  | scalars name names =>
    have hall : ∀ k ∈ .type name :: names.map TokenKind.type, k.isType = true := by
      simp [TokenKind.isType]
    have hskip := skipWhile_of_ahead h₂ hall (htype fun k hk => by cases hk; rfl)
    have hscalar : s₁.kind.isType = true := by rw [h₂.kind]; rfl
    rw [if_pos hscalar, bind_of_ok hskip]
  | generic name hcloses =>
    have hname : ¬ s₁.kind.isType = true := by rw [h₂.kind]; nofun
    have hopen : s₁.advance.kind.isSymbol .less = true := by rw [h₂.advance.kind]; rfl
    rw [if_neg hname, bind_of_ok (identifier_of_kind h₂.kind), check_bind, if_pos hopen,
      bind_of_ok (templateArguments_of_ahead h₂.advance hcloses)]
  | user name =>
    have hname : ¬ s₁.kind.isType = true := by rw [h₂.kind]; nofun
    obtain rfl := Stream.ahead_singleton h₂
    have hplain : ¬s₁.advance.kind.isSymbol .less = true := fun h =>
      hless (TokenKind.isSymbol_iff.1 h)
    rw [if_neg hname, bind_of_ok (identifier_of_kind h₂.kind), check_bind, if_neg hplain]

/-- Pointer marks or a name are next. -/
theorem kind_of_marks (hmarks : ∀ k ∈ marks, k.isPointer = true)
    (hs : s.Ahead (marks ++ [.ident name, .symbol .leftParen]) s') :
    s.kind.isPointer = true ∨ s.kind.isIdent = true := by
  cases marks with
  | nil => rw [hs.kind]; exact .inr rfl
  | cons k marks =>
    rw [hs.kind]
    exact .inl (hmarks k List.mem_cons_self)

theorem isOther_of_pointer_or_ident {k : TokenKind} (hk : k.isPointer = true ∨ k.isIdent = true) :
    k.isConst = false ∧ k.isType = false ∧ k ≠ .symbol .less := by
  rcases hk with hk | hk
  · rw [TokenKind.isPointer, Bool.or_eq_true, TokenKind.isSymbol_iff, TokenKind.isSymbol_iff] at hk
    rcases hk with rfl | rfl <;> exact ⟨rfl, rfl, by simp⟩
  · cases k with
    | ident => exact ⟨rfl, rfl, by simp⟩
    | _ => cases hk

/-- **Every header is read.** -/
theorem functionHeader_of_header (hw : TypeWords words) (hmarks : ∀ k ∈ marks, k.isPointer = true)
    (hs : s.Ahead (headerTokens consts words marks name) s') :
    functionHeader s = .ok name s' := by
  rw [headerTokens, ← List.append_assoc] at hs
  obtain ⟨s₁, h₁, h₂⟩ := Stream.ahead_append.1 hs
  obtain ⟨-, htype, hless⟩ := isOther_of_pointer_or_ident (kind_of_marks hmarks h₂)
  obtain ⟨s₂, hpointers, hname⟩ := Stream.ahead_append.1 h₂
  have hreturn := returnType_of_words hw h₁ (fun _ => htype) hless
  rw [skipWhile_of_ahead hpointers hmarks (by rw [hname.kind]; rfl)] at hreturn
  rw [functionHeader, bind_of_ok hreturn, bind_of_ok (identifier_of_kind hname.kind),
    bind_of_ok (expect_of_kind hname.advance.kind), Stream.ahead_singleton hname.advance]
  rfl

/-- No header is read where a word of the type is late. -/
theorem functionHeader_of_late (h : s.Late) (name : String) (s' : Stream) :
    functionHeader s ≠ .ok name s' := by
  obtain ⟨consts, _, s₂, hlate, hs⟩ := h
  -- what is read is the type up to the late word, which is no name
  have hread : ∀ {words : List TokenKind} {k : TokenKind}, TypeWords words →
      ((∀ k ∈ words.head?, k.isType = true) → k.isType = false) →
      (k.isConst || k.isType) = true →
      s.Ahead (List.replicate consts (.symbol .const) ++ (words ++ [k])) s₂ →
      functionHeader s ≠ .ok name s' := by
    intro words k hw htype hk hs
    rw [← List.append_assoc] at hs
    obtain ⟨s₁, h₁, h₂⟩ := Stream.ahead_append.1 hs
    have hother : k.isPointer = false ∧ k.isIdent = false ∧ k ≠ .symbol .less := by
      rw [Bool.or_eq_true] at hk
      rcases hk with hk | hk
      · rw [TokenKind.isSymbol_iff.1 hk]
        exact ⟨rfl, rfl, nofun⟩
      · cases k with
        | type => exact ⟨rfl, rfl, nofun⟩
        | _ => cases hk
    rw [← h₂.kind] at htype hother
    have hreturn := returnType_of_words hw h₁ htype hother.2.2
    rw [skipWhile_of_ahead (show s₁.Ahead [] s₁ from rfl) nofun hother.1] at hreturn
    have hfails : Ends s₁ (fun _ _ => False) (fun _ => True)
        (identifier >>= fun name =>
          expect .leftParen "after function name" >>= fun _ => pure name) := by
      refine ends_identifier trivial fun name hname => ?_
      rw [hname] at hother
      cases hother.2.1
    rw [functionHeader, bind_of_ok hreturn]
    intro hok
    rw [Ends, hok] at hfails
    exact hfails
  cases hlate with
  | scalars name names => exact hread (.scalars name names) (fun _ => rfl) rfl hs
  | generic name hcloses hk =>
    refine hread (.generic name hcloses) (fun hhead => ?_) hk hs
    cases hhead _ rfl

/-! ## Lookahead -/

/-- Whether a word may belong to a type after its first word, as the lookahead has it. -/
def mayQualify (k : TokenKind) : Bool := k.isConst || k.isType

theorem dropWhile_consts (hs : s.Ahead (List.replicate consts (.symbol .const)) s')
    (hkind : s'.kind.isConst = false) :
    s.rest.dropWhile (fun t => t.kind.isConst) = s'.rest :=
  hs.dropWhile (fun _ => isConst_of_mem_replicate) hkind

/-- The lookahead passes over the words of a type, and over late words after them. -/
theorem returnTypeEnd?_of_type (hw : TypeWords words) (hname : ∀ name, words ≠ [.ident name])
    (hs : s.Ahead (List.replicate consts (.symbol .const) ++ words) s') :
    returnTypeEnd? s.rest = some (s'.rest.dropWhile fun t => mayQualify t.kind) := by
  obtain ⟨s₁, h₁, h₂⟩ := Stream.ahead_append.1 hs
  have hconsts := dropWhile_consts h₁ (TypeWords.kind_cases hw h₂).1
  cases hw with
  | scalars name names =>
    obtain ⟨l, rest, finish, rfl, hrest⟩ := h₂.eq_cons
    obtain ⟨read, heq, hkinds⟩ := Stream.ahead_iff.1 hrest
    cases heq
    have hpass : ∀ t ∈ read, mayQualify t.kind = true := by
      intro t ht
      have hmem := List.mem_map_of_mem (f := Token.kind) ht
      rw [hkinds] at hmem
      obtain ⟨name, -, hkind⟩ := List.mem_map.1 hmem
      rw [← hkind]
      rfl
    rw [returnTypeEnd?, hconsts]
    exact congrArg some (List.dropWhile_append_of_pos hpass)
  | generic name hcloses =>
    obtain ⟨l, rest, finish, rfl, hrest⟩ := h₂.eq_cons
    obtain ⟨l', rest', finish', heq, -⟩ := hrest.eq_cons
    cases heq
    obtain ⟨read, hread, hkinds⟩ := Stream.ahead_iff.1 hrest
    have hend : templateEnd? 0 (⟨.symbol .less, l'⟩ :: rest') = some s'.rest := by
      refine templateEnd?_iff.2 ⟨read, congrArg Stream.rest hread, ?_⟩
      rw [hkinds]
      exact .more rfl (by decide) hcloses
    rw [returnTypeEnd?, hconsts]
    change (templateEnd? 0 (⟨.symbol .less, l'⟩ :: rest')).map _ = _
    rw [hend]
    rfl
  | user name => exact absurd rfl (hname name)

/-- After a mere name the lookahead wants a name. -/
theorem returnTypeEnd?_of_name {user : String}
    (hs : s.Ahead (List.replicate consts (.symbol .const) ++ [.ident user]) s')
    (hless : s'.kind ≠ .symbol .less) :
    returnTypeEnd? s.rest = if s'.kind.isIdent then some s'.rest else none := by
  obtain ⟨s₁, h₁, h₂⟩ := Stream.ahead_append.1 hs
  have hconsts := dropWhile_consts h₁ (TypeWords.kind_cases (.user user) h₂).1
  obtain rfl := Stream.ahead_singleton h₂
  obtain ⟨l, rest, finish, rfl, -⟩ := h₂.eq_cons
  rw [returnTypeEnd?, hconsts]
  cases rest with
  | nil => rfl
  | cons t rest =>
    have hplain : ¬ t.kind.isSymbol .less = true := fun h => hless (TokenKind.isSymbol_iff.1 h)
    change (if t.kind.isSymbol .less = true then _ else _) = _
    rw [if_neg hplain]
    rfl

/-- After the type, pointer marks may follow, and then a name and a parenthesis. -/
theorem looksLikeFunction_of_end (h : returnTypeEnd? s.rest = some s'.rest)
    (hmarks : ∀ k ∈ marks, k.isPointer = true) {s'' : Stream}
    (hs : s'.Ahead (marks ++ [.ident name, .symbol .leftParen]) s'') :
    looksLikeFunction s.rest = true := by
  obtain ⟨s₁, hpointers, hname⟩ := Stream.ahead_append.1 hs
  have hdrop := hpointers.dropWhile hmarks (by rw [hname.kind]; rfl)
  obtain ⟨l, rest, finish, rfl, hnext⟩ := hname.eq_cons
  obtain ⟨l', rest', finish', heq, -⟩ := hnext.eq_cons
  cases heq
  rw [looksLikeFunction, h]
  dsimp only
  rw [hdrop]
  rfl

/-- **Every header is recognized,** except those of which the type is a mere name with pointer marks
after it. -/
theorem looksLikeFunction_iff (hw : TypeWords words) (hmarks : ∀ k ∈ marks, k.isPointer = true)
    (hs : s.Ahead (headerTokens consts words marks name) s') :
    looksLikeFunction s.rest = true ↔ ¬((∃ user, words = [.ident user]) ∧ marks ≠ []) := by
  rw [headerTokens, ← List.append_assoc] at hs
  obtain ⟨s₁, h₁, h₂⟩ := Stream.ahead_append.1 hs
  have hkind := kind_of_marks hmarks h₂
  obtain ⟨hconst, htype, hless⟩ := isOther_of_pointer_or_ident hkind
  by_cases huser : ∃ user, words = [.ident user]
  · obtain ⟨user, rfl⟩ := huser
    have hend := returnTypeEnd?_of_name h₁ hless
    cases marks with
    | nil =>
      rw [h₂.kind] at hend
      exact iff_of_true (looksLikeFunction_of_end hend hmarks h₂) fun h => h.2 rfl
    | cons k marks =>
      have hk := hmarks k List.mem_cons_self
      have hident : k.isIdent = false := by
        cases k with
        | symbol => rfl
        | _ => cases hk
      rw [h₂.kind, hident] at hend
      refine iff_of_false (fun h => ?_) fun h => h ⟨⟨user, rfl⟩, nofun⟩
      rw [looksLikeFunction, hend] at h
      cases h
  · have hend := returnTypeEnd?_of_type hw (fun user h => huser ⟨user, h⟩) h₁
    have hstop : mayQualify s₁.kind = false := by rw [mayQualify, hconst, htype]; rfl
    rw [dropWhile_of_nextKind (kind_eq_nextKind s₁ ▸ hstop)] at hend
    exact iff_of_true (looksLikeFunction_of_end hend hmarks h₂) fun h => huser h.1

/-- Whether pointer marks, a name and a parenthesis are next, as the lookahead has it. -/
theorem exists_marks {rest : List Token} (hrest : s.rest = rest)
    (h : (match rest.dropWhile fun t => t.kind.isPointer with
      | name :: paren :: _ => name.kind.isIdent && paren.kind.isSymbol .leftParen
      | _ => false) = true) :
    ∃ marks name s', (∀ k ∈ marks, k.isPointer = true) ∧
      s.Ahead (marks ++ [.ident name, .symbol .leftParen]) s' := by
  obtain ⟨marks, s₁, h₁, hdrop, hmarks, -⟩ := s.exists_ahead_dropWhile TokenKind.isPointer rfl
  rw [hrest] at hdrop
  rw [← hdrop] at h
  split at h
  · next t u ts heq =>
    rw [Bool.and_eq_true, TokenKind.isSymbol_iff] at h
    obtain ⟨hname, hparen⟩ := h
    obtain ⟨kind, l⟩ := t
    cases kind with
    | ident name =>
      refine ⟨marks, name, ⟨ts, s₁.finish⟩, hmarks, Stream.ahead_append.2 ⟨s₁, h₁, ?_⟩⟩
      refine Stream.ahead_iff.2 ⟨[⟨.ident name, l⟩, u], ?_, ?_⟩
      · cases s₁
        cases heq
        rfl
      · rw [List.map_cons, List.map_singleton, hparen]
    | _ => cases hname
  · cases h

/-- Where the lookahead finds a type, there are the words of one. -/
theorem exists_words {rest : List Token} (h : returnTypeEnd? s.rest = some rest) :
    ∃ consts words s', TypeWords words ∧
      s.Ahead (List.replicate consts (.symbol .const) ++ words) s' ∧
      ((∃ name names, words = .type name :: names) → s'.kind.isType = false) ∧
      ((∃ user, words = [.ident user]) → s'.kind.isIdent = true) := by
  obtain ⟨ks, s₁, h₁, hdrop, hks, -⟩ := s.exists_ahead_dropWhile TokenKind.isConst rfl
  have hconsts : ks = List.replicate ks.length (.symbol .const) :=
    List.eq_replicate_iff.2 ⟨rfl, fun k hk => TokenKind.isSymbol_iff.1 (hks k hk)⟩
  rw [hconsts] at h₁
  rw [returnTypeEnd?, ← hdrop] at h
  obtain ⟨ts, finish⟩ := s₁
  rcases ts with _ | ⟨⟨kind, l⟩, ts⟩
  · cases h
  cases kind with
  | type name =>
    obtain ⟨names, s₂, h₂, -, hnames, hstop⟩ :=
      Stream.exists_ahead_dropWhile ⟨ts, finish⟩ TokenKind.isType rfl
    obtain ⟨names, rfl⟩ : ∃ ns : List String, names = ns.map TokenKind.type := by
      clear h₂
      induction names with
      | nil => exact ⟨[], rfl⟩
      | cons k names ih =>
        obtain ⟨ns, rfl⟩ := ih fun k hk => hnames k (List.mem_cons_of_mem _ hk)
        have hk := hnames k List.mem_cons_self
        cases k with
        | type n => exact ⟨n :: ns, rfl⟩
        | _ => cases hk
    refine ⟨ks.length, _, s₂, .scalars name names, Stream.ahead_append.2 ⟨_, h₁, nofun, rfl, h₂⟩,
      fun _ => hstop, ?_⟩
    rintro ⟨user, huser⟩
    cases huser
  | ident name =>
    rcases ts with _ | ⟨u, ts⟩
    · cases h
    change (if u.kind.isSymbol .less = true then (templateEnd? 0 (u :: ts)).map _
      else if u.kind.isIdent = true then some (u :: ts) else none) = some rest at h
    split at h
    · next hless =>
      rw [TokenKind.isSymbol_iff] at hless
      obtain ⟨end', hend, -⟩ := Option.map_eq_some_iff.1 h
      obtain ⟨read, heq, hcloses⟩ := templateEnd?_iff.1 hend
      rcases read with _ | ⟨v, read⟩
      · cases hcloses
      obtain ⟨rfl, rfl⟩ := List.cons.inj heq
      rw [List.map_cons, hless, closes_cons] at hcloses
      refine ⟨ks.length, _, ⟨end', finish⟩, .generic name hcloses.2,
        Stream.ahead_append.2 ⟨_, h₁, nofun, rfl, nofun, hless, ?_⟩, ?_, ?_⟩
      · exact Stream.ahead_iff.2 ⟨read, rfl, rfl⟩
      · rintro ⟨_, _, heq⟩
        cases heq
      · rintro ⟨_, heq⟩
        cases heq
    · split at h
      · next hident =>
        refine ⟨ks.length, _, ⟨u :: ts, finish⟩, .user name,
          Stream.ahead_append.2 ⟨_, h₁, nofun, rfl, rfl⟩, ?_, fun _ => hident⟩
        rintro ⟨_, _, heq⟩
        cases heq
      · cases h
  | _ => cases h

/-- **What is recognized is a header,** or a word of the type is late. -/
theorem header_of_looksLikeFunction (h : looksLikeFunction s.rest = true) :
    s.Late ∨ ∃ consts words marks name s', TypeWords words ∧ (∀ k ∈ marks, k.isPointer = true) ∧
      s.Ahead (headerTokens consts words marks name) s' := by
  cases hend : returnTypeEnd? s.rest with
  | none =>
    rw [looksLikeFunction, hend] at h
    cases h
  | some rest =>
    rw [looksLikeFunction, hend] at h
    obtain ⟨consts, words, s₁, hw, h₁, hscalar, huser⟩ := exists_words hend
    by_cases hlate : mayQualify s₁.kind = true
    · have hnext : s₁.Ahead [s₁.kind] s₁.advance := by
        refine ⟨fun hnil => ?_, rfl, rfl⟩
        rw [Stream.kind, hnil] at hlate
        cases hlate
      have hahead : s.Ahead (List.replicate consts (.symbol .const) ++ (words ++ [s₁.kind]))
          s₁.advance := by
        rw [← List.append_assoc]
        exact Stream.ahead_append.2 ⟨s₁, h₁, hnext⟩
      refine .inl ⟨consts, words ++ [s₁.kind], _, ?_, hahead⟩
      cases hw with
      | scalars name names =>
        rw [mayQualify, hscalar ⟨_, _, rfl⟩, Bool.or_false] at hlate
        rw [TokenKind.isSymbol_iff.1 hlate]
        exact .scalars name names
      | generic name hcloses => exact .generic name hcloses hlate
      | user name =>
        have hident := huser ⟨name, rfl⟩
        cases hk : s₁.kind with
        | ident => rw [hk] at hlate; cases hlate
        | _ => rw [hk] at hident; cases hident
    · have hstop : mayQualify s₁.kind = false := eq_false_of_ne_true hlate
      have hrest : s₁.rest = rest := by
        by_cases hname : ∃ user, words = [.ident user]
        · have hident := huser hname
          obtain ⟨user, rfl⟩ := hname
          have hless : s₁.kind ≠ .symbol .less := by
            intro hk
            rw [hk] at hident
            cases hident
          rw [returnTypeEnd?_of_name h₁ hless, if_pos hident] at hend
          exact Option.some.inj hend
        · rw [returnTypeEnd?_of_type hw (fun user heq => hname ⟨user, heq⟩) h₁,
            dropWhile_of_nextKind (kind_eq_nextKind s₁ ▸ hstop)] at hend
          exact Option.some.inj hend
      obtain ⟨marks, name, s', hmarks, hs⟩ := exists_marks hrest h
      refine .inr ⟨consts, words, marks, name, s', hw, hmarks, ?_⟩
      rw [headerTokens, ← List.append_assoc]
      exact Stream.ahead_append.2 ⟨s₁, h₁, hs⟩

/-- **Lookahead and reading agree about headers,** with two exceptions.  Each header is read and
recognized, except that it is not recognized if pointer marks follow a mere name.  What is
recognized is read, except if a word of the type is late. -/
theorem lookahead_agrees (s : Stream) :
    (∀ consts words marks name s', TypeWords words → (∀ k ∈ marks, k.isPointer = true) →
      s.Ahead (headerTokens consts words marks name) s' →
      functionHeader s = .ok name s' ∧
        (looksLikeFunction s.rest = true ↔ ¬((∃ user, words = [.ident user]) ∧ marks ≠ []))) ∧
    (looksLikeFunction s.rest = true →
      ((∃ name s', functionHeader s = .ok name s') ↔ ¬s.Late)) := by
  refine ⟨fun consts words marks name s' hw hmarks hs =>
    ⟨functionHeader_of_header hw hmarks hs, looksLikeFunction_iff hw hmarks hs⟩, fun h => ?_⟩
  constructor
  · rintro ⟨name, s', hok⟩ hlate
    exact functionHeader_of_late hlate name s' hok
  · intro hlate
    obtain ⟨consts, words, marks, name, s', hw, hmarks, hs⟩ :=
      (header_of_looksLikeFunction h).resolve_left hlate
    exact ⟨name, s', functionHeader_of_header hw hmarks hs⟩

/-- Tokens of the given kinds, all at one place. -/
def streamOf (ks : List TokenKind) : Stream :=
  ⟨ks.map fun k => ⟨k, .start⟩, .start⟩

theorem ahead_streamOf (ks : List TokenKind) : (streamOf ks).Ahead ks (streamOf []) := by
  induction ks with
  | nil => rfl
  | cons k ks ih => exact ⟨nofun, rfl, ih⟩

/-- The header `const list<pair<int>>*& f(`. -/
def genericHeader : Stream :=
  streamOf (headerTokens 1 [.ident "list", .symbol .less, .ident "pair", .symbol .less, .type "int",
    .symbol .shiftRight] [.symbol .star, .symbol .ampersand] "f")

/-- A header with all parts is recognized and read. -/
theorem lookahead_agrees_genericHeader :
    looksLikeFunction genericHeader.rest = true ∧
      functionHeader genericHeader = .ok "f" (streamOf []) ∧ ¬genericHeader.Late := by
  have hcloses : Closes 1 [.ident "pair", .symbol .less, .type "int", .symbol .shiftRight] :=
    .more rfl (by decide) (.more rfl (by decide) (.more rfl (by decide) (.last rfl (by decide))))
  have hmarks : ∀ k ∈ [TokenKind.symbol .star, .symbol .ampersand], k.isPointer = true := by
    simp [TokenKind.isPointer, TokenKind.isSymbol]
  obtain ⟨hread, hiff⟩ := (lookahead_agrees genericHeader).1 1 _ _ "f" _ (.generic "list" hcloses)
    hmarks (ahead_streamOf _)
  have hfunction := hiff.2 fun h => by
    obtain ⟨⟨user, huser⟩, -⟩ := h
    cases huser
  exact ⟨hfunction, hread, ((lookahead_agrees genericHeader).2 hfunction).1 ⟨_, _, hread⟩⟩

/-- The header `Node* f(`. -/
def pointerHeader : Stream :=
  streamOf (headerTokens 0 [.ident "Node"] [.symbol .star] "f")

/-- The words `int const f(`. -/
def lateConst : Stream :=
  streamOf [.type "int", .symbol .const, .ident "f", .symbol .leftParen]

/-- **Lookahead and reading disagree** in both ways: a name with a pointer mark after it is the type
of a header, which is read, but it is not recognized; and a late `const` is recognized, but not
read. -/
theorem lookahead_disagrees :
    TypeWords [.ident "Node"] ∧ functionHeader pointerHeader = .ok "f" (streamOf []) ∧
      looksLikeFunction pointerHeader.rest = false ∧
      looksLikeFunction lateConst.rest = true ∧
        ∀ name s', functionHeader lateConst ≠ .ok name s' := by
  refine ⟨.user "Node", ?_, rfl, rfl, fun name s' => functionHeader_of_late ?_ name s'⟩
  · refine functionHeader_of_header (.user "Node") (fun k hk => ?_) (ahead_streamOf _)
    rw [List.mem_singleton.1 hk]
    rfl
  · exact ⟨0, _, streamOf [.ident "f", .symbol .leftParen], .scalars "int" [],
      nofun, rfl, nofun, rfl, rfl⟩

end Parser

end Stepwise
