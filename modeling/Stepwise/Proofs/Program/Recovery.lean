import Stepwise.Proofs.Program.Blocks

/-!
# Recovery stays inside its block

A statement that could not be understood must not take the rest of the text with it: the brace that
closes the block around it is not part of it, and the braces inside of it do not close that block.
`Parser.recovery_stays_inside` proves this of blocks that are `orderly`, for every statement at
every depth.

* `Parser.Keeps` is proved of each kind of statement, by its first token, and
  `Parser.keeps_statement` of all by induction on the depth.
* `Parser.recovery_escapes` shows what goes wrong otherwise.  Recovery starts counting braces where
  the error was found, so an error inside an initializer makes it stop at the initializer's brace.
  Where a body is missing the closing brace is taken for the body, and where the end of boilerplate
  or of template arguments is searched for braces are not counted at all.
-/

set_option autoImplicit false

namespace Stepwise

open BracketPair

namespace Parser

variable {root : List Token} {room : Nat} {excused : Prop} {s : Stream}

/-! ## Statements without a body -/

theorem Lands.keeps {p : Parser (List Stmt)} {i : Nat} (h : Lands root s room 0 i p) :
    Keeps root room s p :=
  h.imp (fun _ _ hs => hs.upto.imp (Nat.le_refl room) (absurd rfl))
    fun _ ⟨_, _, _, hs⟩ => hs.upto.within

/-- A statement that is the rest of another one. -/
theorem Upto.keeps {p : Parser (List Stmt)} (h : Upto root room False s)
    (hp : Keeps s.rest s.length s p) : Keeps root room s p := by
  refine Ends.imp hp (fun stmts s' h' => ?_) fun s' hwithin => ?_
  · exact (h.trans h').imp (Nat.le_of_lt h.1) (Or.elim · False.elim id)
  · obtain ⟨_, h'⟩ := hwithin
    exact (h.trans h').within

section Leaves

variable {b i : Nat}

theorem lands_expressionStatement (depth : Nat) (hs : At root (room + 1) b i s) :
    Lands root s room b i (expressionStatement (level depth)) :=
  ((steadyInner depth).expression hs).bind fun _ _ hs' =>
    ends_expect hs'.left fun hk => ends_pure (hs'.consume hk rfl)

theorem lands_returnStatement (depth : Nat) (hs : At root (room + 1) b i s) :
    Lands root s room b i (returnStatement (level depth)) := by
  rw [returnStatement]
  refine ends_checked fun bare => ?_
  extract_lets rest
  have hrest : ∀ value s', At root (room + 1) b i s' → Lands root s' room b i (rest value) :=
    fun value s' hs' => ends_expect hs'.left fun hk => ends_pure (hs'.consume hk rfl)
  split
  · exact hrest none s hs
  · exact ((steadyInner depth).expression hs).bind fun e s' hs' => hrest (some e) s' hs'

theorem lands_jumpStatement (jump : Jump) (hs : At root (room + 1) b i s) :
    Lands root s room b i (jumpStatement jump) :=
  ends_expect hs.left fun hk => ends_pure (hs.consume hk rfl)

theorem steady_forInit (depth : Nat) : Steady (forInit (level depth)) := by
  intro root room b i s hs
  have hwide := hs.mono (Nat.le_succ room)
  rw [forInit]
  refine ends_ifAccept (fun hk => ends_pure (hs.skip (by rw [hk]; rfl))) (ends_peek ?_)
  split
  · exact lands_scalarDeclaration depth hwide
  · exact lands_expressionStatement depth hwide

theorem steady_containerDeclarator (kind : SequenceKind) : Steady (containerDeclarator kind) := by
  intro root room b i s hs
  rw [containerDeclarator]
  refine ends_identifier hs.left fun name hk => ends_peek ?_
  have hname := hs.skip (by rw [hk]; rfl)
  split
  · exact ends_failHere hname.left _
  · exact ends_pure hname

end Leaves

/-! ## Tokens that are passed over -/

theorem throughSemicolon_append (ts : List Token) :
    throughSemicolon ts ++ (ts.dropWhile fun t => !t.kind.isSymbol .semicolon).tail = ts := by
  rw [throughSemicolon, List.append_assoc, ← List.drop_one, List.take_append_drop,
    List.takeWhile_append_dropWhile]

theorem throughSemicolon_ne_nil {ts : List Token} (h : ts ≠ []) : throughSemicolon ts ≠ [] := by
  cases ts with
  | nil => exact absurd rfl h
  | cons t ts =>
    rw [throughSemicolon, List.takeWhile_cons, List.dropWhile_cons]
    split <;> simp

theorem templateEnd?_suffix {depth : Int} {ts rest : List Token}
    (h : templateEnd? depth ts = some rest) : rest <:+ ts := by
  induction ts generalizing depth with
  | nil => cases h
  | cons t ts ih =>
    have hclose : ∀ depth : Int,
        (if depth ≤ 0 then some ts else templateEnd? depth ts) = some rest → rest <:+ t :: ts := by
      intro depth hdepth
      split at hdepth
      · rw [← Option.some.inj hdepth]
        exact List.suffix_cons t ts
      · exact (ih hdepth).trans (List.suffix_cons t ts)
    rw [templateEnd?] at h
    split at h
    case h_4 | h_5 | h_6 => cases h
    all_goals exact hclose _ h

theorem templateTokens_append {ts rest : List Token} (h : templateEnd? 0 ts = some rest) :
    templateTokens ts ++ rest = ts := by
  have hdrop := List.suffix_iff_eq_drop.1 (templateEnd?_suffix h)
  have happend := List.take_append_drop (ts.length - rest.length) ts
  rw [← hdrop] at happend
  rw [templateTokens, h]
  exact happend

theorem kindAt_one (s : Stream) : s.kindAt 1 = nextKind s.rest.tail := by
  rw [Stream.kindAt]
  rcases s.rest with _ | ⟨t, _ | ⟨u, ts⟩⟩ <;> rfl

theorem climb_passedOver (hs : Enclosed s.rest) : brace.climb 0 (passedOver s.rest) = some 0 := by
  have horder := hs.inOrder
  rw [inOrder, Bool.and_eq_true, beq_iff_eq] at horder
  exact horder.1

theorem keeps_skipStatement (hs : Enclosed s.rest)
    (hpass : passedOver s.rest = throughSemicolon s.rest) :
    Keeps s.rest s.length s (skipStatement >>= fun _ => pure []) := by
  have hlevel := climb_passedOver hs
  rw [hpass] at hlevel
  have hread : s.rest = throughSemicolon s.rest ++ (Stream.rest
      { s with rest := (s.rest.dropWhile fun t => !t.kind.isSymbol .semicolon).tail }) :=
    (throughSemicolon_append s.rest).symm
  have hupto := upto_of_climb hread (throughSemicolon_ne_nil hs.ne_nil) hlevel
  exact hupto.imp (Nat.le_refl _) False.elim

theorem ends_templateArguments (h : Upto root room excused s)
    (hlevel : brace.climb 0 (templateTokens s.rest) = some 0) :
    Ends s (fun _ => Upto root room excused) (Within root) templateArguments := by
  rw [templateArguments]
  refine ends_get ?_
  split
  · rename_i rest hless hend
    have hread : s.rest = templateTokens s.rest ++ (Stream.rest { s with rest }) :=
      (templateTokens_append hend).symm
    have hlen : rest.length ≤ s.length := (templateEnd?_suffix hend).length_le
    have hpast : Upto s.rest (s.length + 1) False { s with rest } :=
      ⟨Nat.lt_succ_of_le hlen, _, 0, hread, hlevel, .inl rfl⟩
    exact (h.trans hpast).imp h.1 (Or.elim · id False.elim)
  · exact ends_failHere h.within _

theorem keeps_containerDeclaration (kind : SequenceKind) (hs : Enclosed s.rest)
    (hk : s.kind.isBracket = false)
    (hpass : passedOver s.rest = templateTokens s.advance.rest) :
    Keeps s.rest s.length s (containerDeclaration kind) := by
  have hname := ((at_start s).skip hk).upto
  have hlevel := climb_passedOver hs
  rw [hpass] at hlevel
  refine ends_advance ((ends_templateArguments hname hlevel).bind fun _ s₁ h₁ => ?_)
  have hnames := steady_commaList (steady_containerDeclarator kind) (at_start s₁)
  refine (h₁.enter hnames).bind fun stmts s₂ h₂ => ?_
  refine ends_expect (h₁.trans h₂.upto).within fun hsemi => ends_pure ?_
  have hend := h₁.trans (h₂.consume hsemi rfl).upto
  exact hend.imp (Nat.le_of_lt_succ h₁.1) (Or.elim · (absurd rfl) (absurd rfl))

/-! ## Statements with a body -/

theorem groupEnd?_append {level next : Nat} {read : List Token}
    (h : paren.climb level read = some next) (ts : List Token) :
    groupEnd? level (read ++ ts) = groupEnd? next ts := by
  induction read generalizing level with
  | nil =>
    cases h
    rfl
  | cons t read ih =>
    rw [climb] at h
    rw [List.cons_append, groupEnd?]
    cases hstep : paren.step t.kind level with
    | none => rw [hstep] at h; cases h
    | some m =>
      rw [hstep] at h
      exact ih h

/-- What has been read between two parentheses at level zero is the head. -/
theorem headEnd?_eq {s s' : Stream} {b : Nat} (hk : s.kind = .symbol .leftParen)
    (hs : At s.advance.rest room b 0 s') (hk' : s'.kind = .symbol .rightParen) :
    headEnd? s.rest = some s'.advance.rest := by
  obtain ⟨-, read, hread, -, hparen, -⟩ := hs
  obtain ⟨t, ht, hst⟩ := exists_cons_of_kind hk'
  have hopen : (nextKind s.rest).isSymbol .leftParen = true := by
    rw [← kind_eq_nextKind]
    exact TokenKind.isSymbol_iff.2 hk
  have hclose : paren.step t.kind 0 = none := by
    rw [ht]
    rfl
  have htail : s.rest.tail = read ++ t :: s'.advance.rest := by
    rw [← hst]
    exact hread
  rw [headEnd?, if_pos hopen, htail, groupEnd?_append hparen, groupEnd?, hclose]

theorem kind_ne_of_bodyStart? {s s' : Stream} (hs : Enclosed s.rest)
    (h : bodyStart? s.rest = some s'.rest) : s'.kind ≠ .symbol .rightBrace := by
  have horder := hs.inOrder
  rw [inOrder, h, Bool.and_eq_true, Option.any_some, ← kind_eq_nextKind,
    Bool.not_eq_true'] at horder
  intro hk
  rw [TokenKind.isSymbol_iff.2 hk] at horder
  cases horder.2

/-- A condition is the head of its statement.  Levels are counted from its parenthesis on, so that
the one which ends it is known to be its partner. -/
theorem ends_condition (depth : Nat) (keyword : String) (h : Upto root room excused s) :
    Ends s (fun _ s' => Upto root room excused s' ∧ headEnd? s.rest = some s'.rest) (Within root)
      (condition (level depth) keyword) := by
  rw [condition]
  refine ends_expect h.within fun hk => ?_
  have hopen := h.symbol hk rfl
  have htest := (steadyInner depth).expression (at_start s.advance)
  refine (hopen.enter htest).bind fun e s' hs' => ?_
  have hupto := hopen.leaf hs' hopen.1
  exact ends_expect hupto.within fun hk' =>
    ends_pure ⟨hupto.symbol hk' rfl, headEnd?_eq hk hs' hk'⟩

section Bodies

variable {member : Parser (List Stmt)}

theorem bodyStart?_of_head {c : Symbol} (hk : s.kind = .symbol c)
    (hc : c = .if ∨ c = .while ∨ c = .for) : bodyStart? s.rest = headEnd? s.advance.rest := by
  rw [kind_eq_nextKind] at hk
  rw [bodyStart?, hk]
  rcases hc with rfl | rfl | rfl <;> rfl

theorem keeps_ifStatement (hm : Recovers member) (depth : Nat) (hs : Enclosed s.rest)
    (hk : s.kind = .symbol .if) :
    Keeps s.rest s.length s.advance (ifStatement (level depth) member) := by
  rw [ifStatement]
  refine (ends_condition depth "if" (upto_advance hk rfl)).bind fun test s₁ ⟨h₁, hhead⟩ => ?_
  have hbody : s₁.kind ≠ .symbol .rightBrace :=
    kind_ne_of_bodyStart? hs ((bodyStart?_of_head hk (.inl rfl)).trans hhead)
  refine (ends_body hm hs h₁ hbody).bind fun thenBody s₂ h₂ => ?_
  refine ends_ifAccept (fun helse => ?_) (ends_pure ?_)
  · have hbody' : s₂.advance.kind ≠ .symbol .rightBrace := by
      refine kind_ne_of_bodyStart? (h₂.enclosed hs) ?_
      rw [kind_eq_nextKind] at helse
      rw [bodyStart?, helse]
      rfl
    refine (ends_body hm hs (h₂.symbol helse rfl) hbody').bind fun elseBody s₃ h₃ => ends_pure ?_
    refine h₃.imp (Nat.le_refl _) fun hex => ?_
    rw [Stmt.allUnderstood_singleton, Stmt.understood, Bool.and_eq_false_iff]
    exact hex.imp (Or.elim · False.elim id) id
  · refine h₂.imp (Nat.le_refl _) fun hex => ?_
    rw [Stmt.allUnderstood_singleton, Stmt.understood]
    exact hex.elim False.elim id

theorem keeps_whileStatement (hm : Recovers member) (depth : Nat) (hs : Enclosed s.rest)
    (hk : s.kind = .symbol .while) :
    Keeps s.rest s.length s.advance (whileStatement (level depth) member) := by
  rw [whileStatement]
  refine (ends_condition depth "while" (upto_advance hk rfl)).bind fun test s₁ ⟨h₁, hhead⟩ => ?_
  have hbody : s₁.kind ≠ .symbol .rightBrace :=
    kind_ne_of_bodyStart? hs ((bodyStart?_of_head hk (.inr (.inl rfl))).trans hhead)
  refine (ends_body hm hs h₁ hbody).bind fun stmts s₂ h₂ => ends_pure ?_
  refine h₂.imp (Nat.le_refl _) fun hex => ?_
  rw [Stmt.allUnderstood_singleton, Stmt.understood]
  exact hex.elim False.elim id

theorem keeps_doStatement (hm : Recovers member) (depth : Nat) (hs : Enclosed s.rest)
    (hk : s.kind = .symbol .do) :
    Keeps s.rest s.length s.advance (doStatement (level depth) member) := by
  rw [doStatement]
  have hbody : s.advance.kind ≠ .symbol .rightBrace := by
    refine kind_ne_of_bodyStart? hs ?_
    rw [bodyStart?, ← kind_eq_nextKind, hk]
    rfl
  refine (ends_body hm hs (upto_advance hk rfl) hbody).bind fun stmts s₁ h₁ => ?_
  refine ends_expect h₁.within fun hwhile => ?_
  refine (ends_condition depth "while" (h₁.symbol hwhile rfl)).bind fun test s₂ ⟨h₂, _⟩ => ?_
  refine ends_expect h₂.within fun hsemi => ends_pure ?_
  refine (h₂.symbol hsemi rfl).imp (Nat.le_refl _) fun hex => ?_
  rw [Stmt.allUnderstood_singleton, Stmt.understood]
  exact hex.elim False.elim id

theorem keeps_forStatement (hm : Recovers member) (depth : Nat) (hs : Enclosed s.rest)
    (hk : s.kind = .symbol .for) :
    Keeps s.rest s.length s.advance (forStatement (level depth) member) := by
  rw [forStatement]
  have hfor := upto_advance hk rfl
  refine ends_expect hfor.within fun hparen => ?_
  have hopen := hfor.symbol hparen rfl
  -- The clauses are seen from the parenthesis before them, as in `ends_condition`.
  have hexpr := (steadyInner depth).expression
  refine (hopen.enter (steady_forInit depth (at_start _))).bind fun init s₁ h₁ => ?_
  refine ends_checked fun untested => ?_
  extract_lets rest
  have hrest : ∀ test s₂, At s.advance.advance.rest (s.advance.advance.length + 1) 0 0 s₂ →
      Keeps s.rest s.length s₂ (rest test) := by
    intro test s₂ h₂
    refine ends_expect (hopen.trans h₂.upto).within fun hsemi => ?_
    have h₃ := h₂.skip (by rw [hsemi]; rfl)
    refine ends_checked fun unstepped => ?_
    extract_lets loop
    have hloop : ∀ increment s₄, At s.advance.advance.rest (s.advance.advance.length + 1) 0 0 s₄ →
        Keeps s.rest s.length s₄ (loop increment) := by
      intro increment s₄ h₄
      have hupto := hopen.leaf h₄ hopen.1
      refine ends_expect hupto.within fun hclose => ?_
      have hbody : s₄.advance.kind ≠ .symbol .rightBrace :=
        kind_ne_of_bodyStart? hs ((bodyStart?_of_head hk (.inr (.inr rfl))).trans
          (headEnd?_eq hparen h₄ hclose))
      refine (ends_body hm hs (hupto.symbol hclose rfl) hbody).bind fun stmts s₅ h₅ => ends_pure ?_
      refine h₅.imp (Nat.le_refl _) fun hex => ?_
      rw [Stmt.allUnderstood_singleton, Stmt.understood, Bool.and_eq_false_iff]
      exact .inr (hex.elim False.elim id)
    split
    · exact hloop [] _ h₃
    · exact (hopen.enter (steady_commaList hexpr h₃)).bind hloop
  split
  · exact hrest none s₁ h₁
  · exact (hopen.enter (hexpr h₁)).bind fun e s₂ h₂ => hrest (some e) s₂ h₂

end Bodies

/-! ## All statements -/

theorem keeps_namedStatement (depth : Nat) {name : String} (hs : Enclosed s.rest)
    (hk : s.kind = .ident name) : Keeps s.rest s.length s (namedStatement (level depth) name) := by
  have hk' : nextKind s.rest = .ident name := by rw [← kind_eq_nextKind, hk]
  have hexpr : Keeps s.rest s.length s (expressionStatement (level depth)) :=
    (lands_expressionStatement depth (at_start s)).keeps
  rw [namedStatement]
  refine ends_get ?_
  extract_lets next declares
  have hnext : next = nextKind s.rest.tail := kindAt_one s
  split
  · rename_i hconsole
    refine keeps_skipStatement hs ?_
    rw [passedOver, hk']
    rw [hnext] at hconsole
    exact if_pos hconsole
  · rename_i hconsole
    split
    · rename_i hless
      split
      · rename_i kind hkind
        refine keeps_containerDeclaration kind hs (by rw [hk]; rfl) ?_
        rw [hnext] at hconsole hless
        rw [passedOver, hk']
        dsimp only
        rw [if_neg hconsole, hless, hkind]
        rfl
      · split
        · exact ends_failHere (upto_start s).within _
        · exact hexpr
    · exact hexpr

theorem keeps_statementBy {depth : Nat} {nested member : Parser (List Stmt)}
    (hn : ∀ s : Stream, Enclosed s.rest → Keeps s.rest s.length s nested) (hm : Recovers member)
    (hs : Enclosed s.rest) : Keeps s.rest s.length s (statementBy (level depth) nested member) := by
  rw [statementBy]
  refine ends_peek ?_
  split
  · rename_i hk
    exact ends_advance (ends_pure ((upto_advance hk rfl).imp (Nat.le_refl _) False.elim))
  · rename_i hk
    obtain ⟨stmts, s', hblock, hupto⟩ := block_spec hm hs hk
    refine ends_advance ?_
    rw [Ends, bind_of_ok hblock]
    refine hupto.imp (Nat.le_refl _) fun hex => ?_
    rw [Stmt.allUnderstood_singleton, Stmt.understood]
    exact hex
  · rename_i hk
    exact ends_advance (keeps_ifStatement hm depth hs hk)
  · rename_i hk
    exact ends_advance (keeps_whileStatement hm depth hs hk)
  · rename_i hk
    exact ends_advance (keeps_doStatement hm depth hs hk)
  · rename_i hk
    exact ends_advance (keeps_forStatement hm depth hs hk)
  · rename_i hk
    have hnext := (at_start s).skip (by rw [hk]; rfl)
    exact ends_advance (lands_returnStatement depth hnext).keeps
  · rename_i hk
    have hnext := (at_start s).skip (by rw [hk]; rfl)
    exact ends_advance (lands_jumpStatement .break hnext).keeps
  · rename_i hk
    have hnext := (at_start s).skip (by rw [hk]; rfl)
    exact ends_advance (lands_jumpStatement .continue hnext).keeps
  · rename_i hk
    refine keeps_skipStatement hs ?_
    rw [passedOver, ← kind_eq_nextKind, hk]
  · rename_i hk
    refine ends_peekAt ?_
    split
    -- In front of a name `const` is dropped, and what follows is read one level deeper.
    · have hconst := upto_advance hk rfl
      exact ends_advance (hconst.keeps (hn s.advance (hconst.enclosed hs)))
    · exact (lands_scalarDeclaration depth (at_start s)).keeps
  · exact (lands_scalarDeclaration depth (at_start s)).keeps
  · rename_i name hk
    exact keeps_namedStatement depth hs hk
  · exact (lands_expressionStatement depth (at_start s)).keeps

/-- **Every statement keeps to its block,** at every depth. -/
theorem keeps_statement (lineText : Nat → String) :
    ∀ (depth : Nat) (s : Stream), Enclosed s.rest →
      Keeps s.rest s.length s (statement lineText depth)
  | 0, s, _ => ends_failHere (upto_start s).within _
  | depth + 1, _, hs =>
    have h := keeps_statement lineText depth
    keeps_statementBy h (recovers_recovered h) hs

/-! ## Blocks -/

section Block

variable {inside after : List Token} {close : Token}

/-- Tokens that are read without closing the block are part of its inside. -/
theorem prefix_of_climb {read rest : List Token} {level : Nat}
    (heq : inside ++ close :: after = read ++ rest) (hread : brace.climb 0 read = some level)
    (hinside : brace.Paired inside) (hclose : close.kind = .symbol .rightBrace) :
    read <+: inside := by
  rcases List.append_eq_append_iff.1 heq with ⟨more, rfl, hmore⟩ | ⟨more, rfl, -⟩
  · cases more with
    | nil => simp
    | cons t more =>
      obtain ⟨rfl, -⟩ := List.cons.inj hmore
      rw [climb_append, hinside, Option.bind_some, climb, hclose] at hread
      cases hread
  · exact List.prefix_append read more

theorem enclosed_of_close (hinside : brace.Paired inside)
    (hclose : close.kind = .symbol .rightBrace)
    (horderly : orderly 0 (inside ++ close :: after) = true) :
    Enclosed (inside ++ close :: after) where
  closes := by
    rw [climb_append, hinside, Option.bind_some, climb, hclose]
    rfl
  orderly := horderly

theorem kind_ne_of_paired {rest : List Token} (hs : s.rest = inside ++ rest)
    (hinside : brace.Paired inside) (hne : inside ≠ []) : s.kind ≠ .symbol .rightBrace := by
  cases inside with
  | nil => exact absurd rfl hne
  | cons t ts =>
    intro hk
    rw [kind_eq_nextKind, hs] at hk
    have ht : t.kind = .symbol .rightBrace := hk
    rw [Paired, climb, ht] at hinside
    cases hinside

theorem initializes_of_isPrefix {read : List Token} (h : read <+: inside)
    (hinit : initializes inside = false) : initializes read = false := by
  obtain ⟨more, rfl⟩ := h
  refine Bool.eq_false_iff.2 fun hread => ?_
  rw [initializes_append_left hread more] at hinit
  cases hinit

/-- What an initializer in `read` or an error in `stmts` does not excuse has its braces in pairs. -/
theorem paired_of_excuse {read : List Token} {level : Nat} {stmts : List Stmt}
    (hlevel : brace.climb 0 read = some level)
    (hexcuse : level = 0 ∨ initializes read = true ∧ Stmt.allUnderstood stmts = false)
    (h : initializes read = false ∨ Stmt.allUnderstood stmts = true) : brace.Paired read := by
  rcases hexcuse with rfl | ⟨hinit, herror⟩
  · exact hlevel
  · rw [hinit, herror] at h
    rcases h with h | h <;> cases h

end Block

/-- **Recovery stays inside its block.**  Take a block that is not empty, with `inside` between its
braces, all of whose places are in order.  Then its first statement, whether it is understood,
dropped or replaced by an error, is read from tokens of `inside`, at least one, and their braces are
in pairs.  The one exception is an error after an initializer was opened: braces may then be left
open, but the closing brace of the block is still not passed.  So the statements of a block without
such an error are all found in it, and end at its closing brace. -/
theorem recovery_stays_inside (lineText : Nat → String) (depth : Nat) (s : Stream)
    {inside after : List Token} {close : Token} (hs : s.rest = inside ++ close :: after)
    (hclose : close.kind = .symbol .rightBrace) (hinside : brace.Paired inside)
    (hne : inside ≠ []) (horderly : orderly 0 s.rest = true) :
    (∃ stmts s' read, recovered lineText (statement lineText depth) s = .ok stmts s' ∧
      s.rest = read ++ s'.rest ∧ read ≠ [] ∧ read <+: inside ∧
      (initializes read = false ∨ Stmt.allUnderstood stmts = true → brace.Paired read)) ∧
    ∃ stmts s', statements (recovered lineText (statement lineText depth)) s = .ok stmts s' ∧
      (initializes inside = false ∨ Stmt.allUnderstood stmts = true →
        s'.rest = close :: after) := by
  have henclosed : Enclosed s.rest := by
    rw [hs] at horderly ⊢
    exact enclosed_of_close hinside hclose horderly
  have hrecovers : Recovers (recovered lineText (statement lineText depth)) :=
    recovers_recovered (keeps_statement lineText depth)
  constructor
  · obtain ⟨stmts, s', heq, hlen, read, level, hread, hlevel, hexcuse⟩ :=
      hrecovers s henclosed (kind_ne_of_paired hs hinside hne)
    refine ⟨stmts, s', read, heq, hread, ?_, ?_, paired_of_excuse hlevel hexcuse⟩
    · rintro rfl
      rw [Stream.length, Stream.length, hread] at hlen
      exact Nat.lt_irrefl _ hlen
    · exact prefix_of_climb (hs.symm.trans hread) hlevel hinside hclose
  · obtain ⟨stmts, s', heq, hk, -, read, level, hread, hlevel, hexcuse⟩ :=
      statements_spec hrecovers henclosed
    refine ⟨stmts, s', heq, fun h => ?_⟩
    obtain ⟨more, rfl⟩ := prefix_of_climb (hs.symm.trans hread) hlevel hinside hclose
    have hpaired := paired_of_excuse hlevel hexcuse
      (h.imp (initializes_of_isPrefix (List.prefix_append read more)) id)
    rw [Paired, climb_append, hpaired, Option.bind_some] at hinside
    have hrest : s'.rest = more ++ close :: after := by
      rw [hs, List.append_assoc] at hread
      exact (List.append_cancel_left hread).symm
    -- A brace that ends the reading before `close` would have no partner in `inside`.
    by_cases hmore : more = []
    · rw [hrest, hmore, List.nil_append]
    · exact absurd hk (kind_ne_of_paired hrest hinside hmore)

/-! ## Single blocks -/

/-- Tokens of the given kinds. -/
def ofKinds (kinds : List TokenKind) : List Token :=
  kinds.map fun kind => ⟨kind, .start⟩

/-- A text that starts inside a block. -/
def blockStream (inside after : List Token) : Stream :=
  ⟨inside ++ ⟨.symbol .rightBrace, .start⟩ :: after, .start⟩

/-- The first statement of a block is read from the inside of the block, and its braces are in
pairs. -/
def StaysInside (inside after : List Token) : Prop :=
  ∃ stmts s' read,
    recovered (fun _ => "") (statement (fun _ => "") 4) (blockStream inside after) = .ok stmts s' ∧
    (blockStream inside after).rest = read ++ s'.rest ∧ read <+: inside ∧ brace.Paired read

/-- The inside of `{ x + { y; }; cout << 1; if (x) g(); }`, in which a sum has one operand. -/
def spoiltBlock : List Token :=
  ofKinds
    [.ident "x", .symbol .plus, .symbol .leftBrace, .ident "y", .symbol .semicolon,
      .symbol .rightBrace, .symbol .semicolon, .ident "cout", .symbol .shiftLeft, .int 1,
      .symbol .semicolon, .symbol .if, .symbol .leftParen, .ident "x", .symbol .rightParen,
      .ident "g", .symbol .leftParen, .symbol .rightParen, .symbol .semicolon]

theorem recovery_stays_inside_spoiltBlock :
    (brace.Paired spoiltBlock ∧ orderly 0 (blockStream spoiltBlock []).rest = true) ∧
      StaysInside spoiltBlock [] := by
  refine ⟨by decide, ?_⟩
  obtain ⟨⟨stmts, s', read, heq, hread, -, hpart, hpaired⟩, -⟩ :=
    recovery_stays_inside (fun _ => "") 4 (blockStream spoiltBlock []) rfl rfl (by decide)
      (by decide) (by decide)
  exact ⟨stmts, s', read, heq, hread, hpart,
    hpaired (.inl (initializes_of_isPrefix hpart (by decide)))⟩

/-- What is read as the first statement of a block. -/
def firstRead (inside after : List Token) : List Token :=
  let s := blockStream inside after
  match recovered (fun _ => "") (statement (fun _ => "") 4) s with
  | .ok _ s' => s.rest.take (s.length - s'.length)
  | .error _ _ => []

theorem StaysInside.firstRead {inside after : List Token} (h : StaysInside inside after) :
    (firstRead inside after).length ≤ inside.length ∧
      brace.Paired (firstRead inside after) := by
  obtain ⟨stmts, s', read, heq, hread, hpart, hpaired⟩ := h
  have hfirst : Parser.firstRead inside after = read := by
    simp only [Parser.firstRead, heq, Stream.length]
    rw [hread, List.length_append, Nat.add_sub_cancel, List.take_left]
  rw [hfirst]
  exact ⟨hpart.length_le, hpaired⟩

/-- The inside of `{ int a[2] = {1 2}; }`, which lacks a comma. -/
def badInitializer : List Token :=
  ofKinds
    [.type "int", .ident "a", .symbol .leftBracket, .int 2, .symbol .rightBracket, .symbol .assign,
      .symbol .leftBrace, .int 1, .int 2, .symbol .rightBrace, .symbol .semicolon]

/-- The inside of `{ if (x) }`. -/
def missingBody : List Token :=
  ofKinds [.symbol .if, .symbol .leftParen, .ident "x", .symbol .rightParen]

/-- The inside of `{ cout << 1 }`. -/
def openConsole : List Token :=
  ofKinds [.ident "cout", .symbol .shiftLeft, .int 1]

/-- The inside of `{ stack<int }`. -/
def openTemplate : List Token :=
  ofKinds [.ident "stack", .symbol .less, .type "int"]

/-- **What recovery misses.**  In each of these blocks braces are in pairs, but not in what is read
as the first statement: the brace that closes the initializer is taken for the end of the block, and
the brace that closes the block for part of the statement in the other three. -/
theorem recovery_escapes :
    (brace.Paired badInitializer ∧ ¬StaysInside badInitializer []) ∧
    (brace.Paired missingBody ∧ ¬StaysInside missingBody []) ∧
    (brace.Paired openConsole ∧ ¬StaysInside openConsole (ofKinds [.symbol .semicolon])) ∧
    (brace.Paired openTemplate ∧ ¬StaysInside openTemplate
      (ofKinds [.symbol .greater, .ident "s", .symbol .semicolon])) :=
  ⟨⟨by decide, fun h => absurd h.firstRead (by decide)⟩,
    ⟨by decide, fun h => absurd h.firstRead (by decide)⟩,
    ⟨by decide, fun h => absurd h.firstRead (by decide)⟩,
    ⟨by decide, fun h => absurd h.firstRead (by decide)⟩⟩

end Parser

end Stepwise
