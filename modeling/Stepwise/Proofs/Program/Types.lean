import Stepwise.Proofs.Program.Headers

/-!
# Types are read over

All that the parser knows of a type is its angle brackets, and two parts of it count them, each on
its own: `templateEnd?` looks for the end of a list of template arguments, and `Param.step` for the
commas between parameters.  Neither knows what a type is, and to both a `>>` closes two lists.

* `TypeText` are the types of source texts and `TypeText.tokens` their tokens.  `Merged` is how
  these may be spelled: two closing brackets in a row as `>>` or not.
* `TypeText.exists_arguments`: what is between an angle bracket and its match, whatever the
  spelling. The match may be either half of a `>>`.
* `TypeText.read_over`: lists of template arguments end where they should, and so declarations of
  containers and lists of parameters are read for their names, whatever types are in them.
-/

set_option autoImplicit false

namespace Stepwise

open Stepwise.Parser

/-! ## Types -/

/-- A mark after a type. -/
inductive PointerMark where
  | star
  | ampersand

/-- The token of a mark. -/
def PointerMark.token : PointerMark → TokenKind
  | star => .symbol .star
  | ampersand => .symbol .ampersand

/-- The types of source texts.  A name without arguments has no list of them. -/
inductive TypeText where
  | scalars (isConst : Bool) (name : String) (names : List String) (marks : List PointerMark)
  | named (isConst : Bool) (name : String) (args : List TypeText) (marks : List PointerMark)

namespace TypeText

/-- The word `const` or nothing. -/
def constTokens : Bool → List TokenKind
  | true => [.symbol .const]
  | false => []

/-- Template arguments in their brackets, nothing if there are none. -/
def bracketed : List (List TokenKind) → List TokenKind
  | [] => []
  | ks :: others => .symbol .less :: (commaTokens (ks :: others) ++ [.symbol .greater])

mutual

/-- The tokens of a type, with a bracket of its own for each list that ends. -/
def tokens : TypeText → List TokenKind
  | scalars isConst name names marks =>
    constTokens isConst ++ ((name :: names).map .type ++ marks.map PointerMark.token)
  | named isConst name args marks =>
    constTokens isConst ++ (.ident name :: (bracketed (listed args) ++ marks.map PointerMark.token))

/-- The tokens of each of several types. -/
def listed : List TypeText → List (List TokenKind)
  | [] => []
  | t :: ts => t.tokens :: listed ts

end

/-- A type and all types in its arguments. -/
inductive Part : TypeText → TypeText → Prop
  | self (t : TypeText) : Part t t
  | argument {isConst : Bool} {name : String} {args : List TypeText} {marks : List PointerMark}
      {t u : TypeText} (ht : t ∈ args) (h : Part u t) : Part u (named isConst name args marks)

end TypeText

/-- The second tokens are the first ones, with some pairs of closing brackets in a row as `>>`. -/
inductive Merged : List TokenKind → List TokenKind → Prop
  | nil : Merged [] []
  | keep (k : TokenKind) {ks ks' : List TokenKind} (h : Merged ks ks') : Merged (k :: ks) (k :: ks')
  | join {ks ks' : List TokenKind} (h : Merged ks ks') :
      Merged (.symbol .greater :: .symbol .greater :: ks) (.symbol .shiftRight :: ks')

/-- Tokens `ks` of a list of template arguments, spelled, with the token that closes the list.  This
is a token that ends with the closing bracket, or a `>>` of which the first half closes this list
and the second one another. -/
inductive ThroughClose (ks : List TokenKind) : List TokenKind → Prop
  | own {body : List TokenKind} (h : Merged (ks ++ [.symbol .greater]) body) : ThroughClose ks body
  | shared {ks' : List TokenKind} (h : Merged ks ks') :
      ThroughClose ks (ks' ++ [.symbol .shiftRight])

/-- A parameter in the list of a function, with its type in some spelling. -/
structure ParamText where
  type : TypeText
  spelled : List TokenKind
  name : String
  isArray : Bool
  merged : Merged type.tokens spelled

/-- The tokens of a parameter. -/
def ParamText.tokens (p : ParamText) : List TokenKind :=
  p.spelled ++ .ident p.name ::
    if p.isArray then [.symbol .leftBracket, .symbol .rightBracket] else []

/-! ## Merged brackets -/

namespace Merged

variable {ks ks' ls ls' : List TokenKind}

theorem refl : ∀ ks : List TokenKind, Merged ks ks
  | [] => .nil
  | k :: ks => .keep k (refl ks)

theorem append (h : Merged ks ks') (hl : Merged ls ls') : Merged (ks ++ ls) (ks' ++ ls') := by
  induction h with
  | nil => exact hl
  | keep k _ ih => exact .keep k ih
  | join _ ih => exact .join ih

theorem cons_cases {k : TokenKind} (h : Merged (k :: ks) ls) :
    (∃ ks', ls = k :: ks' ∧ Merged ks ks') ∨ k = .symbol .greater ∧
      ∃ ks₁ ks', ks = .symbol .greater :: ks₁ ∧ ls = .symbol .shiftRight :: ks' ∧
        Merged ks₁ ks' := by
  cases h with
  | keep k h => exact .inl ⟨_, rfl, h⟩
  | join h => exact .inr ⟨rfl, _, _, rfl, rfl, h⟩

/-- A bracket that opens a list is there in every spelling. -/
theorem of_less {before rest : List TokenKind} (h : Merged ks (before ++ .symbol .less :: rest)) :
    ∃ before' rest', ks = before' ++ .symbol .less :: rest' ∧ Merged rest' rest := by
  generalize hspelled : before ++ .symbol .less :: rest = spelled at h
  induction h generalizing before with
  | nil => exact absurd hspelled (by simp)
  | keep k h ih =>
    cases before with
    | nil =>
      cases hspelled
      exact ⟨[], _, rfl, h⟩
    | cons _ before =>
      obtain ⟨before', rest', rfl, hrest⟩ := ih (List.cons.inj hspelled).2
      exact ⟨k :: before', rest', rfl, hrest⟩
  | join h ih =>
    cases before with
    | nil => cases hspelled
    | cons _ before =>
      obtain ⟨before', rest', rfl, hrest⟩ := ih (List.cons.inj hspelled).2
      exact ⟨.symbol .greater :: .symbol .greater :: before', rest', rfl, hrest⟩

end Merged

namespace ThroughClose

variable {ks body : List TokenKind}

theorem keep (k : TokenKind) (h : ThroughClose ks body) : ThroughClose (k :: ks) (k :: body) := by
  cases h with
  | own h => exact .own (.keep k h)
  | shared h => exact .shared (.keep k h)

theorem join (h : ThroughClose ks body) :
    ThroughClose (.symbol .greater :: .symbol .greater :: ks) (.symbol .shiftRight :: body) := by
  cases h with
  | own h => exact .own (.join h)
  | shared h => exact .shared (.join h)

/-- In any spelling there is a token that closes the list. -/
theorem of_merged {tail : List TokenKind} : ∀ {ks spelled : List TokenKind},
    Merged (ks ++ .symbol .greater :: tail) spelled →
      ∃ body tail', spelled = body ++ tail' ∧ ThroughClose ks body
  | [], _, h => by
    rcases h.cons_cases with ⟨ks', rfl, -⟩ | ⟨-, _, ks', -, rfl, -⟩
    · exact ⟨[_], ks', rfl, .own (.refl _)⟩
    · exact ⟨[_], ks', rfl, .shared .nil⟩
  | k :: ks, _, h => by
    rcases Merged.cons_cases h with ⟨ks', rfl, hks⟩ | ⟨rfl, ks₁, ks', heq, rfl, hks⟩
    · obtain ⟨body, tail', rfl, hbody⟩ := of_merged hks
      exact ⟨k :: body, tail', rfl, hbody.keep k⟩
    · cases ks with
      | nil => exact ⟨[_], ks', rfl, .own (.join .nil)⟩
      | cons k₁ ks =>
        obtain ⟨rfl, rfl⟩ := List.cons.inj heq
        obtain ⟨body, tail', rfl, hbody⟩ := of_merged hks
        exact ⟨_ :: body, tail', rfl, hbody.join⟩

end ThroughClose

/-! ## Where a list of arguments ends -/

theorem append_eq_append_cons {α : Type} {xs ys before rest : List α} {x : α}
    (h : xs ++ ys = before ++ x :: rest) :
    (∃ rest', xs = before ++ x :: rest' ∧ rest = rest' ++ ys) ∨
      ∃ before', ys = before' ++ x :: rest := by
  rcases List.append_eq_append_iff.1 h with ⟨before', -, hys⟩ | ⟨_ | ⟨y, rest'⟩, rfl, hrest⟩
  · exact .inr ⟨before', hys⟩
  · exact .inr ⟨[], hrest.symm⟩
  · obtain ⟨rfl, rfl⟩ := List.cons.inj hrest
    exact .inl ⟨rest', rfl, rfl⟩

namespace TypeText

theorem less_not_mem_constTokens (isConst : Bool) : .symbol .less ∉ constTokens isConst := by
  cases isConst <;> simp [constTokens]

theorem less_not_mem_marks (marks : List PointerMark) :
    .symbol .less ∉ marks.map PointerMark.token := by
  intro h
  obtain ⟨mark, -, hmark⟩ := List.mem_map.1 h
  cases mark <;> cases hmark

theorem less_not_mem_types (names : List String) :
    .symbol .less ∉ names.map TokenKind.type := by
  simp

/-- The list of arguments that a bracket opens, in the tokens of a type. -/
def Opens (t : TypeText) (rest : List TokenKind) : Prop :=
  ∃ isConst name args marks tail, Part (named isConst name args marks) t ∧ args ≠ [] ∧
    rest = commaTokens (listed args) ++ .symbol .greater :: tail

theorem Opens.append {t : TypeText} {rest : List TokenKind} (h : t.Opens rest)
    (ls : List TokenKind) : t.Opens (rest ++ ls) := by
  obtain ⟨isConst, name, args, marks, tail, hpart, hne, rfl⟩ := h
  exact ⟨isConst, name, args, marks, tail ++ ls, hpart, hne, List.append_assoc _ _ _⟩

theorem Opens.argument {isConst : Bool} {name : String} {args : List TypeText}
    {marks : List PointerMark} {t : TypeText} (ht : t ∈ args) {rest : List TokenKind}
    (h : t.Opens rest) : (named isConst name args marks).Opens rest := by
  obtain ⟨isConst', name', args', marks', tail, hpart, hrest⟩ := h
  exact ⟨isConst', name', args', marks', tail, .argument ht hpart, hrest⟩

mutual

/-- Every opening bracket in a type opens the arguments of a type in it. -/
theorem opens_of_less : ∀ (t : TypeText) {before rest : List TokenKind},
    t.tokens = before ++ .symbol .less :: rest → t.Opens rest
  | scalars isConst name names marks, before, rest, h => by
    have hmem : .symbol .less ∈ tokens (scalars isConst name names marks) := by
      rw [h]
      exact List.mem_append_right _ List.mem_cons_self
    rw [tokens, List.mem_append, List.mem_append] at hmem
    rcases hmem with hconst | htype | hmark
    · exact absurd hconst (less_not_mem_constTokens isConst)
    · exact absurd htype (less_not_mem_types _)
    · exact absurd hmark (less_not_mem_marks marks)
  | named isConst name args marks, before, rest, h => by
    rw [tokens] at h
    rcases append_eq_append_cons h with ⟨_, hconst, -⟩ | ⟨before₁, h⟩
    · refine absurd ?_ (less_not_mem_constTokens isConst)
      rw [hconst]
      exact List.mem_append_right _ List.mem_cons_self
    -- the name is no bracket
    obtain _ | ⟨_, before₂⟩ := before₁
    · cases h
    rcases append_eq_append_cons (List.cons.inj h).2 with ⟨rest', hargs, rfl⟩ | ⟨before', hmark⟩
    · refine Opens.append ?_ _
      match args, hargs with
      | [], hargs => exact absurd hargs (by simp [listed, bracketed])
      | t :: ts, hargs =>
        rw [listed, bracketed, ← listed] at hargs
        cases before₂ with
        | nil =>
          obtain ⟨-, rfl⟩ := List.cons.inj hargs
          exact ⟨isConst, name, _, marks, [], .self _, List.cons_ne_nil t ts, rfl⟩
        | cons _ before₃ =>
          obtain ⟨-, hargs⟩ := List.cons.inj hargs
          rcases append_eq_append_cons hargs with ⟨rest₁, hlist, rfl⟩ | ⟨before', hclose⟩
          · obtain ⟨u, hu, hopens⟩ := listed_opens_of_less (t :: ts) hlist
            exact (hopens.argument hu).append _
          · refine absurd (?_ : TokenKind.symbol .less ∈ [TokenKind.symbol .greater]) (by simp)
            rw [hclose]
            exact List.mem_append_right _ List.mem_cons_self
    · refine absurd ?_ (less_not_mem_marks marks)
      rw [hmark]
      exact List.mem_append_right _ List.mem_cons_self

theorem listed_opens_of_less : ∀ (ts : List TypeText) {before rest : List TokenKind},
    commaTokens (listed ts) = before ++ .symbol .less :: rest → ∃ t ∈ ts, t.Opens rest
  | [], _, _, h => absurd h (by simp [listed, commaTokens])
  | [t], _, _, h =>
    ⟨t, List.mem_cons_self, opens_of_less t (by simpa [listed, commaTokens] using h)⟩
  | t :: u :: ts, before, rest, h => by
    have hjoin : commaTokens (listed (t :: u :: ts))
        = t.tokens ++ .symbol .comma :: commaTokens (listed (u :: ts)) := rfl
    rw [hjoin] at h
    rcases append_eq_append_cons h with ⟨rest', ht, rfl⟩ | ⟨before', h⟩
    · exact ⟨t, List.mem_cons_self, (opens_of_less t ht).append _⟩
    · cases before' with
      | nil => cases h
      | cons _ before' =>
        obtain ⟨-, h⟩ := List.cons.inj h
        obtain ⟨v, hv, hopens⟩ := listed_opens_of_less (u :: ts) h
        exact ⟨v, List.mem_cons_of_mem _ hv, hopens⟩

end

/-- **What is between an angle bracket and its match.**  In any spelling of a type, an opening
bracket is followed by the arguments of a type in it and the token that closes them. -/
theorem exists_arguments {t : TypeText} {before rest : List TokenKind}
    (h : Merged t.tokens (before ++ .symbol .less :: rest)) :
    ∃ isConst name args marks body tail, Part (named isConst name args marks) t ∧ args ≠ [] ∧
      ThroughClose (commaTokens (listed args)) body ∧ rest = body ++ tail := by
  obtain ⟨before', rest', htokens, hrest⟩ := h.of_less
  obtain ⟨isConst, name, args, marks, tail, hpart, hne, rfl⟩ := opens_of_less t htokens
  obtain ⟨body, tail', rfl, hbody⟩ := ThroughClose.of_merged hrest
  exact ⟨isConst, name, args, marks, body, tail', hpart, hne, hbody, rfl⟩

end TypeText

/-! ## Balanced tokens -/

/-- Whether the token may be part of a type and is no bracket.  A comma is, inside of brackets. -/
def TokenKind.isTypeWord (isInside : Bool) (k : TokenKind) : Bool :=
  k.isConst || k.isType || k.isIdent || k.isPointer || isInside && k.isSymbol .comma

/-- Words of types and brackets that match.  What both counters of brackets need of a type. -/
inductive Balanced : Bool → List TokenKind → Prop
  | nil (isInside : Bool) : Balanced isInside []
  | word {isInside : Bool} {k : TokenKind} {ks : List TokenKind} (hk : k.isTypeWord isInside = true)
      (h : Balanced isInside ks) : Balanced isInside (k :: ks)
  | list {isInside : Bool} {ks ls : List TokenKind} (h : Balanced true ks)
      (hl : Balanced isInside ls) :
      Balanced isInside (.symbol .less :: (ks ++ .symbol .greater :: ls))

namespace Balanced

variable {isInside : Bool} {ks ls : List TokenKind}

theorem append (h : Balanced isInside ks) (hl : Balanced isInside ls) :
    Balanced isInside (ks ++ ls) := by
  induction h with
  | nil => exact hl
  | word hk _ ih => exact .word hk (ih hl)
  | list h _ _ ih =>
    rw [List.cons_append, List.append_assoc]
    exact .list h (ih hl)

theorem words (h : ∀ k ∈ ks, k.isTypeWord isInside = true) : Balanced isInside ks := by
  induction ks with
  | nil => exact .nil isInside
  | cons k ks ih =>
    exact .word (h k List.mem_cons_self) (ih fun k' hk' => h k' (List.mem_cons_of_mem _ hk'))

theorem bracketed {args : List (List TokenKind)} (h : Balanced true (commaTokens args)) :
    Balanced isInside (TypeText.bracketed args) := by
  cases args with
  | nil => exact .nil isInside
  | cons => exact .list h (.nil isInside)

theorem constTokens (isConst : Bool) : Balanced isInside (TypeText.constTokens isConst) := by
  cases isConst with
  | false => exact .nil isInside
  | true => exact .word rfl (.nil isInside)

theorem marks (marks : List PointerMark) : Balanced isInside (marks.map PointerMark.token) := by
  refine words fun k hk => ?_
  obtain ⟨mark, -, rfl⟩ := List.mem_map.1 hk
  cases mark <;> rfl

theorem types (names : List String) : Balanced isInside (names.map TokenKind.type) := by
  refine words fun k hk => ?_
  obtain ⟨_, -, rfl⟩ := List.mem_map.1 hk
  rfl

end Balanced

namespace TypeText

mutual

/-- The brackets of a type match. -/
theorem balanced_tokens (isInside : Bool) : ∀ t : TypeText, Balanced isInside t.tokens
  | scalars isConst name names marks =>
    (Balanced.constTokens isConst).append ((Balanced.types (name :: names)).append (.marks marks))
  | named isConst _ args marks =>
    (Balanced.constTokens isConst).append
      (.word rfl ((balanced_listed args).bracketed.append (.marks marks)))

theorem balanced_listed : ∀ ts : List TypeText, Balanced true (commaTokens (listed ts))
  | [] => .nil true
  | [t] => balanced_tokens true t
  | t :: u :: ts => (balanced_tokens true t).append (.word rfl (balanced_listed (u :: ts)))

end

end TypeText

/-! ## The end of a list of arguments -/

theorem TokenKind.angle_of_isTypeWord {isInside : Bool} {k : TokenKind}
    (hk : k.isTypeWord isInside = true) : k.angle = 0 ∧ k.breaksTemplate = false := by
  cases k with
  | symbol c =>
    cases c with
    | const | star | ampersand | comma => exact ⟨rfl, rfl⟩
    | _ => cases isInside <;> cases hk
  | type | ident => exact ⟨rfl, rfl⟩
  | _ => cases isInside <;> cases hk

theorem closes_more {depth depth' : Int} {k : TokenKind} {ks : List TokenKind}
    (hk : k.breaksTemplate = false) (hdepth : depth + k.angle = depth') (hopen : 0 < depth')
    (h : Closes depth' ks) : Closes depth (k :: ks) := by
  subst hdepth
  exact .more hk hopen h

/-- Balanced tokens do not change where a list ends. -/
theorem Balanced.closes {isInside : Bool} {ks : List TokenKind} (h : Balanced isInside ks)
    {depth : Int} {rest : List TokenKind} (hopen : 0 < depth) (hrest : Closes depth rest) :
    Closes depth (ks ++ rest) := by
  induction h generalizing depth rest with
  | nil => exact hrest
  | word hk _ ih =>
    obtain ⟨hangle, hbreaks⟩ := TokenKind.angle_of_isTypeWord hk
    exact closes_more hbreaks (by rw [hangle, Int.add_zero]) hopen (ih hopen hrest)
  | list _ _ ih ihl =>
    have hinside : 0 < depth + 1 := Int.add_pos hopen Int.one_pos
    rw [List.cons_append, List.append_assoc]
    refine closes_more rfl rfl hinside (ih hinside ?_)
    exact closes_more rfl (Int.add_sub_cancel _ _) hopen (ihl hopen hrest)

/-- A list ends at the same bracket in all spellings. -/
theorem Merged.closes {ks ks' : List TokenKind} (h : Merged ks ks') {depth : Int}
    (hcloses : Closes depth ks) : Closes depth ks' := by
  have hnil : ∀ {ks : List TokenKind}, Merged [] ks → ks = [] := fun h => by cases h; rfl
  induction h generalizing depth with
  | nil => exact hcloses
  | keep k h ih =>
    obtain ⟨hbreaks, hdepth⟩ := closes_cons.1 hcloses
    refine closes_cons.2 ⟨hbreaks, ?_⟩
    split at hdepth
    · next hclosed =>
      subst hdepth
      rw [if_pos hclosed, hnil h]
    · next hopen =>
      rw [if_neg hopen]
      exact ih hdepth
  | join h ih =>
    obtain ⟨-, hdepth⟩ := closes_cons.1 hcloses
    have hboth : depth + TokenKind.angle (.symbol .greater) + TokenKind.angle (.symbol .greater)
        = depth + TokenKind.angle (.symbol .shiftRight) := Int.add_assoc _ _ _
    split at hdepth
    · cases hdepth
    · obtain ⟨-, hdepth⟩ := closes_cons.1 hdepth
      rw [hboth] at hdepth
      refine closes_cons.2 ⟨rfl, ?_⟩
      split at hdepth
      · next hclosed =>
        subst hdepth
        rw [if_pos hclosed, hnil h]
      · next hopen =>
        rw [if_neg hopen]
        exact ih hdepth

/-- A list of arguments ends with the token that closes it. -/
theorem closes_throughClose {ks body : List TokenKind} (h : Balanced true ks)
    (hbody : ThroughClose ks body) : Closes 1 body := by
  cases hbody with
  | own hmerged => exact hmerged.closes (h.closes Int.one_pos (.last rfl (by decide)))
  | shared hmerged =>
    exact (hmerged.append (.refl [.symbol .shiftRight])).closes
      (h.closes Int.one_pos (.last rfl (by decide)))

/-! ## Commas between parameters -/

namespace Parser

namespace Param

/-- Whether a parameter ends before the token, or cannot go on with it. -/
def stops (p : Param) (k : TokenKind) : Bool :=
  (k.isSymbol .comma || k.isSymbol .rightParen) && p.isClosed ||
    (k == .eof || k.isSymbol .leftBrace || k.isSymbol .semicolon)

/-- Reading the tokens as part of a parameter leads from `p` to `q`. -/
def Passes : Param → List TokenKind → Param → Prop
  | p, [], q => q = p
  | p, k :: ks, q => p.stops k = false ∧ (p.step k).Passes ks q

/-- No default value has begun, and `depth` angle brackets are open but no square ones. -/
structure IsAt (p : Param) (depth : Int) : Prop where
  angle : p.angle = depth
  bracket : p.bracket = 0
  defaulted : p.defaulted = false

variable {p q r : Param} {ks ls : List TokenKind} {depth : Int}

theorem Passes.append (h : p.Passes ks q) (hl : q.Passes ls r) : p.Passes (ks ++ ls) r := by
  induction ks generalizing p with
  | nil => exact (h : q = p) ▸ hl
  | cons k ks ih => exact ⟨h.1, ih h.2⟩

/-- All spellings have the same effect. -/
theorem Passes.merged (h : p.Passes ks q) (hm : Merged ks ls) : p.Passes ls q := by
  induction hm generalizing p with
  | nil => exact h
  | keep k _ ih => exact ⟨h.1, ih h.2⟩
  | join _ ih =>
    have hboth : (p.step (.symbol .greater)).step (.symbol .greater)
        = p.step (.symbol .shiftRight) := by
      simp [step, Int.sub_sub]
    exact ⟨rfl, ih (hboth ▸ h.2.2)⟩

theorem IsAt.word {isInside : Bool} {k : TokenKind} (hp : p.IsAt depth)
    (hk : k.isTypeWord isInside = true) (hinside : isInside = true → 0 < depth) :
    p.stops k = false ∧ (p.step k).IsAt depth := by
  obtain ⟨hangle, hbracket, hdefault⟩ := hp
  have hplain : ∀ name : String, (p.step (.ident name)).IsAt depth := by
    intro name
    rw [step]
    split <;> exact ⟨hangle, hbracket, hdefault⟩
  have hopen : 0 < depth → p.isClosed = false := by
    intro hdepth
    rw [isClosed, hangle, decide_eq_false (Int.not_le.2 hdepth), Bool.false_and]
  cases k with
  | type => exact ⟨rfl, hangle, hbracket, hdefault⟩
  | ident name => exact ⟨rfl, hplain name⟩
  | symbol c =>
    cases c with
    | const | star | ampersand => exact ⟨rfl, hangle, hbracket, hdefault⟩
    | comma =>
      refine ⟨?_, hangle, hbracket, hdefault⟩
      cases isInside with
      | false => cases hk
      | true =>
        rw [stops, hopen (hinside rfl), Bool.and_false]
        rfl
    | _ => cases isInside <;> cases hk
  | _ => cases isInside <;> cases hk

end Param

end Parser

/-- Balanced tokens are read over, and as many brackets are open after them as before. -/
theorem Balanced.passes {isInside : Bool} {ks : List TokenKind} (h : Balanced isInside ks)
    {p : Param} {depth : Int} (hdepth : 0 ≤ depth) (hinside : isInside = true → 0 < depth)
    (hp : p.IsAt depth) : ∃ q : Param, q.IsAt depth ∧ p.Passes ks q := by
  induction h generalizing p depth with
  | nil => exact ⟨p, hp, rfl⟩
  | word hk _ ih =>
    obtain ⟨hstops, hstep⟩ := hp.word hk hinside
    obtain ⟨q, hq, hpasses⟩ := ih hdepth hinside hstep
    exact ⟨q, hq, hstops, hpasses⟩
  | list _ _ ih ihl =>
    obtain ⟨hangle, hbracket, hdefault⟩ := hp
    have hopened : (p.step (.symbol .less)).IsAt (depth + 1) :=
      ⟨congrArg (· + 1) hangle, hbracket, hdefault⟩
    obtain ⟨q, hq, hargs⟩ := ih (by omega) (fun _ => by omega) hopened
    have hclosed : (q.step (.symbol .greater)).IsAt depth :=
      ⟨by rw [← Int.add_sub_cancel depth 1]; exact congrArg (· - 1) hq.angle, hq.bracket,
        hq.defaulted⟩
    obtain ⟨r, hr, hrest⟩ := ihl hdepth hinside hclosed
    exact ⟨r, hr, rfl, hargs.append ⟨rfl, hrest⟩⟩

namespace Parser

theorem parameterTokens_of_passes {p q : Param} {ks : List TokenKind} (h : p.Passes ks q)
    {s s' : Stream} (hs : s.Ahead ks s')
    (hstop : (s'.kind.isSymbol .comma || s'.kind.isSymbol .rightParen) = true)
    (hclosed : q.isClosed = true) {fuel : Nat} (hfuel : ks.length < fuel) :
    (parameterTokens fuel p : Parser Param) s = .ok q s' := by
  induction ks generalizing p s fuel with
  | nil =>
    cases hs
    cases (h : q = p)
    obtain _ | fuel := fuel
    · cases hfuel
    rw [parameterTokens, peek_bind, hstop, hclosed]
    rfl
  | cons k ks ih =>
    obtain _ | fuel := fuel
    · cases hfuel
    obtain ⟨hstops, hnext⟩ := h
    rw [Param.stops, Bool.or_eq_false_iff] at hstops
    rw [parameterTokens, peek_bind, hs.kind, hstops.1, hstops.2, if_neg Bool.false_ne_true,
      if_neg Bool.false_ne_true, advance_bind]
    exact ih hnext hs.advance (Nat.lt_of_succ_lt_succ hfuel)

end Parser

/-- A parameter keeps its name, whatever its type. -/
theorem ParamText.namesParameter (p : ParamText) : NamesParameter p.tokens p.name := by
  intro s s' hs hstop
  obtain ⟨q, hq, hpasses⟩ := (TypeText.balanced_tokens false p.type).passes (Int.le_refl 0) nofun
    (⟨rfl, rfl, rfl⟩ : Param.IsAt {} 0)
  have hclosed : q.isClosed = true := by
    rw [Param.isClosed, hq.angle, hq.bracket]
    rfl
  have hname : q.step (.ident p.name)
      = { q with name := some p.name, onlyVoid := q.onlyVoid && false } := by
    have hkeeps : (q.isClosed && !q.defaulted) = true := by rw [hclosed, hq.defaulted]; rfl
    exact if_pos hkeeps
  have hsuffix : ∃ r : Param, q.Passes (.ident p.name ::
      if p.isArray then [.symbol .leftBracket, .symbol .rightBracket] else []) r ∧
        r.isClosed = true ∧ r.name = some p.name := by
    cases p.isArray with
    | false => exact ⟨_, ⟨rfl, rfl⟩, by rw [hname]; exact hclosed, by rw [hname]⟩
    | true =>
      refine ⟨_, ⟨rfl, rfl, rfl, rfl⟩, ?_, ?_⟩
      · rw [hname]
        simp [Param.step, Param.isClosed, hq.angle, hq.bracket]
      · rw [hname]
        rfl
  obtain ⟨r, hr, hend, hkept⟩ := hsuffix
  have hlength := hs.length
  exact ⟨r, parameterTokens_of_passes ((hpasses.merged p.merged).append hr) hs hstop hend
    (by rw [hlength]; exact Nat.lt_succ_of_le (Nat.le_add_right _ _)), hkept⟩

/-! ## Declarations of containers -/

namespace Parser

variable {kind : SequenceKind} {names : List String} {name : String} {args : List TypeText}
  {spelled : List TokenKind} {s s' : Stream}

/-- The tokens of a declaration of containers, of which `spelled` is the type. -/
def containerTokens (spelled : List TokenKind) (names : List String) : List TokenKind :=
  spelled ++ (commaTokens (names.map fun name => [.ident name]) ++ [.symbol .semicolon])

/-- A type with arguments is its name and the list of these, in any spelling. -/
theorem merged_named (hargs : args ≠ [])
    (h : Merged (TypeText.named false name args []).tokens spelled) :
    ∃ body, spelled = .ident name :: .symbol .less :: body ∧ Closes 1 body := by
  obtain _ | ⟨t, ts⟩ := args
  · exact absurd rfl hargs
  have htokens : (TypeText.named false name (t :: ts) []).tokens
      = .ident name :: .symbol .less ::
          (commaTokens (TypeText.listed (t :: ts)) ++ [.symbol .greater]) :=
    congrArg (TokenKind.ident name :: ·) (List.append_nil _)
  rw [htokens] at h
  obtain ⟨_, rfl, hlist⟩ | ⟨hname, -⟩ := h.cons_cases
  · obtain ⟨body, rfl, hbody⟩ | ⟨hless, -⟩ := hlist.cons_cases
    · exact ⟨body, rfl,
        closes_throughClose (TypeText.balanced_listed (t :: ts)) (.own hbody)⟩
    · cases hless
  · cases hname

theorem reads_containerDeclarator (kind : SequenceKind) (name : String) :
    Reads (containerDeclarator kind) [.ident name]
      (fun k => k.isSymbol .comma || k.isSymbol .semicolon) (.construct name kind) := by
  intro s s' hs hk
  obtain rfl := Stream.ahead_singleton hs
  rw [Bool.or_eq_true, TokenKind.isSymbol_iff, TokenKind.isSymbol_iff] at hk
  rw [containerDeclarator, bind_of_ok (identifier_of_kind hs.kind), peek_bind]
  rcases hk with hk | hk <;> rw [hk] <;> rfl

/-- A declaration of containers is read through its semicolon. -/
theorem reads_containerTokens (hargs : args ≠ [])
    (h : Merged (TypeText.named false name args []).tokens spelled) (hnames : names ≠ []) :
    Reads (containerDeclaration kind) (containerTokens spelled names) anything
      (names.map fun name => .construct name kind) := by
  intro s s' hs _
  obtain ⟨body, rfl, hcloses⟩ := merged_named hargs h
  obtain ⟨s₁, h₁, h₂⟩ := Stream.ahead_append.1 hs
  obtain ⟨s₂, hlist, hend⟩ := Stream.ahead_append.1 h₂
  have hread := @reads_commaList _ (containerDeclarator kind) _ rfl
    (names.map fun name => ([TokenKind.ident name], Stmt.construct name kind))
    (by simpa using hnames) fun q hq => by
      obtain ⟨name, -, rfl⟩ := List.mem_map.1 hq
      exact reads_containerDeclarator kind name
  rw [List.map_map, List.map_map] at hread
  rw [containerDeclaration, advance_bind,
    bind_of_ok (templateArguments_of_ahead h₁.advance hcloses),
    bind_of_ok (hread hlist (by rw [hend.kind]; rfl)), bind_of_ok (expect_of_kind hend.kind),
    Stream.ahead_singleton hend]
  rfl

/-- The names of the types of containers. -/
theorem ofTypeName?_cases (hkind : SequenceKind.ofTypeName? name = some kind) :
    (name = "stack" ∧ kind = .stack) ∨ (name = "queue" ∧ kind = .queue) ∨
      ((name = "list" ∨ name = "vector" ∨ name = "LinkedList") ∧ kind = .list) := by
  unfold SequenceKind.ofTypeName? at hkind
  split at hkind
  · next hname => exact .inl ⟨hname, (Option.some.inj hkind).symm⟩
  · split at hkind
    · next hname => exact .inr (.inl ⟨hname, (Option.some.inj hkind).symm⟩)
    · split at hkind
      · next hname =>
        rw [Bool.or_eq_true, Bool.or_eq_true, decide_eq_true_eq, decide_eq_true_eq,
          decide_eq_true_eq, or_assoc] at hname
        exact .inr (.inr ⟨hname, (Option.some.inj hkind).symm⟩)
      · cases hkind

/-- Where a statement may be, the declaration is one. -/
theorem reads_statement_containerTokens (lineText : Nat → String) (depth : Nat)
    (hkind : SequenceKind.ofTypeName? name = some kind) (hargs : args ≠ [])
    (h : Merged (TypeText.named false name args []).tokens spelled) (hnames : names ≠ []) :
    Reads (statement lineText (depth + 1)) (containerTokens spelled names) anything
      (names.map fun name => .construct name kind) := by
  intro s s' hs hk
  refine Eq.trans ?_ (reads_containerTokens hargs h hnames hs hk)
  obtain ⟨body, rfl, -⟩ := merged_named hargs h
  obtain ⟨place, rest, finish, rfl, hnext⟩ := hs.eq_cons
  obtain ⟨place', rest', finish', heq, -⟩ := hnext.eq_cons
  cases heq
  rcases ofTypeName?_cases hkind with ⟨rfl, rfl⟩ | ⟨rfl, rfl⟩ | ⟨rfl | rfl | rfl, rfl⟩ <;> rfl

/-- At the top level the declaration is not taken for a function. -/
theorem looksLikeFunction_containerTokens (hargs : args ≠ [])
    (h : Merged (TypeText.named false name args []).tokens spelled) (hnames : names ≠ [])
    (hs : s.Ahead (containerTokens spelled names) s') : looksLikeFunction s.rest = false := by
  obtain ⟨body, rfl, hcloses⟩ := merged_named hargs h
  obtain ⟨s₁, h₁, h₂⟩ := Stream.ahead_append.1 hs
  obtain ⟨first, others, rfl⟩ := List.exists_cons_of_ne_nil hnames
  have htype : s.Ahead (List.replicate 0 (.symbol .const) ++ (.ident name :: .symbol .less :: body))
    s₁ := h₁
  have hend := returnTypeEnd?_of_type (.generic name hcloses) (fun _ heq => by cases heq) htype
  have hshape : ∃ k ks, commaTokens ((first :: others).map fun name => [TokenKind.ident name]) ++
      [.symbol .semicolon] = .ident first :: k :: ks ∧ k.isSymbol .leftParen = false := by
    cases others <;> exact ⟨_, _, rfl, rfl⟩
  obtain ⟨k, ks, heq, hk⟩ := hshape
  rw [heq] at h₂
  obtain ⟨l, ts, finish, rfl, hnext⟩ := h₂.eq_cons
  obtain ⟨l', ts', finish', heq', -⟩ := hnext.eq_cons
  cases heq'
  rw [looksLikeFunction, hend]
  exact hk

end Parser

/-! ## Types are read over -/

/-- **Types are read over exactly.**  In any spelling of a type, the list that a bracket opens is
found to end with the token that closes it.  A declaration of containers constructs those that it
names, and it is one at the top level as well.  Parameters are read for their names. -/
theorem TypeText.read_over :
    (∀ (t : TypeText) (before rest : List TokenKind),
      Merged t.tokens (before ++ .symbol .less :: rest) →
        ∃ isConst name args marks body tail, Part (named isConst name args marks) t ∧ args ≠ [] ∧
          ThroughClose (commaTokens (listed args)) body ∧ rest = body ++ tail ∧
          ∀ ts after : List Token, ts.map Token.kind = .symbol .less :: body →
            templateEnd? 0 (ts ++ after) = some after) ∧
    (∀ (name : String) (kind : SequenceKind) (args : List TypeText) (spelled : List TokenKind)
      (names : List String), SequenceKind.ofTypeName? name = some kind → args ≠ [] → names ≠ [] →
      Merged (named false name args []).tokens spelled →
        Reads (containerDeclaration kind) (containerTokens spelled names) anything
          (names.map fun name => .construct name kind) ∧
        (∀ lineText depth, Reads (statement lineText (depth + 1)) (containerTokens spelled names)
          anything (names.map fun name => .construct name kind)) ∧
        ∀ s s' : Stream, s.Ahead (containerTokens spelled names) s' →
          looksLikeFunction s.rest = false) ∧
    ∀ params : List ParamText,
      Reads parameters (commaTokens (params.map ParamText.tokens) ++ [.symbol .rightParen]) anything
        (params.map fun p => some p.name) := by
  refine ⟨fun t before rest h => ?_, fun name kind args spelled names hkind hargs hnames h => ?_,
    fun params => ?_⟩
  · obtain ⟨isConst, name, args, marks, body, tail, hpart, hne, hbody, rfl⟩ := exists_arguments h
    refine ⟨isConst, name, args, marks, body, tail, hpart, hne, hbody, rfl, fun ts after hts => ?_⟩
    refine templateEnd?_iff.2 ⟨ts, rfl, ?_⟩
    rw [hts]
    exact closes_more rfl rfl Int.one_pos (closes_throughClose (balanced_listed args) hbody)
  · exact ⟨reads_containerTokens hargs h hnames,
      fun lineText depth => reads_statement_containerTokens lineText depth hkind hargs h hnames,
      fun s s' hs => looksLikeFunction_containerTokens hargs h hnames hs⟩
  · have hread := @reads_parameters (params.map fun p => (p.tokens, p.name)) fun q hq => by
      obtain ⟨p, -, rfl⟩ := List.mem_map.1 hq
      exact p.namesParameter
    rwa [List.map_map, List.map_map] at hread

/-- The argument of `queue<pair<int, list<int>>>`. -/
def nestedPair : TypeText :=
  .named false "pair"
    [.scalars false "int" [] [], .named false "list" [.scalars false "int" [] []] []]
    []

/-- What follows the first bracket of this argument, with `>>` for the two brackets that close the
inner list and its own. -/
def nestedRest : List TokenKind :=
  [.type "int", .symbol .comma, .ident "list", .symbol .less, .type "int", .symbol .shiftRight]

theorem merged_nestedPair :
    Merged nestedPair.tokens ([.ident "pair"] ++ .symbol .less :: nestedRest) :=
  .keep _ (.keep _ (.keep _ (.keep _ (.keep _ (.keep _ (.keep _ (.join .nil)))))))

/-- The type of the declaration, with a bracket of its own for the outermost list. -/
def nestedQueue : List TokenKind :=
  [.ident "queue", .symbol .less, .ident "pair", .symbol .less] ++ nestedRest ++ [.symbol .greater]

theorem merged_nestedQueue :
    Merged (TypeText.named false "queue" [nestedPair] []).tokens nestedQueue :=
  .keep _ (.keep _ (merged_nestedPair.append (.refl [.symbol .greater])))

/-- The parameter `queue<pair<int, list<int>>> q[]`. -/
def nestedParam : ParamText :=
  ⟨.named false "queue" [nestedPair] [], nestedQueue, "q", true, merged_nestedQueue⟩

/-- Nested lists of arguments are read over in a type, a declaration and a parameter. -/
theorem TypeText.read_over_nestedQueue :
    (∃ body tail, nestedRest = body ++ tail ∧
      ∀ ts after : List Token, ts.map Token.kind = .symbol .less :: body →
        templateEnd? 0 (ts ++ after) = some after) ∧
    Parser.statement (fun _ => "") 1
        (Parser.streamOf (Parser.containerTokens nestedQueue ["a", "b"]))
      = .ok [.construct "a" .queue, .construct "b" .queue] (Parser.streamOf []) ∧
    (Parser.parameters : Parser (List (Option String)))
        (Parser.streamOf (nestedParam.tokens ++ [.symbol .rightParen]))
      = .ok [some "q"] (Parser.streamOf []) := by
  obtain ⟨hends, hdeclares, hparams⟩ := TypeText.read_over
  obtain ⟨-, -, -, -, body, tail, -, -, -, hrest, hend⟩ :=
    hends nestedPair [.ident "pair"] nestedRest merged_nestedPair
  obtain ⟨-, hstatement, -⟩ := hdeclares "queue" .queue [nestedPair] nestedQueue ["a", "b"] rfl
    (List.cons_ne_nil _ _) (List.cons_ne_nil _ _) merged_nestedQueue
  exact ⟨⟨body, tail, hrest, hend⟩, hstatement (fun _ => "") 0 (ahead_streamOf _) rfl,
    hparams [nestedParam] (ahead_streamOf _) rfl⟩

end Stepwise
