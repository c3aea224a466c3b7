import Mathlib.Data.List.Forall2
import Stepwise.Proofs.Run.Scopes

/-!
# Scopes as nested tables

A frame keeps the names of all its scopes in one table and undoes what a scope did when it is left.
Scopes are explained in another way: each has a table of its own, a name is looked up from the
innermost table outward, and leaving a scope drops its table.  This file shows that the two cannot
be told apart.

* `NestedFrame` and `NestedStack` are frames and call stacks as they are explained.
* `Frame.Refines` relates a frame to a nested one.  A scope introduces the names of its table, these
  stand for what the table says, and the frame after the scope is left refines what is around it.
* `Frame.Refines.declare` and `Frame.Refines.assign` are the steps that change bindings.  They rest
  on `Scope.get?_undo_note`: what a declaration changes, leaving its scope undoes.
* `CallStack.answers_nested` says that any operations in order answer every look-up alike.
-/

set_option autoImplicit false

namespace Stepwise

/-! ## Nested tables -/

/-- The names known in one call, with a table for every open scope. -/
inductive NestedFrame where
  /-- No scope is open. -/
  | base (names : Table Binding)
  /-- A scope is open inside of others. -/
  | scope (names : Table Binding) (outer : NestedFrame)

namespace NestedFrame

/-- What a name stands for in the innermost table that has it. -/
def get? : NestedFrame → String → Option Binding
  | base names, name => names.get? name
  | scope names outer, name => (names.get? name).or (outer.get? name)

/-- Leave the innermost scope, if there is one. -/
def popScope : NestedFrame → NestedFrame
  | base names => base names
  | scope _ outer => outer

/-- Declare a name in the innermost table. -/
def declare (name : String) (b : Binding) : NestedFrame → NestedFrame
  | base names => base (names.insert name b)
  | scope names outer => scope (names.insert name b) outer

/-- Change the value of a name in the innermost table that has it, if there is one. -/
def assign? (name : String) (value : Value) : NestedFrame → Option NestedFrame
  | base names => (names.get? name).map fun b => base (names.insert name { b with value })
  | scope names outer =>
    match names.get? name with
    | some b => some (scope (names.insert name { b with value }) outer)
    | none => (outer.assign? name value).map (scope names)

end NestedFrame

/-- A call stack of nested frames. -/
structure NestedStack where
  globals : NestedFrame := .base {}
  /-- The frames of the calls under way, the current one first. -/
  calls : List NestedFrame := []

namespace NestedStack

/-- The frame that is current. -/
def current (s : NestedStack) : NestedFrame :=
  s.calls.headD s.globals

/-- Put a frame in place of the current one. -/
def setCurrent (s : NestedStack) (f : NestedFrame) : NestedStack :=
  match s.calls with
  | [] => { s with globals := f }
  | _ :: callers => { s with calls := f :: callers }

/-- What a name stands for: in the current frame, and else at the top level. -/
def lookup (s : NestedStack) (name : String) : Option Binding :=
  (s.current.get? name).or (s.globals.get? name)

/-- Change the value of a name where it is found. -/
def assign? (s : NestedStack) (name : String) (value : Value) : Option NestedStack :=
  match s.current.assign? name value with
  | some f => some (s.setCurrent f)
  | none => (s.globals.assign? name value).map fun f => { s with globals := f }

end NestedStack

/-! ## Operations -/

/-- What can be asked of a call stack. -/
inductive ScopeOperation where
  | pushScope
  | popScope
  | pushFrame (function : String)
  | popFrame
  | declare (name : String) (b : Binding)
  | assign (name : String) (value : Value)
  | lookup (name : String)

/-- The stack after an operation.  Assigning to a name that is not known does nothing. -/
def CallStack.perform (s : CallStack) : ScopeOperation → CallStack
  | .pushScope => s.pushScope
  | .popScope => s.popScope
  | .pushFrame function => s.pushFrame function
  | .popFrame => s.popFrame
  | .declare name b => s.declare name b
  | .assign name value => (s.assign? name value).getD s
  | .lookup _ => s

/-- The nested stack after an operation.  A call opens a scope of its own. -/
def NestedStack.perform (s : NestedStack) : ScopeOperation → NestedStack
  | .pushScope => s.setCurrent (.scope {} s.current)
  | .popScope => s.setCurrent s.current.popScope
  | .pushFrame _ => { s with calls := .scope {} (.base {}) :: s.calls }
  | .popFrame => { s with calls := s.calls.tail }
  | .declare name b => s.setCurrent (s.current.declare name b)
  | .assign name value => (s.assign? name value).getD s
  | .lookup _ => s

/-- The answers to the look-ups among operations in order. -/
def ScopeOperation.answers {σ : Type} (perform : σ → ScopeOperation → σ)
    (lookup : σ → String → Option Binding) (s : σ) : List ScopeOperation → List (Option Binding)
  | [] => []
  | .lookup name :: ops => lookup s name :: answers perform lookup s ops
  | op :: ops => answers perform lookup (perform s op) ops

theorem rel_cases {α β : Type} {r : α → β → Prop} {x : Option α} {y : Option β}
    (h : Option.Rel r x y) :
    (x = none ∧ y = none) ∨ ∃ a b, x = some a ∧ y = some b ∧ r a b := by
  cases h with
  | none => exact .inl ⟨rfl, rfl⟩
  | some hab => exact .inr ⟨_, _, rfl, rfl, hab⟩

/-! ## Leaving a scope -/

namespace Scope

theorem get?_eraseAll (names : List String) (t : Table Binding) (name : String) :
    (names.foldl (fun t name => t.erase name) t).get? name
      = if name ∈ names then none else t.get? name := by
  induction names generalizing t with
  | nil => rw [if_neg List.not_mem_nil]; rfl
  | cons n ns ih =>
    rw [List.foldl_cons, ih, Table.get?_erase]
    by_cases hn : name = n
    · simp [hn]
    · simp [hn]

theorem get?_restoreAll_congr (shadowed : List (String × Binding)) {t t' : Table Binding}
    {name : String} (h : (shadowed.any fun e => e.1 == name) = true ∨ t.get? name = t'.get? name) :
    (shadowed.foldl (fun t e => t.insert e.1 e.2) t).get? name
      = (shadowed.foldl (fun t e => t.insert e.1 e.2) t').get? name := by
  induction shadowed generalizing t t' with
  | nil => exact h.resolve_left Bool.false_ne_true
  | cons e es ih =>
    refine ih ?_
    rw [Table.get?_insert, Table.get?_insert]
    grind

/-- What a name stood for that a scope introduces does not matter when the scope is left. -/
theorem get?_undo_introduced {scope : Scope} {name : String} (h : scope.introduces name = true)
    (t t' : Table Binding) : (undo t scope).get? name = (undo t' scope).get? name := by
  refine get?_restoreAll_congr _ ?_
  rw [introduces, Bool.or_eq_true] at h
  rcases h with hdeclared | hshadowed
  · right
    have hmem : name ∈ scope.declared := by simpa using hdeclared
    rw [get?_eraseAll, get?_eraseAll, if_pos hmem, if_pos hmem]
  · exact .inl hshadowed

theorem introduces_note (scope : Scope) (name other : String) (previous : Option Binding) :
    (Frame.Scope.note scope name previous).introduces other
      = (scope.introduces other || name == other) := by
  unfold Frame.Scope.note
  cases previous <;> grind [introduces]

/-- A scope notes a name that it introduced before no second time. -/
theorem note_introduced {scope : Scope} {name : String} {previous : Option Binding}
    (h : scope.introduces name = true) (hprevious : previous ≠ none) :
    Frame.Scope.note scope name previous = scope := by
  unfold Frame.Scope.note
  cases previous with
  | none => exact absurd rfl hprevious
  | some old => grind [introduces]

/-- It notes a new name among those that it hides or among those that it declares. -/
theorem note_new {scope : Scope} {name : String} (h : scope.introduces name = false)
    (previous : Option Binding) :
    Frame.Scope.note scope name previous = match previous with
      | none => { scope with declared := name :: scope.declared }
      | some old => { scope with shadowed := (name, old) :: scope.shadowed } := by
  unfold Frame.Scope.note
  cases previous <;> grind [introduces]

/-- **What a declaration changes, leaving its scope undoes**: every name stands for what it would
have stood for without the declaration. -/
theorem get?_undo_note {scope : Scope} {t t' : Table Binding} {name : String}
    (hknown : scope.introduces name = true → t.get? name ≠ none)
    (ht : ∀ other, other ≠ name → t'.get? other = t.get? other) (other : String) :
    (undo t' (Frame.Scope.note scope name (t.get? name))).get? other
      = (undo t scope).get? other := by
  cases hintroduced : scope.introduces name with
  | true =>
    rw [note_introduced hintroduced (hknown hintroduced)]
    by_cases hother : other = name
    · rw [hother]
      exact get?_undo_introduced hintroduced t' t
    · exact scope.get?_undo_congr (ht other hother)
  | false =>
    rw [note_new hintroduced]
    cases hprevious : t.get? name with
    | none =>
      -- The name is erased first, which leaves no trace of its declaration.
      change (undo (t'.erase name) scope).get? other = _
      refine scope.get?_undo_congr ?_
      rw [Table.get?_erase]
      grind
    | some old =>
      -- The old binding is restored first, as no other entry is about the name.
      refine get?_restoreAll_congr scope.shadowed (.inr ?_)
      rw [Table.get?_insert, get?_eraseAll, get?_eraseAll]
      grind [introduces]

end Scope

/-! ## Frames -/

namespace Frame

/-- The frames have the same scopes open, and every name stands for the same in both. -/
structure Alike (f g : Frame) : Prop where
  scopes : f.scopes = g.scopes
  get? : ∀ name, f.get? name = g.get? name

theorem Alike.popScope {f g : Frame} (h : f.Alike g) : f.popScope.Alike g.popScope := by
  obtain ⟨function, bindings, scopes⟩ := f
  obtain ⟨function', bindings', scopes'⟩ := g
  obtain ⟨rfl, hget⟩ := h
  cases scopes with
  | nil => exact ⟨rfl, hget⟩
  | cons scope outer => exact ⟨rfl, fun name => scope.get?_undo_congr (hget name)⟩

/-- A frame with a name bound anew, whatever scope it belongs to. -/
def put (f : Frame) (name : String) (b : Binding) : Frame :=
  { f with bindings := f.bindings.insert name b }

theorem get?_put (f : Frame) (name other : String) (b : Binding) :
    (f.put name b).get? other = if other = name then some b else f.get? other :=
  Table.get?_insert f.bindings name other b

theorem assign?_eq (f : Frame) (name : String) (value : Value) :
    f.assign? name value = (f.get? name).map fun b => f.put name { b with value } := rfl

/-- Binding a name anew that the innermost scope introduces changes nothing outside of it. -/
theorem alike_popScope_put {f : Frame} {scope : Scope} {rest : List Scope} {name : String}
    (hscopes : f.scopes = scope :: rest) (h : scope.introduces name = true) (b : Binding) :
    f.popScope.Alike (f.put name b).popScope := by
  obtain ⟨function, bindings, scopes⟩ := f
  cases hscopes
  refine ⟨rfl, fun other => ?_⟩
  by_cases hother : other = name
  · rw [hother]
    exact Scope.get?_undo_introduced h _ _
  · exact scope.get?_undo_congr ((Table.get?_insert bindings name other b).trans
      (if_neg hother)).symm

/-- Any other name is bound anew outside of it. -/
theorem put_popScope_alike {f : Frame} {scope : Scope} {rest : List Scope} {name : String}
    (hscopes : f.scopes = scope :: rest) (h : scope.introduces name = false) (b : Binding) :
    (f.popScope.put name b).Alike (f.put name b).popScope := by
  obtain ⟨function, bindings, scopes⟩ := f
  cases hscopes
  refine ⟨rfl, fun other => ?_⟩
  rw [get?_put]
  by_cases hother : other = name
  · subst hother
    rw [if_pos rfl]
    exact ((Scope.get?_undo h _).trans ((Table.get?_insert bindings other other b).trans
      (if_pos rfl))).symm
  · rw [if_neg hother]
    exact scope.get?_undo_congr ((Table.get?_insert bindings name other b).trans
      (if_neg hother)).symm

/-- A name that the innermost scope does not introduce stands for the same outside of it. -/
theorem get?_popScope {f : Frame} {scope : Scope} {rest : List Scope} {name : String}
    (hscopes : f.scopes = scope :: rest) (h : scope.introduces name = false) :
    f.popScope.get? name = f.get? name := by
  obtain ⟨function, bindings, scopes⟩ := f
  cases hscopes
  exact Scope.get?_undo h bindings

/-- A frame refines a nested one.  The innermost scope introduces the names of the innermost table,
these stand for what the table says, and leaving the scope uncovers what is around it. -/
def Refines : Frame → NestedFrame → Prop
  | f, .base names => f.scopes = [] ∧ ∀ name, f.get? name = names.get? name
  | f, .scope names outer => ∃ scope rest, f.scopes = scope :: rest ∧
      (∀ name, scope.introduces name = (names.get? name).isSome) ∧
      (∀ name b, names.get? name = some b → f.get? name = some b) ∧
      f.popScope.Refines outer

namespace Refines

theorem congr {n : NestedFrame} {f g : Frame} (h : f.Refines n) (hfg : f.Alike g) :
    g.Refines n := by
  induction n generalizing f g with
  | base names => exact ⟨hfg.scopes ▸ h.1, fun name => (hfg.get? name).symm.trans (h.2 name)⟩
  | scope names outer ih =>
    obtain ⟨scope, rest, hscopes, hintroduces, hnames, houter⟩ := h
    exact ⟨scope, rest, hfg.scopes ▸ hscopes, hintroduces,
      fun name b hb => (hfg.get? name).symm.trans (hnames name b hb), ih houter hfg.popScope⟩

/-- **Every name stands for the same.** -/
theorem get? {n : NestedFrame} {f : Frame} (h : f.Refines n) (name : String) :
    f.get? name = n.get? name := by
  induction n generalizing f with
  | base names => exact h.2 name
  | scope names outer ih =>
    obtain ⟨scope, rest, hscopes, hintroduces, hnames, houter⟩ := h
    rw [NestedFrame.get?]
    cases hname : names.get? name with
    | some b => exact hnames name b hname
    | none =>
      have hnew : scope.introduces name = false := by rw [hintroduces, hname]; rfl
      rw [← get?_popScope hscopes hnew, ih houter]
      rfl

theorem pushScope {n : NestedFrame} {f : Frame} (h : f.Refines n) :
    f.pushScope.Refines (.scope {} n) :=
  ⟨{}, f.scopes, rfl, fun _ => rfl, nofun, h⟩

theorem popScope {n : NestedFrame} {f : Frame} (h : f.Refines n) :
    f.popScope.Refines n.popScope := by
  cases n with
  | base names =>
    have hpop : f.popScope = f := by rw [Frame.popScope, h.1]
    rw [hpop]
    exact h
  | scope names outer =>
    obtain ⟨-, -, -, -, -, houter⟩ := h
    exact houter

theorem declare {n : NestedFrame} {f : Frame} (h : f.Refines n) (name : String) (b : Binding) :
    (f.declare name b).Refines (n.declare name b) := by
  cases n with
  | base names =>
    refine ⟨by rw [Frame.declare, h.1], fun other => ?_⟩
    rw [get?_declare, Table.get?_insert, h.2]
  | scope names outer =>
    have hget := h.get? name
    obtain ⟨scope, rest, hscopes, hintroduces, hnames, houter⟩ := h
    refine ⟨Frame.Scope.note scope name (f.bindings.get? name), rest, ?_, ?_, ?_, ?_⟩
    · rw [Frame.declare, hscopes]
    · intro other
      rw [Scope.introduces_note, hintroduces, Table.get?_insert]
      grind
    · intro other b' hb'
      rw [Table.get?_insert] at hb'
      rw [get?_declare]
      grind
    · refine houter.congr ?_
      obtain ⟨function, bindings, scopes⟩ := f
      cases hscopes
      refine ⟨rfl, fun other => (Scope.get?_undo_note (fun hknown => ?_) (fun other hne => ?_)
        other).symm⟩
      · rw [hintroduces, Option.isSome_iff_exists] at hknown
        obtain ⟨b', hb'⟩ := hknown
        exact Option.ne_none_iff_exists'.2 ⟨b', hnames name b' hb'⟩
      · exact (Table.get?_insert bindings name other b).trans (if_neg hne)

/-- Assigning finds the name in both or in neither, and what is left refines again. -/
theorem assign {n : NestedFrame} {f : Frame} (h : f.Refines n) (name : String) (value : Value) :
    Option.Rel Refines (f.assign? name value) (n.assign? name value) := by
  induction n generalizing f with
  | base names =>
    rw [assign?_eq, NestedFrame.assign?, h.2]
    cases names.get? name with
    | none => exact .none
    | some b =>
      refine .some ⟨h.1, fun other => ?_⟩
      rw [get?_put, Table.get?_insert, h.2]
  | scope names outer ih =>
    obtain ⟨scope, rest, hscopes, hintroduces, hnames, houter⟩ := h
    rw [assign?_eq, NestedFrame.assign?]
    cases hname : names.get? name with
    | some b =>
      -- The scope introduces the name, so the frame around it is left as it was.
      have hknown : scope.introduces name = true := by rw [hintroduces, hname]; rfl
      rw [hnames name b hname]
      refine .some ⟨scope, rest, hscopes, fun other => ?_, fun other b' hb' => ?_,
        houter.congr (alike_popScope_put hscopes hknown _)⟩
      · rw [hintroduces, Table.get?_insert]
        grind
      · rw [Table.get?_insert] at hb'
        rw [get?_put]
        grind
    | none =>
      -- It does not, and the name is assigned to in the frame around it.
      have hnew : scope.introduces name = false := by rw [hintroduces, hname]; rfl
      have hrel := ih houter
      rw [assign?_eq, get?_popScope hscopes hnew] at hrel
      obtain ⟨hf, ho⟩ | ⟨f', outer', hf, ho, houter'⟩ := rel_cases hrel
      · rw [Option.map_eq_none_iff.1 hf, ho]
        exact .none
      · obtain ⟨b, hb, rfl⟩ := Option.map_eq_some_iff.1 hf
        rw [hb, ho]
        refine .some ⟨scope, rest, hscopes, hintroduces, fun other b' hb' => ?_,
          houter'.congr (put_popScope_alike hscopes hnew _)⟩
        rw [get?_put]
        grind

end Refines

end Frame

/-! ## Stacks -/

namespace CallStack

/-- A call stack refines a nested one, frame by frame. -/
structure Refines (s : CallStack) (n : NestedStack) : Prop where
  globals : s.globals.Refines n.globals
  calls : List.Forall₂ Frame.Refines s.calls n.calls

namespace Refines

variable {s : CallStack} {n : NestedStack}

theorem initial : ({} : CallStack).Refines {} :=
  ⟨⟨rfl, fun _ => rfl⟩, .nil⟩

theorem current (h : s.Refines n) : s.current.Refines n.current := by
  obtain ⟨globals, calls⟩ := s
  obtain ⟨globals', calls'⟩ := n
  obtain ⟨hglobals, hcalls⟩ := h
  cases hcalls with
  | nil => exact hglobals
  | cons hf _ => exact hf

theorem setCurrent (h : s.Refines n) {f : Frame} {g : NestedFrame} (hfg : f.Refines g) :
    (s.setCurrent f).Refines (n.setCurrent g) := by
  obtain ⟨globals, calls⟩ := s
  obtain ⟨globals', calls'⟩ := n
  obtain ⟨hglobals, hcalls⟩ := h
  cases hcalls with
  | nil => exact ⟨hfg, .nil⟩
  | cons _ hcallers => exact ⟨hglobals, .cons hfg hcallers⟩

theorem lookup (h : s.Refines n) (name : String) : s.lookup name = n.lookup name := by
  rw [CallStack.lookup, NestedStack.lookup, h.current.get?, h.globals.get?]

theorem assign (h : s.Refines n) (name : String) (value : Value) :
    Option.Rel Refines (s.assign? name value) (n.assign? name value) := by
  rw [CallStack.assign?, NestedStack.assign?]
  obtain ⟨hs, hn⟩ | ⟨f, g, hs, hn, hfg⟩ := rel_cases (h.current.assign name value)
  · rw [hs, hn]
    obtain ⟨hs, hn⟩ | ⟨f, g, hs, hn, hfg⟩ := rel_cases (h.globals.assign name value)
    · rw [hs, hn]
      exact .none
    · rw [hs, hn]
      exact .some ⟨hfg, h.calls⟩
  · rw [hs, hn]
    exact .some (h.setCurrent hfg)

/-- **An operation keeps the two in step.** -/
theorem perform (h : s.Refines n) (op : ScopeOperation) :
    (s.perform op).Refines (n.perform op) := by
  cases op with
  | pushScope => exact h.setCurrent h.current.pushScope
  | popScope => exact h.setCurrent h.current.popScope
  | pushFrame function =>
    have hempty : ({ function } : Frame).Refines (.base {}) := ⟨rfl, fun _ => rfl⟩
    exact ⟨h.globals, .cons hempty.pushScope h.calls⟩
  | popFrame =>
    refine ⟨h.globals, ?_⟩
    obtain ⟨globals, calls⟩ := s
    obtain ⟨globals', calls'⟩ := n
    obtain ⟨-, hcalls⟩ := h
    cases hcalls with
    | nil => exact .nil
    | cons _ hcallers => exact hcallers
  | declare name b => exact h.setCurrent (h.current.declare name b)
  | assign name value =>
    rw [CallStack.perform, NestedStack.perform]
    obtain ⟨hs, hn⟩ | ⟨s', n', hs, hn, h'⟩ := rel_cases (h.assign name value)
    · rwa [hs, hn]
    · rwa [hs, hn]
  | lookup name => exact h

theorem answers (h : s.Refines n) (ops : List ScopeOperation) :
    ScopeOperation.answers CallStack.perform CallStack.lookup s ops
      = ScopeOperation.answers NestedStack.perform NestedStack.lookup n ops := by
  induction ops generalizing s n with
  | nil => rfl
  | cons op ops ih =>
    have hnext := ih (h.perform op)
    cases op with
    | lookup name => exact congrArg₂ _ (h.lookup name) hnext
    | _ => exact hnext

end Refines

/-- **Scopes are nested tables.**  Whatever is asked of a call stack, in whatever order, each
look-up is answered as the innermost table says. -/
theorem answers_nested (ops : List ScopeOperation) :
    ScopeOperation.answers perform lookup {} ops
      = ScopeOperation.answers NestedStack.perform NestedStack.lookup {} ops :=
  Refines.initial.answers ops

end CallStack

end Stepwise
