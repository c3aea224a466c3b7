import Stepwise.CallStack

/-!
# Scopes

A frame keeps the names of all its open scopes in one table, and each scope remembers what leaving
it has to undo.  This file says what that amounts to.

* `Frame.outermost` is a frame without its open scopes, and `Frame.introduces` says that a name was
  declared in one of them.  A name that was not stands for the same inside and outside of them
  (`Frame.get?_outermost`).
* `Frame.Grows` and `CallStack.Grows` relate what was before a run to what is after it: no name that
  was known is lost, no scope has been opened or left for good, and the frames of callers are as
  they were.  Declaring and assigning make a stack grow, and so do scopes and calls that are entered
  and left again (`CallStack.Grows.scope`, `CallStack.Grows.call`).
-/

set_option autoImplicit false

namespace Stepwise

/-! ## Leaving scopes -/

namespace Scope

/-- Whether a name has been declared in the scope. -/
def introduces (scope : Scope) (name : String) : Bool :=
  scope.declared.contains name || scope.shadowed.any fun e => e.1 == name

/-- What leaving the scope does to the names that are known. -/
def undo (t : Table Binding) (scope : Scope) : Table Binding :=
  scope.shadowed.foldl (fun t e => t.insert e.1 e.2)
    (scope.declared.foldl (fun t name => t.erase name) t)

/-- What a name stands for after a scope has been left depends only on what it stood for before. -/
theorem get?_undo_congr (scope : Scope) {t t' : Table Binding} {name : String}
    (h : t.get? name = t'.get? name) : (undo t scope).get? name = (undo t' scope).get? name := by
  have hdeclared : (scope.declared.foldl (fun t name => t.erase name) t).get? name
      = (scope.declared.foldl (fun t name => t.erase name) t').get? name := by
    refine List.foldl_rel (r := fun t t' : Table Binding => t.get? name = t'.get? name) h ?_
    intro other _ u u' hu
    rw [Table.get?_erase, Table.get?_erase, hu]
  refine List.foldl_rel (r := fun t t' : Table Binding => t.get? name = t'.get? name) hdeclared ?_
  intro e _ u u' hu
  rw [Table.get?_insert, Table.get?_insert, hu]

/-- Leaving a scope does nothing to names that were not declared in it. -/
theorem get?_undo {scope : Scope} {name : String} (h : scope.introduces name = false)
    (t : Table Binding) : (undo t scope).get? name = t.get? name := by
  rw [introduces, Bool.or_eq_false_iff, List.any_eq_false] at h
  obtain ⟨hdeclared, hshadowed⟩ := h
  refine List.foldlRecOn (motive := fun u : Table Binding => u.get? name = t.get? name)
    scope.shadowed _ ?_ fun u hu e he => ?_
  · refine List.foldlRecOn (motive := fun u : Table Binding => u.get? name = t.get? name)
      scope.declared _ rfl fun u hu other hother => ?_
    have hne : name ≠ other := by
      rintro rfl
      rw [List.contains_eq_mem, decide_eq_false_iff_not] at hdeclared
      exact hdeclared hother
    rw [Table.get?_erase, if_neg hne, hu]
  · have hne : name ≠ e.1 := by
      rintro rfl
      exact hshadowed e he (beq_self_eq_true e.1)
    rw [Table.get?_insert, if_neg hne, hu]

/-- Leaving a scope takes only names away that were declared in it and hid nothing. -/
theorem get?_undo_ne_none {scope : Scope} {name : String} (h : name ∉ scope.declared)
    {t : Table Binding} (ht : t.get? name ≠ none) : (undo t scope).get? name ≠ none := by
  refine List.foldlRecOn (motive := fun u : Table Binding => u.get? name ≠ none)
    scope.shadowed _ ?_ fun u hu e _ => ?_
  · refine List.foldlRecOn (motive := fun u : Table Binding => u.get? name ≠ none)
      scope.declared _ ht fun u hu other hother => ?_
    have hne : name ≠ other := by
      rintro rfl
      exact h hother
    rw [Table.get?_erase, if_neg hne]
    exact hu
  · rw [Table.get?_insert]
    split
    · exact Option.some_ne_none e.2
    · exact hu

end Scope

namespace Frame

theorem Scope.mem_declared_note {scope : Scope} {name other : String} {previous : Option Binding}
    (h : other ∈ (Scope.note scope name previous).declared) :
    other ∈ scope.declared ∨ other = name ∧ previous = none := by
  unfold Scope.note at h
  split at h
  · exact .inl h
  · cases previous with
    | none =>
      rcases List.mem_cons.1 h with rfl | h
      · exact .inr ⟨rfl, rfl⟩
      · exact .inl h
    | some old =>
      dsimp only at h
      split at h <;> exact .inl h

/-- The frame after all its open scopes have been left. -/
def outermost (f : Frame) : Frame :=
  f.scopes.foldl (fun f _ => f.popScope) f

/-- Whether a name has been declared in an open scope. -/
def introduces (f : Frame) (name : String) : Bool :=
  f.scopes.any fun scope => scope.introduces name

theorem outermost_eq (f : Frame) :
    f.outermost = { f with bindings := f.scopes.foldl Scope.undo f.bindings, scopes := [] } := by
  obtain ⟨function, bindings, scopes⟩ := f
  rw [outermost]
  induction scopes generalizing bindings with
  | nil => rfl
  | cons scope outer ih => exact ih (Scope.undo bindings scope)

theorem introduces_outermost (f : Frame) (name : String) :
    f.outermost.introduces name = false := by
  rw [outermost_eq]
  rfl

theorem outermost_outermost (f : Frame) : f.outermost.outermost = f.outermost := by
  rw [f.outermost_eq]
  rfl

/-- What a name stands for outside of the open scopes depends on these and on what it stands for
now. -/
theorem get?_outermost_congr {f g : Frame} (hscopes : f.scopes = g.scopes) {name : String}
    (h : f.get? name = g.get? name) : f.outermost.get? name = g.outermost.get? name := by
  rw [outermost_eq, outermost_eq, hscopes]
  exact List.foldl_rel (r := fun t t' : Table Binding => t.get? name = t'.get? name) h
    fun scope _ t t' ht => scope.get?_undo_congr ht

theorem get?_outermost {f : Frame} {name : String} (h : f.introduces name = false) :
    f.outermost.get? name = f.get? name := by
  rw [introduces, List.any_eq_false] at h
  rw [outermost_eq]
  refine List.foldlRecOn (motive := fun t : Table Binding => t.get? name = f.get? name)
    f.scopes _ rfl fun t ht scope hscope => ?_
  rw [Scope.get?_undo (Bool.eq_false_iff.2 (h scope hscope)), ht]

theorem get?_declare (f : Frame) (name other : String) (b : Binding) :
    (f.declare name b).get? other = if other = name then some b else f.get? other :=
  Table.get?_insert f.bindings name other b

theorem assign?_eq_some {f g : Frame} {name : String} {value : Value}
    (h : f.assign? name value = some g) :
    g.scopes = f.scopes ∧ ∃ b, f.get? name = some b ∧
      ∀ other, g.get? other = if other = name then some { b with value } else f.get? other := by
  rw [assign?, Option.map_eq_some_iff] at h
  obtain ⟨b, hb, rfl⟩ := h
  exact ⟨rfl, b, hb, fun other => Table.get?_insert f.bindings name other { b with value }⟩

theorem assign?_eq_none (f : Frame) (name : String) (value : Value) :
    f.assign? name value = none ↔ f.get? name = none :=
  Option.map_eq_none_iff

end Frame

/-! ## What runs do to frames and stacks -/

namespace Frame

/-- The frame has come from `f` without losing a name, and with the same scopes open.  The innermost
of them may have new declarations, of names that were not known. -/
structure Grows (f g : Frame) : Prop where
  known : ∀ {name}, f.get? name ≠ none → g.get? name ≠ none
  height : g.scopes.length = f.scopes.length
  outer : g.scopes.tail = f.scopes.tail
  declared : ∀ {name}, name ∈ (g.scopes.headD {}).declared →
    name ∈ (f.scopes.headD {}).declared ∨ f.get? name = none

namespace Grows

variable {f g h : Frame}

theorem refl (f : Frame) : f.Grows f :=
  ⟨id, rfl, rfl, .inl⟩

theorem trans (hfg : f.Grows g) (hgh : g.Grows h) : f.Grows h where
  known hn := hgh.known (hfg.known hn)
  height := hgh.height.trans hfg.height
  outer := hgh.outer.trans hfg.outer
  declared hn := by
    rcases hgh.declared hn with hg | hg
    · exact hfg.declared hg
    · exact .inr (Decidable.not_not.1 fun hf => hfg.known hf hg)

/-- Declaring adds a name, and the innermost scope notes it if it was not known. -/
theorem declare (f : Frame) (name : String) (b : Binding) : f.Grows (f.declare name b) where
  known {other} ho := by
    rw [get?_declare]
    split
    · exact Option.some_ne_none b
    · exact ho
  height := by cases hf : f.scopes <;> simp [Frame.declare, hf]
  outer := by cases hf : f.scopes <;> simp [Frame.declare, hf]
  declared {other} ho := by
    cases hf : f.scopes with
    | nil =>
      rw [Frame.declare, hf] at ho
      cases ho
    | cons scope outer =>
      rw [Frame.declare, hf] at ho
      rcases Scope.mem_declared_note ho with hscope | ⟨rfl, hnew⟩
      · exact .inl hscope
      · exact .inr hnew

theorem assign {f g : Frame} {name : String} {value : Value}
    (h : f.assign? name value = some g) : f.Grows g := by
  obtain ⟨hscopes, b, hb, hg⟩ := assign?_eq_some h
  refine ⟨fun {other} ho => ?_, by rw [hscopes], by rw [hscopes], fun {other} ho => .inl ?_⟩
  · rw [hg]
    split
    · exact Option.some_ne_none _
    · exact ho
  · rwa [hscopes] at ho

/-- A scope that is entered and left again takes no name away that was known before. -/
theorem scope {f g : Frame} (h : f.pushScope.Grows g) : f.Grows g.popScope := by
  obtain ⟨function, bindings, scopes⟩ := g
  cases scopes with
  | nil => cases h.height
  | cons inner outer =>
    have hscopes : outer = f.scopes := h.outer
    refine ⟨fun {name} hn => ?_, by rw [hscopes, popScope], ?_, ?_⟩
    · have hdeclared : name ∉ inner.declared := by
        intro hmem
        rcases h.declared hmem with hnone | hnone
        · cases hnone
        · exact hn hnone
      exact Scope.get?_undo_ne_none hdeclared (h.known hn)
    · rw [hscopes, popScope]
    · intro name hn
      rw [popScope, hscopes] at hn
      exact .inl hn

end Grows

end Frame

namespace CallStack

theorem current_setCurrent (a : CallStack) (f : Frame) : (a.setCurrent f).current = f := by
  obtain ⟨globals, calls⟩ := a
  cases calls <;> rfl

/-- The stack has come from `a` with the same calls under way: the current frame and that of the top
level have grown, and the frames of the callers are as they were. -/
structure Grows (a b : CallStack) : Prop where
  globals : a.globals.Grows b.globals
  current : a.current.Grows b.current
  callers : b.calls.tail = a.calls.tail
  depth : b.calls.length = a.calls.length

namespace Grows

variable {a b c : CallStack}

theorem refl (a : CallStack) : a.Grows a :=
  ⟨.refl _, .refl _, rfl, rfl⟩

theorem trans (hab : a.Grows b) (hbc : b.Grows c) : a.Grows c :=
  ⟨hab.globals.trans hbc.globals, hab.current.trans hbc.current, hbc.callers.trans hab.callers,
    hbc.depth.trans hab.depth⟩

theorem setCurrent {f : Frame} (h : a.current.Grows f) : a.Grows (a.setCurrent f) := by
  obtain ⟨globals, calls⟩ := a
  cases calls with
  | nil => exact ⟨h, h, rfl, rfl⟩
  | cons own callers => exact ⟨.refl _, h, rfl, rfl⟩

theorem declare (a : CallStack) (name : String) (b : Binding) : a.Grows (a.declare name b) :=
  setCurrent (.declare a.current name b)

theorem assign (a : CallStack) (name : String) (value : Value) :
    a.Grows ((a.assign? name value).getD a) := by
  rw [assign?]
  cases hf : a.current.assign? name value with
  | some f => exact setCurrent (.assign hf)
  | none =>
    cases hg : a.globals.assign? name value with
    | none => exact .refl a
    | some g =>
      obtain ⟨globals, calls⟩ := a
      cases calls with
      | nil => exact ⟨.assign hg, .assign hg, rfl, rfl⟩
      | cons own callers => exact ⟨.assign hg, .refl _, rfl, rfl⟩

/-- A scope that is entered and left again. -/
theorem scope (h : a.pushScope.Grows b) : a.Grows b.popScope := by
  obtain ⟨globals, calls⟩ := a
  obtain ⟨globals', calls'⟩ := b
  obtain ⟨hglobals, hcurrent, hcallers, hdepth⟩ := h
  cases calls with
  | nil =>
    cases calls' with
    | nil => exact ⟨hcurrent.scope, hcurrent.scope, rfl, rfl⟩
    | cons own callers => cases hdepth
  | cons own callers =>
    cases calls' with
    | nil => cases hdepth
    | cons own' callers' => exact ⟨hglobals, hcurrent.scope, hcallers, hdepth⟩

/-- A call that is entered and left again. -/
theorem call {function : String} (h : (a.pushFrame function).Grows b) : a.Grows b.popFrame := by
  have hcalls : b.popFrame.calls = a.calls := h.callers
  refine ⟨h.globals, ?_, by rw [hcalls], by rw [hcalls]⟩
  rw [CallStack.current, CallStack.current, hcalls]
  cases a.calls with
  | nil => exact h.globals
  | cons own callers => exact .refl own

end Grows

end CallStack

end Stepwise
