import Stepwise.Proofs.Recorder.Handles
import Stepwise.Proofs.Run.Scopes

/-!
# The values that a state holds

A state holds values in many places: names stand for them, scopes keep those that they hide, and
arrays those that were written beyond their slots, and a function that has returned left its result
in the flow of control.  The run that has come to the state holds more, which it has evaluated and
not used yet.

* `Frame.values`, `CallStack.values` and `State.values` collect the values of a state, and there
  is a lemma for each way in which a stack changes that nothing is in it which was not there
  before.
* `State.Resolves` says that all handles among these, and among those that the run holds besides,
  are valid.  It is kept when the stack or the flow of control changes (`State.Resolves.stack`,
  `State.Resolves.flow`) and when an operation is performed (`State.Resolves.perform`), as long as
  these use only values that were held before.
-/

set_option autoImplicit false

namespace Stepwise

open Recorder (Operation)

/-! ## The values of a state -/

/-- The value that is returned. -/
def Flow.values : Flow → List Value
  | ret value => [value]
  | _ => []

/-- The values of the bindings that a scope hides. -/
def Scope.values (scope : Scope) : List Value :=
  scope.shadowed.map fun e => e.2.value

namespace Frame

/-- The values that the names of a frame stand for, and those that its open scopes hide. -/
def values (f : Frame) : List Value :=
  (f.bindings.entries.map fun e => e.2.value) ++ f.scopes.flatMap Scope.values

theorem mem_values_of_get? {f : Frame} {name : String} {b : Binding} (h : f.get? name = some b) :
    b.value ∈ f.values :=
  List.mem_append_left _ (List.mem_map_of_mem (Table.mem_entries_of_get? h))

theorem values_pushScope (f : Frame) : f.pushScope.values = f.values := rfl

/-- Leaving a scope puts back what it hid. -/
theorem values_popScope (f : Frame) : f.popScope.values ⊆ f.values := by
  obtain ⟨function, bindings, scopes⟩ := f
  cases scopes with
  | nil => exact List.Subset.refl _
  | cons scope outer =>
    have hundo : (Scope.undo bindings scope).entries ⊆ bindings.entries ++ scope.shadowed := by
      refine List.foldlRecOn (motive := fun t : Table Binding => t.entries ⊆ _)
        scope.shadowed _ ?_ fun t ht e he => ?_
      · refine List.foldlRecOn (motive := fun t : Table Binding => t.entries ⊆ _)
          scope.declared _ (List.subset_append_left _ _) fun t ht name _ => ?_
        exact List.Subset.trans (t.entries_erase_subset name) ht
      · refine List.Subset.trans (t.entries_insert_subset e.1 e.2) (List.cons_subset.2 ⟨?_, ht⟩)
        exact List.mem_append_right _ he
    have hvalues := List.map_subset (fun e : String × Binding => e.2.value) hundo
    rw [List.map_append] at hvalues
    intro v hv
    rw [values, List.flatMap_cons]
    rcases List.mem_append.1 hv with hv | hv
    · rcases List.mem_append.1 (hvalues hv) with hv | hv
      · exact List.mem_append_left _ hv
      · exact List.mem_append_right _ (List.mem_append_left _ hv)
    · exact List.mem_append_right _ (List.mem_append_right _ hv)

/-- A scope that notes a declaration keeps at most what the name stood for before. -/
theorem Scope.values_note (scope : Scope) (name : String) (previous : Option Binding) :
    (Scope.note scope name previous).values
      ⊆ (previous.map Binding.value).toList ++ scope.values := by
  unfold Scope.note
  split
  · exact List.subset_append_right _ _
  · cases previous with
    | none => exact List.Subset.refl _
    | some old =>
      dsimp only
      split
      · exact List.subset_append_right _ _
      · exact List.Subset.refl _

theorem values_declare (f : Frame) (name : String) (b : Binding) :
    (f.declare name b).values ⊆ b.value :: f.values := by
  have hbindings : ((f.bindings.insert name b).entries.map fun e => e.2.value)
      ⊆ b.value :: f.bindings.entries.map fun e => e.2.value :=
    List.map_subset _ (f.bindings.entries_insert_subset name b)
  intro v hv
  rcases List.mem_append.1 hv with hv | hv
  · rcases List.mem_cons.1 (hbindings hv) with rfl | hv
    · exact List.mem_cons_self
    · exact List.mem_cons_of_mem _ (List.mem_append_left _ hv)
  · refine List.mem_cons_of_mem _ ?_
    cases hscopes : f.scopes with
    | nil =>
      rw [declare, hscopes] at hv
      cases hv
    | cons scope outer =>
      rw [declare, hscopes] at hv
      rcases List.mem_append.1 hv with hv | hv
      · rcases List.mem_append.1 (Scope.values_note scope name _ hv) with hv | hv
        · rw [Option.mem_toList, Option.map_eq_some_iff] at hv
          obtain ⟨old, hold, rfl⟩ := hv
          exact mem_values_of_get? hold
        · exact List.mem_append_right _ (by rw [hscopes]; exact List.mem_append_left _ hv)
      · exact List.mem_append_right _ (by rw [hscopes]; exact List.mem_append_right _ hv)

theorem values_assign {f g : Frame} {name : String} {value : Value}
    (h : f.assign? name value = some g) : g.values ⊆ value :: f.values := by
  obtain ⟨b, -, rfl⟩ := Option.map_eq_some_iff.1 h
  have hbindings := List.map_subset (fun e : String × Binding => e.2.value)
    (f.bindings.entries_insert_subset name { b with value })
  exact List.append_subset.2
    ⟨List.Subset.trans hbindings (List.cons_subset_cons _ (List.subset_append_left _ _)),
      List.Subset.trans (List.subset_append_right _ _) (List.subset_cons_self _ _)⟩

end Frame

namespace CallStack

/-- The values of all frames. -/
def values (s : CallStack) : List Value :=
  s.globals.values ++ s.calls.flatMap Frame.values

theorem values_current (s : CallStack) : s.current.values ⊆ s.values := by
  obtain ⟨globals, calls⟩ := s
  cases calls with
  | nil => exact List.subset_append_left _ _
  | cons f callers =>
    exact List.Subset.trans (List.subset_append_left _ _) (List.subset_append_right _ _)

theorem values_setCurrent {s : CallStack} {f : Frame} (vs : List Value)
    (h : f.values ⊆ vs ++ s.current.values) : (s.setCurrent f).values ⊆ vs ++ s.values := by
  have hf : f.values ⊆ vs ++ s.values :=
    List.Subset.trans h (List.append_subset.2 ⟨List.subset_append_left _ _,
      List.Subset.trans s.values_current (List.subset_append_right _ _)⟩)
  obtain ⟨globals, calls⟩ := s
  cases calls with
  | nil => exact List.append_subset.2 ⟨hf, List.nil_subset _⟩
  | cons own callers =>
    refine List.append_subset.2 ⟨?_, List.append_subset.2 ⟨hf, ?_⟩⟩
    · exact List.Subset.trans (List.subset_append_left _ _) (List.subset_append_right _ _)
    · exact List.Subset.trans (List.subset_append_right own.values _)
        (List.Subset.trans (List.subset_append_right _ _) (List.subset_append_right _ _))

theorem values_pushScope (s : CallStack) : s.pushScope.values ⊆ s.values :=
  values_setCurrent [] (List.Subset.refl _)

theorem values_popScope (s : CallStack) : s.popScope.values ⊆ s.values :=
  values_setCurrent [] s.current.values_popScope

theorem values_pushFrame (s : CallStack) (function : String) :
    (s.pushFrame function).values ⊆ s.values :=
  List.Subset.refl _

theorem values_popFrame (s : CallStack) : s.popFrame.values ⊆ s.values := by
  obtain ⟨globals, calls⟩ := s
  cases calls with
  | nil => exact List.Subset.refl _
  | cons own callers =>
    exact List.append_subset.2 ⟨List.subset_append_left _ _,
      List.Subset.trans (List.subset_append_right _ _) (List.subset_append_right _ _)⟩

theorem values_declare (s : CallStack) (name : String) (b : Binding) :
    (s.declare name b).values ⊆ [b.value] ++ s.values :=
  values_setCurrent [b.value] (s.current.values_declare name b)

theorem values_assign {s t : CallStack} {name : String} {value : Value}
    (h : s.assign? name value = some t) : t.values ⊆ [value] ++ s.values := by
  rw [assign?] at h
  cases hf : s.current.assign? name value with
  | some f =>
    rw [hf] at h
    cases h
    exact values_setCurrent [value] (Frame.values_assign hf)
  | none =>
    rw [hf] at h
    obtain ⟨g, hg, rfl⟩ := Option.map_eq_some_iff.1 h
    exact List.append_subset.2
      ⟨List.Subset.trans (Frame.values_assign hg)
          (List.cons_subset_cons _ (List.subset_append_left _ _)),
        List.Subset.trans (List.subset_append_right _ _) (List.subset_cons_self _ _)⟩

theorem mem_values_of_lookup {s : CallStack} {name : String} {b : Binding}
    (h : s.lookup name = some b) : b.value ∈ s.values := by
  rcases Option.or_eq_some_iff.1 h with h | ⟨-, h⟩
  · exact s.values_current (Frame.mem_values_of_get? h)
  · exact List.mem_append_left _ (Frame.mem_values_of_get? h)

end CallStack

namespace State

/-- The values that a state holds, in its frames, its flow of control and its containers. -/
def values (s : State) : List Value :=
  s.stack.values ++ (s.flow.values ++ s.recorder.values)

theorem mem_values {s : State} {v : Value} :
    v ∈ s.values ↔ v ∈ s.stack.values ∨ v ∈ s.flow.values ∨ v ∈ s.recorder.values := by
  rw [values, List.mem_append, List.mem_append]

/-- All handles that the state holds are valid, and so are those among the values that a run holds
besides. -/
def Resolves (s : State) (held : List Value) : Prop :=
  s.recorder.Resolves (s.values ++ held)

variable {s : State} {held : List Value}

/-- Other values may be held if they were there before, or are no handles. -/
theorem Resolves.hold (h : s.Resolves held) {held' : List Value}
    (hheld : ∀ v ∈ held', v.IsPlain ∨ v ∈ s.values ++ held) : s.Resolves held' := by
  intro id hid
  rcases List.mem_append.1 hid with hid | hid
  · exact h (List.mem_append_left _ hid)
  · exact (hheld _ hid).elim (fun hplain => absurd rfl (hplain id)) fun hmem => h hmem

theorem Resolves.mono (h : s.Resolves held) {held' : List Value} (hle : held' ⊆ held) :
    s.Resolves held' :=
  h.hold fun _ hv => .inr (List.mem_append_right _ (hle hv))

theorem Resolves.append (h : s.Resolves held) {vs : List Value} (hvs : s.recorder.Resolves vs) :
    s.Resolves (vs ++ held) := by
  intro id hid
  rcases List.mem_append.1 hid with hid | hid
  · exact h (List.mem_append_left _ hid)
  · rcases List.mem_append.1 hid with hid | hid
    · exact hvs hid
    · exact h (List.mem_append_right _ hid)

/-- A state with at least as many containers whose values were held before. -/
theorem Resolves.change (h : s.Resolves held) {t : State}
    (hsize : s.recorder.containers.size ≤ t.recorder.containers.size)
    (hvalues : t.values ⊆ s.values ++ held) : t.Resolves held := by
  intro id hid
  refine Nat.lt_of_lt_of_le (h ?_) hsize
  rcases List.mem_append.1 hid with hid | hid
  · exact hvalues hid
  · exact List.mem_append_right _ hid

/-- A stack whose values were held before. -/
theorem Resolves.stack (h : s.Resolves held) {stack : CallStack}
    (hstack : stack.values ⊆ held ++ s.stack.values) :
    ({ s with stack } : State).Resolves held := by
  refine h.change (Nat.le_refl _) fun v hv => ?_
  rcases mem_values.1 hv with hv | hv
  · rcases List.mem_append.1 (hstack hv) with hv | hv
    · exact List.mem_append_right _ hv
    · exact List.mem_append_left _ (mem_values.2 (.inl hv))
  · exact List.mem_append_left _ (mem_values.2 (.inr hv))

/-- A flow of control whose value was held before. -/
theorem Resolves.flow (h : s.Resolves held) {flow : Flow}
    (hflow : flow.values ⊆ held ++ s.flow.values) :
    ({ s with flow } : State).Resolves held := by
  refine h.change (Nat.le_refl _) fun v hv => ?_
  rcases mem_values.1 hv with hv | hv | hv
  · exact List.mem_append_left _ (mem_values.2 (.inl hv))
  · rcases List.mem_append.1 (hflow hv) with hv | hv
    · exact List.mem_append_right _ hv
    · exact List.mem_append_left _ (mem_values.2 (.inr (.inl hv)))
  · exact List.mem_append_left _ (mem_values.2 (.inr (.inr hv)))

/-- An operation on values that were held before. -/
theorem Resolves.perform (h : s.Resolves held) (op : Operation) (hop : op.values ⊆ held) :
    ({ s with recorder := s.recorder.perform op } : State).Resolves held := by
  refine h.change (s.recorder.keeps_perform op).size_le fun v hv => ?_
  rcases mem_values.1 hv with hv | hv | hv
  · exact List.mem_append_left _ (mem_values.2 (.inl hv))
  · exact List.mem_append_left _ (mem_values.2 (.inr (.inl hv)))
  · rcases List.mem_append.1 (s.recorder.values_perform op hv) with hv | hv
    · exact List.mem_append_right _ (hop hv)
    · exact List.mem_append_left _ (mem_values.2 (.inr (.inr hv)))

end State

end Stepwise
