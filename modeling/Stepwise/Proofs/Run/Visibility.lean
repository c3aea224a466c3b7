import Mathlib.Logic.Relation
import Stepwise.Proofs.Run.Lockstep
import Stepwise.Proofs.Run.Steady

/-!
# What a function sees

A name in a function stands for what the function itself has declared, or else for what the top
level has.  The frame of the top level is one table, though: while a block or a `for` loop of the
top level is open, its declarations stand in that table beside the outermost ones, and in place of
those that they hide.  A function that is called from there and uses one of these names without
having declared it sees it.

* `State.AlikeOutside` relates states that differ only in the open scopes of the top level.
* `CallStack.Calling` relates the stacks within a call: no name that the call may look up at the top
  level has been introduced by these scopes, and some names are bound in the frame of the call.
  Steps that keep to these names keep stacks related (`CallStack.agreement_calling`).
* `Run.together_exec` follows the statements of a function, which bind more and more names, and
  `Run.together_calls` the calls to any depth.
* `Program.FreeName` are the free names of the functions to which a call may come
  (`Program.Calls`).
* `Program.callee_ignores_blocks`: a call does the same in states that differ only in the open
  scopes of the top level, provided that these have not introduced such a name.
* `Program.callee_sees_block` is a call that does not, since its function has such a name.
-/

set_option autoImplicit false

namespace Stepwise

/-! ## Stacks and states that differ only in open scopes -/

namespace CallStack

/-- Stacks that differ only in the open scopes of the top level. -/
structure AlikeOutside (a b : CallStack) : Prop where
  calls : a.calls = b.calls
  outermost : ∀ name, a.globals.outermost.get? name = b.globals.outermost.get? name

/-- No open scope of the top level has introduced a name of `N`. -/
def Clear (N : String → Prop) (a : CallStack) : Prop :=
  ∀ name, N name → a.globals.introduces name = false

/-- Stacks that differ only in open scopes of the top level without names of `N`. -/
structure Sealed (N : String → Prop) (a b : CallStack) : Prop where
  alike : a.AlikeOutside b
  left : a.Clear N
  right : b.Clear N

/-- Such stacks within a call, in whose frame some names are bound. -/
structure Calling (N : String → Prop) (bound : List String) (a b : CallStack) : Prop
    extends Sealed N a b where
  calling : a.calls ≠ []
  bound : ∀ n ∈ bound, a.current.get? n ≠ none

namespace Sealed

variable {N : String → Prop} {a b : CallStack}

theorem globals_get? (h : Sealed N a b) {name : String} (hn : N name) :
    a.globals.get? name = b.globals.get? name := by
  rw [← Frame.get?_outermost (h.left name hn), ← Frame.get?_outermost (h.right name hn)]
  exact h.alike.outermost name

/-- Assigning to a name of the top level keeps stacks related if no open scope has introduced it:
the same outermost declaration is assigned to. -/
theorem setGlobals (h : Sealed N a b) {name : String} (hn : N name) {value : Value} {f g : Frame}
    (hf : a.globals.assign? name value = some f) (hg : b.globals.assign? name value = some g) :
    Sealed N { a with globals := f } { b with globals := g } := by
  obtain ⟨hscopes, v, hv, hf⟩ := Frame.assign?_eq_some hf
  obtain ⟨hscopes', v', hv', hg⟩ := Frame.assign?_eq_some hg
  have hclear : ∀ other, f.introduces other = a.globals.introduces other := fun other => by
    rw [Frame.introduces, Frame.introduces, hscopes]
  have hclear' : ∀ other, g.introduces other = b.globals.introduces other := fun other => by
    rw [Frame.introduces, Frame.introduces, hscopes']
  refine ⟨⟨h.alike.calls, fun other => ?_⟩, fun other ho => ?_, fun other ho => ?_⟩
  · by_cases ho : other = name
    · subst ho
      have hvv : some v = some v' := by rw [← hv, ← hv', h.globals_get? hn]
      cases hvv
      rw [Frame.get?_outermost ((hclear other).trans (h.left other hn)),
        Frame.get?_outermost ((hclear' other).trans (h.right other hn)), hf, hg, if_pos rfl,
        if_pos rfl]
    · have hkept : f.get? other = a.globals.get? other := by rw [hf, if_neg ho]
      have hkept' : g.get? other = b.globals.get? other := by rw [hg, if_neg ho]
      calc f.outermost.get? other
          = a.globals.outermost.get? other := Frame.get?_outermost_congr hscopes hkept
        _ = b.globals.outermost.get? other := h.alike.outermost other
        _ = g.outermost.get? other := (Frame.get?_outermost_congr hscopes' hkept').symm
  · exact (hclear other).trans (h.left other ho)
  · exact (hclear' other).trans (h.right other ho)

end Sealed

namespace Calling

variable {N : String → Prop} {bound : List String} {a b : CallStack}

theorem current_eq (h : Calling N bound a b) : a.current = b.current := by
  have hcalls := h.alike.calls
  have hcalling := h.calling
  rw [current, current, ← hcalls]
  cases hc : a.calls with
  | nil => exact absurd hc hcalling
  | cons own callers => rfl

/-- What is put in place of the current frame is not the frame of the top level. -/
theorem setCurrent (h : Calling N bound a b) {bound' : List String} {f : Frame}
    (hf : ∀ n ∈ bound', f.get? n ≠ none) :
    Calling N bound' (a.setCurrent f) (b.setCurrent f) := by
  obtain ⟨globals, calls⟩ := a
  obtain ⟨globals', calls'⟩ := b
  obtain ⟨⟨⟨hcalls, houtermost⟩, hleft, hright⟩, hcalling, -⟩ := h
  cases hcalls
  cases calls with
  | nil => exact absurd rfl hcalling
  | cons own callers =>
    exact ⟨⟨⟨rfl, houtermost⟩, hleft, hright⟩, List.cons_ne_nil f callers, hf⟩

theorem assign (h : Calling N bound a b) {name : String} (hn : name ∈ bound ∨ N name)
    (value : Value) : Calling N bound ((a.assign? name value).getD a)
      ((b.assign? name value).getD b) := by
  rw [assign?, assign?, ← h.current_eq]
  cases hown : a.current.assign? name value with
  | some f => exact h.setCurrent fun n hb => (Frame.Grows.assign hown).known (h.bound n hb)
  | none =>
    -- a name that is bound in the frame would have been assigned to there
    have hN : N name := by
      refine hn.resolve_left fun hb => ?_
      exact h.bound name hb ((Frame.assign?_eq_none _ _ _).1 hown)
    have hnone : a.globals.assign? name value = none ↔ b.globals.assign? name value = none := by
      rw [Frame.assign?_eq_none, Frame.assign?_eq_none, h.globals_get? hN]
    cases hf : a.globals.assign? name value with
    | none =>
      rw [hnone.1 hf]
      exact h
    | some f =>
      cases hg : b.globals.assign? name value with
      | none =>
        rw [hnone.2 hg] at hf
        cases hf
      | some g =>
        refine ⟨h.toSealed.setGlobals hN hf hg, h.calling, fun n hb => ?_⟩
        have hcurrent : CallStack.current { a with globals := f } = a.current := by
          rw [current, current]
          cases hc : a.calls with
          | nil => exact absurd hc h.calling
          | cons own callers => rfl
        show (CallStack.current { a with globals := f }).get? n ≠ none
        rw [hcurrent]
        exact h.bound n hb

theorem lookup (h : Calling N bound a b) {name : String} (hn : name ∈ bound ∨ N name) :
    a.lookup name = b.lookup name := by
  rw [CallStack.lookup, CallStack.lookup, ← h.current_eq]
  cases hown : a.current.get? name with
  | some v => rfl
  | none => rw [h.globals_get? (hn.resolve_left fun hb => h.bound name hb hown)]

end Calling

/-- In a call, names that are bound in its frame and names of `N` stand for the same, whatever
scopes without names of `N` are open at the top level. -/
theorem agreement_calling (N : String → Prop) (bound : List String) :
    Agreement (fun n => n ∈ bound ∨ N n) (Calling N bound) where
  lookup h _ hn := h.lookup hn
  declare {a b} h name v := by
    rw [declare, declare, ← h.current_eq]
    exact h.setCurrent fun n hb => (Frame.Grows.declare a.current name v).known (h.bound n hb)
  assign h _ hn value := h.assign hn value
  pushScope h := by
    rw [pushScope, pushScope, ← h.current_eq]
    exact h.setCurrent h.bound
  popScope {a b a' b'} h h' hgrows := by
    have hbound : ∀ n ∈ bound, a'.current.popScope.get? n ≠ none := fun n hb => by
      have hknown := hgrows.scope.current.known (h.bound n hb)
      rwa [popScope, current_setCurrent] at hknown
    rw [popScope, popScope, ← h'.current_eq]
    exact h'.setCurrent hbound

theorem sealed_popFrame {N : String → Prop} {a b : CallStack} (h : Sealed N a b) :
    Sealed N a.popFrame b.popFrame := by
  refine ⟨⟨?_, h.alike.outermost⟩, h.left, h.right⟩
  rw [popFrame, popFrame, h.alike.calls]

theorem calling_pushFrame {N : String → Prop} {a b : CallStack} (h : Sealed N a b)
    (function : String) : Calling N [] (a.pushFrame function) (b.pushFrame function) := by
  refine ⟨⟨⟨?_, h.alike.outermost⟩, h.left, h.right⟩, List.cons_ne_nil _ _, fun n hn => ?_⟩
  · rw [pushFrame, pushFrame, h.alike.calls]
  · cases hn

theorem surrounds_sealed (N : String → Prop) : Surrounds (Sealed N) (Calling N []) where
  pushFrame h function := calling_pushFrame h function
  popFrame _ h' _ := sealed_popFrame h'.toSealed

theorem surrounds_calling (N : String → Prop) (bound : List String) :
    Surrounds (Calling N bound) (Calling N []) where
  pushFrame h function := calling_pushFrame h.toSealed function
  popFrame {a b a' b' function} h h' hgrows := by
    refine ⟨sealed_popFrame h'.toSealed, ?_, fun n hb => hgrows.call.current.known (h.bound n hb)⟩
    have hcalls : a'.popFrame.calls = a.calls := hgrows.callers
    rw [hcalls]
    exact h.calling

end CallStack

/-- States that differ only in the open scopes of the top level. -/
structure State.AlikeOutside (s t : State) : Prop where
  recorder : s.recorder = t.recorder
  guards : s.guards = t.guards
  flow : s.flow = t.flow
  stack : s.stack.AlikeOutside t.stack

/-- The state after all open scopes of the top level have been left. -/
def State.outside (s : State) : State :=
  { s with stack := { s.stack with globals := s.stack.globals.outermost } }

theorem State.alikeOutside_outside (s : State) : s.AlikeOutside s.outside :=
  ⟨rfl, rfl, rfl, rfl, fun name => by rw [State.outside, Frame.outermost_outermost]⟩

/-! ## Runs within a call -/

/-- Any lines and any loops, but only some variables and some functions. -/
def Vocabulary.ofNames (names functions : String → Prop) : Vocabulary where
  names := names
  functions := functions
  lines := fun _ => True
  counted := False

/-- The names that a function may use where some variables are bound. -/
def Vocabulary.known (names functions : String → Prop) (bound : List String) : Vocabulary :=
  ofNames (fun n => n ∈ bound ∨ names n) functions

theorem has_known_of_unbound {names functions : String → Prop} {bound : List String}
    {mentions : List Mention}
    (h : ∀ m ∈ unbound bound mentions, (Vocabulary.ofNames names functions).Has m) :
    ∀ m ∈ mentions, (Vocabulary.known names functions bound).Has m := by
  have hunbound : ∀ m ∈ mentions, m.isBound bound = false →
      (Vocabulary.ofNames names functions).Has m := fun m hm hb =>
    h m (List.mem_filter.2 ⟨hm, by rw [hb]; rfl⟩)
  intro m hm
  cases m with
  | call f => exact hunbound (.call f) hm rfl
  | var n =>
    by_cases hb : n ∈ bound
    · exact .inl hb
    · exact .inr (hunbound (.var n) hm (decide_eq_false hb))

namespace Run

variable {α β : Type} {S : CallStack → CallStack → Prop} {N : String → Prop} {bound : List String}
  {orderly : Bool}

/-- From states with stacks related by `S`, the run does the same, and its states stay related.  If
it is `orderly`, this is so where control goes on normally, and else wherever control goes. -/
def Along (orderly : Bool) (S : CallStack → CallStack → Prop) (m : Run α) : Prop :=
  ∀ ⦃s t⦄, Abreast S s t → (orderly = true → s.flow = .normal) →
    EndsAlike (Advanced S s t) (m s) (m t)

/-- The run does not see open scopes of the top level: within a call in whose frame some names are
bound, it does the same with stacks that differ only in such scopes without names of `N`. -/
abbrev Blind (orderly : Bool) (N : String → Prop) (bound : List String) (m : Run α) : Prop :=
  Along orderly (CallStack.Calling N bound) m

theorem along_of_together {m : Run α} (h : Together (recording S) m m) : Along orderly S m :=
  fun s t hst _ => h s t hst

theorem Along.anywhere {m : Run α} (h : Along orderly S m) (ho : ¬orderly = true) :
    Along false S m :=
  fun _ _ hst _ => h hst fun h => absurd h ho

theorem along_pure (a : α) : Along orderly S (pure a : Run α) :=
  along_of_together (together_pure a)

/-- Names that are bound stay bound, so it does no harm to know of more of them. -/
theorem Along.mono {bound' : List String} {m : Run α} (h : Blind orderly N bound m)
    (hsub : ∀ x ∈ bound, x ∈ bound') : Blind orderly N bound' m := by
  intro s t hst hflow
  have hfewer : Abreast (CallStack.Calling N bound) s t :=
    ⟨hst.recorder, ⟨hst.stack.toSealed, hst.stack.calling,
      fun x hx => hst.stack.bound x (hsub x hx)⟩, hst.guards, hst.flow⟩
  refine (h hfewer hflow).imp fun s' t' hafter => ?_
  exact ⟨hafter.operations, ⟨hafter.stack.toSealed, hafter.stack.calling,
    fun x hx => hafter.grows.current.known (hst.stack.bound x hx)⟩, hafter.grows, hafter.guards,
    hafter.flow⟩

/-- A sequence whose first part may bind more names for the second, and may settle the flow of
control for it. -/
theorem Along.bindMore (extra : List String) (settled : α → Bool) {m : Run α} {f : α → Run β}
    (hm : Blind orderly N bound m)
    (hextra : ∀ {s a s'}, m s = .ok a s' → ∀ x ∈ extra, s'.stack.current.get? x ≠ none)
    (hsettled : ∀ {s a s'}, settled a = true → (orderly = true → s.flow = .normal) →
      m s = .ok a s' → s'.flow = .normal)
    (hf : ∀ a, Blind (settled a) N (extra ++ bound) (f a)) : Blind orderly N bound (m >>= f) := by
  intro s t hst hflow
  refine (hm hst hflow).bind (fun a s' t' hok hafter => ?_) fun _ _ hafter => hafter
  have halike : s'.recorder.Alike t'.recorder :=
    ((recording (CallStack.Calling N bound)).next hst hafter).recorder
  have hmore : Abreast (CallStack.Calling N (extra ++ bound)) s' t' := by
    refine ⟨halike, ⟨hafter.stack.toSealed, hafter.stack.calling, fun x hx => ?_⟩,
      hafter.guards, hafter.flow⟩
    rcases List.mem_append.1 hx with hx | hx
    · exact hextra hok x hx
    · exact hafter.stack.bound x hx
  refine (hf a hmore fun h => hsettled h hflow hok).imp fun s'' t'' hafter' => ?_
  have hfewer : CallStack.Calling N bound s''.stack t''.stack :=
    ⟨hafter'.stack.toSealed, hafter'.stack.calling,
      fun x hx => hafter'.stack.bound x (List.mem_append_right extra hx)⟩
  exact (recording (CallStack.Calling N bound)).trans hafter
    ⟨hafter'.operations, hfewer, hafter'.grows, hafter'.guards, hafter'.flow⟩

/-- A sequence whose second part does not care where control goes. -/
theorem Along.bind {m : Run α} {f : α → Run β} (hm : Blind orderly N bound m)
    (hf : ∀ a, Blind false N bound (f a)) : Blind orderly N bound (m >>= f) :=
  hm.bindMore [] (fun _ => false) (fun _ => nofun) nofun hf

/-- A sequence whose first part lets control go on normally. -/
theorem Along.andThen {m : Run α} {f : α → Run β} (hm : Blind orderly N bound m)
    (hflow : FallsThrough m) (hf : ∀ a, Blind orderly N bound (f a)) :
    Blind orderly N bound (m >>= f) := by
  refine hm.bindMore [] (fun _ => orderly) (fun _ => nofun) ?_ hf
  intro s a s' ho hs hok
  rw [← final_of_ok hok]
  exact hflow (hs ho)

theorem Along.inScope {m : Run α} (h : Blind orderly N bound m) :
    Blind orderly N bound (inScope m) := by
  have hS := CallStack.agreement_calling N bound
  intro s t hst hflow
  rw [inScope_eq_bracket]
  have hentered : Abreast (CallStack.Calling N bound) { s with stack := s.stack.pushScope }
      { t with stack := t.stack.pushScope } :=
    ⟨hst.recorder, hS.pushScope hst.stack, hst.guards, hst.flow⟩
  refine EndsAlike.bracket ((h hentered hflow).imp fun s' t' hafter => ?_)
  exact ⟨hafter.operations, hS.popScope hst.stack hafter.stack hafter.grows, hafter.grows.scope,
    hafter.guards, hafter.flow⟩

/-! ### Loops -/

theorem along_goesOn : Along orderly S goesOn := by
  have hnormal : Together (recording S) (setFlow .normal) (setFlow .normal) := together_setFlow _
  refine along_of_together (together_flow.bind fun flow => ?_)
  rcases flow with _ | (_ | _) | value
  · exact hnormal.bind fun _ => together_pure true
  · exact hnormal.bind fun _ => together_pure false
  · exact hnormal.bind fun _ => together_pure true
  · exact together_pure false

/-- A loop that goes on does so normally. -/
theorem flow_of_goesOn {s s' : State} (h : goesOn s = .ok true s') : s'.flow = .normal := by
  rw [goesOn_apply] at h
  split at h <;> cases h <;> rfl

/-- The end of a turn, wherever control goes after the body. -/
theorem along_afterBody {onward : Run Bool} (h : Blind orderly N bound onward) :
    Blind false N bound (do if ← goesOn then onward else return false) := by
  refine along_goesOn.bindMore [] (fun again => again && orderly)
    (fun _ => nofun) ?_ fun again => ?_
  · intro s again s' hsettled _ hok
    cases (Bool.and_eq_true_iff.1 hsettled).1
    exact flow_of_goesOn hok
  · cases again with
    | false => exact along_pure false
    | true => exact h

theorem along_whileTurn {test : Run Bool} {body next : Run Unit}
    (htest : Blind orderly N bound test ∧ FallsThrough test) (hbody : Blind orderly N bound body)
    (hnext : Blind orderly N bound next) : Blind orderly N bound (whileTurn test body next) := by
  refine htest.1.andThen htest.2 fun holds => ?_
  cases holds with
  | false => exact along_pure false
  | true => exact hbody.bind fun _ => along_afterBody (hnext.bind fun _ => along_pure true)

theorem along_untilTurn {test : Run Bool} {body : Run Unit} (htest : Blind orderly N bound test)
    (hbody : Blind orderly N bound body) : Blind orderly N bound (untilTurn body test) :=
  hbody.bind fun _ => along_afterBody htest

theorem flow_of_whileTurn {test : Run Bool} {body next : Run Unit} (hnext : FallsThrough next)
    {s s' : State} (h : whileTurn test body next s = .ok true s') : s'.flow = .normal := by
  obtain ⟨holds, t, -, h⟩ := bind_eq_ok h
  cases holds with
  | false => cases h
  | true =>
    obtain ⟨_, u, -, h⟩ := bind_eq_ok h
    obtain ⟨again, v, hgoesOn, h⟩ := bind_eq_ok h
    cases again with
    | false => cases h
    | true =>
      obtain ⟨_, w, hw, h⟩ := bind_eq_ok h
      cases h
      rw [← final_of_ok hw]
      exact hnext (flow_of_goesOn hgoesOn)

theorem flow_of_untilTurn {test : Run Bool} {body : Run Unit} (htest : FallsThrough test)
    {s s' : State} (h : untilTurn body test s = .ok true s') : s'.flow = .normal := by
  obtain ⟨_, t, -, h⟩ := bind_eq_ok h
  obtain ⟨again, u, hgoesOn, h⟩ := bind_eq_ok h
  cases again with
  | false => cases h
  | true =>
    rw [← final_of_ok h]
    exact htest (flow_of_goesOn hgoesOn)

/-- Loops each of whose turns lets control go on normally if another one follows. -/
theorem along_iterate {turn : Run Bool} (h : Blind orderly N bound turn)
    (hflow : ∀ {s s'}, turn s = .ok true s' → s'.flow = .normal) :
    ∀ turns, Blind orderly N bound (iterate turn turns)
  | 0 => fun _ _ hst _ => .error .unfinished ((recording _).refl hst)
  | turns + 1 => by
    refine h.bindMore [] (fun again => again && orderly) (fun _ => nofun) ?_
      fun again => ?_
    · intro s again s' hsettled _ hok
      cases (Bool.and_eq_true_iff.1 hsettled).1
      exact hflow hok
    · cases again with
      | false => exact along_pure ()
      | true => exact along_iterate h hflow turns

/-! ### What statements bind -/

theorem get?_declare_ne_none {name : String} {b : Binding} {u : Unit} {s s' : State}
    (h : Run.declare name b s = .ok u s') : s'.stack.current.get? name ≠ none := by
  cases h
  show (s.stack.declare name b).current.get? name ≠ none
  rw [CallStack.declare, CallStack.current_setCurrent, Frame.get?_declare, if_pos rfl]
  exact Option.some_ne_none b

end Run

section

open Run

variable {x : Horizon} {c : Callee}

/-- A declaration that has been executed has bound its name. -/
theorem Stmt.bound_of_exec {stmt : Stmt} {u : Unit} {s s' : State}
    (h : stmt.exec x c s = .ok u s') : ∀ n ∈ stmt.declares, s'.stack.current.get? n ≠ none := by
  cases stmt with
  | declare name init =>
    rw [Stmt.exec] at h
    obtain ⟨value, t, -, h⟩ := bind_eq_ok h
    exact List.forall_mem_singleton.2 (get?_declare_ne_none h)
  | construct name kind =>
    rw [Stmt.exec] at h
    obtain ⟨id, t, -, h⟩ := bind_eq_ok h
    exact List.forall_mem_singleton.2 (get?_declare_ne_none h)
  | array name size init =>
    rw [Stmt.exec] at h
    obtain ⟨n, t, -, h⟩ := bind_eq_ok h
    obtain ⟨values, t, -, h⟩ := bind_eq_ok h
    obtain ⟨id, t, -, h⟩ := bind_eq_ok h
    exact List.forall_mem_singleton.2 (get?_declare_ne_none h)
  | _ => exact fun n hn => absurd hn List.not_mem_nil

end

namespace Run

variable {α : Type} {N F : String → Prop} {orderly : Bool} {x : Horizon} {c : Callee}

/-- **Expressions** do the same in related states if the variables that they use are bound or in
`N`, and they let control go on normally. -/
theorem blind_law (N F : String → Prop) (bound : List String) (orderly : Bool) (x : Horizon) :
    EvalLaw (.known N F bound) x fun m => Blind orderly N bound m ∧ FallsThrough m where
  evalStep h := ⟨along_of_together (together_evalStep (CallStack.agreement_calling N bound) h),
    h.fallsThrough⟩
  countGuard := ⟨along_of_together (together_countGuard rfl), (fallsThrough_law x).countGuard⟩
  bind h hf := ⟨h.1.andThen h.2 fun a => (hf a).1, h.2.bind fun a => (hf a).2⟩

theorem blind_declare {bound : List String} (name : String) (b : Binding) :
    Blind orderly N bound (Run.declare name b) :=
  along_of_together (together_execStep (V := .known N (fun _ => False) bound)
    (CallStack.agreement_calling N bound) (.declare name b))

/-- What is executed only if control goes on normally. -/
theorem blind_ifNormal {bound : List String} {rest : Run Unit}
    (hrest : Blind orderly N bound rest) :
    Blind false N bound (do if (← flow).isNormal then rest) := by
  refine (along_of_together together_flow).bindMore []
    (fun flow => flow.isNormal && orderly) (fun _ => nofun) ?_ fun flow => ?_
  · intro s flow s' hsettled _ hok
    have hnormal := (Bool.and_eq_true_iff.1 hsettled).1
    cases hok
    cases h : s.flow with
    | normal => rfl
    | _ =>
      rw [h] at hnormal
      cases hnormal
  · cases flow with
    | normal => exact hrest
    | _ => exact along_pure ()

theorem ifNormal_bind_apply {rest : Run Unit} {f : Unit → Run α} {s : State}
    (hs : s.flow = .normal) :
    ((do if (← flow).isNormal then rest : Run Unit) >>= f) s = (rest >>= f) s := by
  have hflow : flow s = .ok .normal s := by rw [← hs]; rfl
  rw [bind_assoc, bind_apply, hflow]
  rfl

/-- Calls of the functions of `F` do the same, whatever is bound in the frame of their caller, and
no call jumps. -/
structure CallsBlind (orderly : Bool) (N F : String → Prop) (c : Callee) : Prop where
  blind : ∀ bound name, F name → ∀ args, Blind orderly N bound (c name args)
  flow : ∀ name args, FallsThrough (c name args)

theorem CallsBlind.at (h : CallsBlind orderly N F c) (bound : List String) (name : String)
    (hf : F name) (args : List Value) :
    Blind orderly N bound (c name args) ∧ FallsThrough (c name args) :=
  ⟨h.blind bound name hf args, h.flow name args⟩

mutual

/-- **Statements of a function.**  They do the same in related states if the names that they use
without having declared them are bound before, or in `N`. -/
theorem blind_exec (hc : CallsBlind orderly N F c) :
    ∀ (stmt : Stmt) (bound : List String),
    (∀ m ∈ stmt.free orderly bound, (Vocabulary.ofNames N F).Has m) →
    (orderly = true → stmt.straightInits = true) → Blind orderly N bound (stmt.exec x c)
  | .line l, bound, _, _ => by
    rw [Stmt.exec]
    exact along_of_together (together_setLine l)
  | .declare name init, bound, hfree, _ => by
    have hlaw := blind_law N F bound orderly x
    have hvalue := hlaw.evalOption (hc.at bound) (has_known_of_unbound hfree)
    rw [Stmt.exec]
    exact hvalue.1.bind fun value => blind_declare name _
  | .construct name kind, bound, _, _ => by
    have hcreate := together_execStep (V := .known N F bound) (CallStack.agreement_calling N bound)
      (.createSequence kind name)
    rw [Stmt.exec]
    exact (along_of_together hcreate).bind fun id => blind_declare name _
  | .array name size init, bound, hfree, _ => by
    have hlaw := blind_law N F bound orderly x
    have hnames := has_known_of_unbound hfree
    rw [Stmt.mentions, List.forall_mem_append] at hnames
    have hsize := hlaw.arraySize (hc.at bound) hnames.1 init
    have hvalues := hlaw.evalAll (hc.at bound) init hnames.2
    rw [Stmt.exec]
    refine hsize.1.andThen hsize.2 fun n => hvalues.1.bind fun values => ?_
    have hcreate := together_execStep (V := .known N F bound) (CallStack.agreement_calling N bound)
      (.createArray name n values)
    exact (along_of_together hcreate).bind fun id => blind_declare name _
  | .expr e, bound, hfree, _ => by
    have hlaw := blind_law N F bound orderly x
    have hvalue := hlaw.eval (hc.at bound) e (has_known_of_unbound hfree)
    rw [Stmt.exec]
    exact hvalue.1.bind fun _ => along_pure ()
  | .branch condition thenBody, bound, hfree, hinits => by
    rw [Stmt.free, List.forall_mem_append] at hfree
    have hlaw := blind_law N F bound orderly x
    have htest := hlaw.test (hc.at bound) (has_known_of_unbound hfree.1)
    have hthen := (blind_execAll hc thenBody bound hfree.2 hinits).inScope
    rw [Stmt.exec]
    refine htest.1.andThen htest.2 fun holds => ?_
    cases holds with
    | false => exact along_pure ()
    | true => exact hthen
  | .branchElse condition thenBody elseBody, bound, hfree, hinits => by
    rw [Stmt.free, List.forall_mem_append, List.forall_mem_append] at hfree
    rw [Stmt.straightInits, Bool.and_eq_true] at hinits
    have hlaw := blind_law N F bound orderly x
    have htest := hlaw.test (hc.at bound) (has_known_of_unbound hfree.1)
    have hthen := (blind_execAll hc thenBody bound hfree.2.1 fun h => (hinits h).1).inScope
    have helse := (blind_execAll hc elseBody bound hfree.2.2 fun h => (hinits h).2).inScope
    rw [Stmt.exec]
    refine htest.1.andThen htest.2 fun holds => ?_
    cases holds with
    | false => exact helse
    | true => exact hthen
  | .whileLoop condition body, bound, hfree, hinits => by
    rw [Stmt.free, List.forall_mem_append] at hfree
    have hlaw := blind_law N F bound orderly x
    have htest := hlaw.test (hc.at bound) (has_known_of_unbound hfree.1)
    have hbody := (blind_execAll hc body bound hfree.2 hinits).inScope
    have hnext : FallsThrough (pure () : Run Unit) := fallsThrough_of_final fun _ => rfl
    rw [Stmt.exec]
    exact along_iterate (along_whileTurn htest hbody (along_pure ())) (flow_of_whileTurn hnext) _
  | .doWhile body condition, bound, hfree, hinits => by
    rw [Stmt.free, List.forall_mem_append] at hfree
    have hlaw := blind_law N F bound orderly x
    have htest := hlaw.test (hc.at bound) (has_known_of_unbound hfree.1)
    have hbody := (blind_execAll hc body bound hfree.2 hinits).inScope
    rw [Stmt.exec]
    exact along_iterate (along_untilTurn htest.1 hbody) (flow_of_untilTurn htest.2) _
  | .forLoop init condition increment body, bound, hfree, hinits => by
    rw [Stmt.free, List.forall_mem_append, List.forall_mem_append] at hfree
    rw [Stmt.straightInits, Bool.and_eq_true, List.all_eq_true] at hinits
    obtain ⟨hinit, hheader, hbody⟩ := hfree
    have hnames := has_known_of_unbound hheader
    rw [List.forall_mem_append] at hnames
    have hlaw := blind_law N F (Stmt.leading orderly init ++ bound) orderly x
    have htest := hlaw.test (hc.at _) hnames.1
    have hvalues := hlaw.evalAll (hc.at _) increment hnames.2
    have hnext : FallsThrough (do let _ ← Expr.evalAll x c increment : Run Unit) :=
      hvalues.2.bind fun _ => fallsThrough_of_final fun _ => rfl
    have hscope := (blind_execAll hc body _ hbody fun h => (hinits h).2).inScope
    have hturn := along_whileTurn htest hscope (hvalues.1.bind fun _ => along_pure ())
    rw [Stmt.exec]
    exact Along.inScope (blind_leading hc init bound hinit (fun h => (hinits h).1)
      (along_iterate hturn (flow_of_whileTurn hnext) _))
  | .block body, bound, hfree, hinits => by
    rw [Stmt.exec]
    exact (blind_execAll hc body bound hfree hinits).inScope
  | .ret value, bound, hfree, _ => by
    have hlaw := blind_law N F bound orderly x
    have hvalue := hlaw.evalOption (hc.at bound) (has_known_of_unbound hfree)
    rw [Stmt.exec]
    exact hvalue.1.bind fun v => along_of_together (together_setFlow _)
  | .jump j, bound, _, _ => by
    rw [Stmt.exec]
    exact along_of_together (together_setFlow _)
  | .malformed e, bound, _, _ => by
    rw [Stmt.exec]
    exact along_of_together (together_malformed _ _ _)

theorem blind_execAll (hc : CallsBlind orderly N F c) :
    ∀ (stmts : List Stmt) (bound : List String),
    (∀ m ∈ Stmt.allFree orderly bound stmts, (Vocabulary.ofNames N F).Has m) →
    (orderly = true → Stmt.allStraightInits stmts = true) →
    Blind orderly N bound (Stmt.execAll x c stmts)
  | [], bound, _, _ => by
    rw [Stmt.execAll]
    exact along_pure ()
  | stmt :: rest, bound, hfree, hinits => by
    rw [Stmt.allFree, List.forall_mem_append] at hfree
    rw [Stmt.allStraightInits, Bool.and_eq_true] at hinits
    have hstmt := blind_exec hc stmt bound hfree.1 fun h => (hinits h).1
    have hrest := blind_execAll hc rest (stmt.declares ++ bound) hfree.2 fun h => (hinits h).2
    rw [Stmt.execAll]
    exact hstmt.bindMore _ (fun _ => false) Stmt.bound_of_exec nofun
      fun _ => blind_ifNormal hrest

/-- Whatever comes after an initialiser knows the names that this has declared. -/
theorem blind_leading (hc : CallsBlind orderly N F c) {m : Run Unit} :
    ∀ (init : List Stmt) (bound : List String),
    (∀ n ∈ Stmt.allFree orderly bound init, (Vocabulary.ofNames N F).Has n) →
    (orderly = true → ∀ stmt ∈ init, stmt.isStraight = true) →
    Blind orderly N (Stmt.leading orderly init ++ bound) m →
    Blind orderly N bound (Stmt.execAll x c init >>= fun _ => m)
  | [], bound, _, _, hm => by
    rw [Stmt.execAll, pure_bind]
    exact hm
  | stmt :: rest, bound, hfree, hinit, hm => by
    rw [Stmt.allFree, List.forall_mem_append] at hfree
    have hstmt := blind_exec hc stmt bound hfree.1 fun h =>
      stmt.straightInits_of_isStraight (hinit h stmt List.mem_cons_self)
    rw [Stmt.execAll, bind_assoc]
    by_cases ho : orderly = true
    · rw [Stmt.leading, if_pos ho] at hm
      have hstraight : FallsThrough (stmt.exec x c) := (fallsThrough_straightLaw x).exec
        (fun name _ => hc.flow name) (hinit ho stmt List.mem_cons_self) stmt.within_any
      have hrest := blind_leading hc rest (stmt.declares ++ bound) hfree.2
        (fun h s hs => hinit h s (List.mem_cons_of_mem stmt hs)) (hm.mono fun n hn => by grind)
      refine hstmt.bindMore _ (fun _ => orderly) Stmt.bound_of_exec ?_
        fun _ s t hst hs => ?_
      · intro s u s' _ hs hok
        rw [← final_of_ok hok]
        exact hstraight (hs ho)
      · have ht : t.flow = .normal := hst.flow.symm.trans (hs ho)
        rw [ifNormal_bind_apply (hs ho), ifNormal_bind_apply ht]
        exact hrest hst hs
    -- An initialiser may be left before its later declarations, so these are not relied on.
    · rw [Stmt.leading, if_neg ho, List.append_nil] at hm
      have hrest := blind_execAll hc rest (stmt.declares ++ bound) hfree.2 fun h => absurd h ho
      exact hstmt.bindMore _ (fun _ => false) Stmt.bound_of_exec nofun
        fun _ => (blind_ifNormal hrest).bind fun _ => hm.anywhere ho

end

/-! ### Calls -/

/-- What comes after the parameters have been bound knows them. -/
theorem blind_bindParams {m : Run Unit} :
    ∀ (params : List String) (args : List Value) (bound : List String),
      args.length = params.length → Blind orderly N (params ++ bound) m →
        Blind orderly N bound (bindParams params args >>= fun _ => m)
  | [], _, bound, _, hm => by
    rw [bindParams, pure_bind]
    · exact hm
    · exact fun _ _ _ _ h => by cases h
  | param :: params, [], bound, hlength, _ => by cases hlength
  | param :: params, v :: vs, bound, hlength, hm => by
    have hrest := blind_bindParams params vs ([param] ++ bound) (Nat.succ.inj hlength)
      (hm.mono fun n hn => by grind)
    rw [bindParams, bind_assoc]
    refine (blind_declare param { value := v }).bindMore [param] (fun _ => orderly)
      (fun {s u s'} hs => List.forall_mem_singleton.2 (get?_declare_ne_none hs)) ?_ fun _ => hrest
    intro s u s' ho hs hok
    cases hok
    exact hs ho

/-- What is left to do of a call after its frame has been left. -/
theorem together_leave {S : CallStack → CallStack → Prop} (caller : SourceLine) (flow : Flow) :
    Together (recording S) (flow.leave caller) (flow.leave caller) := by
  cases flow with
  | jump j => exact together_fail _
  | normal => exact (together_setLine caller).bind fun _ => together_pure _
  | ret value => exact (together_setLine caller).bind fun _ => together_pure _

theorem Along.bindTogether {α β : Type} {S : CallStack → CallStack → Prop} {m : Run α}
    {f : α → Run β} (hm : Along orderly S m) (hf : ∀ a, Together (recording S) (f a) (f a)) :
    Along orderly S (m >>= f) := by
  intro s t hst hflow
  refine (hm hst hflow).bind (fun a s' t' _ hafter => ?_) fun _ _ hafter => hafter
  exact (hf a s' t' ((recording S).next hst hafter)).imp
    fun _ _ hafter' => (recording S).trans hafter hafter'

/-- A call in whose frame the body does the same. -/
theorem along_inCall {S : CallStack → CallStack → Prop}
    (hS : CallStack.Surrounds S (CallStack.Calling N [])) {m : Run Unit} (function : String)
    (h : Blind orderly N [] m) : Along orderly S (inCall function m) := by
  intro s t hst hflow
  rw [inCall_eq_bracket]
  have hentered : Abreast (CallStack.Calling N []) { s with stack := s.stack.pushFrame function }
      { t with stack := t.stack.pushFrame function } :=
    ⟨hst.recorder, hS.pushFrame hst.stack function, hst.guards, hst.flow⟩
  have hbody : Blind orderly N [] (do m; flow) :=
    h.bind fun _ => along_of_together together_flow
  refine EndsAlike.bracket ((hbody hentered hflow).imp fun s' t' hafter => ?_)
  exact ⟨hafter.operations, hS.popFrame hst.stack hafter.stack hafter.grows, hafter.grows.call,
    hafter.guards, rfl⟩

/-- **Calls.**  A call of a function of `F` does the same in related states if the functions of `F`
have their free names in `N` and call only each other.  `S` relates the states at the call, be it at
the top level or within another call. -/
theorem along_calls {p : Program}
    (hp : ∀ f ∈ p.functions, F f.name → ∀ m ∈ f.free orderly, (Vocabulary.ofNames N F).Has m)
    (hinits : orderly = true → ∀ f ∈ p.functions, Stmt.allStraightInits f.body = true)
    (x : Horizon) : ∀ (depth : Nat) {S : CallStack → CallStack → Prop},
      CallStack.Surrounds S (CallStack.Calling N []) → ∀ name, F name → ∀ args,
        Along orderly S (p.callee x depth name args)
  | 0, S, _, name, _, args => by
    rw [Program.callee_zero]
    split <;> exact along_of_together (together_fail _)
  | depth + 1, S, hS, name, hname, args => by
    have hc : CallsBlind orderly N F (p.callee x depth) :=
      ⟨fun bound => along_calls hp hinits x depth (CallStack.surrounds_calling N bound),
        fallsThrough_callee p x depth⟩
    rw [Program.callee_succ]
    cases hf : p.function? name with
    | none => exact along_of_together (together_fail _)
    | some f =>
      have hmem := List.mem_of_find?_eq_some hf
      have hname : F f.name := by
        rwa [show f.name = name from by simpa using List.find?_some hf]
      have hbody : Blind orderly N f.params (Stmt.execAll x (p.callee x depth) f.body) :=
        blind_execAll hc f.body f.params (hp f hmem hname) fun ho => hinits ho f hmem
      dsimp only
      rw [Function.invoke_eq]
      split
      · rename_i hlength
        have hframe : Along orderly S (inCall f.name do
            bindParams f.params args
            Stmt.execAll x (p.callee x depth) f.body) := by
          refine along_inCall hS f.name (blind_bindParams f.params args [] hlength ?_)
          rwa [List.append_nil]
        intro s t hst hflow
        have hline : t.recorder.line = s.recorder.line := hst.recorder.line.symm
        rw [bind_apply, bind_apply, currentLine_apply, currentLine_apply, hline]
        exact hframe.bindTogether (together_leave s.recorder.line) hst hflow
      · exact along_of_together (together_fail _)

end Run

/-! ## Calls from the top level -/

namespace Program

open Run

/-- Whether the function `name` has a call of the function `other`. -/
def Calls (p : Program) (orderly : Bool) (name other : String) : Prop :=
  ∃ f ∈ p.functions, f.name = name ∧ .call other ∈ f.free orderly

/-- Whether a call of the function `name` may come to a function that reads or assigns to the
variable `n` without having declared it. -/
def FreeName (p : Program) (orderly : Bool) (name n : String) : Prop :=
  ∃ f ∈ p.functions, Relation.ReflTransGen (p.Calls orderly) name f.name ∧
    .var n ∈ f.free orderly

/-- **A function does not see the open scopes of the top level**, as far as these have not
introduced a name that the function, or one that is called from it, uses without having declared it.
A call then ends in the same way in states that differ only in these scopes, so it ends as it does
after all of them have been left; and where such a name is looked up, it stands for what the
function has bound it to, or else for what it stands for outside of these scopes.

What a function has declared depends on where control goes, since it may leave the initialiser of a
loop.  If control goes on normally at the call, and initialisers have no jumps and returns in them,
this cannot happen: then the call is `orderly`. -/
theorem callee_ignores_blocks (p : Program) (x : Horizon) (depth : Nat) (name : String)
    (args : List Value) {s t : State} (h : s.AlikeOutside t) (orderly : Bool)
    (ho : orderly = true → s.flow = .normal ∧
      ∀ f ∈ p.functions, Stmt.allStraightInits f.body = true)
    (hs : ∀ n, p.FreeName orderly name n → s.stack.globals.introduces n = false)
    (ht : ∀ n, p.FreeName orderly name n → t.stack.globals.introduces n = false) :
    EndsAlike State.AlikeOutside (p.callee x depth name args s) (p.callee x depth name args t) ∧
      EndsAlike State.AlikeOutside (p.callee x depth name args s)
        (p.callee x depth name args s.outside) ∧
      ∀ n, p.FreeName orderly name n → ∀ own callers,
        ({ s.stack with calls := own :: callers } : CallStack).lookup n
          = (own.get? n).or (s.stack.globals.outermost.get? n) := by
  have hfree : ∀ f ∈ p.functions, Relation.ReflTransGen (p.Calls orderly) name f.name →
      ∀ m ∈ f.free orderly, (Vocabulary.ofNames (p.FreeName orderly name)
        (Relation.ReflTransGen (p.Calls orderly) name)).Has m := by
    intro f hf hreach m hm
    cases m with
    | var n => exact ⟨f, hf, hreach, hm⟩
    | call other => exact hreach.tail ⟨f, hf, rfl, hm⟩
  have hcall : ∀ {t : State}, s.AlikeOutside t →
      (∀ n, p.FreeName orderly name n → t.stack.globals.introduces n = false) →
      EndsAlike State.AlikeOutside (p.callee x depth name args s)
        (p.callee x depth name args t) := by
    intro t h ht
    have halong := along_calls hfree (fun h => (ho h).2) x depth
      (CallStack.surrounds_sealed (p.FreeName orderly name)) name .refl args
    have halike : s.recorder.Alike t.recorder := by rw [h.recorder]; exact ⟨rfl, rfl⟩
    refine (halong ⟨halike, ⟨h.stack, hs, ht⟩, h.guards, h.flow⟩ fun h => (ho h).1).imp
      fun s' t' hafter => ?_
    obtain ⟨ops, hops, hops'⟩ := hafter.operations
    exact ⟨by rw [hops, hops', h.recorder], hafter.guards, hafter.flow, hafter.stack.alike⟩
  refine ⟨hcall h ht, hcall s.alikeOutside_outside fun n _ => ?_, fun n hn own callers => ?_⟩
  · exact Frame.introduces_outermost s.stack.globals n
  · rw [Frame.get?_outermost (hs n hn)]
    rfl

/-! ### Two calls -/

/-- A function that changes an outermost variable, with a parameter. -/
def adder : Program :=
  ofSource "int x = 1;\nint f(int n) \x7b\n  x = x + n;\n  return x;\n\x7d"

/-- The state of a top level that has declared `x`. -/
def declaredX : State :=
  { stack := ({} : CallStack).declare "x" { value := .int 1 } }

/-- The same within a block that has declared a name like that of the parameter. -/
def declaredXInBlock : State :=
  { stack := declaredX.stack.pushScope.declare "n" { value := .int 7 } }

theorem alikeOutside_declaredX : declaredXInBlock.AlikeOutside declaredX := by
  have houtermost : declaredXInBlock.stack.globals.outermost = declaredX.stack.globals.outermost :=
    rfl
  exact ⟨rfl, rfl, rfl, rfl, fun name => by rw [houtermost]⟩

theorem callee_ignores_blocks_adder :
    declaredXInBlock.AlikeOutside declaredX ∧
      (declaredXInBlock.flow = .normal ∧
        ∀ f ∈ adder.functions, Stmt.allStraightInits f.body = true) ∧
      (∀ n, adder.FreeName true "f" n → declaredXInBlock.stack.globals.introduces n = false) ∧
      (∀ n, adder.FreeName true "f" n → declaredX.stack.globals.introduces n = false) ∧
      EndsAlike State.AlikeOutside
        (adder.callee (Settings.horizon {}) 1 "f" [.int 2] declaredXInBlock)
        (adder.callee (Settings.horizon {}) 1 "f" [.int 2] declaredX) ∧
      (match adder.callee (Settings.horizon {}) 1 "f" [.int 2] declaredXInBlock with
        | .ok (.int n) _ => n == 3
        | _ => false) = true := by
  have hinits : ∀ f ∈ adder.functions, Stmt.allStraightInits f.body = true := by decide +kernel
  have hfree : ∀ f ∈ adder.functions, ∀ m ∈ f.free true, ∀ n, m = .var n →
      declaredXInBlock.stack.globals.introduces n = false := by
    have hnames : ∀ f ∈ adder.functions, f.free true = [.var "x", .var "x", .var "x"] := by
      decide +kernel
    rintro f hf m hm n rfl
    rw [hnames f hf] at hm
    have hn : n = "x" := by simpa using hm
    rw [hn]
    decide +kernel
  have hblock : ∀ n, adder.FreeName true "f" n →
      declaredXInBlock.stack.globals.introduces n = false :=
    fun n ⟨f, hf, _, hn⟩ => hfree f hf _ hn n rfl
  have htop : ∀ n, adder.FreeName true "f" n → declaredX.stack.globals.introduces n = false :=
    fun _ _ => rfl
  exact ⟨alikeOutside_declaredX, ⟨rfl, hinits⟩, hblock, htop,
    (adder.callee_ignores_blocks (Settings.horizon {}) 1 "f" [.int 2] alikeOutside_declaredX true
      (fun _ => ⟨rfl, hinits⟩) hblock htop).1, by decide +kernel⟩

/-- A function that reads a name which it has not declared. -/
def reader : Program :=
  ofSource "int f() \x7b\n  return x;\n\x7d"

/-- The state of a top level within a block that has declared `x`. -/
def declaredInBlock : State :=
  { stack := ({} : CallStack).pushScope.declare "x" { value := .int 5 } }

/-- A call within a block of the top level, which declares the name that the function reads. -/
def callInBlock : String :=
  "stack<int> s;\nvoid f() \x7b\n  s.push(x);\n\x7d\n\x7b\n  int x = 5;\n  f();\n\x7d"

/-- **A function sees a block that it is called from.**  The call of `reader` reads the name that
the block has declared, though this is neither its own nor an outermost one; in the state that
differs only in the block it stops.  So `callInBlock`, which has no outermost declaration of `x`,
runs to its end. -/
theorem callee_sees_block :
    declaredInBlock.AlikeOutside {} ∧
      ¬EndsAlike State.AlikeOutside (reader.callee (Settings.horizon {}) 1 "f" [] declaredInBlock)
        (reader.callee (Settings.horizon {}) 1 "f" [] {}) ∧
      declaredInBlock.stack.globals.outermost.get? "x" = none ∧
      ((declaredInBlock.stack.pushFrame "f").lookup "x").isSome = true ∧
      (trace callInBlock).isComplete = true := by
  have hends : (EStateM.run' (reader.callee (Settings.horizon {}) 1 "f" []) declaredInBlock).isSome
      ≠ (EStateM.run' (reader.callee (Settings.horizon {}) 1 "f" []) {}).isSome := by decide +kernel
  have hreads : ¬EndsAlike State.AlikeOutside
      (reader.callee (Settings.horizon {}) 1 "f" [] declaredInBlock)
      (reader.callee (Settings.horizon {}) 1 "f" [] {}) := by
    intro h
    unfold EStateM.run' EStateM.run at hends
    generalize reader.callee (Settings.horizon {}) 1 "f" [] declaredInBlock = r at h hends
    generalize reader.callee (Settings.horizon {}) 1 "f" [] {} = r' at h hends
    cases h <;> exact hends rfl
  exact ⟨⟨rfl, rfl, rfl, rfl, fun _ => rfl⟩, hreads, rfl, rfl, by decide +kernel⟩

end Program

end Stepwise
