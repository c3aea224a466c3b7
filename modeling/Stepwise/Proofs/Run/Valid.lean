import Stepwise.Proofs.Run.Within

/-!
# Handles never dangle

A run makes handles, copies them into variables, parameters, results and array elements, and keeps
them while it evaluates something else.  None of them is ever the number of a container that does
not exist, and what it is the number of never becomes another kind of container.

* `Program.resolves_of_visits`: wherever a run comes, the handles that it holds are valid.
* `Program.sound_exec`: a run is not stopped because a handle is that of no container.
* `Program.handles_valid` puts this together with the containers, which keep their shapes.
-/

set_option autoImplicit false

namespace Stepwise

open Run

namespace Program

variable {p : Program} {x : Horizon}

theorem resolves_of_visits {s : State} {held : List Value} (h : p.Visits x s held) :
    s.Resolves held := by
  cases h with
  | begins h => exact resolves_of_reaches h
  | @ends m h result t hrun =>
    exact (p.sound_runAt x m).of_ok (List.nil_subset _) (resolves_of_reaches h) hrun
  | @stops m h e t hrun =>
    have hsettles := (p.sound_runAt x m).settles (List.nil_subset _) (resolves_of_reaches h)
    rw [hrun] at hsettles
    cases hsettles with
    | error h _ => exact h

theorem sound_exec (p : Program) (x : Horizon) : Sound [] (fun _ => []) (p.exec x) := by
  refine (p.sound_runAt x (p.start x)).bind fun _ => sound_flow.bind fun flow => ?_
  cases flow with
  | jump j => exact sound_fail (by rintro ⟨⟩)
  | _ => exact sound_setFlow (List.nil_subset _)

/-- **Handles never dangle.**  In every state that the run of a program comes through, every
handle is that of a container, whether it is held by the state, in a frame, a hidden binding, the
result that a function is about to return or beyond the slots of an array, or by the run itself.
Containers that have the same handle in two such states are of the same kind, have the same name,
and if they are arrays the same length.  So the run of a program is never stopped by a reference to
a container that does not exist.  All this holds however far the run is followed. -/
theorem handles_valid (p : Program) (x : Horizon) :
    (∀ s held, p.Visits x s held →
      ∀ id, .container id ∈ s.values ++ held → id < s.recorder.containers.size) ∧
    (∀ s held s' held', p.Visits x s held → p.Visits x s' held' →
      ∀ id c c', s.recorder.container? id = some c → s'.recorder.container? id = some c' →
        c.target = c'.target ∧ c.name = c'.name ∧ c.length? = c'.length?) ∧
    ∀ f, (p.executeWithin x).fault? = some f → f.cause ≠ .mismatch .dangling := by
  refine ⟨fun s held h id hid => resolves_of_visits h hid, ?_, fun f hf => ?_⟩
  · intro s held s' held' h h' id c c' hc hc'
    -- both have become the container that is there in the end
    obtain ⟨d, hd, hkey, hlength⟩ := (leads_of_visits h).2.keeps hc
    obtain ⟨d', hd', hkey', hlength'⟩ := (leads_of_visits h').2.keeps hc'
    have hsame : d = d' := Option.some.inj (hd.symm.trans hd')
    subst hsame
    obtain ⟨htarget, hname⟩ := Prod.mk.inj (hkey.symm.trans hkey')
    exact ⟨htarget, hname, hlength.symm.trans hlength'⟩
  · have hinitial : (State.initial x).Resolves [] := fun id hid => nomatch hid
    have hsettles := (p.sound_exec x).settles (List.nil_subset _) hinitial
    rw [Execution.fault?, executeWithin] at hf
    generalize p.exec x (State.initial x) = result at hf hsettles
    cases hsettles with
    | ok => cases hf
    | @error e t _ hcause =>
      cases e with
      | fault g =>
        cases hf
        exact hcause _ rfl
      | crash c => cases hf
      | unfinished => cases hf

/-- A function that returns what it is given. -/
def same : Function :=
  ⟨"same", ["x"], [.ret (some (.var "x"))], ⟨1, 1⟩⟩

/-- A program that hands its queue to the function. -/
def handOver : Program where
  functions := [same]
  body := [.construct "q" .queue, .expr (.call "same" [.var "q"])]

/-- The state in which the queue has been created. -/
def queueCreated : State where
  recorder := { containers := #[⟨"q", .sequence .queue []⟩] }
  stack := ({} : CallStack).declare "q" { value := .container 0, constant := true }

/-- The state in which the function begins: its parameter stands for the handle. -/
def queueHanded : State :=
  { queueCreated with
    stack := (queueCreated.stack.pushFrame "same").declare "x" { value := .container 0 } }

/-- Where the function begins, its parameter and the argument that it was called with are a handle,
which is valid. -/
theorem handles_valid_handOver :
    handOver.Visits (Settings.horizon {}) queueHanded [.container 0] ∧
      .container 0 ∈ queueHanded.stack.calls.flatMap Frame.values ∧
      0 < queueHanded.recorder.containers.size := by
  have hcreated : handOver.Reaches (Settings.horizon {})
      ⟨64, .stmts [.expr (.call "same" [.var "q"])], queueCreated, []⟩ :=
    .single (.proceed rfl rfl)
  have hcalled : handOver.Enters (Settings.horizon {})
      ⟨64, .expr (.call "same" [.var "q"]), queueCreated, []⟩
      ⟨63, .stmts same.body, queueHanded, [.container 0] ++ []⟩ :=
    .call rfl rfl rfl rfl
  have hvisits : handOver.Visits (Settings.horizon {}) queueHanded [.container 0] :=
    .begins (((hcreated.tail (.first rfl)).tail (.first rfl)).tail hcalled)
  have hparam : Value.container 0 ∈ queueHanded.stack.calls.flatMap Frame.values :=
    List.mem_cons_self
  have hheld : Value.container 0 ∈ queueHanded.values ++ [.container 0] :=
    List.mem_append_left _ (List.mem_append_left _ (List.mem_append_right _ hparam))
  exact ⟨hvisits, hparam, (handles_valid handOver (Settings.horizon {})).1 _ _ hvisits 0 hheld⟩

end Program

end Stepwise
