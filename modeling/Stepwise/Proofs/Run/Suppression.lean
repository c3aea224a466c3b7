import Stepwise.Proofs.Recorder.Suppression
import Stepwise.Proofs.Run.Lockstep
import Stepwise.Proofs.Run.Limits

/-!
# Leaving out removals from empty containers

A run may be told to leave removals from empty containers unrecorded.  Two runs of one program, one
that leaves them out and one that does not, take the same steps: no value, no branch, no count of
loop conditions and no fault depends on what has been recorded.  So they perform the same operations
on their recorders, and the logs differ only in what a recorder makes of these.

* `Program.together_exec` runs a program side by side under settings that differ only in the option.
* `Program.suppression_filters` compares the two executions.
-/

set_option autoImplicit false

namespace Stepwise

open Recorder (Operation)
open Run

namespace Program

variable {A B : Horizon}

/-- Runs of a program under the same limits perform the same operations. -/
theorem together_exec (p : Program) (hi : A.iterations = B.iterations) (ht : A.turns = B.turns)
    (hd : A.callDepth = B.callDepth) :
    Together (recording Eq) (p.exec A) (p.exec B) := by
  have heq := CallStack.agreement_eq Vocabulary.any.names
  have hcongr := recording_congruence heq (V := .any) hi ht id
  refine hcongr.program (fun _ => together_fail _) (Stmt.allWithin_any p.body) fun name args => ?_
  rw [hd]
  exact together_callee heq hi ht CallStack.surrounds_eq id (fun _ => trivial) hd
    (fun f _ => Stmt.allWithin_any f.body) B.callDepth.toNat name args

theorem outcome_eq_of_endsAlike {P : State → State → Prop} {p q : Program}
    (h : EndsAlike P (p.exec A (State.initial A)) (q.exec B (State.initial B))) :
    (p.executeWithin A).outcome = (q.executeWithin B).outcome := by
  rw [executeWithin, executeWithin]
  generalize p.exec A (State.initial A) = r at h
  generalize q.exec B (State.initial B) = r' at h
  cases h with
  | ok _ _ => rfl
  | error _ _ => rfl

/-- **Suppression only filters.**  Two executions of a program that differ in nothing but whether
removals from empty containers are recorded end in the same way, or go on for as long as each other.
Their recorders have performed the same operations; the log with everything recorded consists of the
commands that these issue, and the other log of those among them that are not removals from a
container which was empty at that moment. -/
theorem suppression_filters (p : Program) (x : Horizon) :
    let off : Horizon := { x with suppressEmptyRemovals := false }
    let on : Horizon := { x with suppressEmptyRemovals := true }
    (p.executeWithin on).outcome = (p.executeWithin off).outcome ∧
      ∃ ops : List Operation,
        (p.finalState off).recorder = ({} : Recorder).performAll ops ∧
        (p.finalState on).recorder = ({ suppress := true } : Recorder).performAll ops ∧
        (p.executeWithin off).log = (({} : Recorder).history ops).map Prod.fst ∧
        (p.executeWithin on).log
          = ((({} : Recorder).history ops).filter fun entry => !entry.2).map Prod.fst := by
  intro off on
  have hstart : (recording Eq).before (State.initial off) (State.initial on) :=
    ⟨⟨rfl, rfl⟩, rfl, rfl, rfl⟩
  have hends := p.together_exec (A := off) (B := on) rfl rfl rfl _ _ hstart
  obtain ⟨ops, hoff, hon⟩ := hends.final.operations
  have halike : ({ suppress := true } : Recorder).Alike {} := ⟨rfl, rfl⟩
  refine ⟨(outcome_eq_of_endsAlike hends).symm, ops, hoff, hon, ?_, ?_⟩
  · calc (p.executeWithin off).log
        = (({} : Recorder).performAll ops).log := by rw [log_executeWithin, finalState, hoff]; rfl
      _ = ((({} : Recorder).history ops).filter fun _ => true).map Prod.fst :=
          Recorder.log_performAll {} ops
      _ = (({} : Recorder).history ops).map Prod.fst := by
          rw [List.filter_eq_self.2 fun _ _ => rfl]
  · calc (p.executeWithin on).log
        = (({ suppress := true } : Recorder).performAll ops).log := by
          rw [log_executeWithin, finalState, hon]; rfl
      _ = ((({ suppress := true } : Recorder).history ops).filter fun entry => !entry.2).map
            Prod.fst := Recorder.log_performAll { suppress := true } ops
      _ = ((({} : Recorder).history ops).filter fun entry => !entry.2).map Prod.fst := by
          rw [halike.history]

-- A removal by value that finds nothing in a list that holds something is no such removal.
example :
    (trace "list<int> l;\nl.remove(1);\nl.push_back(2);\nl.remove(1);"
      { suppressEmptyRemovals := true }).log.map (·.action) = [.listInsert, .listRemove] := by
  decide +kernel

end Program

end Stepwise
