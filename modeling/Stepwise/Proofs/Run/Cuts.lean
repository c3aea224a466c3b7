import Stepwise.Proofs.Run.Ending

/-!
# Wider horizons

Two runs of one program under different limits do the same until the first of them meets a limit
that the other does not share, and then that run stops without recording anything more.  The number
of turns for which loops are followed is such a limit, too.

* `Run.CutAt A B m n s` relates a run `m` under the horizon `A` to a run `n` under the wider horizon
  `B`, both from the state `s`: they end alike, or `m` has met a limit in a state that `n` comes
  past.
* `Run.cut_congruence` says that this is kept by all that runs are put together with, so that it
  holds of the two runs of any program (`cut_exec`).
* `Program.executeWithin_stable` is the case in which only the loops are followed for longer: a run
  that is finished stays as it is.  So `Program.EndsWith`, which says what a program comes to if its
  loops are followed for as long as they go on, determines the execution (`EndsWith.unique`).
-/

set_option autoImplicit false

namespace Stepwise

/-- `B` allows whatever `A` does. -/
structure Horizon.Narrower (A B : Horizon) : Prop where
  iterations : A.iterations.toNat ≤ B.iterations.toNat
  callDepth : A.callDepth.toNat ≤ B.callDepth.toNat
  turns : A.turns ≤ B.turns

/-- A stop for a limit of `A` that does not stop a run under `B` at the same place. -/
inductive Stop.CutsOff (A B : Horizon) : Stop → Prop
  | iterations {f : Fault} (cause : f.cause = .iterations A.iterations)
      (lt : A.iterations.toNat < B.iterations.toNat) : CutsOff A B (.fault f)
  | callDepth {f : Fault} (cause : f.cause = .callDepth A.callDepth)
      (lt : A.callDepth.toNat < B.callDepth.toNat) : CutsOff A B (.fault f)
  | unfinished (lt : A.turns < B.turns) : CutsOff A B .unfinished

namespace Run

variable {α β : Type} {A B : Horizon} {ceiling : UInt64}

/-- From the state `s`, `m` ends as `n` does, or it is cut off in a state that `n` comes past. -/
def CutAt (A B : Horizon) (m n : Run α) (s : State) : Prop :=
  m s = n s ∨ ∃ e t, m s = .error e t ∧ e.CutsOff A B ∧ Later t (final n s)

/-! ## Sequences and scopes -/

theorem later_final_bind {m : Run α} {f : α → Run β} {s : State}
    (hf : ∀ a, Bounded ceiling (f a)) : Later (final m s) (final (m >>= f) s) := by
  cases hm : m s with
  | ok a t =>
    rw [final_of_ok hm, final_bind_of_ok hm]
    exact (hf a t).later
  | error e t =>
    have hbind : (m >>= f) s = .error e t := by rw [bind_apply, hm]
    rw [final_of_error hm, final_of_error hbind]
    exact .refl t

theorem CutAt.bind {m n : Run α} {f g : α → Run β} {s : State} (h : CutAt A B m n s)
    (hfg : ∀ a t, CutAt A B (f a) (g a) t) (hg : ∀ a, Bounded B.iterations (g a)) :
    CutAt A B (m >>= f) (n >>= g) s := by
  rcases h with heq | ⟨e, t, hm, hcut, hlater⟩
  · cases hn : n s with
    | error e t =>
      left
      rw [bind_apply, bind_apply, heq, hn]
    | ok a t =>
      have hm : m s = .ok a t := heq.trans hn
      rcases hfg a t with heq' | ⟨e, u, hfa, hcut, hlater⟩
      · left
        rw [bind_apply, bind_apply, hm, hn]
        exact heq'
      · refine .inr ⟨e, u, ?_, hcut, ?_⟩
        · rw [bind_apply, hm]
          exact hfa
        · rw [final_bind_of_ok hn]
          exact hlater
  · refine .inr ⟨e, t, ?_, hcut, hlater.trans (later_final_bind hg)⟩
    rw [bind_apply, hm]

theorem CutAt.bracket {m n : Run α} {enter leave : CallStack → CallStack} {settle : Flow → Flow}
    {s : State} (h : CutAt A B m n { s with stack := enter s.stack }) :
    CutAt A B (bracket enter leave settle m) (bracket enter leave settle n) s := by
  rcases h with heq | ⟨e, t, hm, hcut, hlater⟩
  · left
    rw [Run.bracket, Run.bracket, heq]
  · refine .inr ⟨e, { t with stack := leave t.stack, flow := settle t.flow }, ?_, hcut, ?_⟩
    · rw [Run.bracket, hm]
    · rw [final_bracket]
      exact ⟨hlater.guards, hlater.log⟩

/-! ## Loops -/

theorem cutAt_countGuard (h : A.Narrower B) (s : State) :
    CutAt A B (countGuard A) (countGuard B) s := by
  have hi := h.iterations
  rw [CutAt, final, countGuard_apply, countGuard_apply]
  by_cases hfull : s.guards + 1 = 0
  · left
    rw [if_pos hfull, if_pos hfull]
  rw [if_neg hfull, if_neg hfull]
  by_cases heq : A.iterations = B.iterations
  · left
    rw [heq]
  have hne : A.iterations.toNat ≠ B.iterations.toNat := fun h => heq (UInt64.toNat_inj.1 h)
  by_cases hA : A.iterations < s.guards + 1
  · refine .inr ⟨_, _, if_pos hA, .iterations rfl (by omega), ?_⟩
    by_cases hB : B.iterations < s.guards + 1
    · rw [if_pos hB]
      exact .refl _
    · rw [if_neg hB]
      exact .refl _
  · left
    have hB : ¬B.iterations < s.guards + 1 := by
      rw [UInt64.lt_iff_toNat_lt] at hA ⊢
      omega
    rw [if_neg hA, if_neg hB]

/-- Two loops stay together turn by turn, for as long as the first is followed. -/
theorem cutAt_iterate {turn turn' : Run Bool} {spare : Nat} (hspare : spare ≠ 0 → A.turns < B.turns)
    (hturn' : Bounded B.iterations turn') (hcut : ∀ s, CutAt A B turn turn' s) :
    ∀ (turns : Nat) (s : State),
      CutAt A B (iterate turn turns) (iterate turn' (spare + turns)) s
  | 0, s => by
    by_cases hzero : spare = 0
    · subst hzero
      exact .inl rfl
    · exact .inr ⟨.unfinished, s, rfl, .unfinished (hspare hzero),
        (bounded_iterate hturn' (spare + 0) s).later⟩
  | turns + 1, s => by
    rw [← Nat.add_assoc, iterate, iterate]
    refine (hcut s).bind (fun again t => ?_) (fun again => ?_)
    · cases again with
      | false => exact .inl rfl
      | true => exact cutAt_iterate hspare hturn' hcut turns t
    · cases again with
      | false => exact (Primitive.pure ()).bounded
      | true => exact bounded_iterate hturn' (spare + turns)

/-! ## Programs -/

/-- What limits do to two runs is kept by all that runs are put together with. -/
theorem cut_congruence (h : A.Narrower B) :
    CongruenceOn .any A B fun m n => Bounded B.iterations n ∧ ∀ s, CutAt A B m n s where
  evalStep hm := ⟨hm.primitive.bounded, fun _ => .inl rfl⟩
  execStep hm := ⟨hm.primitive.bounded, fun _ => .inl rfl⟩
  countGuard := ⟨bounded_countGuard B, cutAt_countGuard h⟩
  bind hm hfg := ⟨hm.1.bind fun a => (hfg a).1,
    fun s => (hm.2 s).bind (fun a t => (hfg a).2 t) fun a => (hfg a).1⟩
  inScope hm := by
    refine ⟨hm.1.inScope, fun s => ?_⟩
    rw [inScope_eq_bracket, inScope_eq_bracket]
    exact (hm.2 _).bracket
  counts hV := hV.elim
  loop hm _ := by
    refine ⟨bounded_iterate hm.1 B.turns, fun s => ?_⟩
    obtain ⟨spare, hspare⟩ := Nat.exists_eq_add_of_le h.turns
    rw [hspare, Nat.add_comm]
    exact cutAt_iterate (by omega) hm.1 hm.2 A.turns s

theorem cutAt_inCall {m n : Run Unit} (function : String)
    (h : Bounded B.iterations n ∧ ∀ s, CutAt A B m n s) :
    Bounded B.iterations (inCall function n) ∧
      ∀ s, CutAt A B (inCall function m) (inCall function n) s := by
  refine ⟨h.1.inCall function, fun s => ?_⟩
  rw [inCall_eq_bracket, inCall_eq_bracket]
  exact ((h.2 _).bind (fun _ _ => .inl rfl) fun _ => Primitive.flow.bounded).bracket

/-- A call that is one too many under `A` is cut off there, unless it is so under `B` as well. -/
theorem cutAt_callee_zero (p : Program) {spare : Nat}
    (hd : A.callDepth.toNat + spare = B.callDepth.toNat) (name : String) (args : List Value)
    (s : State) : CutAt A B (p.callee A 0 name args) (p.callee B spare name args) s := by
  have hlater := (bounded_callee p B spare name args s).later
  cases spare with
  | zero =>
    left
    rw [Program.callee_zero, Program.callee_zero, UInt64.toNat_inj.1 hd]
  | succ spare =>
    rw [Program.callee_zero]
    cases hf : p.function? name with
    | none =>
      left
      rw [Program.callee_succ, hf]
    | some f =>
      exact .inr ⟨.fault (s.recorder.fault (.callDepth A.callDepth)), s, rfl,
        .callDepth rfl (by omega), hlater⟩

/-- **Two runs of a program.**  The one under the narrower horizon ends as the other does, or it is
cut off in a state that the other comes past. -/
theorem cut_exec (p : Program) (h : A.Narrower B) (s : State) :
    CutAt A B (p.exec A) (p.exec B) s := by
  obtain ⟨spare, hspare⟩ := Nat.exists_eq_add_of_le h.callDepth
  have hcongr := cut_congruence h
  have hstray : ∀ {α : Type} (j : Jump), Bounded B.iterations (Run.fail (.strayJump j) : Run α) ∧
      ∀ s, CutAt A B (Run.fail (.strayJump j)) (Run.fail (.strayJump j) : Run α) s :=
    fun _ => ⟨(Primitive.fail _ rfl).bounded, fun _ => .inl rfl⟩
  have hcallee := hcongr.callee hstray (fun _ => trivial) cutAt_inCall
    (fun f _ => Stmt.allWithin_any f.body) spare (fun name args =>
      ⟨bounded_callee p B spare name args, cutAt_callee_zero p hspare.symm name args⟩)
    A.callDepth.toNat
  rw [Nat.add_comm spare, ← hspare] at hcallee
  exact (hcongr.program hstray (Stmt.allWithin_any p.body) hcallee).2 s

end Run

open Run

/-! ## Executions -/

namespace Program

variable {p : Program} {A B : Horizon}

section

variable (h : A.Narrower B) (hs : A.suppressEmptyRemovals = B.suppressEmptyRemovals)
include h hs

/-- The execution under the narrower horizon is that under the wider one, or it is cut off in a
state that the other comes past. -/
theorem executeWithin_cut :
    (p.executeWithin A = p.executeWithin B ∧ p.finalState A = p.finalState B) ∨
      ∃ e t, p.exec A (State.initial A) = .error e t ∧ e.CutsOff A B ∧
        Later t (p.finalState B) := by
  have hinitial : State.initial A = State.initial B := by
    rw [State.initial, State.initial, hs]
  rcases cut_exec p h (State.initial B) with heq | ⟨e, t, hA, hcut, hlater⟩
  · left
    rw [executeWithin, executeWithin, finalState, finalState, final, final, hinitial, heq]
    exact ⟨rfl, rfl⟩
  · right
    rw [hinitial]
    exact ⟨e, t, hA, hcut, hlater⟩

end

/-- **Finished runs are stable.**  To follow the loops for longer changes nothing. -/
theorem executeWithin_stable {settings : Settings} {m n : Nat} (hmn : m ≤ n)
    (h : (p.executeWithin (settings.within m)).outcome ≠ .unfinished) :
    p.executeWithin (settings.within n) = p.executeWithin (settings.within m) := by
  have hnarrower : (settings.within m).Narrower (settings.within n) :=
    ⟨Nat.le_refl _, Nat.le_refl _, hmn⟩
  rcases executeWithin_cut (p := p) hnarrower rfl with ⟨heq, -⟩ | ⟨e, t, hm, hcut, -⟩
  · exact heq.symm
  · rw [executeWithin_of_error hm] at h
    cases hcut with
    | iterations _ lt => exact absurd lt (Nat.lt_irrefl _)
    | callDepth _ lt => exact absurd lt (Nat.lt_irrefl _)
    | unfinished _ => exact absurd rfl h

/-- What a program comes to, its loops being followed for as long as they go on.  A program with a
loop that never ends comes to nothing. -/
def EndsWith (p : Program) (settings : Settings) (e : Execution) : Prop :=
  e.outcome ≠ .unfinished ∧ ∃ turns, p.executeWithin (settings.within turns) = e

/-- Two programs that end can be followed for the same number of turns. -/
theorem EndsWith.within_common {q : Program} {settings : Settings} {e e' : Execution}
    (h : p.EndsWith settings e) (h' : q.EndsWith settings e') :
    ∃ turns, p.executeWithin (settings.within turns) = e ∧
      q.executeWithin (settings.within turns) = e' := by
  obtain ⟨hfinished, m, rfl⟩ := h
  obtain ⟨hfinished', n, rfl⟩ := h'
  exact ⟨max m n, executeWithin_stable (Nat.le_max_left m n) hfinished,
    executeWithin_stable (Nat.le_max_right m n) hfinished'⟩

theorem EndsWith.unique {settings : Settings} {e e' : Execution} (h : p.EndsWith settings e)
    (h' : p.EndsWith settings e') : e = e' := by
  obtain ⟨turns, rfl, rfl⟩ := h.within_common h'
  rfl

end Program
end Stepwise
