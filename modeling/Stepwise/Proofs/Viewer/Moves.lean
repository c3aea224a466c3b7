import Stepwise.Proofs.Timeline.Pace
import Stepwise.Viewer

/-!
# Keys and ticks are moves

A viewer changes its timeline only by the moves of a timeline, and it never loads another log.  So
what holds of a timeline after any moves holds of the one on display, whatever keys were pressed.

* `Viewer.Reached` are the viewers that keys, ticks and drawing lead to, at any times and in any
  order.
* `Viewer.Roams` relates a timeline to one that moves lead to.  `Viewer.roams_press` and
  `Viewer.roams_tick` say that a key and a tick do no more than that.
* `Viewer.Reached.atCursor`: the snapshot on display is the replayed one.
-/

set_option autoImplicit false

namespace Stepwise

/-- Only `load` takes another log. -/
theorem Timeline.log_move (t : Timeline) {m : Move} (hm : ∀ log, m ≠ .load log) :
    (t.move m).log = t.log := by
  cases m with
  | load log => exact absurd rfl (hm log)
  | stepForward =>
    obtain ⟨-, hend⟩ | ⟨c, -, -, hlog, -⟩ := stepForward_cases t
    · rw [move, hend]
      rfl
    · exact hlog
  | stepBack =>
    rw [move, stepBack]
    split <;> rfl
  | tick now => exact (tick_spec t now).1
  | _ => rfl

namespace Viewer

/-- The viewers of a log that keys, ticks and drawing lead to, at any times and in any order. -/
inductive Reached (log : Log) : Viewer → Prop
  | start (source : String) (fault : Option Fault) (interval : Nat) :
      Reached log (ofTimeline ((Timeline.ofLog log).withInterval interval) source fault)
  | press {v : Viewer} (key : Key) (now : Nat) (h : Reached log v) : Reached log (v.press key now)
  | tick {v : Viewer} (now : Nat) (h : Reached log v) : Reached log (v.tick now)
  | draw {v : Viewer} (width height : Nat) (h : Reached log v) :
      Reached log (v.draw width height).2

/-- One timeline comes from another by moves, none of which takes another log. -/
def Roams (t u : Timeline) : Prop :=
  ∃ moves : List Timeline.Move, (∀ log, .load log ∉ moves) ∧ u = t.moveAll moves

variable {t u : Timeline}

theorem roams_refl (t : Timeline) : Roams t t :=
  ⟨[], nofun, rfl⟩

theorem Roams.move (h : Roams t u) {m : Timeline.Move} (hm : ∀ log, m ≠ .load log) :
    Roams t (u.move m) := by
  obtain ⟨moves, hmoves, rfl⟩ := h
  refine ⟨moves ++ [m], fun log hlog => ?_, (Timeline.moveAll_append t moves [m]).symm⟩
  rcases List.mem_append.1 hlog with hlog | hlog
  · exact hmoves log hlog
  · exact hm log (List.mem_singleton.1 hlog).symm

theorem roams_move (t : Timeline) {m : Timeline.Move} (hm : ∀ log, m ≠ .load log) :
    Roams t (t.move m) :=
  (roams_refl t).move hm

theorem roams_stepTimes : ∀ (n : Nat) {u : Timeline}, Roams t u → Roams t (stepTimes n u).2
  | 0, _, h => h
  | n + 1, u, h => by
    have hstep := h.move (m := .stepForward) nofun
    rw [stepTimes]
    split
    · next u' heq =>
      rw [Timeline.move, heq] at hstep
      exact roams_stepTimes n hstep
    · next u' heq =>
      rwa [Timeline.move, heq] at hstep

theorem roams_pressChar (v : Viewer) (c : Char) (now : Nat) :
    Roams v.timeline (v.pressChar c now).timeline := by
  rw [pressChar]
  split
  · exact roams_refl _
  split
  · exact roams_stepTimes _ (roams_move _ (m := .pause) nofun)
  split
  · rw [switchPlayback]
    dsimp only
    split
    · exact roams_refl _
    split
    · exact roams_move _ (m := .pause) nofun
    · exact roams_move _ (m := .run now) nofun
  split
  · exact roams_move _ (m := .setSpeed _ now) nofun
  split
  · exact roams_move _ (m := .setSpeed _ now) nofun
  split
  · exact roams_move _ (m := .reset) nofun
  · exact roams_refl _

/-- **A key makes moves of the timeline.** -/
theorem roams_press (v : Viewer) (key : Key) (now : Nat) :
    Roams v.timeline (v.press key now).timeline := by
  cases key with
  | char c => exact roams_pressChar v c now
  | tab => exact roams_refl _
  | left => exact (roams_move _ (m := .pause) nofun).move (m := .stepBack) nofun
  | right => exact (roams_move _ (m := .pause) nofun).move (m := .stepForward) nofun
  | up =>
    rw [press, scrollUp]
    split <;> exact roams_refl _
  | down =>
    rw [press, scrollDown]
    split <;> exact roams_refl _
  | enter => exact roams_move _ (m := .jumpToEnd) nofun
  | backspace => exact roams_move _ (m := .jumpTo none) nofun

theorem roams_tick (v : Viewer) (now : Nat) : Roams v.timeline (v.tick now).timeline := by
  have hmove := roams_move v.timeline (m := .tick now) nofun
  rw [tick]
  split
  · next u heq => rwa [Timeline.move, heq] at hmove
  · next u heq => rwa [Timeline.move, heq] at hmove

theorem Roams.log_eq (h : Roams t u) : u.log = t.log := by
  obtain ⟨moves, hmoves, rfl⟩ := h
  induction moves generalizing t with
  | nil => rfl
  | cons m moves ih =>
    rw [Timeline.moveAll_cons, ih fun log hlog => hmoves log (List.mem_cons_of_mem m hlog)]
    exact Timeline.log_move t fun log hlog => hmoves log (hlog ▸ List.mem_cons_self)

theorem Roams.atCursor (h : Roams t u) (ht : t.AtCursor) : u.AtCursor := by
  obtain ⟨moves, -, rfl⟩ := h
  exact Timeline.atCursor_moveAll ht moves

/-- **The snapshot on display is the replayed one.** -/
theorem Reached.atCursor {log : Log} {v : Viewer} (h : Reached log v) :
    v.timeline.log = log ∧ v.timeline.AtCursor := by
  induction h with
  | start source fault interval =>
    exact ⟨rfl, (Timeline.atCursor_ofLog log).of_same rfl rfl rfl⟩
  | @press v key now _ ih =>
    have hroams := roams_press v key now
    exact ⟨hroams.log_eq.trans ih.1, hroams.atCursor ih.2⟩
  | @tick v now _ ih =>
    have hroams := roams_tick v now
    exact ⟨hroams.log_eq.trans ih.1, hroams.atCursor ih.2⟩
  | draw width height _ ih => exact ih

end Viewer
end Stepwise
