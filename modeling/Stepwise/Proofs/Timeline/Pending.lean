import Stepwise.Proofs.Timeline.Pace

/-!
# Ticks that are pending after a move

Most moves do not go on from the snapshot of a timeline but derive it anew.  A tick that was
scheduled before such a move would step from a place that has been given up, so the move ought to
cancel it.  All of them do, except for the step back.

* `Timeline.Rederives` lists these moves; after each of them the snapshot is a replayed one, from
  whatever timeline it was made (`Timeline.snapshot_of_rederives`).
* `Timeline.NoTickPending` says that no tick has an effect until `run` is called.  This is decided
  by whether automatic stepping is under way, since no other move starts it
  (`Timeline.noTickPending_iff`).
* `Timeline.rederiving_cancels`: after a move of the list no tick is pending, unless it was a step
  back during automatic stepping; that one keeps the schedule as it was.
* `Timeline.stepBack_keeps_tick` is a tick that fires after such a step back.
-/

set_option autoImplicit false

namespace Stepwise

namespace Timeline

/-- The moves that derive the snapshot anew.  There is nothing to step back from before the first
command. -/
def Rederives (t : Timeline) : Move → Prop
  | .load _ => True
  | .reset => True
  | .stepBack => t.cursor ≠ none
  | .jumpTo _ => True
  | .jumpToEnd => True
  | _ => False

/-- Automatic stepping is not under way, and until `run` is called, whatever else is done, no tick
at any time does anything. -/
def NoTickPending (t : Timeline) : Prop :=
  t.isPlaying = false ∧ ∀ later : List Move, (∀ now, .run now ∉ later) →
    (t.moveAll later).isPlaying = false ∧
      ∀ now, (t.moveAll later).tick now = (false, t.moveAll later)

/-! ## The snapshot -/

theorem snapshot_of_rederives {t : Timeline} {m : Move} (h : t.Rederives m) :
    (t.move m).snapshot = .replay (t.move m).log (t.move m).cursor := by
  cases m with
  | load log => rfl
  | reset => rfl
  | stepBack =>
    simp only [move, stepBack]
    split
    · next hcursor => exact absurd hcursor h
    · rfl
    · rfl
  | jumpTo cursor => rfl
  | jumpToEnd => rfl
  | _ => exact h.elim

/-! ## The schedule -/

/-- A step back does not look at the schedule. -/
theorem autoplay_stepBack (t : Timeline) : t.stepBack.2.autoplay = t.autoplay := by
  rw [stepBack]
  split <;> rfl

/-- Only `run` starts automatic stepping. -/
theorem isPlaying_move {t : Timeline} (h : t.isPlaying = false) {m : Move}
    (hm : ∀ now, m ≠ .run now) : (t.move m).isPlaying = false := by
  rcases move_autoplay t m with hnone | hsame | ⟨now, -, -, hrun⟩
  · exact hnone
  · rwa [isPlaying, hsame]
  · exact absurd (hrun h) (hm now)

theorem isPlaying_moveAll {t : Timeline} (h : t.isPlaying = false) {moves : List Move}
    (hmoves : ∀ now, .run now ∉ moves) : (t.moveAll moves).isPlaying = false := by
  induction moves generalizing t with
  | nil => exact h
  | cons m moves ih =>
    have hm : ∀ now, m ≠ .run now := fun now hnow => hmoves now (hnow ▸ List.mem_cons_self)
    exact ih (isPlaying_move h hm) fun now hnow => hmoves now (List.mem_cons_of_mem m hnow)

theorem tick_of_isPlaying {t : Timeline} (h : t.isPlaying = false) (now : Nat) :
    t.tick now = (false, t) := by
  rcases tick_cases t now with hnone | ⟨deadline, hdeadline, -, -⟩
  · exact hnone
  · rw [isPlaying, AutoPlay.isRunning, hdeadline] at h
    cases h

theorem noTickPending_iff (t : Timeline) : t.NoTickPending ↔ t.isPlaying = false := by
  refine ⟨fun h => h.1, fun h => ⟨h, fun later hlater => ?_⟩⟩
  have hnone := isPlaying_moveAll h hlater
  exact ⟨hnone, tick_of_isPlaying hnone⟩

/-- A move that derives the snapshot anew ends automatic stepping, unless it is a step back. -/
theorem isPlaying_of_rederives {t : Timeline} {m : Move} (h : t.Rederives m) :
    (t.move m).isPlaying = true ↔ m = .stepBack ∧ t.isPlaying = true := by
  have hstops : ∀ {m : Move}, (t.move m).isPlaying = false → m ≠ .stepBack →
      ((t.move m).isPlaying = true ↔ m = .stepBack ∧ t.isPlaying = true) := fun hno hm =>
    iff_of_false (Bool.eq_false_iff.1 hno) fun hback => hm hback.1
  cases m with
  | stepBack =>
    simp only [move, isPlaying, autoplay_stepBack, true_and]
  | load log => exact hstops rfl (by rintro ⟨⟩)
  | reset => exact hstops rfl (by rintro ⟨⟩)
  | jumpTo cursor => exact hstops rfl (by rintro ⟨⟩)
  | jumpToEnd => exact hstops rfl (by rintro ⟨⟩)
  | _ => exact h.elim

/-! ## Pending ticks -/

/-- There is always a step forward from where a step back has led. -/
theorem tick_stepBack {t : Timeline} (ht : t.AtCursor) (hcursor : t.cursor ≠ none)
    {deadline now : Nat} (hdeadline : t.autoplay.deadline = some deadline)
    (hdue : deadline ≤ now) : (t.stepBack.2.tick now).1 = true := by
  have hroom : Snapshot.applied t.stepBack.2.cursor < t.stepBack.2.log.length := by
    rw [stepBack]
    split
    · next hnone => exact absurd hnone hcursor
    · next hfirst => exact ht.within 0 hfirst
    · next k hk => exact ht.within (k + 1) hk
  have hdue' : t.stepBack.2.autoplay.poll now = (true, t.stepBack.2.autoplay.start now) := by
    rw [autoplay_stepBack, AutoPlay.poll, hdeadline]
    exact if_pos hdue
  rw [tick, hdue']
  obtain ⟨hend, -⟩ | ⟨-, -, hstep, -⟩ :=
    stepForward_cases { t.stepBack.2 with autoplay := t.stepBack.2.autoplay.start now }
  · exact absurd hroom (Nat.not_lt.2 (List.getElem?_eq_none_iff.1 hend))
  · exact hstep

/-- **Moves that derive the snapshot anew cancel pending ticks,** with one exception.  After such a
move, made on any timeline, the snapshot is the replayed one, and no tick does anything until `run`
is called, unless the move was a step back while automatic stepping was under way.  Then it goes on:
the next tick is due when it was due before, and it moves the cursor. -/
theorem rederiving_cancels (t : Timeline) {m : Move} (h : t.Rederives m) :
    (t.move m).snapshot = .replay (t.move m).log (t.move m).cursor ∧
      ((t.move m).NoTickPending ↔ ¬(m = .stepBack ∧ t.isPlaying = true)) ∧
      (m = .stepBack → (t.move m).autoplay = t.autoplay ∧
        (t.AtCursor → ∀ deadline now, t.autoplay.deadline = some deadline → deadline ≤ now →
          ((t.move m).tick now).1 = true)) := by
  refine ⟨snapshot_of_rederives h, ?_, ?_⟩
  · rw [noTickPending_iff, ← isPlaying_of_rederives h, Bool.not_eq_true]
  · rintro rfl
    exact ⟨autoplay_stepBack t, fun ht _ _ hdeadline hdue => tick_stepBack ht h hdeadline hdue⟩

/-- The timeline of two pushes after the first tick of automatic stepping. -/
def steppedOnce : Timeline :=
  (ofLog twoPushes).moveAll [.run 0, .tick 500]

/-- A jump to where the cursor is ends automatic stepping; a step back does not. -/
theorem rederiving_cancels_steppedOnce :
    steppedOnce.Rederives (.jumpTo (some 0)) ∧
      (steppedOnce.move (.jumpTo (some 0))).NoTickPending ∧
      steppedOnce.Rederives .stepBack ∧ ¬(steppedOnce.move .stepBack).NoTickPending := by
  have hjump : steppedOnce.Rederives (.jumpTo (some 0)) := trivial
  have hback : steppedOnce.Rederives .stepBack := nofun
  refine ⟨hjump, (rederiving_cancels steppedOnce hjump).2.1.2 nofun, hback, fun hnone => ?_⟩
  exact (rederiving_cancels steppedOnce hback).2.1.1 hnone ⟨rfl, rfl⟩

/-- **A tick fires after a step back.**  Automatic stepping has led to the first of two commands.
The step back from there derives the snapshot anew, but the tick that was due at 1000 ms stays due
and carries the first command out again. -/
theorem stepBack_keeps_tick :
    steppedOnce.Rederives .stepBack ∧ (steppedOnce.move .stepBack).isPlaying = true ∧
      ((steppedOnce.move .stepBack).tick 1000).1 = true ∧
      ((steppedOnce.move .stepBack).tick 1000).2.cursor = some 0 ∧
      ¬(steppedOnce.move .stepBack).NoTickPending := by
  refine ⟨nofun, rfl, rfl, rfl, fun hnone => ?_⟩
  have htrue : (steppedOnce.move .stepBack).isPlaying = true := rfl
  rw [hnone.1] at htrue
  cases htrue

end Timeline

end Stepwise
