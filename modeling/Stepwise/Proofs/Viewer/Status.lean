import Stepwise.Proofs.Timeline.Pending
import Stepwise.Viewer

/-!
# The message that playback is under way

The status message is kept beside the timeline.  Keys and the ticks that move the cursor set it, but
a tick that finds nothing left to carry out stops automatic stepping without a word.  So the message
that playback is under way can outlive it.

* `Viewer.Round` is one round of the event loop, and `Viewer.rounds` are any number of them.
* `Viewer.press_cases` and `Viewer.tick_cases` say what a key and a tick do to the message and the
  timeline.
* `Viewer.playing_shown`: while the message is shown, playback is under way, unless it was switched
  on with nothing left to carry out.  `Viewer.playing_outlived` is a run in which it was.
-/

set_option autoImplicit false

namespace Stepwise

/-- Nothing is left to carry out. -/
def Timeline.AtEnd (t : Timeline) : Prop :=
  t.log.length ≤ Snapshot.applied t.cursor

namespace Viewer

/-- One round of the event loop: the screen is drawn, a key may be pressed, and the automatic step
that is due is made. -/
structure Round where
  width : Nat := 80
  height : Nat := 24
  /-- The key and when it is pressed. -/
  key : Option (Key × Nat) := none
  /-- When the automatic step is asked for. -/
  now : Nat

/-- The viewer in a round before the automatic step. -/
def pressed (v : Viewer) (r : Round) : Viewer :=
  let drawn := (v.draw r.width r.height).2
  match r.key with
  | some (key, time) => drawn.press key time
  | none => drawn

/-- The viewer after a round. -/
def round (v : Viewer) (r : Round) : Viewer :=
  (v.pressed r).tick r.now

/-- The viewer after rounds in order. -/
def rounds (v : Viewer) (rs : List Round) : Viewer :=
  rs.foldl round v

/-- The message is that playback is under way. -/
def SaysPlaying (v : Viewer) : Prop :=
  v.status = "Playing..."

/-- A key switches playback on with nothing left to carry out. -/
def StartsInVain (v : Viewer) (r : Round) : Prop :=
  v.timeline.AtEnd ∧ v.timeline.isPlaying = false ∧ (v.pressed r).timeline.isPlaying = true

variable {v : Viewer} {r : Round}

/-! ## One key -/

theorem not_saysPlaying (message : String) (hstatus : v.status = message)
    (h : message ≠ "Playing...") : ¬v.SaysPlaying := fun hmessage =>
  h (hstatus.symm.trans hmessage)

/-- A message whose first words are other ones is another one. -/
theorem append_ne_playing {s : String} (h : s.toList.head? ≠ none)
    (h' : s.toList.head? ≠ some 'P') (s' : String) : s ++ s' ≠ "Playing..." := by
  intro heq
  have hhead := congrArg (fun s : String => s.toList.head?) heq
  rw [String.toList_append, List.head?_append] at hhead
  cases hs : s.toList.head? with
  | none => exact h hs
  | some c =>
    rw [hs] at hhead
    exact h' (hs.trans hhead)

/-- Steps forward do not start automatic stepping. -/
theorem isPlaying_stepTimes : ∀ (n : Nat) {t : Timeline}, t.isPlaying = false →
    (stepTimes n t).2.isPlaying = false
  | 0, _, h => h
  | n + 1, t, h => by
    have hstep := Timeline.isPlaying_move h (m := .stepForward) nofun
    rw [stepTimes]
    split
    · next t' heq =>
      rw [Timeline.move, heq] at hstep
      exact isPlaying_stepTimes n hstep
    · next t' heq =>
      rwa [Timeline.move, heq] at hstep

/-- The message is another one than that playback is under way, and playback has not been switched
on. -/
structure Quiet (v w : Viewer) : Prop where
  message : ¬w.SaysPlaying
  isPlaying : v.timeline.isPlaying = false → w.timeline.isPlaying = false

theorem quiet_changeSpeed (v : Viewer) (speed : Speed) (now : Nat) :
    v.Quiet (v.changeSpeed speed now) where
  message := not_saysPlaying _ rfl (append_ne_playing (by decide) (by decide) speed.label)
  isPlaying h := Timeline.isPlaying_move h (m := .setSpeed speed.interval now) nofun

/-- **What a key does to the message and the timeline.**  The message is another one, or nothing
changes, or playback is switched on. -/
theorem press_cases (v : Viewer) (key : Key) (now : Nat) :
    v.Quiet (v.press key now) ∨
      ((v.press key now).status = v.status ∧ (v.press key now).timeline = v.timeline) ∨
      v.timeline.isPlaying = false ∧ (v.press key now).SaysPlaying ∧
        (v.press key now).timeline = v.timeline.run now := by
  have hpaused : v.timeline.pause.isPlaying = false := rfl
  cases key with
  | tab => exact .inr (.inl ⟨rfl, rfl⟩)
  | up =>
    refine .inr (.inl ?_)
    rw [press, scrollUp]
    split <;> exact ⟨rfl, rfl⟩
  | down =>
    refine .inr (.inl ?_)
    rw [press, scrollDown]
    split <;> exact ⟨rfl, rfl⟩
  | left =>
    refine .inl ⟨not_saysPlaying (if v.timeline.pause.stepBack.1 then "Stepped backward"
      else "Already at the start") rfl (by split <;> decide), fun _ => ?_⟩
    exact Timeline.isPlaying_move hpaused (m := .stepBack) nofun
  | right =>
    refine .inl ⟨not_saysPlaying (if v.timeline.pause.stepForward.1 then "Stepped forward"
      else "Already at the end") rfl (by split <;> decide), fun _ => ?_⟩
    exact Timeline.isPlaying_move hpaused (m := .stepForward) nofun
  | enter => exact .inl ⟨not_saysPlaying "Jumped to end" rfl (by decide), fun _ => rfl⟩
  | backspace => exact .inl ⟨not_saysPlaying "Jumped to start" rfl (by decide), fun _ => rfl⟩
  | char c =>
    rw [press, pressChar]
    split
    · exact .inr (.inl ⟨rfl, rfl⟩)
    split
    · refine .inl ⟨not_saysPlaying _ rfl (append_ne_playing ?_ ?_ _), fun _ =>
        isPlaying_stepTimes _ hpaused⟩
      · rw [String.toList_append]
        nofun
      · rw [String.toList_append]
        nofun
    split
    · rw [switchPlayback]
      dsimp only
      split
      · exact .inr (.inl ⟨rfl, rfl⟩)
      split
      · exact .inl ⟨not_saysPlaying "Paused" rfl (by decide), fun _ => rfl⟩
      · rename_i hplaying
        exact .inr (.inr ⟨eq_false_of_ne_true hplaying, rfl, rfl⟩)
    split
    · exact .inl (quiet_changeSpeed v _ now)
    split
    · exact .inl (quiet_changeSpeed v _ now)
    split
    · exact .inl ⟨not_saysPlaying "Reset" rfl (by decide), fun _ => rfl⟩
    · exact .inr (.inl ⟨rfl, rfl⟩)

/-- The same for a round up to its automatic step.  Drawing changes neither. -/
theorem pressed_cases (v : Viewer) (r : Round) :
    v.Quiet (v.pressed r) ∨
      ((v.pressed r).status = v.status ∧ (v.pressed r).timeline = v.timeline) ∨
      v.timeline.isPlaying = false ∧ (v.pressed r).SaysPlaying ∧
        ∃ time, (v.pressed r).timeline = v.timeline.run time := by
  rw [pressed]
  cases r.key with
  | none => exact .inr (.inl ⟨rfl, rfl⟩)
  | some k =>
    rcases press_cases (v.draw r.width r.height).2 k.1 k.2 with h | h | ⟨hoff, hmessage, hrun⟩
    · exact .inl ⟨h.message, h.isPlaying⟩
    · exact .inr (.inl h)
    · exact .inr (.inr ⟨hoff, hmessage, k.2, hrun⟩)

/-! ## One tick -/

/-- A step forward that keeps automatic stepping going leaves something to carry out. -/
theorem not_atEnd_of_position {t : Timeline} {k : Nat} (hcursor : t.cursor = some k)
    (hlog : t.log ≠ []) (h : t.position ≠ .finished) : ¬t.AtEnd := by
  have hempty : t.log.isEmpty = false := List.isEmpty_eq_false_iff.2 hlog
  rw [Timeline.AtEnd, hcursor, Snapshot.applied, Nat.not_le]
  by_contra hlast
  refine h ?_
  rw [Timeline.position, hcursor]
  exact if_neg (by simp only [hempty, Bool.false_or, decide_eq_true_eq]; exact hlast)

/-- **What a tick does to the message and the timeline.**  It changes nothing; or it finds nothing
left to carry out, stops automatic stepping and keeps the message; or it steps, and then the message
that playback is under way is true. -/
theorem tick_cases (v : Viewer) (now : Nat) :
    ((v.tick now).status = v.status ∧ (v.tick now).timeline = v.timeline) ∨
      (v.timeline.AtEnd ∧ (v.tick now).status = v.status ∧ (v.tick now).timeline.AtEnd ∧
        (v.tick now).timeline.isPlaying = false) ∨
      ((v.tick now).SaysPlaying →
        (v.tick now).timeline.isPlaying = true ∧ ¬(v.tick now).timeline.AtEnd) := by
  rcases Timeline.tick_cases v.timeline now with h | ⟨-, -, -, h⟩
  · rw [tick, h]
    exact .inl ⟨rfl, rfl⟩
  right
  let t := { v.timeline with autoplay := v.timeline.autoplay.start now }
  change v.timeline.tick now = t.stepForward at h
  rcases t.stepForward_cases with ⟨hend, hstep⟩ | ⟨c, hc, hstep, hlog, hcursor, -⟩
  · left
    have hnone : v.timeline.AtEnd := List.getElem?_eq_none_iff.1 hend
    rw [tick, h, hstep]
    exact ⟨hnone, rfl, hnone, rfl⟩
  · right
    have htick : v.tick now = v.moved t.stepForward.2
        (if t.stepForward.2.isPlaying then "Playing..." else "Playback complete") := by
      rw [tick, h, show t.stepForward = (true, t.stepForward.2) from Prod.ext hstep rfl]
    rw [htick]
    intro hmessage
    cases hplaying : t.stepForward.2.isPlaying with
    | false =>
      rw [hplaying] at hmessage
      exact absurd hmessage (not_saysPlaying "Playback complete" rfl (by decide))
    | true =>
      refine ⟨hplaying, not_atEnd_of_position hcursor ?_ ?_⟩
      · change t.stepForward.2.log ≠ []
        rw [hlog]
        exact List.ne_nil_of_mem (List.mem_of_getElem? hc)
      · rcases t.autoplay_stepForward with hstop | ⟨-, hposition⟩
        · rw [Timeline.isPlaying_of_cancel hstop] at hplaying
          cases hplaying
        · exact hposition

/-! ## Rounds -/

/-- If the message is that playback is under way, it is, or nothing is left to carry out. -/
def Excused (v : Viewer) : Prop :=
  v.SaysPlaying → v.timeline.isPlaying = true ∨ v.timeline.AtEnd

/-- If the message is that playback is under way, it is, and something is left to carry out. -/
def Truthful (v : Viewer) : Prop :=
  v.SaysPlaying → v.timeline.isPlaying = true ∧ ¬v.timeline.AtEnd

theorem Excused.round (h : v.Excused) (r : Round) : (v.round r).Excused := by
  have hpressed : (v.pressed r).Excused := by
    intro hmessage
    rcases pressed_cases v r with hquiet | ⟨hstatus, htimeline⟩ | ⟨-, -, time, hrun⟩
    · exact absurd hmessage hquiet.message
    · rw [SaysPlaying, hstatus] at hmessage
      rw [htimeline]
      exact h hmessage
    · rw [hrun]
      exact .inl rfl
  intro hmessage
  rcases tick_cases (v.pressed r) r.now with ⟨hstatus, htimeline⟩ | ⟨-, -, hend, -⟩ | htrue
  · rw [SaysPlaying, Viewer.round, hstatus] at hmessage
    rw [Viewer.round, htimeline]
    exact hpressed hmessage
  · exact .inr hend
  · exact .inl (htrue hmessage).1

theorem Truthful.round (h : v.Truthful) (hvain : ¬v.StartsInVain r) : (v.round r).Truthful := by
  have hpressed : (v.pressed r).Truthful := by
    intro hmessage
    rcases pressed_cases v r with hquiet | ⟨hstatus, htimeline⟩ | ⟨hoff, -, time, hrun⟩
    · exact absurd hmessage hquiet.message
    · rw [SaysPlaying, hstatus] at hmessage
      rw [htimeline]
      exact h hmessage
    · refine ⟨by rw [hrun]; rfl, fun hend => hvain ⟨?_, hoff, by rw [hrun]; rfl⟩⟩
      rwa [hrun] at hend
  intro hmessage
  rcases tick_cases (v.pressed r) r.now with ⟨hstatus, htimeline⟩ | ⟨hend, hstatus, -, -⟩ | htrue
  · rw [SaysPlaying, Viewer.round, hstatus] at hmessage
    rw [Viewer.round, htimeline]
    exact hpressed hmessage
  · rw [SaysPlaying, Viewer.round, hstatus] at hmessage
    exact absurd hend (hpressed hmessage).2
  · exact htrue hmessage

theorem Excused.rounds (h : v.Excused) (rs : List Round) : (v.rounds rs).Excused := by
  induction rs generalizing v with
  | nil => exact h
  | cons r rs ih => exact ih (h.round r)

theorem Truthful.rounds {rs : List Round} (h : v.Truthful)
    (hvain : ∀ before r after, rs = before ++ r :: after → ¬(v.rounds before).StartsInVain r) :
    (v.rounds rs).Truthful := by
  induction rs generalizing v with
  | nil => exact h
  | cons r rs ih =>
    refine ih (h.round (hvain [] r rs rfl)) fun before r' after hrs => ?_
    exact hvain (r :: before) r' after (congrArg (r :: ·) hrs)

/-- After a start in vain the message is shown, and it is still shown after the tick that is due has
stopped automatic stepping. -/
theorem StartsInVain.outlived (h : v.StartsInVain r) {deadline now : Nat}
    (hdeadline : (v.pressed r).timeline.autoplay.deadline = some deadline) (hdue : deadline ≤ now) :
    ((v.pressed r).tick now).SaysPlaying ∧ ((v.pressed r).tick now).timeline.isPlaying = false := by
  obtain ⟨hend, hoff, hon⟩ := h
  rcases pressed_cases v r with hquiet | ⟨-, htimeline⟩ | ⟨-, hmessage, time, hrun⟩
  · rw [hquiet.isPlaying hoff] at hon
    cases hon
  · rw [htimeline, hoff] at hon
    cases hon
  have hnone :
      (v.pressed r).timeline.log[Snapshot.applied (v.pressed r).timeline.cursor]? = none := by
    rw [hrun]
    exact List.getElem?_eq_none_iff.2 hend
  have hpoll : (v.pressed r).timeline.autoplay.poll now
      = (true, (v.pressed r).timeline.autoplay.start now) := by
    rw [AutoPlay.poll, hdeadline]
    exact if_pos hdue
  rw [tick, Timeline.tick, hpoll]
  dsimp only
  rw [Timeline.stepForward]
  dsimp only
  rw [hnone]
  exact ⟨hmessage, rfl⟩

/-- **While the message is that playback is under way, it is,** with one exception.  After any
rounds, with keys and ticks at any times, the message is shown only if playback is under way or
nothing is left to carry out; and unless a key has switched playback on with nothing left to carry
out, it is under way.  A key that does so is followed by the message after playback has ended. -/
theorem playing_shown (t : Timeline) (source : String) (fault : Option Fault) (rs : List Round) :
    let start := ofTimeline t source fault
    ((start.rounds rs).status = "Playing..." →
      (start.rounds rs).timeline.isPlaying = true ∨ (start.rounds rs).timeline.AtEnd) ∧
    ((∀ before r after, rs = before ++ r :: after → ¬(start.rounds before).StartsInVain r) →
      (start.rounds rs).status = "Playing..." → (start.rounds rs).timeline.isPlaying = true) ∧
    ∀ r, (start.rounds rs).StartsInVain r →
      ∃ deadline, ∀ now, deadline ≤ now →
        ((start.rounds rs).round { r with now := now }).status = "Playing..." ∧
          ((start.rounds rs).round { r with now := now }).timeline.isPlaying = false := by
  intro start
  have hready : ¬start.SaysPlaying := not_saysPlaying "Ready!" rfl (by decide)
  refine ⟨Excused.rounds (fun h => absurd h hready) rs, fun hvain hmessage => ?_, fun r hvain => ?_⟩
  · exact (Truthful.rounds (fun h => absurd h hready) hvain hmessage).1
  · obtain ⟨deadline, hdeadline⟩ := Option.isSome_iff_exists.1 hvain.2.2
    exact ⟨deadline, fun now hdue => hvain.outlived hdeadline hdue⟩

/-- Playback of two pushes, which has made the first step. -/
theorem playing_shown_twoPushes :
    let start := ofTimeline (.ofLog Timeline.twoPushes) "" none
    let rs : List Round := [{ key := some (.char ' ', 0), now := 500 }]
    (∀ before r after, rs = before ++ r :: after → ¬(start.rounds before).StartsInVain r) ∧
      (start.rounds rs).status = "Playing..." ∧ (start.rounds rs).timeline.isPlaying = true := by
  intro start rs
  have hvain : ∀ before r after, rs = before ++ r :: after →
      ¬(start.rounds before).StartsInVain r := by
    rintro (_ | ⟨r', before⟩) r after hrs ⟨hend, -⟩
    · exact absurd hend (by unfold Timeline.AtEnd; decide)
    · have hlength := congrArg List.length hrs
      simp [rs] at hlength
  have hmessage : (start.rounds rs).status = "Playing..." := by decide +kernel
  exact ⟨hvain, hmessage, (playing_shown _ "" none rs).2.1 hvain hmessage⟩

/-- **The message outlives playback.**  Playback of the empty log is switched on; the tick that is
due half a second later stops it, and the message remains. -/
theorem playing_outlived :
    let start := ofTimeline (.ofLog []) "" none
    let rs : List Round := [{ key := some (.char ' ', 0), now := 0 }, { now := 500 }]
    (start.rounds rs).status = "Playing..." ∧ (start.rounds rs).timeline.isPlaying = false := by
  decide +kernel

end Viewer

end Stepwise
