import Mathlib.Data.List.Induction
import Stepwise.Proofs.Timeline.Determinism

/-!
# The pace of automatic stepping

Automatic stepping is a deadline that is set, moved and dropped by almost every move of a timeline,
while a tick is the only move that asks for it.  This file follows the deadline through sequences of
moves whose times never decrease.

* `Timeline.move_autoplay` says all that a move can do to the deadline: drop it, keep it, or set it
  to one interval after the time of the move.  Only `run` sets one where there was none.
* `Timeline.Halts` lists the moves that end automatic stepping, arriving at the last command among
  them, and `Timeline.Undisturbed` says that none was made.
* `Timeline.NotBefore` is the invariant behind the distance of ticks: no deadline is closer to a
  given time than the interval that is in force.
* `Timeline.ticks_keep_pace` puts together what this says of a tick: it takes one step or none, it
  is not made unless `run` was, and it keeps its distance from every tick before it.
-/

set_option autoImplicit false

namespace Stepwise

namespace Timeline

/-- The time of a move, if it is one that is made at a time. -/
def Move.time? : Move → Option Nat
  | run now => some now
  | setSpeed _ now => some now
  | tick now => some now
  | _ => none

/-- The times of moves never decrease. -/
def Chronological (moves : List Move) : Prop :=
  (moves.filterMap Move.time?).Pairwise (· ≤ ·)

theorem moveAll_append (t : Timeline) (moves more : List Move) :
    t.moveAll (moves ++ more) = (t.moveAll moves).moveAll more :=
  List.foldl_append

/-! ## One tick -/

/-- A tick for which no step is due does nothing. -/
theorem tick_of_poll {t : Timeline} {now : Nat} (h : (t.autoplay.poll now).1 = false) :
    t.tick now = (false, t) := by
  cases hp : t.autoplay.poll now with
  | mk due autoplay =>
    rw [hp] at h
    cases h
    rw [tick, hp]

/-- A step is due only at a deadline that has been reached, and then the next deadline is set. -/
theorem poll_cases (a : AutoPlay) (now : Nat) :
    (a.poll now).1 = false ∨
      ∃ deadline, a.deadline = some deadline ∧ deadline ≤ now ∧
        a.poll now = (true, a.start now) := by
  rw [AutoPlay.poll]
  cases a.deadline with
  | none => exact .inl rfl
  | some deadline =>
    by_cases h : deadline ≤ now
    · exact .inr ⟨deadline, rfl, h, if_pos h⟩
    · left
      dsimp only
      rw [if_neg h]

/-- **A tick does nothing, or it steps forward** from the timeline with its next deadline. -/
theorem tick_cases (t : Timeline) (now : Nat) :
    t.tick now = (false, t) ∨
      ∃ deadline, t.autoplay.deadline = some deadline ∧ deadline ≤ now ∧
        t.tick now = { t with autoplay := t.autoplay.start now }.stepForward := by
  rcases poll_cases t.autoplay now with h | ⟨deadline, hdeadline, hle, hpoll⟩
  · exact .inl (tick_of_poll h)
  · refine .inr ⟨deadline, hdeadline, hle, ?_⟩
    rw [tick, hpoll]

/-- What a step forward does to automatic stepping: it stops it at the end of the log. -/
theorem autoplay_stepForward (t : Timeline) :
    t.stepForward.2.autoplay = t.autoplay.cancel ∨
      t.stepForward.2.autoplay = t.autoplay ∧ t.stepForward.2.position ≠ .finished := by
  rw [stepForward]
  cases t.log[Snapshot.applied t.cursor]? with
  | none => exact .inl rfl
  | some c =>
    dsimp only
    split
    · exact .inl rfl
    · rename_i hposition
      exact .inr ⟨rfl, hposition⟩

/-- A tick that moves the cursor takes one step, and a tick that does not changes nothing that is
shown. -/
theorem tick_spec (t : Timeline) (now : Nat) :
    (t.tick now).2.log = t.log ∧
      (((t.tick now).1 = true ∧ Snapshot.applied t.cursor < t.log.length ∧
          (t.tick now).2.cursor = some (Snapshot.applied t.cursor)) ∨
        ((t.tick now).1 = false ∧ (t.tick now).2.cursor = t.cursor ∧
          (t.tick now).2.snapshot = t.snapshot)) := by
  rcases tick_cases t now with h | ⟨-, -, -, h⟩
  · rw [h]
    exact ⟨rfl, .inr ⟨rfl, rfl, rfl⟩⟩
  · rw [h]
    rcases stepForward_cases { t with autoplay := t.autoplay.start now }
      with ⟨-, hend⟩ | ⟨c, hc, htrue, hlog, hcursor, -⟩
    · rw [hend]
      exact ⟨rfl, .inr ⟨rfl, rfl, rfl⟩⟩
    · exact ⟨hlog, .inl ⟨htrue, (List.getElem?_eq_some_iff.1 hc).1, hcursor⟩⟩

/-- The cursor is one further after a tick only if the tick has moved it. -/
theorem tick_moves_iff (t : Timeline) (now : Nat) :
    (t.tick now).1 = true ↔
      (t.tick now).2.cursor = some (Snapshot.applied t.cursor) ∧
        Snapshot.applied t.cursor < t.log.length := by
  have hne : t.cursor ≠ some (Snapshot.applied t.cursor) := by
    cases t.cursor with
    | none => exact nofun
    | some k => exact fun h => Nat.succ_ne_self k (Option.some.inj h).symm
  rcases (tick_spec t now).2 with ⟨htrue, hlt, hcursor⟩ | ⟨hfalse, hcursor, -⟩
  · exact iff_of_true htrue ⟨hcursor, hlt⟩
  · rw [hfalse, hcursor]
    exact iff_of_false nofun fun h => hne h.1

/-! ## What moves do to the deadline -/

theorem isPlaying_of_cancel {t : Timeline} {a : AutoPlay} (h : t.autoplay = a.cancel) :
    t.isPlaying = false := by
  rw [isPlaying, h]
  rfl

/-- **The step of the deadline.**  After a move there is none, or automatic stepping is as it was,
or the deadline lies one interval after the time of the move; and where there was none, the move
was `run`. -/
theorem move_autoplay (t : Timeline) (m : Move) :
    (t.move m).isPlaying = false ∨ (t.move m).autoplay = t.autoplay ∨
      ∃ now, m.time? = some now ∧
        (t.move m).autoplay.deadline = some (now + (t.move m).interval) ∧
        (t.isPlaying = false → m = .run now) := by
  cases m with
  | load log => exact .inl rfl
  | reset => exact .inl rfl
  | stepForward =>
    rcases autoplay_stepForward t with h | ⟨h, -⟩
    · exact .inl (isPlaying_of_cancel h)
    · exact .inr (.inl h)
  | stepBack =>
    refine .inr (.inl ?_)
    simp only [move, stepBack]
    split <;> rfl
  | jumpTo cursor => exact .inl rfl
  | jumpToEnd => exact .inl rfl
  | run now => exact .inr (.inr ⟨now, rfl, rfl, fun _ => rfl⟩)
  | pause => exact .inl rfl
  | setSpeed interval now =>
    cases hplaying : t.isPlaying with
    | false =>
      left
      have hset : t.autoplay.setInterval interval now = { t.autoplay with interval } :=
        if_neg (by rw [← isPlaying, hplaying]; exact Bool.false_ne_true)
      simp only [move, setSpeed, isPlaying, hset]
      exact hplaying
    | true =>
      have hset : t.autoplay.setInterval interval now
          = { t.autoplay with interval }.start now := if_pos hplaying
      refine .inr (.inr ⟨now, rfl, ?_, fun hno => by cases hno⟩)
      simp only [move, setSpeed, Timeline.interval, hset]
      rfl
  | tick now =>
    simp only [move]
    rcases tick_cases t now with h | ⟨deadline, hdeadline, -, h⟩
    · rw [h]
      exact .inr (.inl rfl)
    · rw [h]
      rcases autoplay_stepForward { t with autoplay := t.autoplay.start now } with hs | ⟨hs, -⟩
      · exact .inl (isPlaying_of_cancel hs)
      · refine .inr (.inr ⟨now, rfl, ?_, fun hplaying => ?_⟩)
        · rw [Timeline.interval, hs]
          rfl
        · rw [isPlaying, AutoPlay.isRunning, hdeadline] at hplaying
          cases hplaying

/-! ## Starting and stopping -/

/-- The moves that end automatic stepping: to take another log, to go back to the start, to stop, to
jump, and to arrive at the last command. -/
def Halts (t : Timeline) : Move → Prop
  | .load _ => True
  | .reset => True
  | .pause => True
  | .jumpTo _ => True
  | .jumpToEnd => True
  | m => t.position ≠ .finished ∧ (t.move m).position = .finished

/-- None of the moves ends automatic stepping. -/
def Undisturbed (t : Timeline) : List Move → Prop
  | [] => True
  | m :: moves => ¬t.Halts m ∧ (t.move m).Undisturbed moves

theorem undisturbed_append {t : Timeline} {moves more : List Move} :
    t.Undisturbed (moves ++ more) ↔ t.Undisturbed moves ∧ (t.moveAll moves).Undisturbed more := by
  induction moves generalizing t with
  | nil => exact ⟨fun h => ⟨trivial, h⟩, fun h => h.2⟩
  | cons m moves ih =>
    rw [List.cons_append, Undisturbed, Undisturbed, ih, moveAll_cons, and_assoc]

/-- A step back does not arrive at the last command. -/
theorem position_stepBack {t : Timeline} (h : t.stepBack.2.position = .finished) :
    t.position = .finished := by
  rw [stepBack] at h
  cases hcursor : t.cursor with
  | none =>
    rw [hcursor] at h
    exact h
  | some k =>
    cases k with
    | zero =>
      rw [hcursor] at h
      cases h
    | succ k =>
      simp only [hcursor, rebuild, position] at h ⊢
      split at h
      · cases h
      · rename_i hlast
        rw [if_neg]
        grind

/-- A step forward that arrives at the last command stops. -/
theorem isPlaying_stepForward {t : Timeline} (h : t.stepForward.2.position = .finished) :
    t.stepForward.2.isPlaying = false := by
  rcases autoplay_stepForward t with hcancel | ⟨-, hposition⟩
  · exact isPlaying_of_cancel hcancel
  · exact absurd h hposition

/-- **The moves that end automatic stepping do so.** -/
theorem isPlaying_of_halts {t : Timeline} {m : Move} (h : t.Halts m) :
    (t.move m).isPlaying = false := by
  cases m with
  | load log => rfl
  | reset => rfl
  | stepForward => exact isPlaying_stepForward h.2
  | stepBack => exact absurd (position_stepBack h.2) h.1
  | jumpTo cursor => rfl
  | jumpToEnd => rfl
  | run now => exact absurd h.2 h.1
  | pause => rfl
  | setSpeed interval now => exact absurd h.2 h.1
  | tick now =>
    obtain ⟨hbefore, hafter⟩ := h
    simp only [move] at hafter ⊢
    rcases tick_cases t now with hnone | ⟨-, -, -, hstep⟩
    · rw [hnone] at hafter
      exact absurd hafter hbefore
    · rw [hstep] at hafter ⊢
      exact isPlaying_stepForward hafter

/-- Automatic stepping that is under way was started by `run`, and has not been ended since. -/
theorem started_of_isPlaying {start : Timeline} (hstart : start.isPlaying = false)
    (moves : List Move) (h : (start.moveAll moves).isPlaying = true) :
    ∃ earlier now later, moves = earlier ++ .run now :: later ∧
      ((start.moveAll earlier).run now).Undisturbed later := by
  -- From the last move back to the `run` that set the first of the deadlines.
  induction moves using List.reverseRecOn with
  | nil =>
    rw [moveAll_nil, hstart] at h
    cases h
  | append_singleton moves m ih =>
    rw [moveAll_append, moveAll_cons, moveAll_nil] at h
    have hhalts : ¬(start.moveAll moves).Halts m := fun hm => by
      rw [isPlaying_of_halts hm] at h
      cases h
    have hcontinue : (start.moveAll moves).isPlaying = true →
        ∃ earlier now later, moves ++ [m] = earlier ++ .run now :: later ∧
          ((start.moveAll earlier).run now).Undisturbed later := by
      intro hplaying
      obtain ⟨earlier, now, later, rfl, hlater⟩ := ih hplaying
      refine ⟨earlier, now, later ++ [m], by simp, undisturbed_append.2 ⟨hlater, ?_, trivial⟩⟩
      rwa [moveAll_append, moveAll_cons] at hhalts
    rcases move_autoplay (start.moveAll moves) m with hnone | hsame | ⟨now, -, -, hrun⟩
    · rw [hnone] at h
      cases h
    · rw [isPlaying, hsame] at h
      exact hcontinue h
    · cases hplaying : (start.moveAll moves).isPlaying with
      | true => exact hcontinue hplaying
      | false =>
        rw [hrun hplaying]
        exact ⟨moves, now, [], rfl, trivial⟩

/-! ## The distance of ticks -/

/-- No step is due before one interval after `time`. -/
def NotBefore (time : Nat) (t : Timeline) : Prop :=
  ∀ deadline, t.autoplay.deadline = some deadline → time + t.interval ≤ deadline

theorem notBefore_of_isPlaying {time : Nat} {t : Timeline} (h : t.isPlaying = false) :
    NotBefore time t := by
  intro deadline hdeadline
  rw [isPlaying, AutoPlay.isRunning, hdeadline] at h
  cases h

/-- A move that is made no earlier than `time` sets no deadline that is closer to it. -/
theorem NotBefore.move {time : Nat} {t : Timeline} (h : NotBefore time t) {m : Move}
    (hm : ∀ now, m.time? = some now → time ≤ now) : NotBefore time (t.move m) := by
  rcases move_autoplay t m with hnone | hsame | ⟨now, hnow, hset, -⟩
  · exact notBefore_of_isPlaying hnone
  · intro deadline hdeadline
    rw [interval, hsame]
    exact h deadline (hsame ▸ hdeadline)
  · intro deadline hdeadline
    rw [hset] at hdeadline
    cases hdeadline
    exact Nat.add_le_add_right (hm now hnow) _

theorem NotBefore.moveAll {time : Nat} {t : Timeline} (h : NotBefore time t) {moves : List Move}
    (hmoves : ∀ now ∈ moves.filterMap Move.time?, time ≤ now) :
    NotBefore time (t.moveAll moves) := by
  induction moves generalizing t with
  | nil => exact h
  | cons m moves ih =>
    have hfirst : ∀ now, m.time? = some now → time ≤ now := fun now hnow =>
      hmoves now (List.mem_filterMap.2 ⟨m, List.mem_cons_self, hnow⟩)
    refine ih (h.move hfirst) fun now hnow => hmoves now ?_
    obtain ⟨other, hother, htime⟩ := List.mem_filterMap.1 hnow
    exact List.mem_filterMap.2 ⟨other, List.mem_cons_of_mem m hother, htime⟩

/-- A tick that moves the cursor sets the next deadline one interval after its time. -/
theorem notBefore_tick {t : Timeline} {now : Nat} (h : (t.tick now).1 = true) :
    NotBefore now (t.tick now).2 := by
  rcases tick_cases t now with hnone | ⟨-, -, -, hstep⟩
  · rw [hnone] at h
    cases h
  · rw [hstep]
    rcases autoplay_stepForward { t with autoplay := t.autoplay.start now } with hs | ⟨hs, -⟩
    · exact notBefore_of_isPlaying (isPlaying_of_cancel hs)
    · intro deadline hdeadline
      rw [hs] at hdeadline
      cases hdeadline
      rw [interval, hs]
      exact Nat.le_refl _

/-- A tick that moves the cursor comes no earlier than allowed. -/
theorem NotBefore.le_of_tick {time : Nat} {t : Timeline} (h : NotBefore time t) {now : Nat}
    (htick : (t.tick now).1 = true) : time + t.interval ≤ now := by
  rcases tick_cases t now with hnone | ⟨deadline, hdeadline, hle, -⟩
  · rw [hnone] at htick
    cases htick
  · exact Nat.le_trans (h deadline hdeadline) hle

theorem isPlaying_of_tick {t : Timeline} {now : Nat} (h : (t.tick now).1 = true) :
    t.isPlaying = true := by
  rcases tick_cases t now with hnone | ⟨deadline, hdeadline, -, -⟩
  · rw [hnone] at h
    cases h
  · rw [isPlaying, AutoPlay.isRunning, hdeadline]
    rfl

/-! ## Ticks among other moves -/

/-- **Ticks keep their pace.**  Let moves be made on a timeline on which automatic stepping is not
under way, such as a new one, at times that never decrease.  Then of every tick among them:

* It says that it has moved the cursor exactly if the cursor is one further, on a command of the
  log, and else it leaves the cursor and the snapshot as they were.
* If it carries out the last command, automatic stepping is over.
* It moves the cursor only if `run` was among the moves before it, and none of those after this
  ended automatic stepping.
* If it moves the cursor, and so did a tick before it, then it comes at least as long after that one
  as the interval which is in force when it is made. -/
theorem ticks_keep_pace {start : Timeline} (hstart : start.isPlaying = false) {moves : List Move}
    (hmoves : Chronological moves) {before after : List Move} {now : Nat}
    (htick : moves = before ++ .tick now :: after) :
    let t := start.moveAll before
    ((t.tick now).1 = true ↔
      (t.tick now).2.cursor = some (Snapshot.applied t.cursor) ∧
        Snapshot.applied t.cursor < t.log.length) ∧
    ((t.tick now).1 = false →
      (t.tick now).2.cursor = t.cursor ∧ (t.tick now).2.snapshot = t.snapshot) ∧
    ((t.tick now).1 = true → Snapshot.applied t.cursor + 1 = t.log.length →
      (t.tick now).2.isPlaying = false) ∧
    ((t.tick now).1 = true → ∃ earlier started later, before = earlier ++ .run started :: later ∧
      ((start.moveAll earlier).run started).Undisturbed later) ∧
    ∀ earlier last between, before = earlier ++ .tick last :: between →
      ((start.moveAll earlier).tick last).1 = true → (t.tick now).1 = true →
        last + t.interval ≤ now := by
  intro t
  obtain ⟨hlog, hspec⟩ := tick_spec t now
  refine ⟨tick_moves_iff t now, fun hfalse => ?_, fun htrue hlast => ?_, fun htrue => ?_, ?_⟩
  · rcases hspec with ⟨htrue, -⟩ | ⟨-, hsame⟩
    · rw [htrue] at hfalse
      cases hfalse
    · exact hsame
  · rcases tick_cases t now with hnone | ⟨-, -, -, hstep⟩
    · rw [hnone] at htrue
      cases htrue
    · have hcursor := ((tick_moves_iff t now).1 htrue).1
      rw [hstep] at hlog hcursor ⊢
      refine isPlaying_stepForward ?_
      rw [position, hcursor]
      dsimp only
      rw [if_neg]
      grind
  · exact started_of_isPlaying hstart before (isPlaying_of_tick htrue)
  · rintro earlier last between rfl hlast htrue
    subst htick
    have htimes : ∀ time ∈ between.filterMap Move.time?, last ≤ time := by
      rw [Chronological, List.append_assoc, List.filterMap_append, List.pairwise_append] at hmoves
      obtain ⟨-, hmoves, -⟩ := hmoves
      have htime : Move.time? (.tick last) = some last := rfl
      rw [List.cons_append, List.filterMap_cons_some htime, List.pairwise_cons,
        List.filterMap_append] at hmoves
      exact fun time htime => hmoves.1 time (List.mem_append_left _ htime)
    have hdeadline : NotBefore last t := by
      have h := (notBefore_tick hlast).moveAll htimes
      rwa [show t = ((start.moveAll earlier).tick last).2.moveAll between from by
        rw [show t = start.moveAll (earlier ++ .tick last :: between) from rfl, moveAll_append,
          moveAll_cons]
        rfl]
    exact hdeadline.le_of_tick htrue

/-- A timeline that steps twice as fast after its first step. -/
theorem ticks_keep_pace_faster :
    let start := ofLog (twoPushes ++ twoPushes)
    let before : List Move := [.run 10, .tick 510, .setSpeed 250 600]
    start.isPlaying = false ∧ Chronological (before ++ [.tick 850]) ∧
      ((start.moveAll before).tick 850).1 = true ∧ 510 + 250 ≤ 850 ∧
      ∃ earlier started later, before = earlier ++ .run started :: later ∧
        ((start.moveAll earlier).run started).Undisturbed later := by
  intro start before
  have hmoves : Chronological (before ++ [.tick 850]) := by
    rw [Chronological]
    decide
  have h := @ticks_keep_pace start rfl _ hmoves before [] 850 rfl
  exact ⟨rfl, hmoves, rfl, h.2.2.2.2 [.run 10] 510 [.setSpeed 250 600] rfl rfl rfl,
    h.2.2.2.1 rfl⟩

end Timeline

end Stepwise
