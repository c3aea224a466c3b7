import Stepwise.Timeline

/-!
# A timeline is determined by its log and its cursor

Going forward changes the snapshot of a timeline in place, and every other move derives it anew.
This file proves that the difference cannot be seen: however a timeline came to its cursor, it holds
what replaying the log up to there yields.

* `Timeline.Move` lists the moves, with their times, and `Timeline.move` makes one.
* `Timeline.AtCursor` is the invariant: the cursor lies on the log, and the snapshot is the replayed
  one.  A snapshot carries the number of identities given out, so the invariant speaks about the
  items that are still to come as well as about those that are there.
* `Timeline.atCursor_move` preserves it over any one move, and `snapshot_eq_replay` follows.
-/

set_option autoImplicit false

namespace Stepwise

namespace Timeline

/-- The moves of a timeline.  Times are those at which a move is made. -/
inductive Move where
  | load (log : Log)
  | reset
  | stepForward
  | stepBack
  | jumpTo (cursor : Option Nat)
  | jumpToEnd
  | run (now : Nat)
  | pause
  | setSpeed (interval now : Nat)
  | tick (now : Nat)

/-- Whether a move is a tick, the only one whose effect depends on the time. -/
def Move.isTick : Move → Bool
  | tick _ => true
  | _ => false

/-- The timeline after a move. -/
def move (t : Timeline) : Move → Timeline
  | .load log => t.load log
  | .reset => t.reset
  | .stepForward => t.stepForward.2
  | .stepBack => t.stepBack.2
  | .jumpTo cursor => t.jumpTo cursor
  | .jumpToEnd => t.jumpToEnd
  | .run now => t.run now
  | .pause => t.pause
  | .setSpeed interval now => t.setSpeed interval now
  | .tick now => (t.tick now).2

/-- The timeline after moves in order. -/
def moveAll (t : Timeline) (moves : List Move) : Timeline :=
  moves.foldl move t

@[simp]
theorem moveAll_nil (t : Timeline) : t.moveAll [] = t := rfl

@[simp]
theorem moveAll_cons (t : Timeline) (m : Move) (moves : List Move) :
    t.moveAll (m :: moves) = (t.move m).moveAll moves := rfl

/-! ## The invariant -/

/-- The cursor lies on the log, and the snapshot is the one that replaying up to it yields. -/
structure AtCursor (t : Timeline) : Prop where
  /-- The cursor is on a command of the log. -/
  within : ∀ k, t.cursor = some k → k < t.log.length
  /-- The snapshot, identities included, is the replayed one. -/
  snapshot : t.snapshot = .replay t.log t.cursor

/-- Automatic stepping is not part of the invariant. -/
theorem AtCursor.of_same {t u : Timeline} (h : t.AtCursor) (hlog : u.log = t.log)
    (hcursor : u.cursor = t.cursor) (hsnapshot : u.snapshot = t.snapshot) : u.AtCursor where
  within k hk := by
    rw [hlog]
    exact h.within k (hcursor ▸ hk)
  snapshot := by rw [hsnapshot, hlog, hcursor, h.snapshot]

theorem atCursor_reset (t : Timeline) : t.reset.AtCursor where
  within k hk := by cases hk
  snapshot := rfl

theorem atCursor_rebuild {t : Timeline} {cursor : Option Nat}
    (h : ∀ k, cursor = some k → k < t.log.length) : (t.rebuild cursor).AtCursor :=
  ⟨h, rfl⟩

end Timeline

/-- Replaying one command more is carrying it out. -/
theorem Snapshot.replay_succ {log : Log} {cursor : Option Nat} {c : Command}
    (h : log[applied cursor]? = some c) :
    replay log (some (applied cursor)) = (replay log cursor).apply c := by
  rw [replay, replay, applied, List.take_add_one, h, List.foldl_append]
  rfl

namespace Timeline

/-- The two ways in which a step forward can end. -/
theorem stepForward_cases (t : Timeline) :
    (t.log[Snapshot.applied t.cursor]? = none ∧ t.stepForward = (false, t.pause)) ∨
      ∃ c, t.log[Snapshot.applied t.cursor]? = some c ∧ t.stepForward.1 = true ∧
        t.stepForward.2.log = t.log ∧
        t.stepForward.2.cursor = some (Snapshot.applied t.cursor) ∧
        t.stepForward.2.snapshot = t.snapshot.apply c := by
  rw [stepForward]
  cases hc : t.log[Snapshot.applied t.cursor]? with
  | none => exact .inl ⟨rfl, rfl⟩
  | some c =>
    refine .inr ⟨c, rfl, rfl, ?_⟩
    simp only
    split <;> exact ⟨rfl, rfl, rfl⟩

theorem AtCursor.stepForward {t : Timeline} (h : t.AtCursor) : t.stepForward.2.AtCursor := by
  obtain ⟨-, hend⟩ | ⟨c, hc, -, hlog, hcursor, hsnapshot⟩ := stepForward_cases t
  · rw [hend]
    exact h.of_same rfl rfl rfl
  · refine ⟨fun k hk => ?_, ?_⟩
    · rw [hcursor, Option.some.injEq] at hk
      rw [hlog, ← hk]
      exact (List.getElem?_eq_some_iff.1 hc).1
    · rw [hsnapshot, hlog, hcursor, Snapshot.replay_succ hc, h.snapshot]

theorem AtCursor.stepBack {t : Timeline} (h : t.AtCursor) : t.stepBack.2.AtCursor := by
  rw [Timeline.stepBack]
  split
  · exact h
  · exact atCursor_rebuild fun k hk => by cases hk
  · next k hk =>
    refine atCursor_rebuild fun j hj => ?_
    cases hj
    exact Nat.lt_of_succ_lt (h.within _ hk)

theorem atCursor_jumpTo (t : Timeline) (cursor : Option Nat) : (t.jumpTo cursor).AtCursor := by
  refine atCursor_rebuild fun k hk => ?_
  split at hk
  · next j last hlast =>
    rw [Timeline.lastIndex] at hlast
    split at hlast
    · cases hlast
    · next hne =>
      cases hk
      cases hlast
      have hpos : 0 < t.log.length := List.length_pos_iff.2 (by simpa using hne)
      show min j (t.log.length - 1) < t.log.length
      omega
  · cases hk

theorem AtCursor.tick {t : Timeline} (h : t.AtCursor) (now : Nat) : (t.tick now).2.AtCursor := by
  rw [Timeline.tick]
  split
  · next autoplay _ => exact (h.of_same (u := { t with autoplay }) rfl rfl rfl).stepForward
  · exact h

/-- **The step.**  Every move leaves the snapshot at the cursor. -/
theorem atCursor_move {t : Timeline} (h : t.AtCursor) (m : Move) : (t.move m).AtCursor := by
  cases m with
  | load log => exact atCursor_reset _
  | reset => exact atCursor_reset t
  | stepForward => exact h.stepForward
  | stepBack => exact h.stepBack
  | jumpTo cursor => exact atCursor_jumpTo t cursor
  | jumpToEnd => exact atCursor_jumpTo t t.lastIndex
  | run now => exact h.of_same rfl rfl rfl
  | pause => exact h.of_same rfl rfl rfl
  | setSpeed interval now => exact h.of_same rfl rfl rfl
  | tick now => exact h.tick now

theorem atCursor_moveAll {t : Timeline} (h : t.AtCursor) (moves : List Move) :
    (t.moveAll moves).AtCursor := by
  induction moves generalizing t with
  | nil => exact h
  | cons m moves ih => exact ih (atCursor_move h m)

theorem atCursor_ofLog (log : Log) : (ofLog log).AtCursor :=
  atCursor_reset _

/-! ## Two timelines at the same place -/

/-- Two timelines at the same place of the same log, whatever their automatic stepping. -/
structure SamePlace (t u : Timeline) : Prop where
  /-- They have the same log. -/
  log : u.log = t.log
  /-- They are at the same cursor. -/
  cursor : u.cursor = t.cursor

/-- Without ticks, the same moves lead from the same place to the same place. -/
theorem SamePlace.move {t u : Timeline} (h : SamePlace t u) {m : Move} (hm : m.isTick = false) :
    SamePlace (t.move m) (u.move m) := by
  cases m with
  | load log => exact ⟨rfl, rfl⟩
  | reset => exact ⟨h.log, rfl⟩
  | stepForward =>
    simp only [Timeline.move]
    obtain ⟨htn, ht⟩ | ⟨c, hc, -, htl, htc, -⟩ := stepForward_cases t <;>
      obtain ⟨hun, hu⟩ | ⟨d, hd, -, hul, huc, -⟩ := stepForward_cases u
    · rw [ht, hu]
      exact ⟨h.log, h.cursor⟩
    · rw [h.log, h.cursor, htn] at hd
      cases hd
    · rw [h.log, h.cursor, hc] at hun
      cases hun
    · exact ⟨by rw [hul, htl, h.log], by rw [huc, htc, h.cursor]⟩
  | stepBack =>
    simp only [Timeline.move, stepBack, h.cursor]
    cases t.cursor with
    | none => exact ⟨h.log, h.cursor⟩
    | some k => cases k <;> exact ⟨h.log, rfl⟩
  | jumpTo cursor =>
    exact ⟨h.log, by simp only [Timeline.move, jumpTo, rebuild, lastIndex, h.log]⟩
  | jumpToEnd =>
    exact ⟨h.log, by simp only [Timeline.move, jumpToEnd, jumpTo, rebuild, lastIndex, h.log]⟩
  | run now => exact ⟨h.log, h.cursor⟩
  | pause => exact ⟨h.log, h.cursor⟩
  | setSpeed interval now => exact ⟨h.log, h.cursor⟩
  | tick now => cases hm

theorem SamePlace.moveAll {t u : Timeline} (h : SamePlace t u) {moves : List Move}
    (hm : ∀ m ∈ moves, m.isTick = false) : SamePlace (t.moveAll moves) (u.moveAll moves) := by
  induction moves generalizing t u with
  | nil => exact h
  | cons m moves ih =>
    exact ih (h.move (hm m List.mem_cons_self)) fun m' hm' => hm m' (List.mem_cons_of_mem _ hm')

theorem SamePlace.snapshot {t u : Timeline} (h : SamePlace t u) (ht : t.AtCursor)
    (hu : u.AtCursor) : u.snapshot = t.snapshot := by
  rw [ht.snapshot, hu.snapshot, h.log, h.cursor]

/-- **A timeline is determined by its log and its cursor.**  Let a timeline be reached by any moves
at any times.  Its cursor is before the first command or on a command of its log, and its snapshot,
with the number of identities given out, is what replaying the log up to the cursor yields.  So two
timelines at the same place show the same items under the same identities, and they go on doing so,
whatever moves took them there. -/
theorem snapshot_eq_replay (log : Log) (moves : List Move) :
    (((ofLog log).moveAll moves).cursor = none ∨
      ∃ k, ((ofLog log).moveAll moves).cursor = some k ∧
        k < ((ofLog log).moveAll moves).log.length) ∧
    ((ofLog log).moveAll moves).snapshot
      = .replay ((ofLog log).moveAll moves).log ((ofLog log).moveAll moves).cursor ∧
    ∀ (log' : Log) (moves' : List Move),
      SamePlace ((ofLog log).moveAll moves) ((ofLog log').moveAll moves') →
        ((ofLog log').moveAll moves').snapshot = ((ofLog log).moveAll moves).snapshot ∧
        ∀ later : List Move, (∀ m ∈ later, m.isTick = false) →
          (((ofLog log').moveAll moves').moveAll later).snapshot
            = (((ofLog log).moveAll moves).moveAll later).snapshot := by
  have h := atCursor_moveAll (atCursor_ofLog log) moves
  refine ⟨?_, h.snapshot, fun log' moves' hsame => ?_⟩
  · cases hk : ((ofLog log).moveAll moves).cursor with
    | none => exact .inl rfl
    | some k => exact .inr ⟨k, rfl, h.within k hk⟩
  · have h' := atCursor_moveAll (atCursor_ofLog log') moves'
    refine ⟨hsame.snapshot h h', fun later hlater => ?_⟩
    exact (hsame.moveAll hlater).snapshot (atCursor_moveAll h later) (atCursor_moveAll h' later)

/-- Two items pushed to a stack. -/
def twoPushes : Log :=
  [{ action := .push, target := .stack, name := "s", value := some (.int 1) },
   { action := .push, target := .stack, name := "s", value := some (.int 2) }]

/-- Forward, forward and back is at the same place as to the end and to the first command, and the
next step forward from there gives out the same identity. -/
theorem snapshot_eq_replay_twoPushes :
    SamePlace ((ofLog twoPushes).moveAll [.stepForward, .stepForward, .stepBack])
        ((ofLog twoPushes).moveAll [.jumpToEnd, .jumpTo (some 0)]) ∧
      (((ofLog twoPushes).moveAll [.jumpToEnd, .jumpTo (some 0)]).moveAll [.stepForward]).snapshot
        = (((ofLog twoPushes).moveAll [.stepForward, .stepForward, .stepBack]).moveAll
            [.stepForward]).snapshot := by
  have hsame : SamePlace ((ofLog twoPushes).moveAll [.stepForward, .stepForward, .stepBack])
      ((ofLog twoPushes).moveAll [.jumpToEnd, .jumpTo (some 0)]) := ⟨rfl, rfl⟩
  have h := (snapshot_eq_replay twoPushes [.stepForward, .stepForward, .stepBack]).2.2 twoPushes
    [.jumpToEnd, .jumpTo (some 0)] hsame
  exact ⟨hsame, h.2 [.stepForward] (by simp [Move.isTick])⟩

end Timeline
end Stepwise
