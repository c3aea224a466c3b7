import Stepwise.Viewer.LogPane
import Stepwise.Viewer.SourcePane

/-!
# The current position stays in view

The log pane follows the cursor and moves no further than it has to; the source pane pins the
current line to one row.  Both clamp the offset that they arrive at, so that the last page is full,
and neither may lose the position by that.

* `Pane.InView` says that a row is on the page that starts at an offset.
* `LogPane.inView_scroll` and `SourcePane.inView_update` are about the two rules, and
  `LogPane.scroll_scroll` and `SourcePane.update_update` say that they settle at once.
* `Pane.position_in_view` puts this together for what drawing the panes does to their offsets.
-/

set_option autoImplicit false

namespace Stepwise

namespace Pane

variable {offset total visible row : Nat}

/-- The row is on the page of `visible` rows that starts at `offset`. -/
def InView (offset visible row : Nat) : Prop :=
  offset ≤ row ∧ row < offset + visible

theorem visibleLines_pos (height : Nat) : 0 < visibleLines height :=
  Nat.lt_of_lt_of_le Nat.one_pos (Nat.le_max_right _ _)

/-- Clamping goes back to the last full page. -/
theorem clampScroll_eq (offset total visible : Nat) :
    clampScroll offset total visible = min offset (total - visible) := by
  rw [clampScroll]
  split
  · rfl
  · rw [Nat.sub_eq_zero_of_le (Nat.not_lt.1 ‹_›), Nat.min_zero]

theorem clampScroll_le (offset total visible : Nat) :
    clampScroll offset total visible ≤ total - visible := by
  rw [clampScroll_eq]
  exact Nat.min_le_right _ _

/-- A row of the text that is in view stays in view. -/
theorem InView.clampScroll (h : InView offset visible row) (hrow : row < total) :
    InView (Pane.clampScroll offset total visible) visible row := by
  rw [clampScroll_eq]
  obtain ⟨hfirst, hlast⟩ := h
  constructor <;> omega

end Pane

namespace LogPane

open Pane

variable {cursor : Option Nat} {total : Nat}

/-- Following the cursor goes to the nearest offset at which its row is in view. -/
theorem followCursor_eq (offset : Nat) {visible : Nat} (hvisible : 0 < visible)
    (cursor : Option Nat) :
    followCursor offset visible cursor
      = min (max offset (cursor.getD 0 + 1 - visible)) (cursor.getD 0) := by
  rw [followCursor]
  generalize cursor.getD 0 = row
  by_cases habove : row < offset
  · rw [if_pos habove]
    omega
  by_cases hbelow : offset + visible ≤ row
  · rw [if_neg habove, if_pos hbelow]
    omega
  · rw [if_neg habove, if_neg hbelow]
    omega

theorem inView_followCursor (offset : Nat) {visible : Nat} (hvisible : 0 < visible)
    (cursor : Option Nat) :
    InView (followCursor offset visible cursor) visible (cursor.getD 0) := by
  rw [followCursor_eq offset hvisible]
  constructor <;> omega

/-- **The cursor is in view,** and the last page is full. -/
theorem inView_scroll (offset height : Nat) (hrow : cursor.getD 0 < total) :
    InView (scroll offset total height cursor true) (visibleLines height) (cursor.getD 0) :=
  (inView_followCursor offset (visibleLines_pos height) cursor).clampScroll hrow

/-- The offset is settled after one time, whether or not the cursor is followed. -/
theorem scroll_scroll (offset total height : Nat) (cursor : Option Nat) (follow : Bool) :
    scroll (scroll offset total height cursor follow) total height cursor follow
      = scroll offset total height cursor follow := by
  have hvisible := visibleLines_pos height
  cases follow with
  | false =>
    simp only [scroll, clampScroll_eq, Bool.false_eq_true, if_false]
    omega
  | true =>
    simp only [scroll, clampScroll_eq, if_true, followCursor_eq _ hvisible]
    omega

theorem scroll_le (offset total height : Nat) (cursor : Option Nat) (follow : Bool) :
    scroll offset total height cursor follow ≤ total - visibleLines height :=
  clampScroll_le _ _ _

theorem snd_draw {log : Log} (hlog : log ≠ []) (cursor : Option Nat) (focused : Bool)
    (width height offset : Nat) (follow : Bool) :
    (draw log cursor focused width height offset follow).2
      = scroll offset log.length height cursor follow := by
  rw [draw]
  exact congrArg Prod.snd (if_neg (by rwa [List.isEmpty_iff]))

end LogPane

namespace SourcePane

open Pane

variable {s : Scroll} {total line : Nat}

/-- The row to which the current line is pinned. -/
def pinnedRow (s : Scroll) (height : Nat) : Nat :=
  min (s.row.getD (visibleLines height / 2)) (visibleLines height - 1)

theorem offset_update (s : Scroll) (height : Nat) (hline : 0 < line ∧ line ≤ total) :
    (s.update total height (some line)).offset
      = clampScroll (line - 1 - pinnedRow s height) total (visibleLines height) := by
  rw [Scroll.update]
  exact if_pos (by simp [hline])

/-- A line that the text does not have changes nothing. -/
theorem offset_update_of_not (s : Scroll) (height : Nat) (hline : ¬(0 < line ∧ line ≤ total)) :
    (s.update total height (some line)).offset = s.offset := by
  rw [Scroll.update]
  exact if_neg (by simpa using hline)

/-- **The current line is in view.** -/
theorem inView_update (s : Scroll) (height : Nat) (hline : 0 < line ∧ line ≤ total) :
    InView (s.update total height (some line)).offset (visibleLines height) (line - 1) := by
  rw [offset_update s height hline]
  refine InView.clampScroll ?_ (by omega)
  have hrow : pinnedRow s height ≤ visibleLines height - 1 := Nat.min_le_right _ _
  have hvisible := visibleLines_pos height
  constructor <;> omega

/-- The scroll position is settled after one time. -/
theorem update_update (s : Scroll) (total height : Nat) (current : Option Nat) :
    (s.update total height current).update total height current
      = s.update total height current := by
  have hrow : pinnedRow (s.update total height current) height = pinnedRow s height :=
    Nat.min_eq_left (Nat.min_le_right _ _)
  have hoffset : ((s.update total height current).update total height current).offset
      = (s.update total height current).offset := by
    cases current with
    | none => rfl
    | some line =>
      by_cases hline : 0 < line ∧ line ≤ total
      · rw [offset_update _ height hline, offset_update s height hline, hrow]
      · exact offset_update_of_not _ height hline
  calc (s.update total height current).update total height current
      = ⟨((s.update total height current).update total height current).offset,
          some (pinnedRow (s.update total height current) height)⟩ := rfl
    _ = s.update total height current := by rw [hoffset, hrow]; rfl

theorem snd_draw {source : String} (hsource : source.isEmpty = false) (current : Option Nat)
    (isFault focused : Bool) (width height : Nat) (s : Scroll) :
    (draw source current isFault focused width height s).2
      = s.update (Text.lines source).length height current := by
  rw [draw]
  exact congrArg Prod.snd (if_neg (by simp [hsource]))

end SourcePane

namespace Pane

/-- **The current position is in view.**  After drawing the log pane so that it follows the cursor,
the row of the cursor is on the page, which does not go beyond the last full one; after drawing the
source pane the same holds of the current line; and drawing either pane again changes nothing
more. -/
theorem position_in_view (focused : Bool) (width height : Nat) :
    (∀ (log : Log) (cursor : Option Nat) (offset : Nat), log ≠ [] → (∀ k ∈ cursor, k < log.length) →
      let drawn := (LogPane.draw log cursor focused width height offset true).2
      InView drawn (visibleLines height) (cursor.getD 0) ∧
        drawn ≤ log.length - visibleLines height) ∧
    (∀ (source : String) (line : Nat) (isFault : Bool) (s : SourcePane.Scroll), 0 < line →
      line ≤ (Text.lines source).length →
      let drawn := (SourcePane.draw source (some line) isFault focused width height s).2
      InView drawn.offset (visibleLines height) (line - 1) ∧
        drawn.offset ≤ (Text.lines source).length - visibleLines height) ∧
    (∀ (log : Log) (cursor : Option Nat) (offset : Nat) (follow : Bool),
      let drawn := (LogPane.draw log cursor focused width height offset follow).2
      (LogPane.draw log cursor focused width height drawn follow).2 = drawn) ∧
    (∀ (source : String) (current : Option Nat) (isFault : Bool) (s : SourcePane.Scroll),
      let drawn := (SourcePane.draw source current isFault focused width height s).2
      (SourcePane.draw source current isFault focused width height drawn).2 = drawn) := by
  refine ⟨fun log cursor offset hlog hcursor => ?_, fun source line isFault s hpos hle => ?_,
    fun log cursor offset follow => ?_, fun source current isFault s => ?_⟩
  · have hrow : cursor.getD 0 < log.length := by
      cases cursor with
      | none => exact List.length_pos_iff.2 hlog
      | some k => exact hcursor k rfl
    intro drawn
    rw [show drawn = _ from LogPane.snd_draw hlog cursor focused width height offset true]
    exact ⟨LogPane.inView_scroll offset height hrow, LogPane.scroll_le offset _ height cursor true⟩
  · have hsource : source.isEmpty = false := by
      refine eq_false_of_ne_true fun hempty => ?_
      rw [String.isEmpty_iff.1 hempty] at hle
      exact absurd hle (Nat.not_le.2 hpos)
    intro drawn
    rw [show drawn = _ from
      SourcePane.snd_draw hsource (some line) isFault focused width height s]
    refine ⟨SourcePane.inView_update s height ⟨hpos, hle⟩, ?_⟩
    rw [SourcePane.offset_update s height ⟨hpos, hle⟩]
    exact clampScroll_le _ _ _
  · by_cases hlog : log = []
    · rw [hlog]
      rfl
    · dsimp only
      rw [LogPane.snd_draw hlog, LogPane.snd_draw hlog]
      exact LogPane.scroll_scroll offset _ height cursor follow
  · cases hsource : source.isEmpty with
    | true =>
      rw [String.isEmpty_iff.1 hsource]
      rfl
    | false =>
      dsimp only
      rw [SourcePane.snd_draw hsource, SourcePane.snd_draw hsource]
      exact SourcePane.update_update s _ height current

/-- Five commands in a pane of two lines, and the second line of a text in a pane of one line; both
were scrolled too far. -/
theorem position_in_view_tiny :
    let log : Log := List.replicate 5 { action := .pop, target := .stack, name := "s" }
    let drawnLog := (LogPane.draw log (some 2) false 20 4 9 true).2
    let drawnSource := (SourcePane.draw "a\nb\nc" (some 2) false false 20 3 ⟨8, some 7⟩).2
    log ≠ [] ∧ (∀ k ∈ some 2, k < log.length) ∧ InView drawnLog (visibleLines 4) 2 ∧ drawnLog = 2 ∧
      2 ≤ (Text.lines "a\nb\nc").length ∧ InView drawnSource.offset (visibleLines 3) (2 - 1) ∧
      drawnSource = ⟨1, some 0⟩ := by
  intro log drawnLog drawnSource
  have hlog : log ≠ [] := by decide
  have hcursor : ∀ k ∈ some 2, k < log.length := by decide
  have hline : 2 ≤ (Text.lines "a\nb\nc").length := by decide
  have hviewLog := ((position_in_view false 20 4).1 log (some 2) 9 hlog hcursor).1
  have hviewSource :=
    ((position_in_view false 20 3).2.1 "a\nb\nc" 2 false ⟨8, some 7⟩ (by decide) hline).1
  exact ⟨hlog, hcursor, hviewLog, by decide +kernel, hline, hviewSource, by decide +kernel⟩

end Pane

end Stepwise
