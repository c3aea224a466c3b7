import Stepwise.Proofs.Program.Mentions
import Stepwise.Proofs.Program.Trees

/-!
# Markers and loops

In a program that has been read from a source text a marker cites the line whose number it has.
`Stmt.Marked` says that of the markers in a statement, and that there are none among the statements
in the first clause of a `for` loop.  It holds of all that is read from that text
(`Parser.yields_marked`).
-/

set_option autoImplicit false

namespace Stepwise

/-! ## Loops -/

/-- Whether a statement is a loop. -/
def Stmt.isLoop : Stmt → Bool
  | .whileLoop _ _ => true
  | .doWhile _ _ => true
  | .forLoop _ _ _ _ => true
  | _ => false

/-! ## What markers cite -/

mutual

/-- The markers in a statement cite the lines of a text, and the first clause of a `for` loop has
none. -/
def Stmt.Marked (text : Nat → String) : Stmt → Prop
  | .line l => l.text = text l.number
  | .branch _ thenBody => Stmt.AllMarked text thenBody
  | .branchElse _ thenBody elseBody => Stmt.AllMarked text thenBody ∧ Stmt.AllMarked text elseBody
  | .whileLoop _ body => Stmt.AllMarked text body
  | .doWhile body _ => Stmt.AllMarked text body
  | .forLoop init _ _ body => Stmt.allLines init = [] ∧ Stmt.AllMarked text body
  | .block body => Stmt.AllMarked text body
  | _ => True

/-- The same of every one of some statements. -/
def Stmt.AllMarked (text : Nat → String) : List Stmt → Prop
  | [] => True
  | s :: rest => s.Marked text ∧ Stmt.AllMarked text rest

end

namespace Stmt

variable {text : Nat → String}

theorem allMarked_iff {stmts : List Stmt} : AllMarked text stmts ↔ ∀ s ∈ stmts, s.Marked text := by
  induction stmts with
  | nil => exact ⟨fun _ => nofun, fun _ => trivial⟩
  | cons s rest ih => rw [AllMarked, ih, List.forall_mem_cons]

theorem allLines_eq_nil {stmts : List Stmt} (h : ∀ s ∈ stmts, s.lines = []) :
    allLines stmts = [] := by
  induction stmts with
  | nil => rfl
  | cons s rest ih =>
    rw [List.forall_mem_cons] at h
    rw [allLines, h.1, ih h.2, List.append_nil]

mutual

/-- The markers in a statement are those that `Marked` speaks of. -/
theorem text_of_mem_lines {l : SourceLine} : ∀ s : Stmt, s.Marked text → l ∈ s.lines →
    l.text = text l.number
  | .line _, hs, h => by
    rw [List.mem_singleton.1 h]
    exact hs
  | .branch _ thenBody, hs, h => text_of_mem_allLines thenBody hs h
  | .branchElse _ thenBody elseBody, hs, h =>
    (List.mem_append.1 h).elim (text_of_mem_allLines thenBody hs.1)
      (text_of_mem_allLines elseBody hs.2)
  | .whileLoop _ body, hs, h => text_of_mem_allLines body hs h
  | .doWhile body _, hs, h => text_of_mem_allLines body hs h
  | .forLoop init _ _ body, hs, h => by
    rw [lines, hs.1] at h
    exact text_of_mem_allLines body hs.2 h
  | .block body, hs, h => text_of_mem_allLines body hs h
  | .declare _ _, _, h | .construct _ _, _, h | .array _ _ _, _, h | .expr _, _, h
  | .ret _, _, h | .jump _, _, h | .malformed _, _, h => by cases h

theorem text_of_mem_allLines {l : SourceLine} : ∀ stmts : List Stmt, AllMarked text stmts →
    l ∈ allLines stmts → l.text = text l.number
  | [], _, h => by cases h
  | s :: rest, hs, h =>
    (List.mem_append.1 h).elim (text_of_mem_lines s hs.1) (text_of_mem_allLines rest hs.2)

end

end Stmt

/-! ## What is read from a text -/

theorem buildsExpr_any :
    BuildsExpr (fun _ => True) (fun _ => True) (fun _ => True) := by
  constructor <;> intros <;> trivial

/-- Simple statements mark nothing, and the others only what the statements in them do. -/
theorem buildsStmt_marked (text : Nat → String) :
    BuildsStmt (fun l => l.text = text l.number) (fun _ => True) (fun s => s.Marked text)
      (fun s => s.lines = [] ∧ s.Marked text) (fun s => s.Marked text) where
  declare _ := ⟨rfl, trivial⟩
  construct _ _ := ⟨rfl, trivial⟩
  array _ _ := ⟨rfl, trivial⟩
  expr _ := ⟨rfl, trivial⟩
  ret _ := ⟨rfl, trivial⟩
  jump _ := ⟨rfl, trivial⟩
  whole hs := hs.2
  same hs := hs
  branch _ hbody := Stmt.allMarked_iff.2 hbody
  branchElse _ hthen helse := ⟨Stmt.allMarked_iff.2 hthen, Stmt.allMarked_iff.2 helse⟩
  whileLoop _ hbody := Stmt.allMarked_iff.2 hbody
  doWhile hbody _ := Stmt.allMarked_iff.2 hbody
  forLoop hinit _ _ _ hbody :=
    ⟨Stmt.allLines_eq_nil fun s hs => (hinit s hs).1, Stmt.allMarked_iff.2 hbody⟩
  block hbody := Stmt.allMarked_iff.2 hbody
  line hl := hl
  malformed _ := trivial

/-- **Markers cite the lines of the source text,** whatever statement is read. -/
theorem Parser.yields_marked (lineText : Nat → String) (depth : Nat) :
    Yields (fun stmts => ∀ s ∈ stmts, s.Marked lineText) (statement lineText depth) :=
  yields_statement (fun _ => buildsExpr_any) (fun _ => buildsStmt_marked lineText) lineText
    (fun _ => rfl) depth

end Stepwise
