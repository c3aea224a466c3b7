import Stepwise.Proofs.Listing.Grouping
import Stepwise.Proofs.Listing.Lowered

/-!
# Which expressions a listing tells apart

Parentheses are listed around operations and choices, whatever they stand in, and around nothing
else.  A reader groups signs, steps, members and assignments by how strongly they bind, and some of
them were grouped by parentheses that are not listed.

* `Expr.listing_unambiguous`: expressions that are read from source texts are listed alike if and
  only if a reader groups them alike.  So if they are grouped as they are listed, their text
  determines them.
* `Expr.listing_ambiguous`: otherwise it does not.
-/

set_option autoImplicit false

namespace Stepwise.Expr

/-- **The text of an expression determines how it is grouped by a reader,** and so it determines the
expression if a reader leaves it as it is. -/
theorem listing_unambiguous {e e' : Expr} (h : e.Lowered) (h' : e'.Lowered) :
    (e.text = e'.text ↔ e.regroup = e'.regroup) ∧
      (e.isWellGrouped = true → e'.isWellGrouped = true → e.text = e'.text → e = e') := by
  have hiff := text_eq_iff h.legible h'.legible
  refine ⟨hiff, fun hgroup hgroup' htext => ?_⟩
  rw [← regroup_eq hgroup, ← regroup_eq hgroup', hiff.1 htext]

/-! ## Single expressions -/

theorem lowered_of_expression (source : String) (depth : Nat) {e : Expr} {s' : Stream}
    (h : (Parser.inner depth).expression (Stream.ofTokens (Token.tokenize source)) = .ok e s') :
    e.Lowered :=
  ⟨source, depth, _, s', List.suffix_rfl, h⟩

/-- `a` less the negation of `b`. -/
def lessNegation : Expr := binary .sub (var "a") (unary .neg (var "b"))

/-- `a` less the decrement of `b`. -/
def lessDecrement : Expr := binary .sub (var "a") (step .preDec (var "b"))

theorem listing_unambiguous_differences :
    lessNegation.Lowered ∧ lessDecrement.Lowered ∧ lessNegation.isWellGrouped = true ∧
      lessDecrement.isWellGrouped = true ∧ lessNegation.text ≠ lessDecrement.text := by
  have h : lessNegation.Lowered := lowered_of_expression "a - -b" 2 rfl
  have h' : lessDecrement.Lowered := lowered_of_expression "a - --b" 2 rfl
  refine ⟨h, h', rfl, rfl, fun htext => ?_⟩
  cases (listing_unambiguous h h').2 rfl rfl htext

/-- Both expressions are read from source texts, and they are listed alike. -/
structure Confused (e e' : Expr) : Prop where
  left : e.Lowered
  right : e'.Lowered
  text_eq : e.text = e'.text
  ne : e ≠ e'

/-- **What a listing does not tell apart:** two signs and a decrement, a member of what is negated
and what is a member negated, an assignment to an assignment and one of an assignment, a null
pointer and a variable of that name. -/
theorem listing_ambiguous :
    Confused (unary .neg (unary .neg (var "x"))) (step .preDec (var "x")) ∧
      Confused (member (unary .neg (var "x")) "y") (unary .neg (member (var "x") "y")) ∧
      Confused (assign (assign (var "a") (var "b")) (var "c"))
        (assign (var "a") (assign (var "b") (var "c"))) ∧
      Confused (literal .null) (var "null") :=
  ⟨⟨lowered_of_expression "-(-x)" 4 rfl, lowered_of_expression "--x" 2 rfl, rfl, nofun⟩,
    ⟨lowered_of_expression "(-x).y" 3 rfl, lowered_of_expression "-x.y" 2 rfl, rfl, nofun⟩,
    ⟨lowered_of_expression "(a = b) = c" 3 rfl, lowered_of_expression "a = b = c" 3 rfl, rfl,
      nofun⟩,
    ⟨lowered_of_expression "nullptr" 1 rfl, lowered_of_expression "null" 1 rfl, rfl, nofun⟩⟩

end Stepwise.Expr
