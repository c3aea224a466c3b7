import Stepwise.Program.Expression

/-!
# What a parser yields

`Parser.Yields P p` says that whatever the parser `p` yields satisfies `P`, from wherever it starts.
It says nothing of failures, nor of how much is read.  The rules of this file follow the way parsers
are put together, so that a fact about the trees that a parser builds is proved by walking along its
text: `yields_bind` where an earlier result matters, `yields_after` where it does not.

What is built from a flat sequence of operands and operators is no parser of its own:
`Chain.holds_tree` passes from the operands to their tree.
-/

set_option autoImplicit false

namespace Stepwise

namespace Parser

variable {α β : Type} {P : α → Prop} {Q : β → Prop}

/-- Whatever the parser yields satisfies `P`. -/
def Yields (P : α → Prop) (p : Parser α) : Prop :=
  ∀ s a s', p s = .ok a s' → P a

theorem bind_eq_ok {p : Parser β} {f : β → Parser α} {s s'' : Stream} {a : α}
    (h : (p >>= f) s = .ok a s'') : ∃ b s', p s = .ok b s' ∧ f b s' = .ok a s'' := by
  simp only [bind, EStateM.bind] at h
  split at h
  · next b s' hp => exact ⟨b, s', hp, h⟩
  · cases h

theorem yields_pure {a : α} (h : P a) : Yields P (pure a) := by
  intro s b s' hb
  cases hb
  exact h

theorem yields_bind {p : Parser β} {f : β → Parser α} (hp : Yields Q p)
    (hf : ∀ b, Q b → Yields P (f b)) : Yields P (p >>= f) := by
  intro s a s'' h
  obtain ⟨b, s', hb, ha⟩ := bind_eq_ok h
  exact hf b (hp s b s' hb) s' a s'' ha

theorem yields_after {p : Parser β} {f : β → Parser α} (hf : ∀ b, Yields P (f b)) :
    Yields P (p >>= f) :=
  yields_bind (Q := fun _ => True) (fun _ _ _ _ => trivial) fun b _ => hf b

theorem Yields.imp {p : Parser α} {P' : α → Prop} (h : Yields P p) (hP : ∀ a, P a → P' a) :
    Yields P' p :=
  fun s a s' hs => hP a (h s a s' hs)

theorem Yields.and {p : Parser α} {P' : α → Prop} (h : Yields P p) (h' : Yields P' p) :
    Yields (fun a => P a ∧ P' a) p :=
  fun s a s' hs => ⟨h s a s' hs, h' s a s' hs⟩

theorem yields_throw (e : ParseError) : Yields P (throw e) := by
  intro s a s' h
  cases h

theorem yields_failHere (message : String) : Yields P (failHere message) :=
  yields_after fun _ => yields_throw _

theorem yields_commaItems {item : Parser α} (h : Yields P item) :
    ∀ fuel, Yields (fun items => ∀ a ∈ items, P a) (commaItems item fuel)
  | 0 => yields_pure fun _ ha => by cases ha
  | fuel + 1 => by
    rw [commaItems]
    refine yields_bind h fun first hfirst => yields_after fun more => ?_
    split
    · refine yields_bind (yields_commaItems h fuel) fun others hothers => yields_pure ?_
      exact List.forall_mem_cons.2 ⟨hfirst, hothers⟩
    · exact yields_pure (List.forall_mem_cons.2 ⟨hfirst, fun _ ha => by cases ha⟩)

theorem yields_commaList {item : Parser α} (h : Yields P item) :
    Yields (fun items => ∀ a ∈ items, P a) (commaList item) :=
  yields_after fun _ => yields_commaItems h _

end Parser

/-! ## Operators -/

namespace Chain

variable {P : Expr → Prop} (hP : ∀ {op left right}, P left → P right → P (.binary op left right))

include hP

theorem holds_collapse (strength : Nat) :
    ∀ {pending : List (Expr × BinaryOp)} {last : Expr}, (∀ q ∈ pending, P q.1) → P last →
      (∀ q ∈ (collapse strength pending last).1, P q.1) ∧ P (collapse strength pending last).2
  | [], last, hp, hl => ⟨hp, hl⟩
  | (left, op) :: pending, last, hp, hl => by
    rw [List.forall_mem_cons] at hp
    rw [collapse]
    split
    · exact holds_collapse strength hp.2 (hP hp.1 hl)
    · exact ⟨List.forall_mem_cons.2 hp, hl⟩

theorem holds_build :
    ∀ {others : List (BinaryOp × Expr)} {pending : List (Expr × BinaryOp)} {last : Expr},
      (∀ q ∈ pending, P q.1) → P last → (∀ q ∈ others, P q.2) → P (build pending last others)
  | [], pending, last, hp, hl, _ => (holds_collapse hP 0 hp hl).2
  | (op, operand) :: others, pending, last, hp, hl, ho => by
    rw [List.forall_mem_cons] at ho
    obtain ⟨hlower, hleft⟩ := holds_collapse hP op.precedence hp hl
    rw [build]
    exact holds_build (List.forall_mem_cons.2 ⟨hleft, hlower⟩) ho.1 ho.2

/-- What holds of all operands, and of an operation if it holds of both of its operands, holds of
their tree. -/
theorem holds_tree {first : Expr} {others : List (BinaryOp × Expr)} (hf : P first)
    (ho : ∀ q ∈ others, P q.2) : P (tree first others) :=
  holds_build hP nofun hf ho

end Chain

end Stepwise
