import Stepwise.Program.Statement

/-!
# Where a parser ends

`Parser.Ends s ok err p` says where the parser `p` ends when it starts from the stream `s`: in `ok`
if it yields something and in `err` if it fails.  Where `Parser.Yields` is about the trees that
parsers build, this is about how much they read.

There is a rule for each of the ways in which parsers are put together.  The stream is part of the
statement, so a rule for reading a token has the token's kind as a hypothesis for what comes after.
-/

set_option autoImplicit false

namespace Stepwise

theorem TokenKind.isSymbol_iff {k : TokenKind} {c : Symbol} :
    k.isSymbol c = true ↔ k = .symbol c := by
  cases k <;> simp [isSymbol]

namespace Parser

variable {α β : Type} {s : Stream} {c : Symbol}

/-! ## Single results -/

section Results

variable {ε σ : Type} {e : ε} {x y : σ}

theorem bind_of_ok {p : EStateM ε σ α} {f : α → EStateM ε σ β} {a : α} (h : p x = .ok a y) :
    (p >>= f) x = f a y := by
  simp only [bind, EStateM.bind, h]

theorem bind_of_error {p : EStateM ε σ α} {f : α → EStateM ε σ β} (h : p x = .error e y) :
    (p >>= f) x = .error e y := by
  simp only [bind, EStateM.bind, h]

theorem tryCatch_of_ok {p : EStateM ε σ α} {f : ε → EStateM ε σ α} {a : α} (h : p x = .ok a y) :
    tryCatch p f x = .ok a y := by
  change EStateM.tryCatch p f x = _
  unfold EStateM.tryCatch
  rw [h]

theorem tryCatch_of_error {p : EStateM ε σ α} {f : ε → EStateM ε σ α} (h : p x = .error e y) :
    tryCatch p f x = f e y := by
  change EStateM.tryCatch p f x = _
  unfold EStateM.tryCatch
  rw [h]
  rfl

end Results

theorem get_bind (f : Stream → Parser α) (s : Stream) : (get >>= f) s = f s s := rfl

theorem peek_bind (f : TokenKind → Parser α) (s : Stream) : (peek >>= f) s = f s.kind s := rfl

theorem peekAt_bind (n : Nat) (f : TokenKind → Parser α) (s : Stream) :
    (peekAt n >>= f) s = f (s.kindAt n) s := rfl

theorem advance_bind (f : Unit → Parser α) (s : Stream) : (advance >>= f) s = f () s.advance := rfl

theorem check_bind (f : Bool → Parser α) (s : Stream) :
    (check c >>= f) s = f (s.kind.isSymbol c) s := rfl

theorem identifier_of_kind {name : String} (h : s.kind = .ident name) :
    (identifier : Parser String) s = .ok name s.advance := by
  rw [identifier, peek_bind, h]
  rfl

theorem expect_apply (context : String) (s : Stream) :
    (expect c context : Parser Unit) s
      = if s.kind.isSymbol c = true then .ok () s.advance
        else .error ⟨"Expected " ++ (TokenKind.symbol c).describe ++ " " ++ context ++ ", found "
          ++ s.kind.describe, s.location⟩ s := by
  have hpeek : (expect c context : Parser Unit) s
      = (if s.kind.isSymbol c = true then advance
          else failHere ("Expected " ++ (TokenKind.symbol c).describe ++ " " ++ context
            ++ ", found " ++ s.kind.describe) : Parser Unit) s := rfl
  rw [hpeek]
  split <;> rfl

theorem expect_of_kind {context : String} (h : s.kind = .symbol c) :
    (expect c context : Parser Unit) s = .ok () s.advance := by
  rw [expect_apply, if_pos (TokenKind.isSymbol_iff.2 h)]

theorem accept_apply (s : Stream) :
    (accept c : Parser Bool) s
      = if s.kind.isSymbol c = true then .ok true s.advance else .ok false s := by
  have hcheck : (accept c : Parser Bool) s
      = (if s.kind.isSymbol c = true then advance >>= fun _ => pure true else pure false :
          Parser Bool) s := rfl
  rw [hcheck]
  split <;> rfl

theorem accept_of_kind (h : s.kind = .symbol c) :
    (accept c : Parser Bool) s = .ok true s.advance := by
  rw [accept_apply, if_pos (TokenKind.isSymbol_iff.2 h)]

theorem accept_of_kind_ne (h : s.kind ≠ .symbol c) :
    (accept c : Parser Bool) s = .ok false s := by
  rw [accept_apply, if_neg fun hc => h (TokenKind.isSymbol_iff.1 hc)]

/-- A statement with recovery does not fail. -/
theorem recovered_apply (lineText : Nat → String) (statement : Parser (List Stmt)) (s : Stream) :
    recovered lineText statement s = match statement s with
      | .ok [] s' => .ok [] s'
      | .ok stmts s' => .ok (s.marker lineText :: stmts) s'
      | .error e s' => .ok [s.marker lineText, .malformed e] (s'.synchronize s.length) := by
  rw [recovered, get_bind]
  cases h : statement s with
  | error e s' => exact tryCatch_of_error (bind_of_error h)
  | ok stmts s' =>
    cases stmts with
    | nil => exact tryCatch_of_ok (bind_of_ok h)
    | cons stmt stmts => exact tryCatch_of_ok (bind_of_ok h)

/-! ## Ends -/

/-- From the stream `s`, the parser ends in `ok` if it succeeds and in `err` if it fails. -/
def Ends (s : Stream) (ok : α → Stream → Prop) (err : Stream → Prop) (p : Parser α) : Prop :=
  match p s with
  | .ok a s' => ok a s'
  | .error _ s' => err s'

variable {ok : α → Stream → Prop} {err : Stream → Prop}

theorem ends_pure {a : α} (h : ok a s) : Ends s ok err (pure a) := h

theorem ends_failHere (h : err s) (message : String) : Ends s ok err (failHere message) := h

theorem Ends.bind {p : Parser β} {f : β → Parser α} {ok' : β → Stream → Prop}
    (hp : Ends s ok' err p) (hf : ∀ a s', ok' a s' → Ends s' ok err (f a)) :
    Ends s ok err (p >>= f) := by
  simp only [Ends, Bind.bind, EStateM.bind] at hp ⊢
  cases hs : p s with
  | ok a s' =>
    rw [hs] at hp
    exact hf a s' hp
  | error e s' =>
    rw [hs] at hp
    exact hp

theorem Ends.imp {p : Parser α} {ok' : α → Stream → Prop} {err' : Stream → Prop}
    (hp : Ends s ok err p) (hok : ∀ a s', ok a s' → ok' a s') (herr : ∀ s', err s' → err' s') :
    Ends s ok' err' p := by
  rw [Ends] at hp ⊢
  cases hs : p s with
  | ok a s' =>
    rw [hs] at hp
    exact hok a s' hp
  | error e s' =>
    rw [hs] at hp
    exact herr s' hp

theorem ends_get {f : Stream → Parser α} (h : Ends s ok err (f s)) :
    Ends s ok err (get >>= f) := h

theorem ends_peek {f : TokenKind → Parser α} (h : Ends s ok err (f s.kind)) :
    Ends s ok err (peek >>= f) := h

theorem ends_peekAt {f : TokenKind → Parser α} {n : Nat} (h : Ends s ok err (f (s.kindAt n))) :
    Ends s ok err (peekAt n >>= f) := h

theorem ends_skipWhile {f : Unit → Parser α} {p : TokenKind → Bool}
    (h : Ends { s with rest := s.rest.dropWhile fun t => p t.kind } ok err (f ())) :
    Ends s ok err (skipWhile p >>= f) := h

theorem ends_advance {f : Unit → Parser α} (h : Ends s.advance ok err (f ())) :
    Ends s ok err (advance >>= f) := h

theorem ends_check {f : Bool → Parser α} (ht : s.kind = .symbol c → Ends s ok err (f true))
    (hf : Ends s ok err (f false)) : Ends s ok err (check c >>= f) := by
  have heq : (check c >>= f) s = f (s.kind.isSymbol c) s := rfl
  rw [Ends, heq]
  cases hc : s.kind.isSymbol c with
  | true => exact ht (TokenKind.isSymbol_iff.1 hc)
  | false => exact hf

/-- A check of which the answer does not matter. -/
theorem ends_checked {f : Bool → Parser α} (h : ∀ found, Ends s ok err (f found)) :
    Ends s ok err (check c >>= f) :=
  h (s.kind.isSymbol c)

theorem ends_accept {f : Bool → Parser α}
    (ht : s.kind = .symbol c → Ends s.advance ok err (f true)) (hf : Ends s ok err (f false)) :
    Ends s ok err (accept c >>= f) := by
  by_cases hc : s.kind = .symbol c
  · rw [Ends, bind_of_ok (accept_of_kind hc)]
    exact ht hc
  · rw [Ends, bind_of_ok (accept_of_kind_ne hc)]
    exact hf

/-- What is found by `accept`, in one statement for both answers. -/
theorem ends_found {f : Bool → Parser α}
    (h : ∀ found s', (found = true → s.kind = .symbol c ∧ s' = s.advance) →
      (found = false → s' = s) → Ends s' ok err (f found)) : Ends s ok err (accept c >>= f) :=
  ends_accept (fun hk => h true _ (fun _ => ⟨hk, rfl⟩) nofun) (h false s nofun fun _ => rfl)

theorem ends_ifCheck {p q : Parser α} (hp : s.kind = .symbol c → Ends s ok err p)
    (hq : Ends s ok err q) :
    Ends s ok err (check c >>= fun found => if found = true then p else q) :=
  ends_check (fun hc => by rw [if_pos rfl]; exact hp hc)
    (by rw [if_neg Bool.false_ne_true]; exact hq)

theorem ends_ifAccept {p q : Parser α} (hp : s.kind = .symbol c → Ends s.advance ok err p)
    (hq : Ends s ok err q) :
    Ends s ok err (accept c >>= fun found => if found = true then p else q) :=
  ends_accept (fun hc => by rw [if_pos rfl]; exact hp hc)
    (by rw [if_neg Bool.false_ne_true]; exact hq)

theorem ends_expect {f : Unit → Parser α} {context : String} (h : err s)
    (hf : s.kind = .symbol c → Ends s.advance ok err (f ())) :
    Ends s ok err (expect c context >>= f) := by
  by_cases hc : s.kind.isSymbol c = true
  · have hk := TokenKind.isSymbol_iff.1 hc
    rw [Ends, bind_of_ok (expect_of_kind hk)]
    exact hf hk
  · rw [Ends, bind_of_error ((expect_apply context s).trans (if_neg hc))]
    exact h

theorem ends_identifier {f : String → Parser α} (h : err s)
    (hf : ∀ name, s.kind = .ident name → Ends s.advance ok err (f name)) :
    Ends s ok err (identifier >>= f) := by
  obtain ⟨rest, finish⟩ := s
  cases rest with
  | nil => exact h
  | cons t ts =>
    obtain ⟨kind, location⟩ := t
    cases kind with
    | ident name => exact hf name rfl
    | _ => exact h

end Parser

end Stepwise
