import Stepwise.Program.Source
import Stepwise.Proofs.Token.Locations

/-!
# Positions in a token list

A text has one end token, and it is the last one.  A stream keeps the tokens before it, so what is
left of a stream of tokens stands for a position in the list, and looking at a token of the stream
is looking it up in the list, where the end token is seen at every position after it.

* `Token.tokenize_eq` says where the end token is.
* `Stream.inRange` says that what is left of the tokens of a text has a position in their list, at
  most that of the end token, and that every token which is looked at is in the list.
-/

set_option autoImplicit false

namespace Stepwise

theorem TokenKind.beq_eof_iff {k : TokenKind} : (k == .eof) = true ↔ k = .eof := by
  cases k with
  | eof => exact iff_of_true rfl rfl
  | _ => exact iff_of_false nofun nofun

namespace Stream

theorem ofTokens_append_eof {ts : List Token} (h : ∀ t ∈ ts, t.kind ≠ .eof) (finish : Location) :
    ofTokens (ts ++ [⟨.eof, finish⟩]) = ⟨ts, finish⟩ := by
  have heof : (TokenKind.eof != .eof) = false := rfl
  have heof' : (TokenKind.eof == .eof) = true := rfl
  have hkinds : ∀ t ∈ ts, ¬ (t.kind == .eof) = true := fun t ht hkind =>
    h t ht (TokenKind.beq_eof_iff.1 hkind)
  have htake : ∀ t ∈ ts, (t.kind != .eof) = true := fun t ht => by
    rw [bne, eq_false_of_ne_true (hkinds t ht), Bool.not_false]
  rw [ofTokens, List.takeWhile_append_of_pos htake, List.find?_append, List.find?_eq_none.2 hkinds]
  simp [heof, heof']

/-- The position of a stream in the list of which its tokens are the last but the end token. -/
def position (tokens : List Token) (s : Stream) : Nat :=
  tokens.length - 1 - s.length

/-- The stream stands in the token list: not after its last token, and the tokens that are seen from
there are tokens of the list, the last one over and over again after it has been reached. -/
structure InRange (tokens : List Token) (s : Stream) : Prop where
  /-- As many tokens are left as are missing to the last position. -/
  position_add_length : s.position tokens + s.length + 1 = tokens.length
  /-- Every token that is looked at is in the list. -/
  kindAt_eq : ∀ n, tokens[min (s.position tokens + n) (tokens.length - 1)]?.map Token.kind
    = some (s.kindAt n)

end Stream

/-- **The end token is the last one, and there is no other.** -/
theorem Token.tokenize_eq (source : String) :
    tokenize source = (Stream.ofTokens (tokenize source)).rest
        ++ [⟨.eof, (Stream.ofTokens (tokenize source)).finish⟩] ∧
      ∀ t ∈ (Stream.ofTokens (tokenize source)).rest, t.kind ≠ .eof := by
  obtain ⟨ts, htokens, hplaced⟩ := exists_placed source
  rw [htokens, Stream.ofTokens_append_eof fun t ht => hplaced.kind_ne ht]
  exact ⟨rfl, fun t ht => hplaced.kind_ne ht⟩

/-- **What is left of the tokens of a text stands in their list.** -/
theorem Stream.inRange {tokens rest : List Token} {finish : Location} {s : Stream}
    (htokens : tokens = rest ++ [⟨.eof, finish⟩]) (hs : s.rest <:+ rest) : s.InRange tokens := by
  obtain ⟨read, rfl⟩ := hs
  have hlength : tokens.length = read.length + s.length + 1 := by
    simp [htokens, Stream.length, Nat.add_assoc]
  have hposition : s.position tokens = read.length := by
    rw [Stream.position]
    omega
  refine ⟨by omega, fun n => ?_⟩
  rw [hposition, Stream.kindAt]
  by_cases hn : n < s.length
  · have hmin : min (read.length + n) (tokens.length - 1) = read.length + n := by omega
    rw [hmin, htokens, List.append_assoc, List.getElem?_append_right (Nat.le_add_right _ _),
      Nat.add_sub_cancel_left, List.getElem?_append_left hn, List.getElem?_eq_getElem hn]
    rfl
  · have hmin : min (read.length + n) (tokens.length - 1) = (read ++ s.rest).length := by
      rw [List.length_append]
      simp only [Stream.length] at hlength hn
      omega
    rw [hmin, htokens, List.getElem?_append_right (Nat.le_refl _), Nat.sub_self,
      List.getElem?_eq_none (Nat.le_of_not_lt hn)]
    rfl

end Stepwise
