import Stepwise.Text.Quoted
import Stepwise.Token.Lexer

/-!
# Reading quoted texts

A quoted text can be told from whatever follows it: the next character of the text, or its end, can
be read off the characters that stand for it.

* `Text.unquoteChar` reads a character of a quoted text, and `Text.unquoteChar_quoteChar` says that
  it reads back what `Text.quoteChar` writes.
* `Text.quoteChars_append_inj`: quoted texts are separated from what follows them.
-/

set_option autoImplicit false

namespace Stepwise.Text

/-! ## Hexadecimal digits -/

/-- The number that a run of hexadecimal digits spells. -/
def ofHexDigits (digits : List Char) : Nat :=
  digits.foldl (fun n c => 16 * n + Token.hexValue c) 0

theorem hexDigit_digitChar : ∀ n < 16,
    Token.isHexDigit n.digitChar = true ∧ Token.hexValue n.digitChar = n := by
  decide

theorem isHexDigit_toDigits (n : Nat) : ∀ c ∈ Nat.toDigits 16 n, Token.isHexDigit c = true := by
  induction n using Nat.strongRecOn with
  | ind n ih =>
    rw [Nat.toDigits_eq_if (by decide)]
    split
    · next hlt => exact List.forall_mem_singleton.2 (hexDigit_digitChar n hlt).1
    · refine List.forall_mem_append.2 ⟨ih (n / 16) (by omega), ?_⟩
      exact List.forall_mem_singleton.2 (hexDigit_digitChar (n % 16) (by omega)).1

theorem ofHexDigits_toDigits (n : Nat) : ofHexDigits (Nat.toDigits 16 n) = n := by
  induction n using Nat.strongRecOn with
  | ind n ih =>
    rw [Nat.toDigits_eq_if (by decide)]
    split
    · next hlt => exact (Nat.zero_add _).trans (hexDigit_digitChar n hlt).2
    · have hlast := (hexDigit_digitChar (n % 16) (by omega)).2
      have hinit := ih (n / 16) (by omega)
      rw [ofHexDigits] at hinit ⊢
      rw [List.foldl_append, hinit, List.foldl_cons, List.foldl_nil, hlast]
      omega

/-! ## Characters -/

/-- A character of a text in double quotation marks, and what follows it. -/
def unquoteChar : List Char → Option (Char × List Char)
  | '\\' :: '0' :: cs => some ('\x00', cs)
  | '\\' :: 't' :: cs => some ('\t', cs)
  | '\\' :: 'r' :: cs => some ('\r', cs)
  | '\\' :: 'n' :: cs => some ('\n', cs)
  | '\\' :: 'u' :: '\x7b' :: cs =>
    some (Char.ofNat (ofHexDigits (cs.takeWhile Token.isHexDigit)),
      (cs.dropWhile Token.isHexDigit).tail)
  | '\\' :: c :: cs => some (c, cs)
  | c :: cs => some (c, cs)
  | [] => none

/-- **A quoted character is read back.** -/
theorem unquoteChar_quoteChar (c : Char) (rest : List Char) :
    unquoteChar (quoteChar '"' c ++ rest) = some (c, rest) := by
  rw [quoteChar]
  split
  · next h => rw [h]; rfl
  split
  · next h => rw [h]; rfl
  split
  · next h => rw [h]; rfl
  split
  · next h => rw [h]; rfl
  split
  · next h =>
    rcases Bool.or_eq_true_iff.1 h with h | h <;> rw [of_decide_eq_true h] <;> rfl
  · next h =>
    have hplain : c ≠ '\\' := fun hc => h (by rw [hc]; rfl)
    split
    · rw [List.singleton_append, unquoteChar]
      all_goals simp_all
    · have htake : (Nat.toDigits 16 c.toNat ++ ('\x7d' :: rest)).takeWhile Token.isHexDigit
          = Nat.toDigits 16 c.toNat := by
        rw [List.takeWhile_append_of_pos (isHexDigit_toDigits _)]
        exact List.append_nil _
      have hdrop : (Nat.toDigits 16 c.toNat ++ ('\x7d' :: rest)).dropWhile Token.isHexDigit
          = '\x7d' :: rest := by
        rw [List.dropWhile_append_of_pos (isHexDigit_toDigits _)]
        rfl
      have hshape : ('\\' :: 'u' :: '\x7b' :: Nat.toDigits 16 c.toNat ++ ['\x7d']) ++ rest
          = '\\' :: 'u' :: '\x7b' :: (Nat.toDigits 16 c.toNat ++ ('\x7d' :: rest)) := by
        simp
      rw [hshape, unquoteChar, htake, hdrop, ofHexDigits_toDigits, Char.ofNat_toNat]
      rfl

/-- No quoted character looks like the quotation mark. -/
theorem quoteChar_append_ne (c : Char) (rest tail : List Char) :
    quoteChar '"' c ++ rest ≠ '"' :: tail := by
  intro h
  have hread := unquoteChar_quoteChar c rest
  rw [h] at hread
  -- the mark would be the character itself, which is written after a backslash
  obtain ⟨rfl, -⟩ := Prod.mk.inj (Option.some.inj hread)
  exact absurd (List.cons.inj h).1 (by decide)

/-! ## Texts -/

variable {rest tail : List Char}

theorem flatMap_quoteChar_inj : ∀ {cs ds : List Char},
    cs.flatMap (quoteChar '"') ++ '"' :: rest = ds.flatMap (quoteChar '"') ++ '"' :: tail →
      cs = ds ∧ rest = tail
  | [], [], h => ⟨rfl, (List.cons.inj h).2⟩
  | [], d :: ds, h => by
    rw [List.flatMap_cons, List.append_assoc] at h
    exact absurd h.symm (quoteChar_append_ne d _ _)
  | c :: cs, [], h => by
    rw [List.flatMap_cons, List.append_assoc] at h
    exact absurd h (quoteChar_append_ne c _ _)
  | c :: cs, d :: ds, h => by
    rw [List.flatMap_cons, List.append_assoc, List.flatMap_cons, List.append_assoc] at h
    have hread := congrArg unquoteChar h
    rw [unquoteChar_quoteChar, unquoteChar_quoteChar] at hread
    obtain ⟨rfl, hrest⟩ := Prod.mk.inj (Option.some.inj hread)
    obtain ⟨rfl, hend⟩ := flatMap_quoteChar_inj hrest
    exact ⟨rfl, hend⟩

/-- **Quoted texts are separated from what follows them.** -/
theorem quoted_append_inj {s t : String}
    (h : (quoted s).toList ++ rest = (quoted t).toList ++ tail) : s = t ∧ rest = tail := by
  rw [quoted, quoted, String.toList_ofList, String.toList_ofList, quoteChars, quoteChars,
    List.cons_append, List.cons_append, List.append_assoc, List.append_assoc] at h
  obtain ⟨hcs, hrest⟩ := flatMap_quoteChar_inj (List.cons.inj h).2
  exact ⟨String.toList_inj.1 hcs, hrest⟩

end Stepwise.Text
