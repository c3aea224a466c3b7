import Stepwise.Wire.Reader
import Stepwise.Wire.Writer

/-!
# Texts are read back

A written text reads back as itself, whatever its characters and whatever follows its closing mark.
Each character is read back from its own escape (`Wire.Reader.textBody_escapeChar`), so nothing
depends on what stands before it.

* `Wire.Reader.string_text` reads a text back, `Wire.Reader.choice_text` a name that is written as
  one.
* `Wire.Reader.bind_of_ok` is the rule by which readers are followed step by step.
-/

set_option autoImplicit false

namespace Stepwise.Wire.Reader

variable {α β : Type}

/-! ## Steps -/

theorem bind_of_ok {m : Reader α} {a : α} {cs rest : List Char} (h : m cs = .ok (a, rest))
    (f : α → Reader β) : (m >>= f) cs = f a rest := by
  change (m cs >>= fun p => f p.1 p.2) = f a rest
  rw [h]
  rfl

theorem peekToken_of_not_blank {c : Char} (hc : isBlank c = false) (cs : List Char) :
    peekToken (c :: cs) = .ok (some c, c :: cs) := by
  change Except.ok (((c :: cs).dropWhile isBlank).head?, (c :: cs).dropWhile isBlank) = _
  rw [List.dropWhile_cons_of_neg (by simp [hc])]
  rfl

/-! ## Escapes -/

theorem hexDigit?_digitChar : ∀ {n : Nat}, n < 16 → hexDigit? (Nat.digitChar n) = some n := by
  decide

/-- Two hexadecimal digits after two zeros spell a unit below 256. -/
theorem unit_digitChar {a b : Nat} (ha : a < 16) (hb : b < 16) (cs : List Char) :
    unit ('0' :: '0' :: Nat.digitChar a :: Nat.digitChar b :: cs) = .ok (16 * a + b) := by
  have hdigits : ['0', '0', Nat.digitChar a, Nat.digitChar b].mapM hexDigit?
      = some [0, 0, a, b] := by
    simp [hexDigit?_digitChar ha, hexDigit?_digitChar hb,
      show hexDigit? '0' = some 0 from rfl]
  have htake : ('0' :: '0' :: Nat.digitChar a :: Nat.digitChar b :: cs).take 4
      = ['0', '0', Nat.digitChar a, Nat.digitChar b] := rfl
  rw [unit, htake, hdigits]
  simp

/-- A control character is read back from its number. -/
theorem escape_control {c : Char} (hc : c.toNat < 0x20) (cs : List Char) :
    escape ('u' :: '0' :: '0' :: Nat.digitChar (c.toNat / 16) :: Nat.digitChar (c.toNat % 16) :: cs)
      = .ok (c, 5) := by
  have hunit := unit_digitChar (a := c.toNat / 16) (b := c.toNat % 16) (by omega) (by omega) cs
  rw [Nat.div_add_mod] at hunit
  have hlow : isLowSurrogate c.toNat = false := by
    simp [isLowSurrogate]
    omega
  have hhigh : isHighSurrogate c.toNat = false := by
    simp [isHighSurrogate]
    omega
  have hnumbered : numbered ('0' :: '0' :: Nat.digitChar (c.toNat / 16) ::
      Nat.digitChar (c.toNat % 16) :: cs) = .ok (c, 4) := by
    rw [numbered, hunit]
    simp [hlow, hhigh, Char.ofNat_toNat, Bind.bind, Except.bind, Pure.pure, Except.pure]
  rw [escape, hnumbered]
  rfl

/-- **A character is read back from its escape.** -/
theorem textBody_escapeChar (c : Char) (cs : List Char) :
    textBody 0 (escapeChar c ++ cs) = (do
      let (body, rest) ← textBody 0 cs
      return (c :: body, rest)) := by
  unfold escapeChar
  -- quotation mark, backslash and the control characters that have a letter
  iterate 7
    split
    next h =>
      subst h
      rfl
  split
  next hcontrol =>
    simp only [List.cons_append, List.nil_append]
    rw [textBody, if_neg (by decide), if_pos rfl, escape_control hcontrol]
    rfl
  next hquote hslash _ _ _ _ _ hplain =>
    rw [List.singleton_append, textBody, if_neg hquote, if_neg hslash, if_neg hplain]

theorem textBody_escaped (cs rest : List Char) :
    textBody 0 (cs.flatMap escapeChar ++ '"' :: rest) = .ok (cs, rest) := by
  induction cs with
  | nil => rfl
  | cons c cs ih =>
    rw [List.flatMap_cons, List.append_assoc, textBody_escapeChar, ih]
    rfl

/-! ## Texts -/

theorem textRest_escaped (s : String) (rest : List Char) :
    textRest (s.toList.flatMap escapeChar ++ '"' :: rest) = .ok (s, rest) := by
  change (textBody 0 _ >>= fun p => pure (String.ofList p.1, p.2)) = Except.ok (s, rest)
  rw [textBody_escaped]
  change Except.ok (String.ofList s.toList, rest) = .ok (s, rest)
  rw [String.ofList_toList]

theorem toList_text (s : String) (rest : List Char) :
    (text s).toList ++ rest = '"' :: (s.toList.flatMap escapeChar ++ '"' :: rest) := by
  simp [text]

/-- **A text is read back.** -/
theorem string_text (s : String) (rest : List Char) :
    string ((text s).toList ++ rest) = .ok (s, rest) := by
  rw [toList_text]
  exact textRest_escaped s rest

/-- A name is read back if it stands for what was written. -/
theorem choice_text {ofLabel? : String → Option α} {label : String} {a : α}
    (h : ofLabel? label = some a) (rest : List Char) :
    choice ofLabel? ((text label).toList ++ rest) = .ok (a, rest) := by
  rw [toList_text]
  have hname : named ofLabel? label rest = .ok (a, rest) := by
    rw [named, h]
    rfl
  exact (bind_of_ok (textRest_escaped label rest) (named ofLabel?)).trans hname

end Stepwise.Wire.Reader
