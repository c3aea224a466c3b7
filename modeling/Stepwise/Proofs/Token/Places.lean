import Stepwise.Proofs.Text.Lines
import Stepwise.Proofs.Token.Locations

/-!
# Lines of words

A token carries the line on which it starts, and a word does not start with a blank.  So the line of
a word is one of the lines of the text, and it is not blank.

* `Token.isBlank_of_covers`: a blank starts no word.
* `Token.exists_line_of_mem`: a word stands on a line of the text, which is not blank.
-/

set_option autoImplicit false

namespace Stepwise

namespace TokenKind

/-- Whether a token is a word, and not the end of the text nor characters that form no word. -/
def isWord : TokenKind → Bool
  | invalid _ | eof => false
  | _ => true

end TokenKind

namespace Token

/-! ## Blanks -/

/-- Between the blank and the next-line character there is no white space. -/
theorem isBlank_of_toNat {c : Char} (hlow : 0x21 ≤ c.toNat) (hhigh : c.toNat < 0x85) :
    Text.isBlank c = false := by
  have hrange : ∀ n < 0x85, 0x21 ≤ n →
      (Text.blankBounds.countP (fun b => b ≤ n) % 2 == 1) = false := by decide +kernel
  exact hrange c.toNat hhigh hlow

theorem isBlank_of_isDigit {c : Char} (h : c.isDigit = true) : Text.isBlank c = false := by
  have hrange : 48 ≤ c.toNat ∧ c.toNat ≤ 57 := by
    simpa [Char.isDigit, UInt32.le_iff_toNat_le] using h
  exact isBlank_of_toNat (by omega) (by omega)

theorem isBlank_of_isNameStart {c : Char} (h : isNameStart c = true) : Text.isBlank c = false := by
  have hrange : 65 ≤ c.toNat ∧ c.toNat ≤ 122 := by
    rcases isNameStart_iff.1 h with (h | h) | rfl
    · omega
    · omega
    · decide
  exact isBlank_of_toNat (by omega) (by omega)

theorem isBlank_of_isName {name : String} (h : TokenKind.isName name = true) {c : Char}
    {cs : List Char} (hspell : name.toList = c :: cs) : Text.isBlank c = false := by
  rw [TokenKind.isName, hspell] at h
  exact isBlank_of_isNameStart (Bool.and_eq_true_iff.1 h).1

/-- **A blank starts no word.** -/
theorem isBlank_of_covers {k : TokenKind} {c : Char} {cs : List Char} (h : k.Covers (c :: cs))
    (hk : k.isWord = true) : Text.isBlank c = false := by
  generalize hspell : c :: cs = spelling at h
  cases h with
  | int hc
  | float hc => cases hspell; exact isBlank_of_isDigit hc
  | str | char | null => cases hspell; decide +kernel
  | ident h =>
    simp only [TokenKind.isWritable, Bool.and_eq_true] at h
    exact isBlank_of_isName h.1.1 hspell.symm
  | type h =>
    have hnames : ∀ name ∈ scalarTypes, TokenKind.isName name = true := by decide
    exact isBlank_of_isName (hnames _ h) hspell.symm
  | @symbol s => cases s <;> cases hspell <;> decide +kernel
  | invalid => cases hk

/-- **A word stands on a line of the text,** and the line is not blank. -/
theorem exists_line_of_mem {source : String} {t : Token} (ht : t ∈ tokenize source)
    (hk : t.kind.isWord = true) : ∃ n line, t.location.line = n + 1 ∧
      (Text.lines source)[n]? = some line ∧ Text.trim line ≠ "" := by
  obtain ⟨ts, htokens, hplaced⟩ := exists_placed source
  have hmem : t ∈ ts := by
    rw [htokens] at ht
    rcases List.mem_append.1 ht with ht | ht
    · exact ht
    · rw [List.mem_singleton.1 ht] at hk
      cases hk
  obtain ⟨before, c, piece, rest, hsource, hcovers, hlocation⟩ := hplaced.exists_covers hmem
  have hblank := isBlank_of_covers hcovers hk
  have hfeed : c ≠ '\n' := by
    rintro rfl
    revert hblank
    decide +kernel
  have hreturn : c ≠ '\r' := by
    rintro rfl
    revert hblank
    decide +kernel
  obtain ⟨line, hline, hc⟩ := Text.exists_line_of_char hfeed hreturn (piece ++ rest) before
  refine ⟨before.count '\n', String.ofList line, ?_, ?_, ?_⟩
  · rw [hlocation, Location.after, List.nil_append, Nat.add_comm]
  · rw [Text.lines, hsource, List.cons_append, List.getElem?_map, hline]
    rfl
  · exact Text.trim_ne_empty_of_mem (by rwa [String.toList_ofList]) hblank

end Token
end Stepwise
