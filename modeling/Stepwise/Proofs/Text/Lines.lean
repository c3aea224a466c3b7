import Mathlib.Data.List.DropRight
import Stepwise.Text.Lines

/-!
# Where the characters of a text are

A text is cut into lines, lines are trimmed, and a trimmed line is looked for among the lines.  A
character that is neither blank nor a line end survives all three.

* `Text.exists_line_of_char`: a character stands on the line whose number is that of the line feeds
  before it.
* `Text.trim_trim` and `Text.trim_ne_empty_of_mem`: to trim a text again changes nothing, and
  nothing is left only of blanks.
* `Text.locate_trim`: the trimmed text of a line is found, on a line that reads like it.
-/

set_option autoImplicit false

namespace Stepwise.Text

/-! ## Lines -/

/-- A line that is there before a character is put in front of the first one is still there, perhaps
longer. -/
theorem exists_getElem?_consLine (c : Char) {lines : List (List Char)} {n : Nat} {line : List Char}
    (h : lines[n]? = some line) : ∃ line', (consLine c lines)[n]? = some line' ∧ line ⊆ line' := by
  cases lines with
  | nil => cases h
  | cons first rest =>
    cases n with
    | zero =>
      cases h
      exact ⟨c :: line, rfl, List.subset_cons_self c line⟩
    | succ n => exact ⟨line, h, List.Subset.refl line⟩

theorem charLines_cons {c : Char} {cs : List Char} (hc : c ≠ '\n')
    (hcs : c = '\r' → cs.head? ≠ some '\n') : charLines (c :: cs) = consLine c (charLines cs) := by
  rw [charLines]
  · exact hc
  · rintro cs' rfl rfl
    exact hcs rfl rfl

/-- **A character stands on the line that the line feeds before it count,** if it is not part of a
line end itself. -/
theorem exists_line_of_char {c : Char} (hfeed : c ≠ '\n') (hreturn : c ≠ '\r') (after : List Char) :
    ∀ before : List Char, ∃ line,
      (charLines (before ++ c :: after))[before.count '\n']? = some line ∧ c ∈ line
  | [] => by
    rw [List.nil_append, charLines_cons hfeed fun h => absurd h hreturn]
    cases charLines after with
    | nil => exact ⟨[c], rfl, List.mem_singleton_self c⟩
    | cons line rest => exact ⟨c :: line, rfl, List.mem_cons_self⟩
  | d :: before => by
    obtain ⟨line, hline, hc⟩ := exists_line_of_char hfeed hreturn after before
    by_cases hd : d = '\n'
    · subst hd
      rw [List.count_cons_self]
      exact ⟨line, hline, hc⟩
    · rw [List.count_cons_of_ne hd, List.cons_append]
      by_cases hend : d = '\r' ∧ before.head? = some '\n'
      · obtain ⟨rfl, hhead⟩ := hend
        obtain ⟨before, rfl⟩ : ∃ rest, before = '\n' :: rest := by
          cases before with
          | nil => cases hhead
          | cons e rest =>
            cases hhead
            exact ⟨rest, rfl⟩
        -- the line end is two characters long, and only the second is counted
        exact ⟨line, hline, hc⟩
      · have hcons : charLines (d :: (before ++ c :: after))
            = consLine d (charLines (before ++ c :: after)) := by
          refine charLines_cons hd fun hr hhead => ?_
          cases before with
          | nil => exact hfeed (Option.some.inj hhead)
          | cons e rest => exact hend ⟨hr, hhead⟩
        obtain ⟨line', hline', hsub⟩ := exists_getElem?_consLine d hline
        rw [hcons]
        exact ⟨line', hline', hsub hc⟩

/-! ## Trimming -/

theorem trimChars_eq (cs : List Char) :
    trimChars cs = (cs.dropWhile isBlank).rdropWhile isBlank := rfl

theorem trimChars_trimChars (cs : List Char) : trimChars (trimChars cs) = trimChars cs := by
  have hfirst : (trimChars cs).dropWhile isBlank = trimChars cs := by
    rw [List.dropWhile_eq_self_iff]
    intro hlength
    -- what is left starts like the text without its first blanks
    have hle : trimChars cs <+: cs.dropWhile isBlank := List.rdropWhile_prefix isBlank _
    rw [hle.getElem hlength]
    exact List.dropWhile_get_zero_not isBlank cs (Nat.lt_of_lt_of_le hlength hle.length_le)
  rw [trimChars_eq (trimChars cs), hfirst, trimChars_eq, List.rdropWhile_idempotent]

/-- **To trim a text again changes nothing.** -/
theorem trim_trim (s : String) : trim (trim s) = trim s := by
  rw [trim, trim, String.toList_ofList, trimChars_trimChars]

theorem mem_dropWhile_of_not {α : Type} {p : α → Bool} {a : α} {as : List α} (h : a ∈ as)
    (hp : p a = false) : a ∈ as.dropWhile p := by
  rw [← List.takeWhile_append_dropWhile (p := p) (l := as), List.mem_append] at h
  rcases h with htaken | hdropped
  · rw [List.mem_takeWhile_imp htaken] at hp
    cases hp
  · exact hdropped

theorem mem_trimChars {c : Char} {cs : List Char} (h : c ∈ cs) (hc : isBlank c = false) :
    c ∈ trimChars cs := by
  rw [trimChars, List.mem_reverse]
  exact mem_dropWhile_of_not (List.mem_reverse.2 (mem_dropWhile_of_not h hc)) hc

theorem trim_ne_empty_of_mem {c : Char} {s : String} (h : c ∈ s.toList) (hc : isBlank c = false) :
    trim s ≠ "" := by
  intro hempty
  have hmem := mem_trimChars h hc
  have hnil : trimChars s.toList = [] := by
    rw [← String.toList_ofList (l := trimChars s.toList)]
    exact congrArg String.toList hempty
  rw [hnil] at hmem
  cases hmem

/-! ## Looking for a line -/

/-- **A line is found again by its trimmed text,** unless it is blank: perhaps not on the line
itself, but on one that reads like it. -/
theorem locate_trim {source line : String} (h : line ∈ lines source) (hne : trim line ≠ "") :
    ∃ n, locate source (trim line) = some (n + 1) ∧
      (lines source)[n]?.map trim = some (trim line) := by
  have hsome : ((lines source).findIdx? fun other => trim other == trim line).isSome = true := by
    rw [List.findIdx?_isSome, List.any_eq_true]
    exact ⟨line, h, beq_self_eq_true _⟩
  obtain ⟨n, hn⟩ := Option.isSome_iff_exists.1 hsome
  obtain ⟨hlt, heq, -⟩ := List.findIdx?_eq_some_iff_getElem.1 hn
  refine ⟨n, ?_, ?_⟩
  · have hempty : (trim line).isEmpty = false := by
      rw [← Bool.not_eq_true, String.isEmpty_iff]
      exact hne
    rw [locate, trim_trim, if_neg (by rw [hempty]; exact Bool.false_ne_true), hn]
    rfl
  · rw [List.getElem?_eq_getElem hlt, Option.map_some, eq_of_beq heq]

end Stepwise.Text
