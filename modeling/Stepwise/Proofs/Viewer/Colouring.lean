import Stepwise.Proofs.Text.Lines
import Stepwise.Viewer.Highlight

/-!
# Colouring keeps a line

Colouring walks along the characters of a line.  A text is kept as bytes, though, and to cut pieces
out of it is to go by the offsets of the bytes: these are not the indices of the characters, and a
piece exists only if it begins and ends between two characters.  Most at risk is a quoted text that
is never closed, in which a backslash as the last character has nothing behind it to skip.

* `Highlight.text_spans` says that the spans of a line are the line, cut into pieces.
* `Text.slice?` is the piece between two offsets, if there is one.
* `Highlight.cut?` colours a line by indices and offsets, and fails where a piece does not exist.
* `Highlight.line_keeps_text` says that it never fails, and that no character is lost or added.
-/

set_option autoImplicit false

namespace Stepwise

/-! ## The text of the spans -/

/-- The text of a line that is cut into spans. -/
def Line.text (l : Line) : String :=
  String.join (l.map Span.text)

theorem Line.text_cons (s : Span) (l : Line) : Line.text (s :: l) = s.text ++ Line.text l :=
  String.join_cons

theorem Line.text_append (l m : Line) : Line.text (l ++ m) = Line.text l ++ Line.text m := by
  rw [Line.text, List.map_append, String.join_append, Line.text, Line.text]

namespace Highlight

theorem text_wordSpan (word : List Char) (style : Style) :
    Line.text (wordSpan word style) = String.ofList word := by
  cases word with
  | nil => rfl
  | cons c word => exact (Line.text_cons _ _).trans String.append_empty

/-- The characters that belong to the span before are passed over. -/
theorem spans_skip : ∀ (n : Nat) (cs : List Char), n ≤ cs.length →
    spans false [] n cs = spans false [] 0 (cs.drop n)
  | 0, _, _ => rfl
  | n + 1, c :: cs, h => by
    rw [spans, List.drop_succ_cons]
    exact spans_skip n cs (Nat.le_of_succ_le_succ h)

/-- A quoted text does not go beyond the end of the line. -/
theorem quotedLength_le (mark : Char) (cs : List Char) : quotedLength mark cs ≤ cs.length := by
  fun_induction quotedLength mark cs with
  | case1 => exact Nat.le_refl _
  | case2 => exact Nat.le_refl _
  | case3 => simp
  | case4 d cs _ ih => simp only [List.length_cons]; omega
  | case5 c d cs _ _ ih => simp only [List.length_cons] at ih ⊢; omega

/-- **The spans of a line are the line,** behind the word that is not finished. -/
theorem text_spans (blank : Bool) (word : List Char) : ∀ cs : List Char,
    Line.text (spans blank word 0 cs) = String.ofList (word ++ cs)
  | [] => by rw [spans, text_wordSpan, List.append_nil]
  | c :: cs => by
    rw [spans]
    dsimp only
    split
    · -- a comment or a directive
      rw [Line.text_append, text_wordSpan, Line.text_cons, String.ofList_append]
      exact congrArg _ String.append_empty
    split
    · -- a quoted text
      rw [Line.text_append, text_wordSpan, Line.text_cons, spans_skip _ cs (quotedLength_le c cs),
        text_spans false [] (cs.drop _), ← String.ofList_append, ← String.ofList_append,
        List.nil_append, List.cons_append, List.take_append_drop]
    split
    · rw [text_spans _ (word ++ [c]) cs, List.append_assoc, List.singleton_append]
    · rw [Line.text_append, text_wordSpan, Line.text_cons, text_spans _ [] cs, List.nil_append,
        String.singleton_eq_ofList, ← String.ofList_append, ← String.ofList_append,
        List.singleton_append]
termination_by cs => cs.length
decreasing_by
  all_goals
    simp only [List.length_drop, List.length_cons]
    omega

end Highlight

/-! ## Pieces of a text -/

namespace Text

/-- The piece of a text between two offsets of bytes.  There is none unless both lie between two
characters or at an end of the text, the first not behind the second. -/
def slice? (s : String) (i j : Nat) : Option String := do
  let first ← s.pos? ⟨i⟩
  let last ← s.pos? ⟨j⟩
  (s.slice? first last).map String.Slice.copy

/-- The number of bytes of some characters. -/
def byteSize (cs : List Char) : Nat :=
  (String.ofList cs).utf8ByteSize

/-- Characters with the offsets of their first bytes, from `offset` on. -/
def offsets (offset : Nat) : List Char → List (Nat × Char)
  | [] => []
  | c :: cs => (offset, c) :: offsets (offset + c.utf8Size) cs

theorem exists_pos? {s front rest : String} (h : s = front ++ rest) :
    ∃ p : s.Pos, s.pos? ⟨front.utf8ByteSize⟩ = some p ∧ p.Splits front rest := by
  have hvalid : (⟨front.utf8ByteSize⟩ : String.Pos.Raw).IsValid s :=
    String.Pos.Raw.isValid_iff_exists_append.2 ⟨front, rest, h, rfl⟩
  refine ⟨s.pos _ hvalid, ?_, h, rfl⟩
  rw [String.pos?, String.Slice.pos?,
    dif_pos (String.Pos.Raw.isValidForSlice_eq_true_iff.2 hvalid.toSlice)]
  rfl

/-- **There is a piece wherever a text can be taken apart.** -/
theorem slice?_append {s front piece rest : String} (h : s = front ++ (piece ++ rest)) :
    slice? s front.utf8ByteSize (front ++ piece).utf8ByteSize = some piece := by
  obtain ⟨first, hfirst, hsplit⟩ := exists_pos? h
  obtain ⟨last, hlast, hsplit'⟩ := exists_pos? (h.trans String.append_assoc.symm)
  obtain ⟨hle, hcopy⟩ := String.copy_slice_eq_iff_splits.2 ⟨front, rest, hsplit, hsplit'⟩
  rw [slice?, hfirst, hlast]
  change (s.slice? first last).map String.Slice.copy = some piece
  rw [String.slice?, dif_pos hle, Option.map_some, hcopy]

theorem byteSize_cons (c : Char) (cs : List Char) :
    byteSize (c :: cs) = c.utf8Size + byteSize cs := by
  rw [byteSize, ← List.singleton_append, String.ofList_append, String.utf8ByteSize_append,
    ← String.singleton_eq_ofList, String.utf8ByteSize_singleton, byteSize]

theorem length_offsets (cs : List Char) (offset : Nat) :
    (offsets offset cs).length = cs.length := by
  induction cs generalizing offset with
  | nil => rfl
  | cons c cs ih => rw [offsets, List.length_cons, ih, List.length_cons]

/-- The index and the offset of a character are told by the characters before it. -/
theorem getElem?_offsets (front rest : List Char) (offset : Nat) :
    (offsets offset (front ++ rest))[front.length]?
      = rest.head?.map fun c => (offset + byteSize front, c) := by
  induction front generalizing offset with
  | nil => cases rest <;> rfl
  | cons d front ih =>
    rw [List.cons_append, offsets, List.length_cons, List.getElem?_cons_succ, ih, byteSize_cons,
      Nat.add_assoc]

/-- A piece by its characters and those around it. -/
theorem slice?_toList {s : String} {front piece rest : List Char}
    (h : s.toList = front ++ (piece ++ rest)) :
    slice? s (byteSize front) (byteSize (front ++ piece)) = some (String.ofList piece) := by
  have hs : s = String.ofList front ++ (String.ofList piece ++ String.ofList rest) := by
    rw [← String.ofList_append, ← String.ofList_append, ← h, String.ofList_toList]
  rw [byteSize, byteSize, String.ofList_append]
  exact slice?_append hs

theorem byteSize_toList (s : String) : byteSize s.toList = s.utf8ByteSize := by
  rw [byteSize, String.ofList_toList]

/-- Where the characters behind `front` begin, or the text ends. -/
theorem offset_of_append {s : String} {front rest : List Char} (h : s.toList = front ++ rest) :
    ((offsets 0 s.toList)[front.length]?.map Prod.fst).getD s.utf8ByteSize = byteSize front := by
  rw [h, getElem?_offsets, Option.map_map]
  cases rest with
  | nil => rw [← byteSize_toList, h, List.append_nil]; rfl
  | cons c rest => exact Nat.zero_add _

theorem head?_of_append {s : String} {front rest : List Char} (h : s.toList = front ++ rest) :
    (offsets 0 s.toList)[front.length]?.map Prod.snd = rest.head? := by
  rw [h, getElem?_offsets, Option.map_map]
  cases rest <;> rfl

theorem isEmpty_trim (cs : List Char) : (trim (String.ofList cs)).isEmpty = cs.all isBlank := by
  rw [Bool.eq_iff_iff, String.isEmpty_iff, List.all_eq_true]
  constructor
  · intro htrim c hc
    by_contra hblank
    exact trim_ne_empty_of_mem (by rwa [String.toList_ofList]) (eq_false_of_ne_true hblank) htrim
  · intro hblank
    rw [trim, String.toList_ofList, trimChars, List.dropWhile_eq_nil_iff.2 hblank]
    rfl

end Text

namespace Highlight

/-- The index of the mark that closes a quoted text, looked for from `e` on.  It is no index of the
characters if nothing closes the text. -/
def closing (chars : List (Nat × Char)) (mark : Char) (e : Nat) : Nat :=
  match h : chars[e]? with
  | none => e
  | some (_, c) => if c = mark then e else closing chars mark (e + if c = '\\' then 2 else 1)
termination_by chars.length - e
decreasing_by
  have he := (List.getElem?_eq_some_iff.1 h).1
  split <;> omega

theorem le_closing (chars : List (Nat × Char)) (mark : Char) (e : Nat) :
    e ≤ closing chars mark e := by
  fun_induction closing chars mark e with
  | case1 => exact Nat.le_refl _
  | case2 => exact Nat.le_refl _
  | case3 e _ c _ _ ih => exact Nat.le_trans (Nat.le_add_right _ _) ih

theorem closing_cons (mark c : Char) (front cs : List Char) :
    closing (Text.offsets 0 (front ++ c :: cs)) mark front.length
      = if c = mark then front.length
        else closing (Text.offsets 0 (front ++ c :: cs)) mark
          (front.length + if c = '\\' then 2 else 1) := by
  have hget := Text.getElem?_offsets front (c :: cs) 0
  rw [closing]
  split
  · rename_i hnone
    rw [hget] at hnone
    cases hnone
  · rename_i hsome
    rw [hget] at hsome
    cases hsome
    rfl

/-- A quoted text ends with its closing mark, or with the line. -/
theorem closing_offsets (mark : Char) (cs front : List Char) :
    min (closing (Text.offsets 0 (front ++ cs)) mark front.length + 1) (front ++ cs).length
      = front.length + quotedLength mark cs := by
  fun_induction quotedLength mark cs generalizing front with
  | case1 =>
    have hle := le_closing (Text.offsets 0 (front ++ [])) mark front.length
    rw [List.append_nil] at hle ⊢
    omega
  | case2 c =>
    have hle := le_closing (Text.offsets 0 (front ++ [c])) mark front.length
    rw [List.length_append, List.length_singleton]
    omega
  | case3 d cs =>
    rw [closing_cons, if_pos rfl, List.length_append, List.length_cons]
    omega
  | case4 d cs hmark ih =>
    have hlater := ih (front ++ ['\\', d])
    have hlength : (front ++ ['\\', d]).length = front.length + 2 := List.length_append
    rw [List.append_assoc, hlength] at hlater
    rw [closing_cons, if_neg hmark, if_pos rfl, ← Nat.add_assoc]
    exact hlater
  | case5 c d cs hmark hslash ih =>
    have hlater := ih (front ++ [c])
    have hlength : (front ++ [c]).length = front.length + 1 := List.length_append
    rw [List.append_assoc, hlength] at hlater
    rw [closing_cons, if_neg hmark, if_neg hslash, ← Nat.add_assoc]
    exact hlater

/-- Whether a directive starts with `c` at the given offset: only blanks may stand before it. -/
def startsDirective? (s : String) (offset : Nat) (c : Char) : Option Bool :=
  if c = '#' then (Text.slice? s 0 offset).map fun front => (Text.trim front).isEmpty
  else some false

/-- The spans of a line from the character of index `i` on, cut by offsets; `chars` are the
characters of the line with their offsets, and `word` is a word not yet finished.  It fails if a
piece that it asks for does not exist. -/
def cutFrom? (s : String) (chars : List (Nat × Char)) (i : Nat) (word : List Char) : Option Line :=
  match h : chars[i]? with
  | none => some (wordSpan word (wordStyle word false))
  | some (offset, c) => do
    let directive ← startsDirective? s offset c
    if (c = '/' && chars[i + 1]?.map Prod.snd = some '/') || directive then
      let comment ← Text.slice? s offset s.utf8ByteSize
      some (wordSpan word {} ++ [{ text := comment, style := Theme.mutedStyle }])
    else if c = '"' || c = '\'' then
      let stop := min (closing chars c (i + 1) + 1) chars.length
      let quoted ← Text.slice? s offset ((chars[stop]?.map Prod.fst).getD s.utf8ByteSize)
      let rest ← cutFrom? s chars stop []
      some (wordSpan word {} ++ { text := quoted, style := { fg := Theme.secondary } } :: rest)
    else if Text.isAlphanumeric c || c = '_' then
      cutFrom? s chars (i + 1) (word ++ [c])
    else
      let rest ← cutFrom? s chars (i + 1) []
      some (wordSpan word (wordStyle word (c = '('))
        ++ { text := String.singleton c, style := charStyle c } :: rest)
termination_by chars.length - i
decreasing_by
  all_goals
    have hi := (List.getElem?_eq_some_iff.1 h).1
    have hclosing := le_closing chars c (i + 1)
    omega

/-- The spans of a source line, cut by offsets. -/
def cut? (s : String) : Option Line :=
  cutFrom? s (Text.offsets 0 s.toList) 0 []

theorem startsDirective?_eq {s : String} {front rest : List Char} (h : s.toList = front ++ rest)
    (c : Char) : startsDirective? s (Text.byteSize front) c
      = some (c = '#' && front.all Text.isBlank) := by
  have hslice : Text.slice? s 0 (Text.byteSize front) = some (String.ofList front) :=
    @Text.slice?_toList s [] front rest h
  rw [startsDirective?, hslice]
  split
  · rename_i hc
    rw [Option.map_some, Text.isEmpty_trim, decide_eq_true hc, Bool.true_and]
  · rename_i hc
    rw [decide_eq_false hc, Bool.false_and]

/-- The index behind a quoted text. -/
theorem stop_eq {s : String} {front cs : List Char} {mark : Char}
    (h : s.toList = front ++ mark :: cs) :
    min (closing (Text.offsets 0 s.toList) mark (front.length + 1) + 1)
        (Text.offsets 0 s.toList).length
      = (front ++ mark :: cs.take (quotedLength mark cs)).length := by
  have hstop := closing_offsets mark cs (front ++ [mark])
  have hlength : (front ++ [mark]).length = front.length + 1 := List.length_append
  rw [List.append_assoc, List.singleton_append, ← h, hlength] at hstop
  rw [Text.length_offsets, hstop, List.length_append, List.length_cons,
    List.length_take_of_le (quotedLength_le mark cs)]
  omega

/-- At the end of a line only the word is left. -/
theorem cutFrom?_nil {s : String} {front : List Char} (h : s.toList = front ++ [])
    (word : List Char) : cutFrom? s (Text.offsets 0 s.toList) front.length word
      = some (wordSpan word (wordStyle word false)) := by
  have hget := Text.getElem?_offsets front [] 0
  rw [← h] at hget
  rw [cutFrom?]
  split
  · rfl
  · rename_i hsome
    rw [hget] at hsome
    cases hsome

/-- One turn of the colouring: the piece that starts with `c` exists, and its end is an index. -/
theorem cutFrom?_cons {s : String} {front cs : List Char} {c : Char}
    (h : s.toList = front ++ c :: cs) (word : List Char) :
    cutFrom? s (Text.offsets 0 s.toList) front.length word =
      if (c = '/' && cs.head? = some '/') || (c = '#' && front.all Text.isBlank) then
        some (wordSpan word {} ++ [{ text := String.ofList (c :: cs), style := Theme.mutedStyle }])
      else if c = '"' || c = '\'' then
        let quoted := c :: cs.take (quotedLength c cs)
        (cutFrom? s (Text.offsets 0 s.toList) (front ++ quoted).length []).map fun rest =>
          wordSpan word {}
            ++ { text := String.ofList quoted, style := { fg := Theme.secondary } } :: rest
      else if Text.isAlphanumeric c || c = '_' then
        cutFrom? s (Text.offsets 0 s.toList) (front ++ [c]).length (word ++ [c])
      else
        (cutFrom? s (Text.offsets 0 s.toList) (front ++ [c]).length []).map fun rest =>
          wordSpan word (wordStyle word (c = '('))
            ++ { text := String.singleton c, style := charStyle c } :: rest := by
  have hget := Text.getElem?_offsets front (c :: cs) 0
  rw [← h, List.head?_cons, Option.map_some, Nat.zero_add] at hget
  have hfront : s.toList = front ++ [c] ++ cs := by rw [h, List.append_assoc]; rfl
  have hlength : (front ++ [c]).length = front.length + 1 := List.length_append
  have hnext := Text.head?_of_append hfront
  have hcomment : Text.slice? s (Text.byteSize front) s.utf8ByteSize
      = some (String.ofList (c :: cs)) := by
    rw [← Text.byteSize_toList, h]
    exact @Text.slice?_toList s front (c :: cs) [] (by rw [h, List.append_nil])
  have hsplit : s.toList = front ++ (c :: cs.take (quotedLength c cs))
      ++ cs.drop (quotedLength c cs) := by
    rw [h, List.append_assoc, List.cons_append, List.take_append_drop]
  have hquoted := Text.slice?_toList (hsplit.trans (List.append_assoc _ _ _))
  rw [cutFrom?]
  split
  · rename_i hnone
    rw [hget] at hnone
    cases hnone
  rename_i offset d hsome
  obtain ⟨rfl, rfl⟩ := Prod.mk.inj (Option.some.inj (hget.symm.trans hsome))
  dsimp only
  rw [startsDirective?_eq h, hcomment, stop_eq h, Text.offset_of_append hsplit, hquoted,
    ← hlength, hnext]
  simp only [Option.bind_eq_bind, Option.bind_some, Option.map_eq_bind, Function.comp_def]

/-- **All pieces of a line exist,** and they are its spans. -/
theorem cutFrom?_eq {s : String} (word front : List Char) : ∀ cs : List Char,
    s.toList = front ++ cs → cutFrom? s (Text.offsets 0 s.toList) front.length word
      = some (spans (front.all Text.isBlank) word 0 cs)
  | [], h => cutFrom?_nil h word
  | c :: cs, h => by
    have hblank : ∀ more, (front ++ c :: more).all Text.isBlank
        = (front.all Text.isBlank && Text.isBlank c && more.all Text.isBlank) := by
      intro more
      rw [List.all_append, List.all_cons, Bool.and_assoc]
    have hnext : s.toList = front ++ [c] ++ cs := by rw [h, List.append_assoc]; rfl
    rw [cutFrom?_cons h, spans]
    dsimp only
    split
    · rfl
    split
    · -- a quoted text is not blank
      rename_i hquote
      have hmark : Text.isBlank c = false := by
        rcases Bool.or_eq_true_iff.1 hquote with hc | hc <;> rw [of_decide_eq_true hc] <;> rfl
      have hsplit : s.toList = front ++ (c :: cs.take (quotedLength c cs))
          ++ cs.drop (quotedLength c cs) := by
        rw [h, List.append_assoc, List.cons_append, List.take_append_drop]
      rw [cutFrom?_eq [] _ _ hsplit, hblank, hmark, Bool.and_false, Bool.false_and,
        spans_skip _ cs (quotedLength_le c cs)]
      rfl
    split
    · rw [cutFrom?_eq (word ++ [c]) _ _ hnext, hblank, List.all_nil, Bool.and_true]
    · rw [cutFrom?_eq [] _ _ hnext, hblank, List.all_nil, Bool.and_true]
      rfl
termination_by cs => cs.length
decreasing_by
  all_goals
    simp only [List.length_drop, List.length_cons]
    omega

/-- **Colouring keeps the line.**  To colour a line by offsets never asks for a piece that does not
exist, gives the same spans, and these make up the line again. -/
theorem line_keeps_text (s : String) : cut? s = some (line s) ∧ Line.text (line s) = s := by
  refine ⟨cutFrom?_eq [] [] s.toList rfl, ?_⟩
  rw [line, text_spans, List.nil_append, String.ofList_toList]

/-- A quoted text that is never closed, with a backslash at the end of the line. -/
example : (line "f('é\\").map Span.text = ["f", "(", "'é\\"] := by
  decide +kernel

end Highlight

end Stepwise
