import Stepwise.Program.Listing
import Stepwise.Proofs.Double.Texts
import Stepwise.Proofs.Text.Quoted
import Stepwise.Proofs.Token.Spelling

/-!
# The words of a listing

A listed expression is a sequence of words: numbers, texts, names, members, and marks for all the
rest.  There are blanks around what stands between two operands, after a comma, and nowhere else,
and still a reader sees where a word ends.  A word that ends in a letter or a digit is never
followed by a name or a number, and two minus signs that follow each other are one word.

* `Word.chars` is how a word is listed, and `Word.mayPrecede` says which words it may precede.
* `Word.append_inj` separates a word from what follows it.
* `flatMap_chars_inj`: a text is that of one sequence of words.
-/

set_option autoImplicit false

namespace Stepwise.Listing

open Token

/-! ## Between two operands -/

/-- What stands between two operands, with blanks around it. -/
inductive Connective where
  | assign
  | update (op : BinaryOp)
  | binary (op : BinaryOp)
  | question
  | colon
deriving DecidableEq

namespace Connective

/-- The characters between the blanks. -/
def symbol : Connective → String
  | assign => "="
  | update op => op.symbol ++ "="
  | binary op => op.symbol
  | question => "?"
  | colon => ":"

/-- The operators that an assignment can be combined with. -/
def updates : List BinaryOp := [.add, .sub, .mul, .div, .mod]

/-- Whether a source text has anything like it. -/
def isLegible : Connective → Bool
  | update op => updates.contains op
  | _ => true

/-- All connectives of source texts. -/
def all : List Connective :=
  [assign, question, colon] ++ updates.map update
    ++ [BinaryOp.add, .sub, .mul, .div, .mod, .eq, .ne, .lt, .le, .gt, .ge, .and, .or, .bitAnd,
      .bitOr, .bitXor, .shl, .shr].map binary

/-- The connective of the given characters. -/
def read? (cs : List Char) : Option Connective :=
  all.find? fun c => c.symbol.toList = cs

variable {c : Connective}

theorem mem_all (h : c.isLegible = true) : c ∈ all := by
  cases c with
  | update op => cases op <;> first | decide | cases h
  | binary op => cases op <;> decide
  | _ => decide

theorem read?_symbol (h : c.isLegible = true) : read? c.symbol.toList = some c := by
  have hall : ∀ c ∈ all, read? c.symbol.toList = some c := by decide
  exact hall c (mem_all h)

theorem ne_blank_of_mem_symbol (h : c.isLegible = true) :
    ∀ x ∈ c.symbol.toList, (x != ' ') = true := by
  have hall : ∀ c ∈ all, (c.symbol.toList.all (· != ' ')) = true := by decide
  exact List.all_eq_true.1 (hall c (mem_all h))

end Connective

/-! ## Marks -/

/-- The words that are the same in all programs. -/
inductive Mark where
  | leftParen
  | rightParen
  | leftBracket
  | rightBracket
  | comma
  | unary (op : UnaryOp)
  | increment
  | decrement
  | join (c : Connective)
deriving DecidableEq

namespace Mark

/-- How a mark is listed. -/
def chars : Mark → List Char
  | leftParen => ['(']
  | rightParen => [')']
  | leftBracket => ['[']
  | rightBracket => [']']
  | comma => [',', ' ']
  | unary op => op.symbol.toList
  | increment => ['+', '+']
  | decrement => ['-', '-']
  | join c => ' ' :: (c.symbol.toList ++ [' '])

/-- Whether a source text has anything like it. -/
def isLegible : Mark → Bool
  | join c => c.isLegible
  | _ => true

/-- The text does not go on with what would make the mark another one. -/
def Ends : Mark → List Char → Prop
  | unary .neg, rest => rest.head? ≠ some '-'
  | _, _ => True

/-- The mark at the beginning of a text, and what follows it. -/
def read? : List Char → Option (Mark × List Char)
  | '(' :: cs => some (leftParen, cs)
  | ')' :: cs => some (rightParen, cs)
  | '[' :: cs => some (leftBracket, cs)
  | ']' :: cs => some (rightBracket, cs)
  | ',' :: ' ' :: cs => some (comma, cs)
  | '+' :: '+' :: cs => some (increment, cs)
  | '-' :: '-' :: cs => some (decrement, cs)
  | '-' :: cs => some (unary .neg, cs)
  | '!' :: cs => some (unary .not, cs)
  | '~' :: cs => some (unary .bitNot, cs)
  | ' ' :: cs =>
    (Connective.read? (cs.takeWhile (· != ' '))).map fun c =>
      (join c, (cs.dropWhile (· != ' ')).tail)
  | _ => none

variable {m : Mark} {rest : List Char}

/-- A mark is read back. -/
theorem read?_chars (h : m.isLegible = true) (hrest : m.Ends rest) :
    read? (m.chars ++ rest) = some (m, rest) := by
  cases m with
  | unary op =>
    cases op with
    | neg =>
      change read? ('-' :: rest) = _
      rw [read?]
      rintro cs rfl
      exact hrest rfl
    | not => rfl
    | bitNot => rfl
  | join c =>
    have hne := Connective.ne_blank_of_mem_symbol h
    have htake : (c.symbol.toList ++ ' ' :: rest).takeWhile (· != ' ') = c.symbol.toList := by
      rw [List.takeWhile_append_of_pos hne]
      exact List.append_nil _
    have hdrop : (c.symbol.toList ++ ' ' :: rest).dropWhile (· != ' ') = ' ' :: rest := by
      rw [List.dropWhile_append_of_pos hne]
      rfl
    rw [chars, List.cons_append, List.append_assoc, List.singleton_append, read?, htake, hdrop,
      Connective.read?_symbol h]
    rfl
  | _ => rfl

end Mark

/-! ## Words -/

/-- What a listed expression is made of. -/
inductive Word where
  | int (n : Int64)
  | float (x : Float)
  | str (s : String)
  /-- A name, or one of the values that are written like one. -/
  | name (s : String)
  /-- A name after a dot. -/
  | member (s : String)
  | mark (m : Mark)

/-- The classes of characters that a word can begin with. -/
inductive Lead where
  | digit
  | quote
  | letter
  | dot
  | mark
deriving DecidableEq

/-- The class of a character. -/
def Lead.of (c : Char) : Lead :=
  if c.isDigit then digit
  else if c = '"' then quote
  else if isNameStart c then letter
  else if c = '.' then dot
  else mark

namespace Word

/-- How a word is listed. -/
def chars : Word → List Char
  | int n => (toString n.toInt).toList
  | float x => (Decimal.listed.write x).toList
  | str s => (Text.quoted s).toList
  | name s => s.toList
  | member s => '.' :: s.toList
  | mark m => m.chars

/-- The word can come from a source text: a number has no sign and is finite, and a name has the
form of one. -/
def Legible : Word → Prop
  | int n => 0 ≤ n.toInt
  | float x => Binary64.IsUnsigned x ∧ x.isFinite = true
  | str _ => True
  | name s => TokenKind.isName s = true
  | member s => TokenKind.isName s = true
  | mark m => m.isLegible = true

/-- How a word begins. -/
def lead : Word → Lead
  | int _ => .digit
  | float _ => .digit
  | str _ => .quote
  | name _ => .letter
  | member _ => .dot
  | mark _ => .mark

/-- The text does not go on with what would belong to the word. -/
def Ends : Word → List Char → Prop
  | int _, rest => DecimalText.Ends rest
  | float _, rest => DecimalText.Ends rest
  | str _, _ => True
  | name _, rest => ∀ c ∈ rest.head?, isNamePart c = false
  | member _, rest => ∀ c ∈ rest.head?, isNamePart c = false
  | mark m, rest => m.Ends rest

/-- Whether the first word may be followed by the second one. -/
def mayPrecede : Word → Word → Bool
  | int _, w => w.lead = .dot || w.lead = .mark
  | float _, w => w.lead = .dot || w.lead = .mark
  | name _, w => w.lead = .dot || w.lead = .mark
  | member _, w => w.lead = .dot || w.lead = .mark
  | mark (.unary .neg), mark (.unary .neg) => false
  | mark (.unary .neg), mark .decrement => false
  | _, _ => true

variable {w v : Word} {rest tail : List Char}

/-! ### Numbers -/

/-- Whether the word is a number with a point. -/
def isFloat : Word → Bool
  | float _ => true
  | _ => false

/-- The digits of a whole number. -/
def digitText (n : Nat) : DecimalText where
  whole := Nat.toDigits 10 n
  fraction := []
  power := none
  whole_ne_nil := Nat.toDigits_ne_nil
  isDigit_whole := Decimal.isDigit_toDigits
  isDigit_fraction := nofun
  power_ne_nil := nofun
  isDigit_power := nofun

theorem chars_int {n : Int64} (h : 0 ≤ n.toInt) :
    (int n).chars = (digitText n.toInt.toNat).chars := by
  obtain ⟨k, hk⟩ := Int.eq_ofNat_of_zero_le h
  have htext : toString (k : Int) = String.ofList (Nat.toDigits 10 k) :=
    Nat.toString_eq_ofList_toDigits
  rw [chars, hk, htext, String.toList_ofList]
  exact (List.append_nil _).symm

/-- Numbers are listed as decimals, and only the whole ones without a point. -/
theorem exists_numberText (h : w.Legible) (hlead : w.lead = .digit) :
    ∃ t : DecimalText, w.chars = t.chars ∧ t.isPointed = w.isFloat := by
  cases w with
  | int n => exact ⟨_, chars_int h, rfl⟩
  | float x =>
    obtain ⟨t, hchars, hpointed⟩ := Decimal.exists_text_write h.1 h.2
    exact ⟨t, hchars, hpointed⟩
  | _ => cases hlead

theorem digitText_inj {n k : Nat} (h : (digitText n).chars = (digitText k).chars) : n = k := by
  have hdigits : Nat.toDigits 10 n = Nat.toDigits 10 k := List.append_cancel_right h
  rw [← Decimal.ofDigits_toDigits n, hdigits, Decimal.ofDigits_toDigits]

theorem int_inj {n k : Int64} (hn : 0 ≤ n.toInt) (hk : 0 ≤ k.toInt)
    (h : (int n).chars = (int k).chars) : n = k := by
  rw [chars_int hn, chars_int hk] at h
  have hnat := digitText_inj h
  exact Int64.toInt_inj.1 (by omega)

/-- Numbers are separated from what follows them. -/
theorem number_append_inj (hw : w.Legible) (hv : v.Legible) (hwlead : w.lead = .digit)
    (hvlead : v.lead = .digit) (hrest : DecimalText.Ends rest) (htail : DecimalText.Ends tail)
    (h : w.chars ++ rest = v.chars ++ tail) : w = v ∧ rest = tail := by
  obtain ⟨t, ht, htfloat⟩ := exists_numberText hw hwlead
  obtain ⟨u, hu, hufloat⟩ := exists_numberText hv hvlead
  rw [ht, hu] at h
  obtain ⟨rfl, hend⟩ := DecimalText.append_inj hrest htail h
  refine ⟨?_, hend⟩
  have hchars : w.chars = v.chars := ht.trans hu.symm
  have hfloat : w.isFloat = v.isFloat := htfloat.symm.trans hufloat
  cases w with
  | int n =>
    cases v with
    | int k => rw [int_inj hw hv hchars]
    | float => cases hfloat
    | _ => cases hvlead
  | float x =>
    cases v with
    | int => cases hfloat
    | float y => rw [Decimal.eq_of_write hw.1 hv.1 (String.toList_inj.1 hchars)]
    | _ => cases hvlead
  | _ => cases hwlead

/-! ### Names -/

theorem exists_nameStart {s : String} (h : TokenKind.isName s = true) :
    ∃ c cs, s.toList = c :: cs ∧ isNameStart c = true ∧ ∀ x ∈ cs, isNamePart x = true := by
  rw [TokenKind.isName] at h
  split at h
  · cases h
  · next c cs hs =>
    obtain ⟨hc, hcs⟩ := Bool.and_eq_true_iff.1 h
    exact ⟨c, cs, hs, hc, List.all_eq_true.1 hcs⟩

theorem isNamePart_of_isNameStart {c : Char} (h : isNameStart c = true) : isNamePart c = true := by
  simp only [isNameStart, isNamePart, Char.isAlphanum, Bool.or_eq_true] at h ⊢
  tauto

theorem isNamePart_of_mem {s : String} (h : TokenKind.isName s = true) :
    ∀ c ∈ s.toList, isNamePart c = true := by
  obtain ⟨c, cs, hs, hc, hcs⟩ := exists_nameStart h
  rw [hs]
  exact List.forall_mem_cons.2 ⟨isNamePart_of_isNameStart hc, hcs⟩

/-- Names are separated from what follows them. -/
theorem name_append_inj {s t : String} (hs : TokenKind.isName s = true)
    (ht : TokenKind.isName t = true) (hrest : ∀ c ∈ rest.head?, isNamePart c = false)
    (htail : ∀ c ∈ tail.head?, isNamePart c = false) (h : s.toList ++ rest = t.toList ++ tail) :
    s = t ∧ rest = tail := by
  obtain ⟨hchars, hend⟩ :=
    Text.run_append_inj (isNamePart_of_mem hs) (isNamePart_of_mem ht) hrest htail h
  exact ⟨String.toList_inj.1 hchars, hend⟩

/-! ### All words -/

/-- A word begins with a character of its class. -/
theorem exists_lead (h : w.Legible) : ∃ c cs, w.chars = c :: cs ∧ Lead.of c = w.lead := by
  have hnumber : ∀ {w : Word}, w.Legible → w.lead = .digit →
      ∃ c cs, w.chars = c :: cs ∧ Lead.of c = .digit := by
    intro w hw hlead
    obtain ⟨t, ht, -⟩ := exists_numberText hw hlead
    obtain ⟨c, cs, hhead, hc⟩ := DecimalText.isDigit_head
      (DecimalText.fractionChars t.fraction ++ DecimalText.powerChars t.power)
      t.whole_ne_nil t.isDigit_whole
    exact ⟨c, cs, ht.trans hhead, if_pos hc⟩
  cases w with
  | int => exact hnumber h rfl
  | float => exact hnumber h rfl
  | str s => exact ⟨'"', _, String.toList_ofList, rfl⟩
  | name s =>
    obtain ⟨c, cs, hs, hc, -⟩ := exists_nameStart h
    refine ⟨c, cs, hs, ?_⟩
    have hquote : c ≠ '"' := by
      rintro rfl
      cases hc
    rw [Lead.of, isDigit_of_isNameStart hc, if_neg Bool.false_ne_true, if_neg hquote, if_pos hc]
    rfl
  | member s => exact ⟨'.', _, rfl, rfl⟩
  | mark m =>
    cases m with
    | unary op => cases op <;> exact ⟨_, _, rfl, rfl⟩
    | _ => exact ⟨_, _, rfl, rfl⟩

/-- **Words are separated from what follows them.** -/
theorem append_inj (hw : w.Legible) (hv : v.Legible) (hrest : w.Ends rest) (htail : v.Ends tail)
    (h : w.chars ++ rest = v.chars ++ tail) : w = v ∧ rest = tail := by
  have hlead : w.lead = v.lead := by
    obtain ⟨c, cs, hc, hwlead⟩ := exists_lead hw
    obtain ⟨d, ds, hd, hvlead⟩ := exists_lead hv
    rw [hc, hd] at h
    rw [← hwlead, ← hvlead, (List.cons.inj h).1]
  -- the two words are of one class
  cases w with
  | int n =>
    cases v with
    | int | float => exact number_append_inj hw hv rfl rfl hrest htail h
    | _ => cases hlead
  | float x =>
    cases v with
    | int | float => exact number_append_inj hw hv rfl rfl hrest htail h
    | _ => cases hlead
  | str s =>
    cases v with
    | str t =>
      obtain ⟨rfl, hend⟩ := Text.quoted_append_inj h
      exact ⟨rfl, hend⟩
    | _ => cases hlead
  | name s =>
    cases v with
    | name t =>
      obtain ⟨rfl, hend⟩ := name_append_inj hw hv hrest htail h
      exact ⟨rfl, hend⟩
    | _ => cases hlead
  | member s =>
    cases v with
    | member t =>
      obtain ⟨rfl, hend⟩ := name_append_inj hw hv hrest htail (List.cons.inj h).2
      exact ⟨rfl, hend⟩
    | _ => cases hlead
  | mark m =>
    cases v with
    | mark m' =>
      have hread := congrArg Mark.read? h
      rw [chars, chars, Mark.read?_chars hw hrest, Mark.read?_chars hv htail] at hread
      obtain ⟨rfl, hend⟩ := Prod.mk.inj (Option.some.inj hread)
      exact ⟨rfl, hend⟩
    | _ => cases hlead

/-! ### Neighbours -/

theorem isNamePart_eq_false {c : Char} (h : (Lead.of c = .dot || Lead.of c = .mark) = true) :
    isNamePart c = false := by
  rw [Lead.of] at h
  split at h
  · cases h
  split at h
  · next hquote => rw [hquote]; rfl
  split at h
  · cases h
  · next hdigit _ hstart =>
    simp only [isNameStart, isNamePart, Char.isAlphanum, Bool.not_eq_true, Bool.or_eq_false_iff]
      at hdigit hstart ⊢
    exact ⟨⟨hstart.1, hdigit⟩, hstart.2⟩

/-- What begins with a dot or a mark goes on with no name. -/
theorem isNamePart_chars (hv : v.Legible) (h : (v.lead = .dot || v.lead = .mark) = true)
    (rest : List Char) : ∀ c ∈ (v.chars ++ rest).head?, isNamePart c = false := by
  obtain ⟨c, cs, hc, hlead⟩ := exists_lead hv
  intro d hd
  rw [hc] at hd
  cases hd
  rw [← hlead] at h
  exact isNamePart_eq_false h

/-- What begins with a dot or a mark goes on with no number. -/
theorem decimal_ends_chars (hv : v.Legible) (h : (v.lead = .dot || v.lead = .mark) = true)
    (rest : List Char) : DecimalText.Ends (v.chars ++ rest) := by
  have hpart := isNamePart_chars hv h rest
  refine ⟨fun c hc => ?_, fun he => absurd (hpart 'e' he) (by decide), fun c tail heq => ?_⟩
  · have hnot := hpart c hc
    simp only [isNamePart, Char.isAlphanum, Bool.or_eq_false_iff] at hnot
    exact hnot.1.2
  · obtain ⟨d, ds, hd, hlead⟩ := exists_lead hv
    rw [hd] at heq
    obtain ⟨rfl, -⟩ := List.cons.inj heq
    -- the only words that begin with a point are members
    cases v with
    | member s =>
      obtain ⟨x, xs, hs, hx, -⟩ := exists_nameStart hv
      have hds : ds = x :: xs := (List.cons.inj hd).2.symm.trans hs
      rw [hds] at heq
      rw [← (List.cons.inj (List.cons.inj heq).2).1]
      exact isDigit_of_isNameStart hx
    | _ => cases hlead

theorem ends_nil (w : Word) : w.Ends [] := by
  cases w with
  | int | float => exact ⟨nofun, nofun, nofun⟩
  | str => trivial
  | name | member => exact nofun
  | mark m =>
    cases m with
    | unary op => cases op <;> first | trivial | exact nofun
    | _ => trivial

/-- **A word ends before one that it may precede.** -/
theorem ends_of_mayPrecede (hv : v.Legible) (h : w.mayPrecede v = true) (rest : List Char) :
    w.Ends (v.chars ++ rest) := by
  cases w with
  | int | float => exact decimal_ends_chars hv h rest
  | str => trivial
  | name | member => exact isNamePart_chars hv h rest
  | mark m =>
    cases m with
    | unary op =>
      cases op with
      | neg =>
        obtain ⟨c, cs, hc, hlead⟩ := exists_lead hv
        intro hhead
        rw [hc] at hhead
        obtain rfl : c = '-' := Option.some.inj hhead
        -- only a negation and a decrement begin with a minus sign
        cases v with
        | mark m =>
          cases m with
          | unary op =>
            cases op with
            | neg => cases h
            | not => cases hc
            | bitNot => cases hc
          | decrement => cases h
          | _ => cases hc
        | _ => cases hlead
      | not => trivial
      | bitNot => trivial
    | _ => trivial

end Word

/-! ## Sequences of words -/

/-- Words that a source text can have, each in front of one that it may precede. -/
structure Legible (ws : List Word) : Prop where
  words : ∀ w ∈ ws, w.Legible
  spaced : ws.IsChain fun w v => w.mayPrecede v = true

namespace Legible

variable {w : Word} {ws vs : List Word}

theorem tail (h : Legible (w :: ws)) : Legible ws :=
  ⟨fun v hv => h.words v (List.mem_cons_of_mem w hv), h.spaced.tail⟩

theorem ends (h : Legible (w :: ws)) : w.Ends (ws.flatMap Word.chars) := by
  cases ws with
  | nil => exact w.ends_nil
  | cons v ws =>
    have hv := h.words v (List.mem_cons_of_mem w List.mem_cons_self)
    exact Word.ends_of_mayPrecede hv (List.isChain_cons_cons.1 h.spaced).1 _

theorem flatMap_ne_nil (h : Legible (w :: ws)) : (w :: ws).flatMap Word.chars ≠ [] := by
  obtain ⟨c, cs, hc, -⟩ := Word.exists_lead (h.words w List.mem_cons_self)
  rw [List.flatMap_cons, hc]
  exact List.cons_ne_nil _ _

end Legible

/-- **A text is that of one sequence of words.** -/
theorem flatMap_chars_inj : ∀ {ws vs : List Word}, Legible ws → Legible vs →
    ws.flatMap Word.chars = vs.flatMap Word.chars → ws = vs
  | [], [], _, _, _ => rfl
  | [], _ :: _, _, hvs, h => absurd h.symm hvs.flatMap_ne_nil
  | _ :: _, [], hws, _, h => absurd h hws.flatMap_ne_nil
  | w :: ws, v :: vs, hws, hvs, h => by
    obtain ⟨rfl, hrest⟩ := Word.append_inj (hws.words w List.mem_cons_self)
      (hvs.words v List.mem_cons_self) hws.ends hvs.ends h
    rw [flatMap_chars_inj hws.tail hvs.tail hrest]

end Stepwise.Listing
