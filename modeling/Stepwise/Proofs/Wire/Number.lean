import Stepwise.Proofs.Wire.Text

/-!
# Numbers are read back

A number has no closing mark: it ends where what follows does not continue it.  So a number that is
read back from its own text is also read back in front of anything that `Stops` it.  `EndsNumber`
says this of a part of the reading, and `Wire.Reader.endsNumber_number` of the whole.

* `Wire.Reader.number_toString` and `Wire.Reader.index_toString` read integers and indexes back, up
  to the limits of their 64 bits.
* `Wire.Reader.scalar_number` and `Wire.Reader.nullable_number` read numbers where a scalar or
  `null` may stand.
-/

set_option autoImplicit false

namespace Stepwise.Wire.Reader

variable {α β : Type}

/-- The characters do not continue a number. -/
def Stops (rest : List Char) : Prop :=
  ∀ c ∈ rest.head?, c.isDigit = false ∧ c ≠ '.' ∧ c ≠ 'e' ∧ c ≠ 'E'

theorem stops_cons {c : Char} (hdigit : c.isDigit = false) (hpoint : c ≠ '.') (he : c ≠ 'e')
    (hE : c ≠ 'E') (rest : List Char) : Stops (c :: rest) := by
  intro d hd
  cases hd
  exact ⟨hdigit, hpoint, he, hE⟩

/-! ## Numbers and what follows them -/

section

variable {rest : List Char}

theorem Stops.startsWithDigit (h : Stops rest) : startsWithDigit rest = false := by
  cases rest with
  | nil => rfl
  | cons c rest => exact (h c rfl).1

theorem startsWithDigit_append (h : Stops rest) (cs : List Char) :
    startsWithDigit (cs ++ rest) = startsWithDigit cs := by
  cases cs with
  | nil => exact h.startsWithDigit
  | cons c cs => rfl

theorem dropWhile_isDigit_append (h : Stops rest) (cs : List Char) :
    (cs ++ rest).dropWhile Char.isDigit = cs.dropWhile Char.isDigit ++ rest := by
  induction cs with
  | nil =>
    cases rest with
    | nil => rfl
    | cons c rest => exact List.dropWhile_cons_of_neg (by simp [(h c rfl).1])
  | cons c cs ih =>
    simp only [List.cons_append, List.dropWhile_cons, ih]
    split <;> rfl

theorem takeWhile_isDigit_append (h : Stops rest) (cs : List Char) :
    (cs ++ rest).takeWhile Char.isDigit = cs.takeWhile Char.isDigit := by
  induction cs with
  | nil =>
    cases rest with
    | nil => rfl
    | cons c rest => exact List.takeWhile_cons_of_neg (by simp [(h c rfl).1])
  | cons c cs ih => simp only [List.cons_append, List.takeWhile_cons, ih]

theorem accumulate_append (h : Stops rest) (bound n : Nat) (cs : List Char) :
    accumulate bound n (cs ++ rest)
      = ((accumulate bound n cs).1, (accumulate bound n cs).2 ++ rest) := by
  induction cs generalizing n with
  | nil =>
    cases rest with
    | nil => rfl
    | cons c rest =>
      change accumulate bound n (c :: rest) = (n, c :: rest)
      rw [accumulate, if_neg (by simp [(h c rfl).1])]
  | cons c cs ih =>
    rw [List.cons_append, accumulate, accumulate]
    split
    · exact ih _
    · rfl

end

/-- A reading that does not depend on what follows, as long as this does not continue a number. -/
def EndsNumber (f : List Char → Except WireError (α × List Char)) : Prop :=
  ∀ ⦃cs left : List Char⦄ ⦃a : α⦄, f cs = .ok (a, left) → ∀ ⦃rest : List Char⦄, Stops rest →
    f (cs ++ rest) = .ok (a, left ++ rest)

theorem EndsNumber.map {f : List Char → Except WireError (α × List Char)} (h : EndsNumber f)
    (g : α → β) : EndsNumber fun cs => (f cs).map fun p => (g p.1, p.2) := by
  intro cs left b hmap rest hrest
  change (f cs).map (fun p => (g p.1, p.2)) = .ok (b, left) at hmap
  cases hf : f cs with
  | error e =>
    rw [hf] at hmap
    cases hmap
  | ok p =>
    rw [hf] at hmap
    cases hmap
    change (f (cs ++ rest)).map (fun p => (g p.1, p.2)) = .ok (g p.1, p.2 ++ rest)
    rw [h hf hrest]
    rfl

/-- The double is the same, whatever is left. -/
theorem ofParts_append {negative : Bool} {significand : Nat} {power : Int} (cs : List Char)
    {left : List Char} {x : Float}
    (h : (do let x ← ofParts negative significand power; return (x, cs)) = .ok (x, left))
    (rest : List Char) :
    (do let x ← ofParts negative significand power; return (x, cs ++ rest))
      = Except.ok (x, left ++ rest) := by
  cases hparts : ofParts negative significand power with
  | error e =>
    rw [hparts] at h
    cases h
  | ok y =>
    rw [hparts] at h
    cases h
    rfl

/-- The rest of an exponent after its sign. -/
def exponentDigits (negative : Bool) (significand : Nat) (power : Int) (down : Bool)
    (digits : List Char) : Except WireError (Float × List Char) :=
  match digits with
  | [] => .error .truncated
  | c :: _ =>
    if !c.isDigit then .error .malformed
    else
      let (n, rest) := accumulate exponentBound 0 digits
      if startsWithDigit rest then
        if significand ≠ 0 && !down then .error .malformed
        else return (if negative then -0.0 else 0.0, rest.dropWhile Char.isDigit)
      else do
        let x ← ofParts negative significand (if down then power - n else power + n)
        return (x, rest)

/-- The sign of an exponent, if there is one, and its digits. -/
def exponentSign : List Char → Bool × List Char
  | '+' :: rest => (false, rest)
  | '-' :: rest => (true, rest)
  | rest => (false, rest)

theorem exponentPart_eq (negative : Bool) (significand : Nat) (power : Int) (cs : List Char) :
    exponentPart negative significand power cs =
      exponentDigits negative significand power (exponentSign cs).1 (exponentSign cs).2 :=
  rfl

theorem exponentSign_of_ne {c : Char} (hplus : c ≠ '+') (hminus : c ≠ '-') (cs : List Char) :
    exponentSign (c :: cs) = (false, c :: cs) := by
  unfold exponentSign
  split
  next h => exact absurd (List.cons.inj h).1 hplus
  next h => exact absurd (List.cons.inj h).1 hminus
  next => rfl

theorem exponentSign_append {cs : List Char} (h : cs ≠ []) (rest : List Char) :
    exponentSign (cs ++ rest) = ((exponentSign cs).1, (exponentSign cs).2 ++ rest) := by
  cases cs with
  | nil => exact absurd rfl h
  | cons c cs =>
    by_cases hplus : c = '+'
    · subst hplus
      rfl
    · by_cases hminus : c = '-'
      · subst hminus
        rfl
      · rw [List.cons_append, exponentSign_of_ne hplus hminus, exponentSign_of_ne hplus hminus]
        rfl

section

variable (negative : Bool) (significand : Nat) (power : Int)

theorem endsNumber_exponentDigits (down : Bool) :
    EndsNumber (exponentDigits negative significand power down) := by
  intro cs left x h rest hrest
  cases cs with
  | nil => cases h
  | cons c cs =>
    unfold exponentDigits at h ⊢
    simp only [List.cons_append] at h ⊢
    split at h
    · cases h
    next hdigit =>
      rw [if_neg hdigit]
      have haccumulate := accumulate_append hrest exponentBound 0 (c :: cs)
      rw [List.cons_append] at haccumulate
      rw [haccumulate]
      simp only [startsWithDigit_append hrest, dropWhile_isDigit_append hrest]
      split at h
      next hlong =>
        rw [if_pos hlong]
        split at h
        · cases h
        next hsmall =>
          rw [if_neg hsmall]
          cases h
          rfl
      next hshort =>
        rw [if_neg hshort]
        exact ofParts_append _ h rest

theorem endsNumber_exponentPart : EndsNumber (exponentPart negative significand power) := by
  intro cs left x h rest hrest
  have hcs : cs ≠ [] := by
    rintro rfl
    cases h
  rw [exponentPart_eq] at h ⊢
  rw [exponentSign_append hcs]
  exact endsNumber_exponentDigits negative significand power _ h hrest

theorem endsNumber_afterFraction : EndsNumber (afterFraction negative significand power) := by
  intro cs left x h rest hrest
  cases cs with
  | nil =>
    have hparts := ofParts_append [] h rest
    cases rest with
    | nil => exact hparts
    | cons c rest =>
      obtain ⟨-, -, he, hE⟩ := hrest c rfl
      rw [List.nil_append, afterFraction, if_neg (by simp [he, hE])]
      exact hparts
  | cons c cs =>
    rw [afterFraction] at h
    rw [List.cons_append, afterFraction]
    split at h
    next hexponent =>
      rw [if_pos hexponent]
      exact endsNumber_exponentPart negative significand power h hrest
    next hexponent =>
      rw [if_neg hexponent]
      exact ofParts_append _ h rest

theorem endsNumber_fractionPart : EndsNumber (fractionPart negative significand power) := by
  intro cs left x h rest hrest
  unfold fractionPart at h ⊢
  simp only [accumulate_append hrest, startsWithDigit_append hrest, dropWhile_isDigit_append hrest,
    List.length_append, Int.natCast_add, Int.add_sub_add_right] at h ⊢
  split at h
  next hlong =>
    rw [if_pos hlong]
    exact endsNumber_afterFraction negative _ _ h hrest
  next hlong =>
    rw [if_neg hlong]
    split at h
    · cases h
    next htaken =>
      rw [if_neg htaken]
      exact endsNumber_afterFraction negative _ _ h hrest

theorem afterLongInteger_of_ne {cs : List Char} (h : cs.head? ≠ some '.') :
    afterLongInteger negative significand power cs
      = afterFraction negative significand power cs := by
  unfold afterLongInteger
  split
  · exact absurd rfl h
  · rfl

theorem endsNumber_afterLongInteger : EndsNumber (afterLongInteger negative significand power) := by
  intro cs left x h rest hrest
  by_cases hpoint : cs.head? = some '.'
  · obtain ⟨digits, rfl⟩ := List.head?_eq_some_iff.1 hpoint
    exact endsNumber_fractionPart negative significand power h hrest
  · have hpoint' : (cs ++ rest).head? ≠ some '.' := by
      cases cs with
      | nil => exact fun h => (hrest '.' h).2.1 rfl
      | cons c cs => exact hpoint
    rw [afterLongInteger_of_ne negative significand power hpoint] at h
    rw [afterLongInteger_of_ne negative significand power hpoint']
    exact endsNumber_afterFraction negative significand power h hrest

end

/-- The number of a significand without fraction and exponent. -/
def integer (negative : Bool) (significand : Nat) : Number :=
  if !negative then .natural (UInt64.ofNat significand)
  else if 0 < significand && significand ≤ Nat.pow 2 63 then .negative (Int64.ofInt (-significand))
  else .float (Binary64.nearest true significand 1)

section

variable (negative : Bool) (significand : Nat)

theorem afterInteger_of_ne {cs : List Char} (hpoint : cs.head? ≠ some '.')
    (he : cs.head? ≠ some 'e') (hE : cs.head? ≠ some 'E') :
    afterInteger negative significand cs = .ok (integer negative significand, cs) := by
  unfold afterInteger integer
  split
  next h => exact absurd h hpoint
  next h => exact absurd h he
  next h => exact absurd h hE
  next =>
    split
    · rfl
    · split <;> rfl

theorem afterInteger_of_stops {rest : List Char} (h : Stops rest) :
    afterInteger negative significand rest = .ok (integer negative significand, rest) :=
  afterInteger_of_ne negative significand (fun hc => (h _ hc).2.1 rfl)
    (fun hc => (h _ hc).2.2.1 rfl) fun hc => (h _ hc).2.2.2 rfl

theorem endsNumber_afterInteger : EndsNumber (afterInteger negative significand) := by
  intro cs left n h rest hrest
  cases cs with
  | nil =>
    rw [afterInteger_of_stops negative significand (nofun : Stops [])] at h
    cases h
    exact afterInteger_of_stops negative significand hrest
  | cons c cs =>
    by_cases hpoint : c = '.'
    · subst hpoint
      exact (endsNumber_fractionPart negative significand 0).map Number.float h hrest
    by_cases he : c = 'e'
    · subst he
      exact (endsNumber_exponentPart negative significand 0).map Number.float h hrest
    by_cases hE : c = 'E'
    · subst hE
      exact (endsNumber_exponentPart negative significand 0).map Number.float h hrest
    have hne : ∀ {cs : List Char} {d : Char}, c ≠ d → (c :: cs).head? ≠ some d := fun hd h =>
      hd (Option.some.inj h)
    rw [afterInteger_of_ne negative significand (hne hpoint) (hne he) (hne hE)] at h
    rw [List.cons_append, afterInteger_of_ne negative significand (hne hpoint) (hne he) (hne hE)]
    cases h
    rfl

/-- **A number ends before what does not continue it.** -/
theorem endsNumber_numberRest : EndsNumber (numberRest negative) := by
  intro cs left n h rest hrest
  unfold numberRest ofFunction at h ⊢
  cases cs with
  | nil => cases h
  | cons c cs =>
    simp only [List.cons_append] at h ⊢
    split at h
    next hzero =>
      rw [if_pos hzero, startsWithDigit_append hrest]
      split at h
      · cases h
      next hdigit =>
        rw [if_neg hdigit]
        exact endsNumber_afterInteger negative 0 h hrest
    next hzero =>
      rw [if_neg hzero]
      split at h
      · cases h
      next hdigit =>
        have haccumulate := accumulate_append hrest significandBound 0 (c :: cs)
        rw [List.cons_append] at haccumulate
        rw [if_neg hdigit, haccumulate]
        simp only [startsWithDigit_append hrest, dropWhile_isDigit_append hrest,
          takeWhile_isDigit_append hrest]
        split at h
        next hlong =>
          rw [if_pos hlong]
          exact (endsNumber_afterLongInteger negative _ _).map Number.float h hrest
        next hlong =>
          rw [if_neg hlong]
          exact endsNumber_afterInteger negative _ h hrest

end

/-! ## Integers -/

theorem le_ofDigitChars (ds : List Char) (n : Nat) : n ≤ Nat.ofDigitChars 10 ds n := by
  induction ds generalizing n with
  | nil => exact Nat.le_refl n
  | cons c ds ih =>
    rw [Nat.ofDigitChars_cons]
    have hrest := ih (10 * n + (c.toNat - '0'.toNat))
    omega

/-- Digits are taken as long as their number is below the bound. -/
theorem accumulate_digits {bound : Nat} {rest : List Char} (hrest : Stops rest) (ds : List Char)
    (hds : ∀ c ∈ ds, c.isDigit = true) (n : Nat) (hbound : Nat.ofDigitChars 10 ds n < bound) :
    accumulate bound n (ds ++ rest) = (Nat.ofDigitChars 10 ds n, rest) := by
  induction ds generalizing n with
  | nil => exact accumulate_append hrest bound n []
  | cons c ds ih =>
    rw [List.forall_mem_cons] at hds
    rw [Nat.ofDigitChars_cons] at hbound ⊢
    have hstep : 10 * n + digitValue c < bound :=
      Nat.lt_of_le_of_lt (le_ofDigitChars ds (10 * n + digitValue c)) hbound
    rw [List.cons_append, accumulate, if_pos (by simp [hds.1, hstep])]
    exact ih hds.2 _ hbound

theorem ne_of_isDigit {c d : Char} (hc : c.isDigit = true) (hd : d.isDigit = false) : c ≠ d := by
  rintro rfl
  rw [hc] at hd
  cases hd

theorem toDigits_eq_cons (n : Nat) : ∃ c ds, Nat.toDigits 10 n = c :: ds ∧ c.isDigit = true := by
  cases hds : Nat.toDigits 10 n with
  | nil => exact absurd hds Nat.toDigits_ne_nil
  | cons c ds =>
    have hc : c ∈ Nat.toDigits 10 n := by
      rw [hds]
      exact List.mem_cons_self
    exact ⟨c, ds, rfl, Nat.isDigit_of_mem_toDigits (by decide) (by decide) hc⟩

theorem digitChar_ne_zero : ∀ {n : Nat}, n < 10 → n ≠ 0 → Nat.digitChar n ≠ '0' := by
  decide

/-- Only zero is written with a zero at its beginning. -/
theorem head?_toDigits {n : Nat} (h : n ≠ 0) : (Nat.toDigits 10 n).head? ≠ some '0' := by
  induction n using Nat.strongRecOn with
  | ind n ih =>
    rw [Nat.toDigits_eq_if (by decide)]
    split
    next hsmall => simpa using digitChar_ne_zero hsmall h
    next hlarge =>
      have hhead := ih (n / 10) (by omega) (by omega)
      obtain ⟨c, cs, hcs, -⟩ := toDigits_eq_cons (n / 10)
      rw [hcs] at hhead ⊢
      exact hhead

/-- **A number of digits** is read back if it has at most 64 bits. -/
theorem numberRest_toDigits (negative : Bool) {n : Nat} (hn : n < Nat.pow 2 64) {rest : List Char}
    (hrest : Stops rest) :
    numberRest negative (Nat.toDigits 10 n ++ rest) = .ok (integer negative n, rest) := by
  have hdigits : ∀ c ∈ Nat.toDigits 10 n, c.isDigit = true := fun c =>
    Nat.isDigit_of_mem_toDigits (by decide) (by decide)
  have hvalue : Nat.ofDigitChars 10 (Nat.toDigits 10 n) 0 = n :=
    Nat.ofDigitChars_toDigits (by decide) (by decide)
  have haccumulate : accumulate significandBound 0 (Nat.toDigits 10 n ++ rest) = (n, rest) := by
    rw [accumulate_digits hrest _ hdigits 0 (by rw [hvalue]; exact hn), hvalue]
  have hinteger := afterInteger_of_stops negative n hrest
  -- a zero stands alone; any other number starts with a digit that is not zero
  by_cases hzero : n = 0
  · subst hzero
    change (if startsWithDigit rest then _ else afterInteger negative 0 rest) = _
    rw [if_neg (by simp [hrest.startsWithDigit])]
    exact hinteger
  · obtain ⟨c, ds, hds, hdigit⟩ := toDigits_eq_cons n
    have hc : c ≠ '0' := by
      rintro rfl
      exact head?_toDigits hzero (by rw [hds]; rfl)
    rw [hds, List.cons_append] at haccumulate ⊢
    unfold numberRest ofFunction
    simp only [if_neg hc, hdigit, Bool.not_true, Bool.false_eq_true, if_false, haccumulate,
      hrest.startsWithDigit]
    exact hinteger

/-! ## Signed numbers -/

/-- Read a number with its sign. -/
def number : List Char → Except WireError (Number × List Char)
  | '-' :: cs => numberRest true cs
  | cs => numberRest false cs

theorem number_of_ne {c : Char} (hc : c ≠ '-') (cs : List Char) :
    number (c :: cs) = numberRest false (c :: cs) := by
  unfold number
  split
  next h => exact absurd (List.cons.inj h).1 hc
  next => rfl

/-- A number starts with its sign or with a digit. -/
theorem head_of_number {cs left : List Char} {n : Number} (h : number cs = .ok (n, left)) :
    ∃ c body, cs = c :: body ∧ (c = '-' ∨ c.isDigit = true) := by
  cases cs with
  | nil => cases h
  | cons c body =>
    refine ⟨c, body, rfl, ?_⟩
    by_cases hc : c = '-'
    · exact .inl hc
    · rw [number_of_ne hc] at h
      change (if c = '0' then _ else _) = _ at h
      split at h
      next hzero => exact .inr (hzero ▸ rfl)
      next =>
        split at h
        · cases h
        next hdigit => exact .inr (by simpa using hdigit)

theorem endsNumber_number : EndsNumber number := by
  intro cs left n h rest hrest
  cases cs with
  | nil => cases h
  | cons c cs =>
    by_cases hc : c = '-'
    · subst hc
      exact endsNumber_numberRest true h hrest
    · rw [number_of_ne hc] at h
      rw [List.cons_append, number_of_ne hc]
      exact endsNumber_numberRest false h hrest

theorem number_toDigits {n : Nat} (hn : n < Nat.pow 2 64) {rest : List Char} (hrest : Stops rest) :
    number (Nat.toDigits 10 n ++ rest) = .ok (integer false n, rest) := by
  have hread := numberRest_toDigits false hn hrest
  obtain ⟨c, ds, hds, hc⟩ := toDigits_eq_cons n
  rw [hds, List.cons_append] at hread ⊢
  rw [number_of_ne (ne_of_isDigit hc rfl)]
  exact hread

theorem scalarOfNumber_natural {n : Nat} (hn : n < Nat.pow 2 63) :
    scalarOfNumber (integer false n) = .int (Int64.ofInt n) := by
  have hn' : n < 2 ^ 63 := hn
  have hsize : (UInt64.ofNat n).toNat = n := UInt64.toNat_ofNat_of_lt' (by
    change n < 2 ^ 64
    omega)
  change (if (UInt64.ofNat n).toNat < Nat.pow 2 63 then Scalar.int (UInt64.ofNat n).toInt64
    else _) = _
  rw [hsize, if_pos hn]
  rfl

theorem scalarOfNumber_negative {n : Nat} (hpos : 0 < n) (hn : n ≤ Nat.pow 2 63) :
    scalarOfNumber (integer true n) = .int (Int64.ofInt (-n)) := by
  change scalarOfNumber (if 0 < n && n ≤ Nat.pow 2 63 then _ else _) = _
  rw [if_pos (by simpa using ⟨hpos, hn⟩)]
  rfl

/-- **An integer is read back** as an integer, up to the limits of its 64 bits. -/
theorem number_toString (n : Int64) :
    ∃ m, number (toString n.toInt).toList = .ok (m, []) ∧ scalarOfNumber m = .int n := by
  have hleast : -(2 : Int) ^ 63 ≤ n.toInt := n.le_toInt
  have hgreatest : n.toInt < 2 ^ 63 := n.toInt_lt
  have hsame : Int64.ofInt n.toInt = n := Int64.ofInt_toInt n
  generalize n.toInt = i at hleast hgreatest hsame
  subst hsame
  cases i with
  | ofNat k =>
    have hk : k < 2 ^ 63 := by
      simp only [Int.ofNat_eq_natCast] at hgreatest
      omega
    have hread := number_toDigits (n := k) (show k < 2 ^ 64 by omega) (nofun : Stops [])
    rw [List.append_nil] at hread
    refine ⟨integer false k, ?_, scalarOfNumber_natural hk⟩
    change number (Nat.repr k).toList = _
    rw [Nat.toList_repr]
    exact hread
  | negSucc k =>
    have hk : k + 1 ≤ 2 ^ 63 := by omega
    have hread := numberRest_toDigits true (n := k + 1) (show k + 1 < 2 ^ 64 by omega)
      (nofun : Stops [])
    rw [List.append_nil] at hread
    have htext : (toString (Int.negSucc k)).toList = '-' :: Nat.toDigits 10 (k + 1) := by
      change ("-" ++ Nat.repr (k + 1)).toList = _
      rw [String.toList_append, Nat.toList_repr]
      rfl
    refine ⟨integer true (k + 1), ?_, scalarOfNumber_negative (Nat.succ_pos k) hk⟩
    rw [htext]
    exact hread

/-! ## Scalars and indexes -/

theorem isBlank_of_isDigit {c : Char} (h : c.isDigit = true) : isBlank c = false := by
  have hne : ∀ {d : Char}, d.isDigit = false → c ≠ d := ne_of_isDigit h
  simp [isBlank, hne (d := ' ') rfl, hne (d := '\n') rfl, hne (d := '\t') rfl, hne (d := '\r') rfl]

theorem digit_cases {c : Char} (h : c.isDigit = true) : ∃ n < 10, c = Nat.digitChar n := by
  simp only [Char.isDigit, Bool.and_eq_true, decide_eq_true_eq, UInt32.le_iff_toNat_le,
    ge_iff_le] at h
  change 48 ≤ c.toNat ∧ c.toNat ≤ 57 at h
  have hall : ∀ n < 10, Char.ofNat (48 + n) = Nat.digitChar n := by decide
  refine ⟨c.toNat - 48, by omega, ?_⟩
  rw [← hall _ (by omega), Nat.add_sub_cancel' h.1, Char.ofNat_toNat]

section

variable {cs rest : List Char}

theorem anyValueBy_digit {nested : Option (Reader (Option Scalar))} {c : Char}
    (hc : c.isDigit = true) :
    anyValueBy nested (c :: cs)
      = (do return some (scalarOfNumber (← numberRest false))) (c :: cs) := by
  obtain ⟨n, hn, rfl⟩ := digit_cases hc
  match n, hn with
  | 0, _ | 1, _ | 2, _ | 3, _ | 4, _ | 5, _ | 6, _ | 7, _ | 8, _ | 9, _ => rfl

theorem anyValueBy_quote (nested : Option (Reader (Option Scalar))) (cs : List Char) :
    anyValueBy nested ('"' :: cs) = (do return some (Scalar.str (← textRest))) cs :=
  rfl

theorem scalar_of_anyValueBy {s : Scalar}
    (h : ∀ nested, anyValueBy nested cs = .ok (some s, rest)) : scalar cs = .ok (s, rest) :=
  bind_of_ok (h _) _

theorem scalar_number {n : Number} (h : number cs = .ok (n, rest)) :
    scalar cs = .ok (scalarOfNumber n, rest) := by
  refine scalar_of_anyValueBy fun nested => ?_
  obtain ⟨c, body, rfl, hc⟩ := head_of_number h
  by_cases hminus : c = '-'
  · subst hminus
    exact bind_of_ok h fun n => pure (some (scalarOfNumber n))
  · rw [number_of_ne hminus] at h
    rw [anyValueBy_digit (hc.resolve_left hminus)]
    exact bind_of_ok h fun n => pure (some (scalarOfNumber n))

/-- **An index is read back**, up to the limit of its 64 bits. -/
theorem index_toString (n : UInt64) (hrest : Stops rest) :
    index ((toString n.toNat).toList ++ rest) = .ok (n, rest) := by
  have hread := number_toDigits n.toNat_lt hrest
  have hindex : asIndex (integer false n.toNat) rest = .ok (n, rest) := by
    change Except.ok (UInt64.ofNat n.toNat, rest) = _
    rw [UInt64.ofNat_toNat]
  obtain ⟨c, ds, hds, hdigit⟩ := toDigits_eq_cons n.toNat
  have hminus : c ≠ '-' := ne_of_isDigit hdigit rfl
  change index ((Nat.repr n.toNat).toList ++ rest) = _
  rw [hds, List.cons_append, number_of_ne hminus] at hread
  rw [Nat.toList_repr, hds, List.cons_append, index,
    bind_of_ok (peekToken_of_not_blank (isBlank_of_isDigit hdigit) _)]
  simp only [if_neg hminus, hdigit, if_true]
  exact (bind_of_ok hread asIndex).trans hindex

theorem nullable_of_ne {α : Type} {item : Reader α} {a : α} {c : Char} (hblank : isBlank c = false)
    (hc : c ≠ 'n') (h : item (c :: cs) = .ok (a, rest)) :
    nullable item (c :: cs) = .ok (some a, rest) := by
  rw [nullable, bind_of_ok (peekToken_of_not_blank hblank cs)]
  have hc' : some c ≠ some 'n' := fun h => hc (Option.some.inj h)
  generalize some c = head at hc'
  split
  next => exact absurd rfl hc'
  next => exact bind_of_ok h fun a => pure (some a)

/-- A value that starts like a number is not `null`. -/
theorem nullable_number {α : Type} {item : Reader α} {a : α} {c : Char}
    (hc : c = '-' ∨ c.isDigit = true) (h : item (c :: cs) = .ok (a, rest)) :
    nullable item (c :: cs) = .ok (some a, rest) := by
  rcases hc with rfl | hc
  · exact nullable_of_ne rfl (by decide) h
  · exact nullable_of_ne (isBlank_of_isDigit hc) (ne_of_isDigit hc rfl) h

end

end Stepwise.Wire.Reader
