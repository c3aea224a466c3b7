import Stepwise.Decimal.Format
import Stepwise.Decimal.Read
import Stepwise.Proofs.Double.Shortest

/-!
# Numbers as they are written

A number in a listing is a run of digits, perhaps with a point and more digits, and perhaps with a
power of ten.  Such a text can be told from whatever follows it, and a double can be told from its
text, since the decimal that it spells rounds to no other double.

* `DecimalText` are the texts of decimals, and `DecimalText.append_inj` separates them from what
  follows.
* `Decimal.exists_text`: a numeral is listed as such a text, which spells its value.
* `Decimal.eq_of_write`: doubles without a sign that are listed alike are the same.
* `Decimal.isUnsigned_of_magnitude?`: what is read without a sign has none.
-/

set_option autoImplicit false

namespace Stepwise

/-! ## Runs of characters -/

/-- A run of characters is separated from what follows it by a character that does not belong to
it. -/
theorem Text.run_append_inj {p : Char → Bool} {cs ds rest tail : List Char}
    (hcs : ∀ c ∈ cs, p c = true) (hds : ∀ c ∈ ds, p c = true)
    (hrest : ∀ c ∈ rest.head?, p c = false) (htail : ∀ c ∈ tail.head?, p c = false)
    (h : cs ++ rest = ds ++ tail) : cs = ds ∧ rest = tail := by
  have hrun : ∀ {cs rest : List Char}, (∀ c ∈ cs, p c = true) → (∀ c ∈ rest.head?, p c = false) →
      (cs ++ rest).takeWhile p = cs := by
    intro cs rest hcs hrest
    rw [List.takeWhile_append_of_pos hcs]
    cases rest with
    | nil => exact List.append_nil cs
    | cons c rest =>
      rw [List.takeWhile_cons_of_neg (by rw [hrest c rfl]; exact Bool.false_ne_true),
        List.append_nil]
  have heq := congrArg (List.takeWhile p) h
  rw [hrun hcs hrest, hrun hds htail] at heq
  subst heq
  exact ⟨rfl, List.append_cancel_left h⟩

/-- A decimal as it is written: its digits before and after the point, and the sign and the digits
of the power of ten, if there is one.  Without digits after it there is no point. -/
@[ext]
structure DecimalText where
  whole : List Char
  fraction : List Char
  power : Option (Bool × List Char)
  whole_ne_nil : whole ≠ []
  isDigit_whole : ∀ c ∈ whole, c.isDigit = true
  isDigit_fraction : ∀ c ∈ fraction, c.isDigit = true
  power_ne_nil : ∀ p ∈ power, p.2 ≠ []
  isDigit_power : ∀ p ∈ power, ∀ c ∈ p.2, c.isDigit = true

namespace DecimalText

/-- The point and the digits after it. -/
def fractionChars : List Char → List Char
  | [] => []
  | c :: cs => '.' :: c :: cs

/-- The mark of the power of ten, its sign and its digits. -/
def powerChars : Option (Bool × List Char) → List Char
  | none => []
  | some (true, ds) => 'e' :: '-' :: ds
  | some (false, ds) => 'e' :: ds

/-- The characters of the decimal. -/
def chars (t : DecimalText) : List Char :=
  t.whole ++ (fractionChars t.fraction ++ powerChars t.power)

/-- The power of ten. -/
def exponent : Option (Bool × List Char) → Int
  | none => 0
  | some (true, ds) => -Decimal.ofDigits ds
  | some (false, ds) => Decimal.ofDigits ds

/-- The number that the decimal spells. -/
def value (t : DecimalText) : ℚ :=
  Decimal.ofDigits (t.whole ++ t.fraction) * 10 ^ (exponent t.power - t.fraction.length)

/-- Whether there is anything but digits. -/
def isPointed (t : DecimalText) : Bool := !t.fraction.isEmpty || t.power.isSome

/-- The decimal cannot go on with the text. -/
structure Ends (rest : List Char) : Prop where
  isDigit : ∀ c ∈ rest.head?, c.isDigit = false
  mark : rest.head? ≠ some 'e'
  point : ∀ c tail, rest = '.' :: c :: tail → c.isDigit = false

variable {t u : DecimalText} {rest tail : List Char}

theorem isDigit_head {ds : List Char} (cs : List Char) (hne : ds ≠ [])
    (h : ∀ c ∈ ds, c.isDigit = true) : ∃ c cs', ds ++ cs = c :: cs' ∧ c.isDigit = true := by
  cases ds with
  | nil => exact absurd rfl hne
  | cons c ds => exact ⟨c, ds ++ cs, rfl, h c List.mem_cons_self⟩

/-- The power of ten is separated from what follows it. -/
theorem power_append_inj (hrest : Ends rest) (htail : Ends tail)
    (h : powerChars t.power ++ rest = powerChars u.power ++ tail) :
    t.power = u.power ∧ rest = tail := by
  have hne := t.power_ne_nil
  have hne' := u.power_ne_nil
  have hdigits := t.isDigit_power
  have hdigits' := u.isDigit_power
  generalize t.power = p at *
  generalize u.power = q at *
  -- a minus sign is no digit
  have hsign : ∀ {ds cs cs' : List Char}, ds ≠ [] → (∀ c ∈ ds, c.isDigit = true) →
      ds ++ cs ≠ '-' :: cs' := by
    intro ds cs cs' hne hds heq
    obtain ⟨c, cs'', hhead, hc⟩ := isDigit_head cs hne hds
    obtain ⟨rfl, -⟩ := List.cons.inj (hhead.symm.trans heq)
    cases hc
  rcases p with _ | ⟨_ | _, ds⟩ <;> rcases q with _ | ⟨_ | _, ds'⟩
  · exact ⟨rfl, h⟩
  · exact absurd (congrArg List.head? h) hrest.mark
  · exact absurd (congrArg List.head? h) hrest.mark
  · exact absurd (congrArg List.head? h).symm htail.mark
  · obtain ⟨rfl, rfl⟩ := Text.run_append_inj (hdigits _ rfl) (hdigits' _ rfl) hrest.isDigit
      htail.isDigit (List.cons.inj h).2
    exact ⟨rfl, rfl⟩
  · exact absurd (List.cons.inj h).2 (hsign (hne _ rfl) (hdigits _ rfl))
  · exact absurd (congrArg List.head? h).symm htail.mark
  · exact absurd (List.cons.inj h).2.symm (hsign (hne' _ rfl) (hdigits' _ rfl))
  · obtain ⟨rfl, rfl⟩ := Text.run_append_inj (hdigits _ rfl) (hdigits' _ rfl) hrest.isDigit
      htail.isDigit (List.cons.inj (List.cons.inj h).2).2
    exact ⟨rfl, rfl⟩

/-- What follows the digits before the point does not begin with a digit. -/
theorem isDigit_head_power (hrest : Ends rest) (p : Option (Bool × List Char)) :
    ∀ c ∈ (powerChars p ++ rest).head?, c.isDigit = false := by
  rcases p with _ | ⟨_ | _, ds⟩
  · exact hrest.isDigit
  all_goals
    intro c hc
    cases hc
    rfl

theorem isDigit_head_fraction (hrest : Ends rest) (fraction : List Char)
    (p : Option (Bool × List Char)) :
    ∀ c ∈ (fractionChars fraction ++ (powerChars p ++ rest)).head?, c.isDigit = false := by
  cases fraction with
  | nil => exact isDigit_head_power hrest p
  | cons =>
    intro c hc
    cases hc
    rfl

/-- Where there is no point, none follows with a digit after it. -/
theorem power_ne_point (hrest : Ends rest) (p : Option (Bool × List Char)) {c : Char}
    {cs : List Char} (hc : c.isDigit = true) : powerChars p ++ rest ≠ '.' :: c :: cs := by
  rcases p with _ | ⟨_ | _, ds⟩
  · intro h
    rw [hrest.point c cs h] at hc
    cases hc
  all_goals exact fun h => by cases h

/-- **Decimals are separated from what follows them.** -/
theorem append_inj (hrest : Ends rest) (htail : Ends tail) (h : t.chars ++ rest = u.chars ++ tail) :
    t = u ∧ rest = tail := by
  rw [chars, chars, List.append_assoc, List.append_assoc, List.append_assoc, List.append_assoc] at h
  obtain ⟨hwhole, h⟩ := Text.run_append_inj t.isDigit_whole u.isDigit_whole
    (isDigit_head_fraction hrest _ _) (isDigit_head_fraction htail _ _) h
  have hfraction : t.fraction = u.fraction ∧
      powerChars t.power ++ rest = powerChars u.power ++ tail := by
    have hdigits := t.isDigit_fraction
    have hdigits' := u.isDigit_fraction
    generalize t.fraction = fs at *
    generalize u.fraction = gs at *
    rcases fs with _ | ⟨f, fs⟩ <;> rcases gs with _ | ⟨g, gs⟩
    · exact ⟨rfl, h⟩
    · exact absurd h (power_ne_point hrest _ (hdigits' g List.mem_cons_self))
    · exact absurd h.symm (power_ne_point htail _ (hdigits f List.mem_cons_self))
    · exact Text.run_append_inj hdigits hdigits' (isDigit_head_power hrest _)
        (isDigit_head_power htail _) (List.cons.inj h).2
  obtain ⟨hpower, hrest'⟩ := power_append_inj hrest htail hfraction.2
  exact ⟨DecimalText.ext hwhole hfraction.1 hpower, hrest'⟩

end DecimalText

namespace Decimal

/-! ## Digits -/

theorem ofDigits_append (cs ds : List Char) :
    ofDigits (cs ++ ds) = ofDigits cs * 10 ^ ds.length + ofDigits ds := by
  have happend : ofDigits (cs ++ ds) = Nat.ofDigitChars 10 ds (ofDigits cs) :=
    Nat.ofDigitChars_append 0
  rw [happend, Nat.ofDigitChars_eq_ofDigitChars_zero, mul_comm]
  rfl

theorem ofDigits_zeros (n : Nat) : ofDigits (List.replicate n '0') = 0 :=
  Nat.ofDigitChars_replicate_zero.trans (Nat.mul_zero _)

theorem ofDigits_toDigits (n : Nat) : ofDigits (Nat.toDigits 10 n) = n :=
  Nat.ofDigitChars_ten_toDigits

theorem isDigit_toDigits {n : Nat} : ∀ c ∈ Nat.toDigits 10 n, c.isDigit = true :=
  fun _ => Nat.isDigit_of_mem_toDigits (by decide) (by decide)

theorem isDigit_zeros {n : Nat} : ∀ c ∈ List.replicate n '0', c.isDigit = true := by
  intro c hc
  rw [List.eq_of_mem_replicate hc]
  rfl

theorem isDigit_append {cs ds : List Char} (hcs : ∀ c ∈ cs, c.isDigit = true)
    (hds : ∀ c ∈ ds, c.isDigit = true) : ∀ c ∈ cs ++ ds, c.isDigit = true := by
  intro c hc
  exact (List.mem_append.1 hc).elim (hcs c) (hds c)

/-! ## Listed numerals -/

/-- A text of digits with a point among them. -/
theorem exists_pointText {s : String} {v : ℚ} (whole fraction : List Char) (hne : whole ≠ [])
    (hne' : fraction ≠ []) (hwhole : ∀ c ∈ whole, c.isDigit = true)
    (hfraction : ∀ c ∈ fraction, c.isDigit = true) (hs : s.toList = whole ++ '.' :: fraction)
    (hv : (ofDigits (whole ++ fraction) : ℚ) * 10 ^ (-(fraction.length : Int)) = v) :
    ∃ t : DecimalText, s.toList = t.chars ∧ t.value = v ∧ t.isPointed = true := by
  obtain ⟨c, cs, rfl⟩ := List.exists_cons_of_ne_nil hne'
  refine ⟨⟨whole, c :: cs, none, hne, hwhole, hfraction, nofun, nofun⟩, ?_, ?_, rfl⟩
  · exact hs.trans (congrArg (whole ++ ·) (List.append_nil _).symm)
  · rw [← hv, DecimalText.value, DecimalText.exponent, zero_sub]

variable {d : Numeral} {point : Int}

/-- A number below one, with zeros after the point. -/
theorem exists_text_small (hpoint : point = d.exponent + (Nat.toDigits 10 d.digits).length)
    (hsmall : point ≤ 0) :
    ∃ t : DecimalText, (placePoint ".0" (Nat.toDigits 10 d.digits) point).toList = t.chars ∧
      t.value = d.value ∧ t.isPointed = true := by
  refine exists_pointText ['0']
    (List.replicate (-point).toNat '0' ++ Nat.toDigits 10 d.digits) (List.cons_ne_nil _ _)
    (fun h => Nat.toDigits_ne_nil (List.append_eq_nil_iff.1 h).2) (by simp)
    (isDigit_append isDigit_zeros isDigit_toDigits) ?_ ?_
  · rw [placePoint, if_pos hsmall, String.toList_append, String.toList_ofList, String.toList_ofList]
    rfl
  · rw [ofDigits_append, ofDigits_append, ofDigits_zeros, ofDigits_toDigits, Numeral.value,
      List.length_append, List.length_replicate, show ofDigits ['0'] = 0 from rfl, Nat.zero_mul,
      Nat.zero_mul, Nat.zero_add, Nat.zero_add]
    congr 2
    omega

/-- A whole number, with zeros before the point. -/
theorem exists_text_whole (hpoint : point = d.exponent + (Nat.toDigits 10 d.digits).length)
    (hpos : 0 < point) (hwhole : ((Nat.toDigits 10 d.digits).length : Int) ≤ point) :
    ∃ t : DecimalText, (placePoint ".0" (Nat.toDigits 10 d.digits) point).toList = t.chars ∧
      t.value = d.value ∧ t.isPointed = true := by
  obtain ⟨n, hn⟩ : ∃ n : Nat, d.exponent = n := ⟨d.exponent.toNat, by omega⟩
  have hzeros : (point - ((Nat.toDigits 10 d.digits).length : Int)).toNat = n := by omega
  refine exists_pointText (Nat.toDigits 10 d.digits ++ List.replicate n '0') ['0']
    (fun h => Nat.toDigits_ne_nil (List.append_eq_nil_iff.1 h).1) (List.cons_ne_nil _ _)
    (isDigit_append isDigit_toDigits isDigit_zeros) (by simp) ?_ ?_
  · rw [placePoint, if_neg (by omega), if_pos hwhole, String.toList_append, String.toList_ofList,
      hzeros]
    rfl
  · rw [ofDigits_append, ofDigits_append, ofDigits_zeros, ofDigits_toDigits, Numeral.value,
      List.length_replicate, show ofDigits ['0'] = 0 from rfl, hn, zpow_natCast]
    push_cast
    norm_num
    ring

/-- A number with digits on both sides of the point. -/
theorem exists_text_between (hpoint : point = d.exponent + (Nat.toDigits 10 d.digits).length)
    (hpos : 0 < point) (hlt : point < ((Nat.toDigits 10 d.digits).length : Int)) :
    ∃ t : DecimalText, (placePoint ".0" (Nat.toDigits 10 d.digits) point).toList = t.chars ∧
      t.value = d.value ∧ t.isPointed = true := by
  have hdigits := isDigit_toDigits (n := d.digits)
  have hvalue := ofDigits_toDigits d.digits
  generalize Nat.toDigits 10 d.digits = ds at *
  have hne : ds.take point.toNat ≠ [] := fun h => by
    have hlen := congrArg List.length h
    rw [List.length_take, List.length_nil] at hlen
    omega
  have hne' : ds.drop point.toNat ≠ [] := fun h => by
    have hlen := congrArg List.length h
    rw [List.length_drop, List.length_nil] at hlen
    omega
  refine exists_pointText _ _ hne hne' (fun c hc => hdigits c (List.mem_of_mem_take hc))
    (fun c hc => hdigits c (List.mem_of_mem_drop hc)) ?_ ?_
  · rw [placePoint, if_neg (by omega), if_neg (by omega), String.toList_append,
      String.toList_append, String.toList_ofList, String.toList_ofList, List.append_assoc,
      String.toList_ofList]
    rfl
  · rw [List.take_append_drop, hvalue, Numeral.value, List.length_drop]
    congr 2
    omega

/-- A number with a power of ten. -/
theorem exists_text_power (hpoint : point = d.exponent + (Nat.toDigits 10 d.digits).length) :
    ∃ t : DecimalText, (withExponent "" (Nat.toDigits 10 d.digits) point).toList = t.chars ∧
      t.value = d.value ∧ t.isPointed = true := by
  have hdigits := isDigit_toDigits (n := d.digits)
  have hvalue := ofDigits_toDigits d.digits
  have hne := Nat.toDigits_ne_nil (n := d.digits) (b := 10)
  generalize Nat.toDigits 10 d.digits = ds at *
  obtain ⟨c, cs, rfl⟩ := List.exists_cons_of_ne_nil hne
  obtain ⟨power, hpower⟩ : ∃ power, power = point - 1 := ⟨_, rfl⟩
  let t : DecimalText :=
    { whole := [c]
      fraction := cs
      power := some (decide (power < 0), Nat.toDigits 10 power.natAbs)
      whole_ne_nil := List.cons_ne_nil _ _
      isDigit_whole := fun x hx => hdigits x (List.mem_singleton.1 hx ▸ List.mem_cons_self)
      isDigit_fraction := fun x hx => hdigits x (List.mem_cons_of_mem c hx)
      power_ne_nil := fun p hp => by cases hp; exact Nat.toDigits_ne_nil
      isDigit_power := fun p hp => by cases hp; exact isDigit_toDigits }
  have hexponent : DecimalText.exponent t.power = power := by
    by_cases hneg : power < 0
    · simp only [t, hneg, decide_true, DecimalText.exponent, ofDigits_toDigits]
      omega
    · simp only [t, hneg, decide_false, DecimalText.exponent, ofDigits_toDigits]
      omega
  refine ⟨t, ?_, ?_, Bool.or_true _⟩
  · have hfraction : (if cs.isEmpty then "" else "." ++ String.ofList cs).toList
        = DecimalText.fractionChars cs := by
      cases cs with
      | nil => rfl
      | cons x cs => exact String.toList_append.trans (congrArg _ String.toList_ofList)
    have hmark : "e".toList ++ ((if power < 0 then "-" else "").toList
        ++ Nat.toDigits 10 power.natAbs) = DecimalText.powerChars t.power := by
      by_cases hneg : power < 0
      · simp only [t, hneg, if_true, decide_true]
        rfl
      · simp only [t, hneg, if_false, decide_false]
        rfl
    rw [DecimalText.chars, ← hfraction, ← hmark, withExponent, ← hpower,
      Nat.toString_eq_ofList_toDigits]
    simp only [String.toList_append, String.toList_ofList, List.append_assoc]
    rfl
  · have hshift : power - (cs.length : Int) = d.exponent := by
      rw [List.length_cons] at hpoint
      omega
    rw [DecimalText.value, hexponent, Numeral.value, ← hvalue, ← hshift]
    rfl

/-- **A numeral is listed as a decimal that spells its value.** -/
theorem exists_text (d : Numeral) :
    ∃ t : DecimalText, (listed.magnitude d).toList = t.chars ∧ t.value = d.value ∧
      t.isPointed = true := by
  rw [Format.magnitude]
  split
  · next hzero =>
    refine exists_pointText ['0'] ['0'] (List.cons_ne_nil _ _) (List.cons_ne_nil _ _) (by simp)
      (by simp) rfl ?_
    rw [Numeral.value, hzero, show ofDigits (['0'] ++ ['0']) = 0 from rfl, Nat.cast_zero, zero_mul,
      zero_mul]
  · obtain ⟨point, hpoint⟩ :
        ∃ point, point = d.exponent + ((Nat.toDigits 10 d.digits).length : Int) := ⟨_, rfl⟩
    simp only [← hpoint]
    split
    · rcases Int.lt_or_le 0 point with hpos | hsmall
      · rcases Int.lt_or_le point (Nat.toDigits 10 d.digits).length with hlt | hwhole
        · exact exists_text_between hpoint hpos hlt
        · exact exists_text_whole hpoint hpos hwhole
      · exact exists_text_small hpoint hsmall
    · exact exists_text_power hpoint

end Decimal

namespace Binary64

/-! ## Doubles without a sign -/

/-- A double that is listed without a sign: a number, and neither negative nor the negative zero. -/
structure IsUnsigned (x : Float) : Prop where
  isNumber : x.isNaN = false
  unsigned : x.toBits.toNat < signBit

variable {x y : Float}

/-- A double is its bits. -/
theorem eq_of_toBits (h : x.toBits = y.toBits) : x = y := by
  obtain ⟨⟨bits, _⟩⟩ := x
  obtain ⟨⟨bits', _⟩⟩ := y
  cases (h : bits = bits')
  rfl

/-- There is one infinite double without a sign. -/
theorem toBits_of_infinite (hx : IsUnsigned x) (h : x.isFinite = false) :
    x.toBits.toBitVec
      = Float.Model.UnpackedFloat.packedInfinity .binary64 .positive := by
  have hpack := Float.Model.UnpackedFloat.pack_unpack_of_valid x.toModel.valid
  have hnumber : x.toModel.unpack.isNaN = false := hx.isNumber
  have hinfinite : x.toModel.unpack.isFinite = false := h
  have hbits : Float.Model.UnpackedFloat.pack .binary64 x.toModel.unpack = x.toBits.toBitVec :=
    hpack
  rw [← hbits]
  cases hu : x.toModel.unpack with
  | notANumber => rw [hu] at hnumber; cases hnumber
  | zero => rw [hu] at hinfinite; cases hinfinite
  | finite => rw [hu] at hinfinite; cases hinfinite
  | infinity s =>
    cases s with
    | positive => rfl
    | negative =>
      rw [hu] at hbits
      have hsign : x.toBits.toBitVec.toNat < signBit := hx.unsigned
      rw [← hbits] at hsign
      exact absurd hsign (by decide)

/-- What decoding a double without a sign yields. -/
theorem decode_of_unsigned (hx : IsUnsigned x) :
    (decode x).negative = false ∧ Decimal.IsDouble (decode x).mantissa (decode x).exponent ∧
      x.toBits.toNat = ((decode x).exponent + 1074).toNat * leastNormal + (decode x).mantissa := by
  have hlt := hx.unsigned
  have hleast : leastNormal = 4503599627370496 := rfl
  have hbit : signBit = 9223372036854775808 := rfl
  simp only [decode]
  generalize x.toBits.toNat = bits at hlt ⊢
  rw [hbit] at hlt ⊢
  rw [hleast]
  refine ⟨?_, ⟨?_, ?_, ?_⟩, ?_⟩
  · rw [Nat.div_eq_of_lt hlt]
    rfl
  all_goals split <;> omega

/-- Doubles with the same magnitude are the same. -/
theorem eq_of_decode (hx : IsUnsigned x) (hy : IsUnsigned y)
    (hm : (decode x).mantissa = (decode y).mantissa)
    (hq : (decode x).exponent = (decode y).exponent) : x = y := by
  refine eq_of_toBits (UInt64.toNat_inj.1 ?_)
  rw [(decode_of_unsigned hx).2.2, (decode_of_unsigned hy).2.2, hm, hq]

end Binary64

namespace Decimal

open Binary64

variable {x y : Float}

theorem write_of_infinite (hx : IsUnsigned x) (h : x.isFinite = false) :
    listed.write x = "inf" := by
  rw [Format.write, hx.isNumber, if_neg Bool.false_ne_true]
  simp only [(decode_of_unsigned hx).1, h, Bool.false_eq_true, if_false]

theorem write_of_finite (hx : IsUnsigned x) (h : x.isFinite = true) :
    listed.write x = listed.magnitude (shortest .up (decode x).mantissa (decode x).exponent) := by
  rw [Format.write, hx.isNumber, if_neg Bool.false_ne_true]
  simp only [(decode_of_unsigned hx).1, h, Bool.false_eq_true, if_false, if_true]
  rfl

/-- A finite double is listed with a point or a power of ten. -/
theorem exists_text_write (hx : IsUnsigned x) (h : x.isFinite = true) :
    ∃ t : DecimalText, (listed.write x).toList = t.chars ∧ t.isPointed = true := by
  obtain ⟨t, hchars, -, hpointed⟩ :=
    exists_text (shortest .up (decode x).mantissa (decode x).exponent)
  exact ⟨t, by rw [write_of_finite hx h, hchars], hpointed⟩

theorem inf_ne_chars (t : DecimalText) : "inf".toList ≠ t.chars := by
  intro h
  obtain ⟨c, cs, hhead, hc⟩ := DecimalText.isDigit_head
    (DecimalText.fractionChars t.fraction ++ DecimalText.powerChars t.power)
    t.whole_ne_nil t.isDigit_whole
  rw [DecimalText.chars, hhead] at h
  obtain ⟨rfl, -⟩ := List.cons.inj h
  cases hc

/-- The value zero is that of no other double. -/
theorem mantissa_eq_zero {m : Nat} {q : Int} (h : IsDouble m q) :
    m = 0 ↔ (shortest .up m q).value = 0 := by
  constructor
  · rintro rfl
    exact zero_mul _
  · intro hvalue
    by_contra hm
    have hpos : 0 < m := Nat.pos_of_ne_zero hm
    have hlow := (rounds_shortest (q := q) .up hpos h.lt).low
    have hend : 0 < lowEnd m q := by
      refine mul_pos (Nat.cast_pos.2 ?_) (zpow_pos two_pos _)
      split <;> omega
    rw [hvalue] at hlow
    exact absurd hlow (not_le.2 hend)

/-- **Doubles that are listed alike are the same.** -/
theorem eq_of_write (hx : IsUnsigned x) (hy : IsUnsigned y) (h : listed.write x = listed.write y) :
    x = y := by
  cases hfx : x.isFinite <;> cases hfy : y.isFinite
  · refine eq_of_toBits (UInt64.toBitVec_inj.1 ?_)
    rw [toBits_of_infinite hx hfx, toBits_of_infinite hy hfy]
  · obtain ⟨t, hchars, -⟩ := exists_text_write hy hfy
    rw [← h, write_of_infinite hx hfx] at hchars
    exact absurd hchars (inf_ne_chars t)
  · obtain ⟨t, hchars, -⟩ := exists_text_write hx hfx
    rw [h, write_of_infinite hy hfy] at hchars
    exact absurd hchars (inf_ne_chars t)
  · rw [write_of_finite hx hfx, write_of_finite hy hfy] at h
    obtain ⟨t, ht, hvalue, -⟩ := exists_text (shortest .up (decode x).mantissa (decode x).exponent)
    obtain ⟨u, hu, hvalue', -⟩ := exists_text (shortest .up (decode y).mantissa (decode y).exponent)
    have hend : DecimalText.Ends [] := ⟨nofun, nofun, nofun⟩
    obtain ⟨rfl, -⟩ := DecimalText.append_inj (t := t) (u := u) hend hend (by rw [← ht, ← hu, h])
    have hsame := hvalue.symm.trans hvalue'
    obtain ⟨-, hdx, -⟩ := decode_of_unsigned hx
    obtain ⟨-, hdy, -⟩ := decode_of_unsigned hy
    rcases Nat.eq_zero_or_pos (decode x).mantissa with hzero | hpos
    · have hzero' := (mantissa_eq_zero hdy).2 (hsame.symm.trans ((mantissa_eq_zero hdx).1 hzero))
      have hleast : ∀ {m : Nat} {q : Int}, IsDouble m q → m = 0 → q = -1074 := by
        intro m q hd hm
        have hq := hd.least
        have hnormal := hd.normal
        omega
      exact eq_of_decode hx hy (hzero.trans hzero'.symm)
        ((hleast hdx hzero).trans (hleast hdy hzero').symm)
    · have hpos' : 0 < (decode y).mantissa := Nat.pos_of_ne_zero fun hzero =>
        hpos.ne' ((mantissa_eq_zero hdx).2 (hsame.trans ((mantissa_eq_zero hdy).1 hzero)))
      have hrounds := rounds_shortest (q := (decode y).exponent) .up hpos' hdy.lt
      rw [← hsame] at hrounds
      obtain ⟨hm, hq⟩ := eq_of_rounds hdx hdy (rounds_shortest .up hpos hdx.lt) hrounds
      exact eq_of_decode hx hy hm hq

end Decimal

/-! ## Doubles that are read -/

namespace Binary64

open Float.Model

/-- The bits up to those of infinity stand for numbers. -/
theorem isNaNBits_of_le {bits : UInt64} (h : bits.toNat ≤ 2047 * leastNormal) :
    @UnpackedFloat.isNaNBits .binary64 bits.toBitVec = false := by
  have hleast : leastNormal = 4503599627370496 := rfl
  have hlow : bits.toNat ≤ 9218868437227405312 := by omega
  refine decide_eq_false fun ⟨hexponent, hmantissa⟩ => hmantissa ?_
  have hexp : bits.toNat / 2 ^ 52 % 2 ^ 11 = 2047 := by
    have hnat := congrArg BitVec.toNat hexponent
    rw [UnpackedFloat.unpackExponent, BitVec.toNat_cast, BitVec.extractLsb_toNat,
      Nat.shiftRight_eq_div_pow] at hnat
    exact hnat
  refine BitVec.eq_of_toNat_eq ?_
  rw [UnpackedFloat.unpackMantissa, BitVec.toNat_cast, BitVec.extractLsb_toNat, Nat.shiftRight_zero]
  change bits.toNat % 2 ^ 52 = 0
  omega

/-- A double is not negative and a number if its bits are at most those of infinity. -/
theorem isUnsigned_ofBits {bits : UInt64} (h : bits.toNat ≤ 2047 * leastNormal) :
    IsUnsigned (Float.ofBits bits) := by
  have hnumber := isNaNBits_of_le h
  have hbits : (Float.ofBits bits).toBits = bits := by
    have hpack := @UnpackedFloat.pack_unpack .binary64 bits.toBitVec (by decide)
    rw [hnumber, if_neg Bool.false_ne_true] at hpack
    exact UInt64.toBitVec_inj.1 hpack
  constructor
  · refine Bool.eq_false_iff.2 fun hnan => ?_
    have hunpack := UnpackedFloat.isNaN_iff.1 hnan
    have hpack := UnpackedFloat.pack_unpack_of_valid (Float.ofBits bits).toModel.valid
    change (Float.ofBits bits).toModel.unpack = _ at hunpack
    change UnpackedFloat.pack .binary64 (Float.ofBits bits).toModel.unpack
      = (Float.ofBits bits).toBits.toBitVec at hpack
    rw [hunpack, hbits] at hpack
    rw [← hpack] at hnumber
    cases UnpackedFloat.isNaNBits_packedNaN.symm.trans hnumber
  · rw [hbits]
    have hleast : leastNormal = 4503599627370496 := rfl
    have hsign : signBit = 9223372036854775808 := rfl
    omega

theorem isUnsigned_nearest (num den : Nat) : IsUnsigned (nearest false num den) := by
  have hbound : nearestBits num den ≤ 2047 * leastNormal := by
    rw [nearestBits]
    split
    · exact Nat.zero_le _
    · exact Nat.min_le_right _ _
  refine isUnsigned_ofBits ?_
  rw [if_neg Bool.false_ne_true, Nat.zero_add, UInt64.toNat_ofNat']
  exact (Nat.mod_le _ _).trans hbound

end Binary64

namespace Decimal

theorem isUnsigned_nearest (digits : Nat) (exponent : Int) :
    Binary64.IsUnsigned (nearest false digits exponent) := by
  simp only [nearest]
  split
  · exact Binary64.isUnsigned_nearest _ _
  · split <;> exact Binary64.isUnsigned_nearest _ _

/-- **A decimal without a sign is read as a double without one.** -/
theorem isUnsigned_of_magnitude? {cs : List Char} {x : Float}
    (h : magnitude? false cs = some x) : Binary64.IsUnsigned x := by
  rw [magnitude?] at h
  split at h
  next fraction rest _ =>
    simp only at h
    split at h
    · cases h
    split at h
    · cases h
      exact isUnsigned_nearest _ _
    split at h
    · obtain ⟨power, -, rfl⟩ := Option.map_eq_some_iff.1 h
      exact isUnsigned_nearest _ _
    · cases h

end Decimal

end Stepwise
