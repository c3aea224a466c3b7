import Stepwise.Proofs.Recorder.Handles
import Stepwise.Proofs.Recorder.Contract

/-!
# Elements of an array read what was written last

An array keeps its elements in two places: in its slots, and beyond them in a table under the text
of the index.  A read and a write each choose the place for themselves, from an index of any kind,
so that what a read finds depends on whether both classify every index alike.  They do: an index
stands for a *location*, which is a slot if it denotes one and the text of the index otherwise, and
an array behaves as a function from locations to values.  In particular `1` and `1.0` are one
location inside of the slots, and `7`, `7.0` and the text `7` are one location of a shorter array.

* `Value.SameLocation` says when two indices stand for one location of an array of `n` slots;
  `Value.sameLocation_iff` computes it.
* `Slots.get_of_set` is what a single write that succeeds changes for every read.
* `Slots.writeAll` writes several elements in a row, and `Slots.written` lists the writes that
  succeed.  `Slots.get_writeAll` follows a read through all of them.
-/

set_option autoImplicit false

namespace Stepwise

/-! ## Locations -/

namespace Value

variable {n : Nat} {v w : Value}

/-- The index denotes the slot `i` of an array of `n` slots. -/
def Denotes (index : Value) (n : Nat) (i : UInt64) : Prop :=
  index.index? = some i ∧ i.toNat < n

/-- Two indices stand for the same location of an array of `n` slots: both denote one slot, or
neither denotes a slot and their texts are equal. -/
inductive SameLocation (n : Nat) (v w : Value) : Prop where
  | slot (i : UInt64) (left : v.Denotes n i) (right : w.Denotes n i)
  | beyond (left : ∀ i, ¬ v.Denotes n i) (right : ∀ i, ¬ w.Denotes n i) (text : v.text = w.text)

/-- The location that an index stands for: a slot, or the text under which an element is kept beyond
the slots. -/
def location (n : Nat) (index : Value) : UInt64 ⊕ String :=
  match index.index?.filter fun i => i.toNat < n with
  | some i => .inl i
  | none => .inr index.text

theorem denotes_iff {index : Value} {i : UInt64} :
    index.Denotes n i ↔ index.index?.filter (fun i => i.toNat < n) = some i := by
  rw [Denotes, Option.filter_eq_some_iff, decide_eq_true_iff]

theorem forall_not_denotes_iff {index : Value} :
    (∀ i, ¬ index.Denotes n i) ↔ index.index?.filter (fun i => i.toNat < n) = none := by
  simp only [denotes_iff, Option.eq_none_iff_forall_ne_some, ne_eq]

theorem sameLocation_iff : v.SameLocation n w ↔ v.location n = w.location n := by
  constructor
  · rintro (⟨i, hv, hw⟩ | ⟨hv, hw, htext⟩)
    · rw [location, location, denotes_iff.1 hv, denotes_iff.1 hw]
    · rw [location, location, forall_not_denotes_iff.1 hv, forall_not_denotes_iff.1 hw, htext]
  · intro h
    rw [location, location] at h
    split at h <;> rename_i hv <;> split at h <;> rename_i hw
    · cases h
      exact .slot _ (denotes_iff.2 hv) (denotes_iff.2 hw)
    · cases h
    · cases h
    · exact .beyond (forall_not_denotes_iff.2 hv) (forall_not_denotes_iff.2 hw) (Sum.inr.inj h)

instance : Decidable (v.SameLocation n w) :=
  decidable_of_iff _ sameLocation_iff.symm

instance {index : Value} : Decidable (∃ i, index.Denotes n i) :=
  decidable_of_iff ((index.index?.filter fun i => i.toNat < n).isSome) <| by
    simp only [denotes_iff, Option.isSome_iff_exists]

/-- What is read from a slot is the value that was stored in it. -/
theorem elim_toScalar? (h : v.isStorable = true) : v.toScalar?.elim null ofScalar = v := by
  cases v with
  | float x =>
    have hfinite : (float x).toScalar? = some (.float x) :=
      if_pos (by by_contra hx; simp [isStorable, toScalar?, hx] at h)
    rw [hfinite]
    rfl
  | undefined | container _ => cases h
  | int _ | str _ | bool _ | null => rfl

end Value

/-! ## One write -/

namespace Slots

variable {a a' : Slots} {array : String} {index value : Value} {change : Option Change}

/-- The element at a location. -/
def element (a : Slots) : UInt64 ⊕ String → Value
  | .inl i => (a.slots.getD i.toNat none).elim .null Value.ofScalar
  | .inr key => (a.beyond.get? key).getD .undefined

theorem location_of_slot {i : UInt64} (h : a.slot? index = some i) :
    index.location a.slots.size = .inl i := by
  rw [slot?] at h
  rw [Value.location, h]

theorem location_of_beyond (h : a.slot? index = none) :
    index.location a.slots.size = .inr index.text := by
  rw [slot?] at h
  rw [Value.location, h]

theorem get_eq_element (a : Slots) (v : Value) :
    a.get v = a.element (v.location a.slots.size) := by
  rw [get]
  cases h : a.slot? v with
  | none => rw [location_of_beyond h, element]
  | some i =>
    rw [location_of_slot h, element]
    dsimp only
    cases a.slots.getD i.toNat none <;> rfl

/-- A write that succeeds changes the element at the location of its index and no other. -/
theorem element_of_set (h : a.set array index value = .ok (a', change)) (l : UInt64 ⊕ String) :
    a'.element l = if l = index.location a.slots.size then value else a.element l := by
  cases hindex : a.slot? index with
  | some i =>
    rw [set_slot hindex] at h
    split at h
    swap
    · cases h
    rename_i hvalue
    cases h
    have hsize := (slot?_eq_some.1 hindex).2
    rw [location_of_slot hindex]
    cases l with
    | inr key => rw [if_neg Sum.inr_ne_inl]; rfl
    | inl j =>
      by_cases hij : j = i
      · subst hij
        rw [if_pos rfl]
        simpa [element, hsize] using Value.elim_toScalar? hvalue
      · have hne : i.toNat ≠ j.toNat := fun heq => hij (UInt64.toNat.inj heq).symm
        rw [if_neg fun heq => hij (Sum.inl.inj heq)]
        simp [element, Array.getElem?_setIfInBounds_ne hne]
  | none =>
    rw [set_beyond hindex] at h
    cases h
    rw [location_of_beyond hindex]
    cases l with
    | inl j => rw [if_neg Sum.inl_ne_inr]; rfl
    | inr key =>
      simp only [element, Table.get?_insert, Sum.inr.injEq]
      split <;> rfl

/-- **A write that succeeds** is read back at its location, and changes what is read at no other. -/
theorem get_of_set (h : a.set array index value = .ok (a', change)) (v : Value) :
    a'.get v = if v.SameLocation a.slots.size index then value else a.get v := by
  simp only [get_eq_element, (values_set h).2, element_of_set h, Value.sameLocation_iff]

/-! ## Writes in a row -/

/-- What is written, and where. -/
structure Write where
  index : Value
  value : Value

/-- The array after a write; one that fails leaves it as it is. -/
def write (a : Slots) (array : String) (w : Write) : Slots :=
  match a.set array w.index w.value with
  | .ok (a', _) => a'
  | .error _ => a

/-- The array after the writes of a list, from the first to the last. -/
def writeAll (a : Slots) (array : String) (ws : List Write) : Slots :=
  ws.foldl (fun a w => a.write array w) a

/-- The writes of a list that succeed when they are made one after the other. -/
def written (a : Slots) (array : String) : List Write → List Write
  | [] => []
  | w :: ws =>
    if (a.set array w.index w.value).isOk then w :: (a.write array w).written array ws
    else (a.write array w).written array ws

theorem size_write (a : Slots) (array : String) (w : Write) :
    (a.write array w).slots.size = a.slots.size := by
  rw [write]
  split
  · rename_i h
    exact (values_set h).2
  · rfl

theorem size_writeAll (a : Slots) (array : String) (ws : List Write) :
    (a.writeAll array ws).slots.size = a.slots.size := by
  induction ws generalizing a with
  | nil => rfl
  | cons w ws ih => exact (ih (a.write array w)).trans (a.size_write array w)

theorem get_write (a : Slots) (array : String) (w : Write) (v : Value) :
    (a.write array w).get v =
      if (a.set array w.index w.value).isOk ∧ v.SameLocation a.slots.size w.index then w.value
      else a.get v := by
  rw [write]
  cases h : a.set array w.index w.value with
  | error e => simp [Except.isOk, Except.toBool]
  | ok r => simpa [Except.isOk, Except.toBool] using get_of_set h v

/-- **What is read after any writes**: the value of the last one that succeeded at the location, and
what was there before if there is none. -/
theorem get_writeAll (a : Slots) (array : String) (ws : List Write) (v : Value) :
    (a.writeAll array ws).get v =
      ((a.written array ws).filter fun w => v.SameLocation a.slots.size w.index).getLast?.elim
        (a.get v) Write.value := by
  induction ws generalizing a with
  | nil => rfl
  | cons w ws ih =>
    have hrest := ih (a.write array w)
    rw [size_write, get_write] at hrest
    rw [show a.writeAll array (w :: ws) = (a.write array w).writeAll array ws from rfl, hrest,
      written]
    by_cases hok : (a.set array w.index w.value).isOk
    · rw [if_pos hok, List.filter_cons]
      by_cases hsame : v.SameLocation a.slots.size w.index
      · rw [if_pos ⟨hok, hsame⟩, if_pos (decide_eq_true hsame), List.getLast?_cons]
        cases List.getLast? _ <;> rfl
      · rw [if_neg fun h => hsame h.2, if_neg (by rwa [decide_eq_true_iff])]
    · rw [if_neg fun h => hok h.1, if_neg hok]

/-- An array that nothing was written to is `null` in every slot and `undefined` beyond. -/
theorem get_blank (size : UInt64) (v : Value) :
    (blank size).get v = if ∃ i, v.Denotes size.toNat i then Value.null else Value.undefined := by
  have hsize : (blank size).slots.size = size.toNat := Array.size_replicate
  rw [get_eq_element]
  cases h : (blank size).slot? v with
  | some i =>
    have hi := slot?_eq_some.1 h
    rw [hsize] at hi
    rw [location_of_slot h, if_pos ⟨i, hi⟩]
    simp [element, blank, hi.2]
  | none =>
    rw [location_of_beyond h, if_neg]
    · rfl
    · rintro ⟨i, hi⟩
      rw [← hsize] at hi
      exact Value.forall_not_denotes_iff.2 h i hi

/-- **Elements are read as they were written last.**  After any writes to a new array, an element is
the value of the last write that succeeded at its location; without one it is `null` in a slot and
`undefined` beyond.  A further write that fails, or that is at another location, does not change it,
and the length remains what it was declared to be. -/
theorem reads_last_write (size : UInt64) (array : String) (ws : List Write) (v : Value) :
    ((blank size).writeAll array ws).slots.size = size.toNat ∧
      ((blank size).writeAll array ws).get v =
        (((blank size).written array ws).filter fun w =>
            v.SameLocation size.toNat w.index).getLast?.elim
          (if ∃ i, v.Denotes size.toNat i then Value.null else Value.undefined) Write.value ∧
      ∀ w : Write,
        (((blank size).writeAll array ws).set array w.index w.value).isOk = false ∨
            ¬ v.SameLocation size.toNat w.index →
          (((blank size).writeAll array ws).write array w).get v =
            ((blank size).writeAll array ws).get v := by
  have hsize : (blank size).slots.size = size.toNat := Array.size_replicate
  have hlength : ((blank size).writeAll array ws).slots.size = size.toNat :=
    (size_writeAll _ _ _).trans hsize
  refine ⟨hlength, ?_, fun w hw => ?_⟩
  · rw [get_writeAll, get_blank, hsize]
  · rw [get_write, hlength, if_neg]
    rintro ⟨hok, hsame⟩
    exact hw.elim (fun h => Bool.false_ne_true (h.symm.trans hok)) fun h => h hsame

/-- A text is a location of its own beside the slot with the same number. -/
theorem reads_last_write_besideText :
    ((blank 2).writeAll "a" [⟨.int 1, .int 7⟩, ⟨.str "1", .bool true⟩]).get (.int 1) = .int 7 ∧
      (((blank 2).writeAll "a" [⟨.int 1, .int 7⟩]).write "a" ⟨.str "1", .bool true⟩).get (.int 1) =
        .int 7 := by
  obtain ⟨-, hread, -⟩ :=
    reads_last_write 2 "a" [⟨.int 1, .int 7⟩, ⟨.str "1", .bool true⟩] (.int 1)
  obtain ⟨-, hbefore, hother⟩ := reads_last_write 2 "a" [⟨.int 1, .int 7⟩] (.int 1)
  have hapart : ¬ (Value.int 1).SameLocation (2 : UInt64).toNat (.str "1") := by
    decide
  exact ⟨hread.trans rfl, (hother _ (.inr hapart)).trans (hbefore.trans rfl)⟩

end Slots

end Stepwise
