import Stepwise.Snapshot

/-!
# What a snapshot shows, without identities

A snapshot is a list of entries searched by kind and name, and its items carry identities.  Most
statements about replay are about neither: they ask which values the container of a given kind and
name shows.  This file is the translation.

* `Snapshot.get?_apply` says what a command does to *every* look-up: it changes the one that it
  names and no other.  Nothing after this file takes the list of entries apart.
* `Holding.values` forgets the identities, and `Command.act` is what a command does to the values
  that are left.  `Holding.values_apply` says that forgetting commutes with carrying out.
* `Snapshot.values_apply` puts the two together.

In the end, `Snapshot.tryReplay_eq` says which logs a viewer can show.
-/

set_option autoImplicit false

namespace Stepwise

/-! ## Looking up after a command -/

namespace Holding

@[simp]
theorem target_empty (t : Target) : (empty t).target = t := by
  cases t <;> rfl

/-- A command does not change the kind of a container. -/
@[simp]
theorem target_apply (h : Holding) (c : Command) (issued : Nat) :
    (h.apply c issued).1.target = h.target := by
  unfold apply
  split <;> rfl

end Holding

theorem Entry.isNamed_iff {e : Entry} {t : Target} {n : String} :
    e.isNamed t n = true ↔ e.holding.target = t ∧ e.name = n := by
  simp [Entry.isNamed]

namespace Snapshot

/-- What the container of the given kind and name holds: nothing, if it was never mentioned. -/
def holding (s : Snapshot) (t : Target) (n : String) : Holding :=
  ((s.get? t n).map Entry.holding).getD (.empty t)

theorem find?_applyTo (c : Command) (issued : Nat) (t : Target) (n : String) (es : List Entry) :
    (applyTo c issued es).1.find? (fun e => e.isNamed t n)
      = if c.target = t ∧ c.name = n then
          some ⟨n, ((((es.find? fun e => e.isNamed t n).map Entry.holding).getD
            (.empty t)).apply c issued).1⟩
        else es.find? fun e => e.isNamed t n := by
  induction es with
  | nil =>
    rw [applyTo, List.find?_singleton, List.find?_nil]
    simp only [Entry.isNamed_iff, Holding.target_apply, Holding.target_empty]
    split
    · next h => obtain ⟨rfl, rfl⟩ := h; rfl
    · rfl
  | cons e es ih =>
    rw [applyTo]
    by_cases he : e.isNamed c.target c.name = true
    · -- The entry that the command names: it is the one looked up, or the look-up passes it by.
      rw [if_pos he, List.find?_cons, List.find?_cons]
      have hname := Entry.isNamed_iff.1 he
      by_cases ht : c.target = t ∧ c.name = n
      · obtain ⟨rfl, rfl⟩ := ht
        have hnew : Entry.isNamed { e with holding := (e.holding.apply c issued).1 } c.target c.name
            = true := Entry.isNamed_iff.2 ⟨by simpa using hname.1, hname.2⟩
        simp only [hnew, he, and_self, if_true, Option.map_some, Option.getD_some]
        rw [hname.2]
      · have hnew :
            Entry.isNamed { e with holding := (e.holding.apply c issued).1 } t n = false := by
          rw [Bool.eq_false_iff, Ne, Entry.isNamed_iff, Holding.target_apply, hname.1, hname.2]
          exact ht
        have hold : e.isNamed t n = false := by
          rw [Bool.eq_false_iff, Ne, Entry.isNamed_iff, hname.1, hname.2]
          exact ht
        simp only [hnew, hold, if_neg ht]
    · rw [if_neg he, List.find?_cons, List.find?_cons]
      cases ht : e.isNamed t n with
      | true =>
        have hne : ¬(c.target = t ∧ c.name = n) := by
          rintro ⟨rfl, rfl⟩
          exact he ht
        simp only [if_neg hne]
      | false => exact ih

/-- **A command changes the container that it names and no other.** -/
theorem get?_apply (s : Snapshot) (c : Command) (t : Target) (n : String) :
    (s.apply c).get? t n
      = if c.target = t ∧ c.name = n then some ⟨n, ((s.holding t n).apply c s.issued).1⟩
        else s.get? t n :=
  find?_applyTo c s.issued t n s.entries

theorem get?_apply_of_ne {s : Snapshot} {c : Command} {t : Target} {n : String}
    (h : ¬(c.target = t ∧ c.name = n)) : (s.apply c).get? t n = s.get? t n := by
  rw [get?_apply, if_neg h]

@[simp]
theorem target_holding (s : Snapshot) (t : Target) (n : String) : (s.holding t n).target = t := by
  rw [holding]
  cases h : s.get? t n with
  | none => simp
  | some e =>
    have he := List.find?_some h
    exact (Entry.isNamed_iff.1 he).1

end Snapshot

/-! ## Values without identities -/

/-- The values that a container holds, in order; an empty slot has none. -/
def Holding.values : Holding → List (Option Scalar)
  | .stack items | .queue items | .linkedList items => items.map fun item => some item.value
  | .array slots => slots.toList.map Slot.value

/-- What a command does to the values of a container of kind `t`. -/
def Command.act (c : Command) (t : Target) (values : List (Option Scalar)) : List (Option Scalar) :=
  match c.action, t with
  | .push, .stack | .enqueue, .queue | .listInsert, .linkedList => values ++ c.value.toList.map some
  | .pop, .stack => values.dropLast
  | .dequeue, .queue => values.tail
  | .listRemove, .linkedList =>
    match c.value with
    | some v => values.eraseP fun value => value.any fun item => item.agrees v
    | none => values.dropLast
  | .arrayDeclare, .array => List.replicate ((c.size.map UInt64.toNat).getD 0) none
  | .arraySet, .array =>
    match c.index with
    | some i => values.set i.toNat c.value
    | none => values
  | _, _ => values

namespace Holding

@[simp]
theorem values_empty (t : Target) : (empty t).values = [] := by
  cases t <;> rfl

theorem map_entering (c : Command) (issued : Nat) :
    (entering c issued).map (fun item => some item.value) = c.value.toList.map some := by
  rw [entering]
  cases c.value <;> rfl

theorem map_freshSlots (size issued : Nat) :
    (freshSlots size issued).toList.map Slot.value = List.replicate size none := by
  rw [freshSlots, Array.toList_ofFn, List.map_ofFn, List.eq_replicate_iff]
  simp

theorem map_write (slots : Array Slot) (index : Option UInt64) (value : Option Scalar) :
    (write slots index value).toList.map Slot.value
      = match index with
        | some i => (slots.toList.map Slot.value).set i.toNat value
        | none => slots.toList.map Slot.value := by
  cases index with
  | none => rfl
  | some i =>
    rw [write]
    apply List.ext_getElem?
    intro k
    simp only [Array.toList_modify, List.getElem?_map, List.getElem?_modify, List.getElem?_set,
      List.length_map]
    by_cases hk : i.toNat = k
    · subst hk
      by_cases hlt : i.toNat < slots.size <;> simp [hlt]
    · simp [hk]

theorem map_unlink (nodes : List Item) (value : Option Scalar) :
    (unlink nodes value).map (fun item => some item.value)
      = match value with
        | some v => (nodes.map fun item => some item.value).eraseP fun value =>
            value.any fun item => item.agrees v
        | none => (nodes.map fun item => some item.value).dropLast := by
  cases value with
  | none => rw [unlink, List.map_dropLast]
  | some v =>
    simp only [unlink, List.eraseP_map]
    rfl

/-- **Forgetting identities commutes with carrying out a command.** -/
theorem values_apply (h : Holding) (c : Command) (issued : Nat) :
    (h.apply c issued).1.values = c.act h.target h.values := by
  unfold apply Command.act
  cases c.action <;> cases h <;>
    simp only [values, target, List.map_append, map_entering, List.map_dropLast, List.map_tail,
      map_freshSlots, map_write, map_unlink]

end Holding

/-- The values of the container of the given kind and name: none, if it was never mentioned. -/
def Snapshot.values (s : Snapshot) (t : Target) (n : String) : List (Option Scalar) :=
  (s.holding t n).values

/-- **What a command does to the values of every container.** -/
theorem Snapshot.values_apply (s : Snapshot) (c : Command) (t : Target) (n : String) :
    (s.apply c).values t n
      = if c.target = t ∧ c.name = n then c.act t (s.values t n) else s.values t n := by
  rw [values, holding, get?_apply]
  split
  · rw [Option.map_some, Option.getD_some, Holding.values_apply, target_holding, values]
  · rfl

/-! ## Logs that can be shown -/

namespace Snapshot

theorem foldlM_tryApply (commands : List Command) (s : Snapshot) :
    commands.foldlM tryApply s
      = if commands.all admits then some (commands.foldl apply s) else none := by
  induction commands generalizing s with
  | nil => rfl
  | cons c commands ih =>
    rw [List.foldlM_cons, List.all_cons, tryApply]
    cases admits c with
    | false => rfl
    | true => exact ih (s.apply c)

/-- **What replay is for a viewer that may break down.**  It is replay as it is taken everywhere
else, unless one of the commands declares an array with too many slots. -/
theorem tryReplay_eq (log : Log) (cursor : Option Nat) :
    tryReplay log cursor
      = if (log.take (applied cursor)).all admits then some (replay log cursor) else none :=
  foldlM_tryApply _ _

end Snapshot

end Stepwise
