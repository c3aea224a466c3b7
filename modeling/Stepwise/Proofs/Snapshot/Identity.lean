import Mathlib.Data.List.Nodup
import Mathlib.Data.List.Range
import Stepwise.Proofs.Snapshot.Independence

/-!
# Identities of items

A viewer follows an item from one snapshot to the next by its identity.  This file proves that it
can: an identity stands for one element of one container, for as long as that element is there, and
it is not used again afterwards.

* `Snapshot.elements` lists what has an identity, each with what never changes about it: its
  container, and the value of an item or the index of a slot.
* `Holding.features_apply` says what a command does to the elements of its container.  It keeps some
  of them, in their order, and appends new ones, which take the next identities one by one.
* `Snapshot.Identified` is the invariant of single snapshots, and `Snapshot.Precedes` relates an
  earlier snapshot to a later one: what is in the later one is in the earlier one as well, or has an
  identity that had not been given out by then.
* `identities_stable` states both for the snapshots of a log.
-/

set_option autoImplicit false

namespace Stepwise

/-- What an element of a container keeps as long as it is there: an item its value, and a slot of an
array its index. -/
inductive Feature where
  | value (v : Scalar)
  | index (i : Nat)

/-- Something with an identity: where it is, and what it keeps. -/
structure Element where
  id : Nat
  target : Target
  name : String
  feature : Feature

/-! ## The elements of a container -/

namespace Holding

/-- The identities in a container, in order, each with what its element keeps. -/
def features : Holding → List (Nat × Feature)
  | stack items | queue items | linkedList items =>
    items.map fun item => (item.id, .value item.value)
  | array slots => slots.toList.map fun slot => (slot.id, .index slot.index)

@[simp]
theorem features_empty (t : Target) : (empty t).features = [] := by
  cases t <;> rfl

/-- How a command changes the elements of a container, where `issued` identities have been given
out: some of them are kept, in their order, and new ones follow, with the next identities. -/
def Renewal (issued : Nat) (before after : List (Nat × Feature)) (issued' : Nat) : Prop :=
  ∃ kept new, kept.Sublist before ∧ after = kept ++ new ∧
    new.map Prod.fst = List.range' (issued + 1) new.length ∧ issued' = issued + new.length

theorem Renewal.of_sublist {issued : Nat} {before after : List (Nat × Feature)}
    (h : after.Sublist before) : Renewal issued before after issued :=
  ⟨after, [], h, (List.append_nil after).symm, rfl, rfl⟩

theorem renewal_entering (items : List Item) (c : Command) (issued : Nat) :
    Renewal issued (items.map fun item => (item.id, .value item.value))
      ((items ++ entering c issued).map fun item => (item.id, .value item.value))
      (issued + (entering c issued).length) := by
  refine ⟨_, (entering c issued).map fun item => (item.id, .value item.value), List.Sublist.refl _,
    List.map_append, ?_, by simp⟩
  rw [entering]
  cases c.value <;> rfl

theorem renewal_freshSlots (before : List (Nat × Feature)) (size issued : Nat) :
    Renewal issued before
      ((freshSlots size issued).toList.map fun slot => (slot.id, .index slot.index))
      (issued + size) := by
  refine ⟨[], _, List.nil_sublist _, rfl, ?_, by simp [freshSlots]⟩
  rw [List.map_map]
  apply List.ext_getElem
  · simp [freshSlots]
  · intro i _ _
    simp [freshSlots]
    omega

theorem features_write (slots : Array Slot) (index : Option UInt64) (value : Option Scalar) :
    (write slots index value).toList.map (fun slot => (slot.id, Feature.index slot.index))
      = slots.toList.map fun slot => (slot.id, .index slot.index) := by
  cases index with
  | none => rfl
  | some i =>
    rw [write, Array.toList_modify]
    apply List.ext_getElem?
    intro k
    simp only [List.getElem?_map, List.getElem?_modify]
    by_cases hk : i.toNat = k
    · subst hk
      cases slots.toList[i.toNat]? <;> simp
    · simp [hk]

theorem unlink_sublist (nodes : List Item) (value : Option Scalar) :
    (unlink nodes value).Sublist nodes := by
  cases value with
  | none => exact List.dropLast_sublist nodes
  | some v => exact List.eraseP_sublist

/-- **What a command does to the elements of its container.** -/
theorem features_apply (h : Holding) (c : Command) (issued : Nat) :
    Renewal issued h.features (h.apply c issued).1.features (h.apply c issued).2 := by
  unfold apply
  split
  · exact renewal_entering _ c issued
  · exact renewal_entering _ c issued
  · exact renewal_entering _ c issued
  · exact .of_sublist ((List.dropLast_sublist _).map _)
  · exact .of_sublist ((List.tail_sublist _).map _)
  · exact .of_sublist ((unlink_sublist _ _).map _)
  · exact renewal_freshSlots _ _ issued
  · exact .of_sublist (by rw [features, features_write]; exact List.Sublist.refl _)
  · exact .of_sublist (List.Sublist.refl _)

/-- The identities in a container, in order. -/
def ids (h : Holding) : List Nat :=
  h.features.map Prod.fst

/-- The contents of a container are in order, where `issued` identities have been given out. -/
structure Ordered (issued : Nat) (h : Holding) : Prop where
  /-- Identities increase from each element to the next. -/
  increasing : h.ids.Pairwise (· < ·)
  /-- Every identity has been given out. -/
  range : ∀ id ∈ h.ids, 1 ≤ id ∧ id ≤ issued
  /-- The slot at each position of an array has that position as its index. -/
  placed : ∀ slots : Array Slot, h = array slots →
    ∀ (i : Nat) (slot : Slot), slots[i]? = some slot → slot.index = i

theorem ordered_empty (issued : Nat) (t : Target) : (empty t).Ordered issued := by
  refine ⟨by simp [ids], fun id hid => ?_, fun slots h i slot hslot => ?_⟩
  · simp [ids] at hid
  · cases t <;> cases h
    simp at hslot

theorem Ordered.mono {issued issued' : Nat} {h : Holding} (ho : h.Ordered issued)
    (hle : issued ≤ issued') : h.Ordered issued' :=
  ⟨ho.increasing, fun id hid => ⟨(ho.range id hid).1, (ho.range id hid).2.trans hle⟩, ho.placed⟩

theorem placed_write {slots slots' : Array Slot} {index : Option UInt64} {value : Option Scalar}
    (h : ∀ (i : Nat) (slot : Slot), slots[i]? = some slot → slot.index = i)
    (hw : array (write slots index value) = array slots') (i : Nat) (slot : Slot)
    (hslot : slots'[i]? = some slot) : slot.index = i := by
  cases hw
  cases index with
  | none => exact h i slot hslot
  | some k =>
    rw [write, Array.getElem?_modify] at hslot
    split at hslot
    · obtain ⟨old, hold, rfl⟩ := Option.map_eq_some_iff.1 hslot
      exact h i old hold
    · exact h i slot hslot

theorem placed_freshSlots {size issued : Nat} {slots : Array Slot}
    (hf : array (freshSlots size issued) = array slots) (i : Nat) (slot : Slot)
    (hslot : slots[i]? = some slot) : slot.index = i := by
  cases hf
  obtain ⟨hi, rfl⟩ := Array.getElem?_eq_some_iff.1 hslot
  simp [freshSlots]

theorem Ordered.placed_apply {issued : Nat} {h : Holding} (ho : h.Ordered issued) (c : Command) :
    ∀ slots : Array Slot, (h.apply c issued).1 = array slots →
      ∀ (i : Nat) (slot : Slot), slots[i]? = some slot → slot.index = i := by
  intro slots hs
  unfold apply at hs
  split at hs
  case h_7 => exact placed_freshSlots hs
  case h_8 => exact placed_write (ho.placed _ rfl) hs
  case h_9 => exact ho.placed slots hs
  all_goals cases hs

/-- A command keeps the contents of its container in order: what is new comes last, and its
identities come after all others. -/
theorem Ordered.apply {issued : Nat} {h : Holding} (ho : h.Ordered issued) (c : Command) :
    (h.apply c issued).1.Ordered (h.apply c issued).2 := by
  obtain ⟨kept, new, hkept, hafter, hnew, hissued⟩ := h.features_apply c issued
  have hids : (h.apply c issued).1.ids
      = kept.map Prod.fst ++ List.range' (issued + 1) new.length := by
    rw [ids, hafter, List.map_append, hnew]
  have hsub : (kept.map Prod.fst).Sublist h.ids := hkept.map _
  refine ⟨?_, fun id hid => ?_, ho.placed_apply c⟩
  · rw [hids, List.pairwise_append]
    refine ⟨ho.increasing.sublist hsub, List.pairwise_lt_range', fun id hid id' hid' => ?_⟩
    have hle := (ho.range id (hsub.subset hid)).2
    have hlt := (List.mem_range'_1.1 hid').1
    omega
  · rw [hissued]
    rcases List.mem_append.1 (hids ▸ hid) with hid | hid
    · have := ho.range id (hsub.subset hid)
      omega
    · have := List.mem_range'_1.1 hid
      omega

end Holding

/-! ## The elements of a snapshot -/

/-- The elements of an entry, in order. -/
def Entry.elements (e : Entry) : List Element :=
  e.holding.features.map fun f => ⟨f.1, e.holding.target, e.name, f.2⟩

namespace Snapshot

/-- The elements of all containers. -/
def elements (s : Snapshot) : List Element :=
  s.entries.flatMap Entry.elements

/-- The identities of all elements. -/
def ids (s : Snapshot) : List Nat :=
  s.elements.map Element.id

theorem mem_ids_iff {s : Snapshot} {id : Nat} :
    id ∈ s.ids ↔ ∃ e ∈ s.entries, id ∈ e.holding.ids := by
  simp [ids, elements, Entry.elements, Holding.ids, List.mem_flatMap]

theorem elements_mentioned (c : Command) (es : List Entry) :
    (mentioned c es).flatMap Entry.elements = es.flatMap Entry.elements := by
  rw [mentioned]
  split
  · rfl
  · simp [Entry.elements]

/-- **What a command does to the elements of a snapshot.**  In one container some are kept and new
ones follow, and the rest stay as they are. -/
theorem elements_apply (s : Snapshot) (c : Command) :
    ∃ before old after kept new, s.elements = before ++ old ++ after ∧ kept.Sublist old ∧
      (s.apply c).elements = before ++ (kept ++ new) ++ after ∧
      new.map Element.id = List.range' (s.issued + 1) new.length ∧
      (s.apply c).issued = s.issued + new.length := by
  obtain ⟨before, e, after, hsplit, -, happly⟩ := applyTo_split c s.issued s.entries
  obtain ⟨kept, new, hkept, hafter, hnew, hissued⟩ := e.holding.features_apply c s.issued
  let mark (f : Nat × Feature) : Element := ⟨f.1, e.holding.target, e.name, f.2⟩
  refine ⟨before.flatMap Entry.elements, e.elements, after.flatMap Entry.elements, kept.map mark,
    new.map mark, ?_, hkept.map mark, ?_, ?_, ?_⟩
  · rw [elements, ← elements_mentioned c, hsplit]
    simp
  · rw [elements, apply, happly]
    simp [Entry.elements, hafter, mark]
  · rw [List.map_map, List.length_map, ← hnew]
    rfl
  · rw [List.length_map, apply, happly, ← hissued]

/-! ## Single snapshots -/

/-- **The identities of a snapshot are in order.** -/
structure Identified (s : Snapshot) : Prop where
  /-- There is at most one container of each kind and name. -/
  keys : s.keys.Nodup
  /-- No two elements share an identity, whichever containers they are in. -/
  distinct : s.ids.Nodup
  /-- The contents of every container are in order. -/
  ordered : ∀ e ∈ s.entries, e.holding.Ordered s.issued

theorem identified_start : Identified {} where
  keys := List.nodup_nil
  distinct := List.nodup_nil
  ordered _ h := by cases h

variable {s : Snapshot}

theorem Identified.le_issued (h : s.Identified) {id : Nat} (hid : id ∈ s.ids) : id ≤ s.issued := by
  obtain ⟨e, he, hid⟩ := mem_ids_iff.1 hid
  exact ((h.ordered e he).range id hid).2

theorem issued_le_apply (s : Snapshot) (c : Command) : s.issued ≤ (s.apply c).issued := by
  obtain ⟨-, -, -, -, new, -, -, -, -, hissued⟩ := s.elements_apply c
  omega

theorem Identified.keys_apply (h : s.Identified) (c : Command) : (s.apply c).keys.Nodup := by
  rw [Snapshot.keys_apply]
  split
  · exact h.keys
  · next hnew =>
    refine List.nodup_append.2 ⟨h.keys, List.nodup_singleton _, fun k hk k' hk' => ?_⟩
    rw [List.mem_singleton.1 hk']
    exact fun heq => hnew (heq ▸ hk)

theorem Identified.distinct_apply (h : s.Identified) (c : Command) : (s.apply c).ids.Nodup := by
  obtain ⟨before, old, after, kept, new, hs, hkept, hs', hnew, -⟩ := s.elements_apply c
  -- As far as repetitions are concerned, the new identities may as well come last.
  have hperm : (s.apply c).ids.Perm ((before ++ kept ++ after).map Element.id ++
      List.range' (s.issued + 1) new.length) := by
    rw [ids, hs', ← hnew, ← List.map_append]
    refine List.Perm.map _ ?_
    simp only [List.append_assoc]
    exact (List.perm_append_comm.append_left kept).append_left before
  have hsub : ((before ++ kept ++ after).map Element.id).Sublist s.ids := by
    rw [ids, hs]
    exact (((List.Sublist.refl before).append hkept).append (List.Sublist.refl after)).map _
  refine hperm.nodup_iff.2 (List.nodup_append.2 ⟨hsub.nodup h.distinct, List.nodup_range', ?_⟩)
  intro id hid id' hid'
  have hle := h.le_issued (hsub.subset hid)
  have hlt := (List.mem_range'_1.1 hid').1
  omega

theorem Identified.ordered_apply (h : s.Identified) (c : Command) :
    ∀ e ∈ (s.apply c).entries, e.holding.Ordered (s.apply c).issued := by
  have hle := s.issued_le_apply c
  have hmentioned : ∀ e ∈ mentioned c s.entries, e.holding.Ordered s.issued := by
    intro e he
    rw [mentioned] at he
    split at he
    · exact h.ordered e he
    · rcases List.mem_append.1 he with he | he
      · exact h.ordered e he
      · rw [List.mem_singleton.1 he]
        exact Holding.ordered_empty _ _
  obtain ⟨before, d, after, hsplit, -, happly⟩ := applyTo_split c s.issued s.entries
  rw [hsplit, List.forall_mem_append, List.forall_mem_cons] at hmentioned
  obtain ⟨hbefore, hd, hafter⟩ := hmentioned
  have hentries : (s.apply c).entries
      = before ++ ⟨d.name, (d.holding.apply c s.issued).1⟩ :: after := by rw [apply, happly]
  have hissued : (s.apply c).issued = (d.holding.apply c s.issued).2 := by rw [apply, happly]
  rw [hentries, List.forall_mem_append, List.forall_mem_cons]
  refine ⟨fun e he => (hbefore e he).mono hle, ?_, fun e he => (hafter e he).mono hle⟩
  rw [hissued]
  exact hd.apply c

/-- **The step.**  A command leaves the identities of a snapshot in order, whether or not it fits
its container. -/
theorem Identified.apply (h : s.Identified) (c : Command) : (s.apply c).Identified :=
  ⟨h.keys_apply c, h.distinct_apply c, h.ordered_apply c⟩

theorem Identified.foldl (h : s.Identified) (log : Log) :
    (log.foldl Snapshot.apply s).Identified := by
  induction log generalizing s with
  | nil => exact h
  | cons c log ih => exact ih (h.apply c)

theorem identified_replay (log : Log) (cursor : Option Nat) : (replay log cursor).Identified :=
  identified_start.foldl _

/-! ## Earlier and later snapshots -/

/-- What is in the later snapshot `t` was in the earlier snapshot `s` already, as the same element,
or has an identity that had not been given out by then. -/
structure Precedes (s t : Snapshot) : Prop where
  issued : s.issued ≤ t.issued
  elements : ∀ x ∈ t.elements, x ∈ s.elements ∨ s.issued < x.id

theorem Precedes.refl (s : Snapshot) : s.Precedes s :=
  ⟨Nat.le_refl _, fun _ hx => .inl hx⟩

theorem Precedes.trans {s t u : Snapshot} (h : s.Precedes t) (h' : t.Precedes u) :
    s.Precedes u := by
  refine ⟨h.issued.trans h'.issued, fun x hx => ?_⟩
  rcases h'.elements x hx with hx | hlt
  · exact h.elements x hx
  · exact .inr (h.issued.trans_lt hlt)

theorem precedes_apply (s : Snapshot) (c : Command) : s.Precedes (s.apply c) := by
  refine ⟨s.issued_le_apply c, fun x hx => ?_⟩
  obtain ⟨before, old, after, kept, new, hs, hkept, hs', hnew, -⟩ := s.elements_apply c
  rw [hs'] at hx
  rw [hs]
  simp only [List.mem_append] at hx ⊢
  rcases hx with (hx | hx | hx) | hx
  · exact .inl (.inl (.inl hx))
  · exact .inl (.inl (.inr (hkept.subset hx)))
  · have hid : x.id ∈ List.range' (s.issued + 1) new.length := hnew ▸ List.mem_map_of_mem hx
    exact .inr (List.mem_range'_1.1 hid).1
  · exact .inl (.inr hx)

theorem precedes_foldl (log : Log) (s : Snapshot) : s.Precedes (log.foldl apply s) := by
  induction log generalizing s with
  | nil => exact .refl s
  | cons c log ih => exact (s.precedes_apply c).trans (ih (s.apply c))

/-- A snapshot precedes those at later cursors. -/
theorem precedes_replay (log : Log) {j k : Option Nat} (h : applied j ≤ applied k) :
    (replay log j).Precedes (replay log k) := by
  obtain ⟨more, hmore⟩ := Nat.exists_eq_add_of_le h
  rw [replay, replay, hmore, List.take_add, List.foldl_append]
  exact precedes_foldl _ _

/-- An identity stands for the same element in an earlier and a later snapshot. -/
theorem Precedes.eq_of_id {s t : Snapshot} (h : s.Precedes t) (hs : s.Identified) {x y : Element}
    (hx : x ∈ s.elements) (hy : y ∈ t.elements) (hid : x.id = y.id) : x = y := by
  have hle := hs.le_issued (List.mem_map_of_mem hx)
  rcases h.elements y hy with hy | hlt
  · exact List.inj_on_of_nodup_map hs.distinct hx hy hid
  · omega

/-- An identity that was given out before a snapshot and is not in it is in no later one. -/
theorem Precedes.not_mem_ids {s t : Snapshot} (h : s.Precedes t) {id : Nat} (hle : id ≤ s.issued)
    (hid : id ∉ s.ids) : id ∉ t.ids := by
  intro hid'
  obtain ⟨x, hx, rfl⟩ := List.mem_map.1 hid'
  rcases h.elements x hx with hx | hlt
  · exact hid (List.mem_map_of_mem hx)
  · omega

/-- **Identities are unique and stable.**  At every cursor of a log, whatever its commands, there is
one container of a kind and name, no two elements share an identity, identities have been given out
and increase along every container, and the slots of arrays are in their places.  At a later cursor
an identity stands for the same element of the same container, with the same value of an item or the
same index of a slot, as long as it is there, and once it has gone it does not come back. -/
theorem identities_stable (log : Log) :
    (∀ cursor, (replay log cursor).Identified) ∧
    ∀ j k, applied j ≤ applied k →
      (∀ x ∈ (replay log j).elements, ∀ y ∈ (replay log k).elements, x.id = y.id → x = y) ∧
      ∀ i, applied i ≤ applied j → ∀ id ∈ (replay log i).ids,
        id ∉ (replay log j).ids → id ∉ (replay log k).ids := by
  refine ⟨identified_replay log, fun j k hjk => ⟨fun x hx y hy => ?_, fun i hij id hid => ?_⟩⟩
  · exact (precedes_replay log hjk).eq_of_id (identified_replay log j) hx hy
  · have hle := ((identified_replay log i).le_issued hid).trans (precedes_replay log hij).issued
    exact (precedes_replay log hjk).not_mem_ids hle

/-- A list between two declarations of an array, with a command that fits no stack. -/
def redeclared : Log :=
  [{ action := .arrayDeclare, target := .array, name := "a", size := some 2 },
   { action := .listInsert, target := .linkedList, name := "l", value := some (.int 5) },
   { action := .listInsert, target := .linkedList, name := "l", value := some (.int 7) },
   { action := .listRemove, target := .linkedList, name := "l", value := some (.int 5) },
   { action := .enqueue, target := .stack, name := "l", value := some (.int 5) },
   { action := .arrayDeclare, target := .array, name := "a", size := some 1 }]

theorem identities_stable_redeclared :
    3 ∈ (replay redeclared (some 1)).ids ∧ 3 ∉ (replay redeclared (some 3)).ids ∧
      3 ∉ (replay redeclared (some 5)).ids ∧
      (⟨4, .linkedList, "l", .value (.int 7)⟩ : Element) ∈ (replay redeclared (some 2)).elements ∧
      ∀ y ∈ (replay redeclared (some 5)).elements, 4 = y.id →
        ⟨4, .linkedList, "l", .value (.int 7)⟩ = y := by
  have h := identities_stable redeclared
  have hin : 3 ∈ (replay redeclared (some 1)).ids := by decide
  have hout : 3 ∉ (replay redeclared (some 3)).ids := by decide
  have hseven : (⟨4, .linkedList, "l", .value (.int 7)⟩ : Element) ∈
      (replay redeclared (some 2)).elements := .tail _ (.tail _ (.tail _ (.head _)))
  exact ⟨hin, hout, (h.2 (some 3) (some 5) (by decide)).2 (some 1) (by decide) 3 hin hout, hseven,
    (h.2 (some 2) (some 5) (by decide)).1 _ hseven⟩

end Snapshot
end Stepwise
