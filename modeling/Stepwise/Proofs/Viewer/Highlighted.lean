import Stepwise.Proofs.Snapshot.Identity
import Stepwise.Proofs.Trace.WellFormed
import Stepwise.Proofs.Viewer.Moves

/-!
# What is highlighted

The viewer marks the item that the current command brought in, or the slot that it wrote.  It does
not remember which one that is: for a command that brings something in it takes the item of the
greatest identity in the container that the command names.  That is the right one because identities
are given out in order, so what came in last has the greatest.  It is the wrong one if nothing came
in, and a command whose value is missing brings in nothing.

* `Holding.insertion_cases` is the heart of the file: an insertion brings in one item, which is the
  newest, or leaves its container as it was.
* `Viewer.highlighted_fresh` says what is highlighted, and that a new item is, and
  `Viewer.highlighted_stale` shows an item highlighted that had been there before.
-/

set_option autoImplicit false

namespace Stepwise

/-! ## What commands bring in -/

/-- Whether a command that should bring in an item has no value for it. -/
def Command.lacksValue (c : Command) : Bool :=
  c.action.inserts && c.value.isNone

/-- The element of a container that is marked for a command. -/
def Holding.highlighted (h : Holding) (c : Command) : Option Nat :=
  match c.action, h with
  | .push, .stack items => Viewer.newestItem items
  | .enqueue, .queue items => Viewer.newestItem items
  | .listInsert, .linkedList nodes => Viewer.newestItem nodes
  | .arraySet, .array slots => do
    let i ← c.index
    let slot ← slots[i.toNat]?
    return slot.id
  | _, _ => none

namespace Holding

variable {h : Holding} {c : Command} {issued : Nat}

theorem ids_items (items : List Item) :
    (items.map fun item => (item.id, Feature.value item.value)).map Prod.fst
      = items.map Item.id := by
  rw [List.map_map]
  rfl

/-- The item that comes in is the newest. -/
theorem newestItem_entering {items : List Item} (hle : ∀ id ∈ items.map Item.id, id ≤ issued)
    (value : Scalar) : Viewer.newestItem (items ++ [⟨issued + 1, value⟩]) = some (issued + 1) := by
  rw [Viewer.newestItem, List.map_append, List.max?_eq_some_iff]
  refine ⟨List.mem_append_right _ (List.mem_singleton_self _), fun id hid => ?_⟩
  rcases List.mem_append.1 hid with hid | hid
  · exact Nat.le_succ_of_le (hle id hid)
  · exact Nat.le_of_eq (List.mem_singleton.1 hid)

/-- What is marked is in the container. -/
theorem mem_ids_of_highlighted {id : Nat} (hmark : h.highlighted c = some id) : id ∈ h.ids := by
  unfold highlighted at hmark
  split at hmark
  · rw [ids, features, ids_items]
    exact List.max?_mem hmark
  · rw [ids, features, ids_items]
    exact List.max?_mem hmark
  · rw [ids, features, ids_items]
    exact List.max?_mem hmark
  · next slots _ _ =>
    obtain ⟨i, -, hid⟩ := Option.bind_eq_some_iff.1 hmark
    obtain ⟨slot, hslot, hid⟩ := Option.bind_eq_some_iff.1 hid
    obtain rfl := Option.some.inj hid
    rw [ids, features, List.map_map]
    exact List.mem_map.2 ⟨slot, Array.mem_toList_iff.2 (Array.mem_of_getElem? hslot), rfl⟩
  · cases hmark

/-- What an insertion does to its container: it brings in one item, which is marked, or leaves the
container as it was, and then something is marked only if the command has no value. -/
def Insertion (h : Holding) (c : Command) (issued : Nat) : Prop :=
  (h.apply c issued).2 = issued + 1 ∧ c.value.isSome = true ∧
      (h.apply c issued).1.highlighted c = some (issued + 1) ∨
    h.apply c issued = (h, issued) ∧ (h.highlighted c ≠ none → c.value = none)

/-- An insertion into a container of its kind. -/
theorem insertion_fits {sequence : List Item → Holding} {items : List Item}
    (hids : ∀ id ∈ items.map Item.id, id ≤ issued)
    (hmark : ∀ items, (sequence items).highlighted c = Viewer.newestItem items)
    (happly : (sequence items).apply c issued
      = (sequence (items ++ entering c issued), issued + (entering c issued).length)) :
    (sequence items).Insertion c issued := by
  rw [entering] at happly
  cases hvalue : c.value with
  | none =>
    rw [hvalue, List.append_nil] at happly
    exact .inr ⟨happly, fun _ => hvalue⟩
  | some value =>
    rw [hvalue] at happly
    refine .inl ⟨congrArg Prod.snd happly, by rw [hvalue]; rfl, ?_⟩
    rw [happly, hmark]
    exact newestItem_entering hids value

/-- **An insertion brings in one item,** which is the newest of its container, or it changes
nothing. -/
theorem insertion_cases (ho : h.Ordered issued) (hc : c.action.inserts = true) :
    h.Insertion c issued := by
  have hle : ∀ id ∈ h.ids, id ≤ issued := fun id hid => (ho.range id hid).2
  obtain ⟨action, target, name, value, index, size, cited⟩ := c
  have hmisfit : ∀ {h : Holding} {c : Command}, h.apply c issued = (h, issued) →
      h.highlighted c = none → h.Insertion c issued := fun happly hnone =>
    .inr ⟨happly, absurd hnone⟩
  cases action with
  | push =>
    cases h with
    | stack items =>
      exact insertion_fits (ids_items items ▸ hle) (fun _ => rfl) rfl
    | _ => exact hmisfit rfl rfl
  | enqueue =>
    cases h with
    | queue items =>
      exact insertion_fits (ids_items items ▸ hle) (fun _ => rfl) rfl
    | _ => exact hmisfit rfl rfl
  | listInsert =>
    cases h with
    | linkedList nodes =>
      exact insertion_fits (ids_items nodes ▸ hle) (fun _ => rfl) rfl
    | _ => exact hmisfit rfl rfl
  | _ => cases hc

end Holding
namespace Snapshot

/-- The cursor that is one command before the command at `k`. -/
def previous : Nat → Option Nat
  | 0 => none
  | k + 1 => some k

theorem applied_previous (k : Nat) : applied (previous k) = k := by
  cases k <;> rfl

theorem replay_at {log : Log} {k : Nat} {c : Command} (hc : log[k]? = some c) :
    replay log (some k) = (replay log (previous k)).apply c := by
  have happlied := applied_previous k
  rw [← replay_succ (by rw [happlied]; exact hc), happlied]

/-- The command at `k` brings in the item of identity `id`: the item is there after the command and
was not there before. -/
def Creates (log : Log) (k id : Nat) : Prop :=
  id ∈ (replay log (some k)).ids ∧ id ∉ (replay log (previous k)).ids

/-- The command at `k` writes the slot of identity `id`. -/
def Writes (log : Log) (k id : Nat) : Prop :=
  ∃ c i slots slot, log[k]? = some c ∧ c.action = .arraySet ∧ c.index = some i ∧
    (replay log (some k)).holding c.target c.name = .array slots ∧
    slots[i.toNat]? = some slot ∧ slot.id = id ∧ slot.value = c.value

variable {s : Snapshot} {c : Command}

/-- A command gives out as many identities as it does in the container that it names. -/
theorem issued_apply (s : Snapshot) (c : Command) :
    (s.apply c).issued = ((s.holding c.target c.name).apply c s.issued).2 := by
  have hentries : ∀ es : List Entry, (applyTo c s.issued es).2
      = ((((es.find? fun e => e.isNamed c.target c.name).map Entry.holding).getD
          (.empty c.target)).apply c s.issued).2 := by
    intro es
    induction es with
    | nil => rfl
    | cons e es ih =>
      rw [applyTo, List.find?_cons]
      cases e.isNamed c.target c.name with
      | true => rfl
      | false => exact ih
  exact hentries s.entries

theorem holding_apply (s : Snapshot) (c : Command) :
    (s.apply c).holding c.target c.name = ((s.holding c.target c.name).apply c s.issued).1 := by
  rw [holding, get?_apply, if_pos ⟨rfl, rfl⟩]
  rfl

theorem Identified.ordered_holding (h : s.Identified) (t : Target) (n : String) :
    (s.holding t n).Ordered s.issued := by
  rw [holding]
  cases hget : s.get? t n with
  | none => exact Holding.ordered_empty _ _
  | some e => exact h.ordered e (List.mem_of_find?_eq_some hget)

theorem mem_ids_of_holding {t : Target} {n : String} {id : Nat} (h : id ∈ (s.holding t n).ids) :
    id ∈ s.ids := by
  rw [holding] at h
  cases hget : s.get? t n with
  | none =>
    rw [hget] at h
    simp [Holding.ids] at h
  | some e =>
    rw [hget] at h
    exact mem_ids_iff.2 ⟨e, List.mem_of_find?_eq_some hget, h⟩

/-- What a command brings in has an identity that was given out for it. -/
theorem Identified.issued_lt (h : s.Identified) {id : Nat} (hin : id ∈ (s.apply c).ids)
    (hout : id ∉ s.ids) : s.issued < id ∧ id ≤ (s.apply c).issued := by
  obtain ⟨x, hx, rfl⟩ := List.mem_map.1 hin
  refine ⟨?_, (h.apply c).le_issued hin⟩
  rcases (precedes_apply s c).elements x hx with hx | hlt
  · exact absurd (List.mem_map_of_mem hx) hout
  · exact hlt

/-- **What an insertion marks** is what it brought in, or was there before if it has no value. -/
theorem Identified.mark_insertion (h : s.Identified) (hc : c.action.inserts = true) {id : Nat}
    (hmark : ((s.apply c).holding c.target c.name).highlighted c = some id) :
    (c.value = none ∧ id ∈ s.ids) ∨
      c.value.isSome = true ∧ id ∈ (s.apply c).ids ∧ id ∉ s.ids := by
  have hissued := s.issued_apply c
  have hafter := s.holding_apply c
  rw [hafter] at hmark
  rcases Holding.insertion_cases (h.ordered_holding c.target c.name) hc with
    ⟨hone, hvalue, hnew⟩ | ⟨hsame, hold⟩
  · obtain rfl : s.issued + 1 = id := Option.some.inj (hnew.symm.trans hmark)
    refine .inr ⟨hvalue, mem_ids_of_holding (t := c.target) (n := c.name) ?_, fun hid => ?_⟩
    · rw [hafter]
      exact Holding.mem_ids_of_highlighted hnew
    · exact absurd (h.le_issued hid) (Nat.not_succ_le_self _)
  · rw [hsame] at hmark
    have hid := Holding.mem_ids_of_highlighted hmark
    exact .inl ⟨hold (by rw [hmark]; nofun), mem_ids_of_holding hid⟩

/-- An item that an insertion brings in is marked. -/
theorem Identified.mark_created (h : s.Identified) (hc : c.action.inserts = true) {id : Nat}
    (hin : id ∈ (s.apply c).ids) (hout : id ∉ s.ids) :
    ((s.apply c).holding c.target c.name).highlighted c = some id := by
  obtain ⟨hlt, hle⟩ := h.issued_lt hin hout
  rw [issued_apply] at hle
  rw [holding_apply]
  rcases Holding.insertion_cases (h.ordered_holding c.target c.name) hc with
    ⟨hone, -, hnew⟩ | ⟨hsame, -⟩
  · rw [hnew, Option.some.injEq]
    omega
  · rw [hsame] at hle
    exact absurd hle (Nat.not_le.2 hlt)

/-- What is marked for a command that brings nothing in is the slot that it wrote. -/
theorem written_of_mark {id : Nat} (hc : c.action.inserts = false)
    (hmark : ((s.apply c).holding c.target c.name).highlighted c = some id) :
    c.action = .arraySet ∧ ∃ i slots slot, c.index = some i ∧
      (s.apply c).holding c.target c.name = .array slots ∧
      slots[i.toNat]? = some slot ∧ slot.id = id ∧ slot.value = c.value := by
  have hafter := s.holding_apply c
  generalize (s.apply c).holding c.target c.name = after at hmark hafter
  generalize s.holding c.target c.name = before at hafter
  unfold Holding.highlighted at hmark
  split at hmark
  · next haction => rw [haction] at hc; cases hc
  · next haction => rw [haction] at hc; cases hc
  · next haction => rw [haction] at hc; cases hc
  · next slots haction =>
    obtain ⟨i, hi, hid⟩ := Option.bind_eq_some_iff.1 hmark
    obtain ⟨slot, hslot, hid⟩ := Option.bind_eq_some_iff.1 hid
    refine ⟨haction, i, slots, slot, hi, rfl, hslot, Option.some.inj hid, ?_⟩
    unfold Holding.apply at hafter
    rw [haction] at hafter
    cases before with
    | array old =>
      obtain rfl := Holding.array.inj hafter
      rw [hi, Holding.write, Array.getElem?_modify, if_pos rfl] at hslot
      obtain ⟨slot', -, rfl⟩ := Option.map_eq_some_iff.1 hslot
      rfl
    | _ => cases hafter
  · cases hmark

end Snapshot

/-! ## Viewers -/

namespace Viewer

variable {log : Log} {v : Viewer} {k : Nat} {c : Command}

/-- What is highlighted is decided by the container that the current command names. -/
theorem Reached.highlighted_eq (h : Reached log v) (hk : v.timeline.cursor = some k)
    (hc : log[k]? = some c) :
    v.highlighted
      = ((Snapshot.replay log (some k)).holding c.target c.name).highlighted c := by
  obtain ⟨hlog, hcursor⟩ := h.atCursor
  have hcurrent : v.timeline.current? = some c := by
    rw [Timeline.current?, hk, hlog]
    exact hc
  obtain ⟨e, he⟩ : ∃ e, (Snapshot.replay log (some k)).get? c.target c.name = some e := by
    rw [Snapshot.replay_at hc, Snapshot.get?_apply, if_pos ⟨rfl, rfl⟩]
    exact ⟨_, rfl⟩
  rw [highlighted, hcurrent, hcursor.snapshot, hk, hlog, Snapshot.holding]
  simp only [Option.bind_eq_bind, Option.bind_some, he]
  rfl

/-- **What is highlighted is new.**  Unless the current command lacks the value that it should bring
in, what is highlighted is the item that it brought in or the slot that it wrote; and an item that
it brought in is highlighted.  If the value is missing, an item that was there before is. -/
theorem highlighted_fresh (h : Reached log v) :
    (∀ id, v.highlighted = some id →
      ∃ k c, v.timeline.cursor = some k ∧ log[k]? = some c ∧
        if c.lacksValue then id ∈ (Snapshot.replay log (Snapshot.previous k)).ids
        else Snapshot.Creates log k id ∨ Snapshot.Writes log k id) ∧
    ∀ k c id, v.timeline.cursor = some k → log[k]? = some c → c.action.inserts = true →
      Snapshot.Creates log k id → v.highlighted = some id := by
  refine ⟨fun id hmark => ?_, fun k c id hk hc hinserts ⟨hin, hout⟩ => ?_⟩
  · obtain ⟨c, hcurrent, -⟩ := Option.bind_eq_some_iff.1 hmark
    obtain ⟨k, hk, hc⟩ := Option.bind_eq_some_iff.1 hcurrent
    rw [h.atCursor.1] at hc
    refine ⟨k, c, hk, hc, ?_⟩
    have hreplay := Snapshot.replay_at hc
    have hident := Snapshot.identified_replay log (Snapshot.previous k)
    rw [h.highlighted_eq hk hc, hreplay] at hmark
    rw [Command.lacksValue]
    cases hinserts : c.action.inserts with
    | true =>
      rcases hident.mark_insertion hinserts hmark with ⟨hvalue, hid⟩ | ⟨hvalue, hin, hout⟩
      · rwa [hvalue]
      · rw [← Option.not_isSome, hvalue]
        exact .inl ⟨hreplay ▸ hin, hout⟩
    | false =>
      obtain ⟨haction, i, slots, slot, hi, hslots, hslot⟩ := Snapshot.written_of_mark hinserts hmark
      exact .inr ⟨c, i, slots, slot, hc, haction, hi, hreplay ▸ hslots, hslot⟩
  · have hreplay := Snapshot.replay_at hc
    have hident := Snapshot.identified_replay log (Snapshot.previous k)
    rw [h.highlighted_eq hk hc, hreplay]
    exact hident.mark_created hinserts (hreplay ▸ hin) hout

/-- The viewer of a log after `n` steps forward. -/
def ahead (log : Log) : Nat → Viewer
  | 0 => ofTimeline ((Timeline.ofLog log).withInterval 500) "" none
  | n + 1 => (ahead log n).press .right 0

theorem reached_ahead (log : Log) : ∀ n, Reached log (ahead log n)
  | 0 => .start _ _ _
  | n + 1 => .press _ _ (reached_ahead log n)

/-- A push of 1, and a push whose value is missing. -/
def valuelessPush : Log :=
  [{ action := .push, target := .stack, name := "s", value := some (.int 1) },
    { action := .push, target := .stack, name := "s" }]

/-- The first push brings in the item 1, which is highlighted. -/
theorem highlighted_fresh_valuelessPush :
    Reached valuelessPush (ahead valuelessPush 1) ∧ Snapshot.Creates valuelessPush 0 1 ∧
      (ahead valuelessPush 1).highlighted = some 1 := by
  have hreached := reached_ahead valuelessPush 1
  have hnew : Snapshot.Creates valuelessPush 0 1 := by
    unfold Snapshot.Creates
    decide +kernel
  exact ⟨hreached, hnew, (highlighted_fresh hreached).2 0 _ 1 rfl rfl rfl hnew⟩

/-- **An old item is highlighted.**  The second push brings in nothing, for its value is missing,
but the item of the first push is highlighted. -/
theorem highlighted_stale :
    Reached valuelessPush (ahead valuelessPush 2) ∧
      (ahead valuelessPush 2).timeline.cursor = some 1 ∧
      (ahead valuelessPush 2).highlighted = some 1 ∧
      ¬Snapshot.Creates valuelessPush 1 1 ∧ ¬Snapshot.Writes valuelessPush 1 1 := by
  refine ⟨reached_ahead valuelessPush 2, by decide +kernel, by decide +kernel, ?_, ?_⟩
  · unfold Snapshot.Creates
    decide +kernel
  · rintro ⟨c, i, slots, slot, hc, haction, -⟩
    obtain rfl := Option.some.inj hc
    cases haction

end Viewer

end Stepwise
