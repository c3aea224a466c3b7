import Stepwise.Proofs.Recorder.Contract
import Stepwise.Proofs.Run.Operations
import Stepwise.Proofs.Snapshot.Independence

/-!
# What a declaration shows

A program may declare the same name again, in a loop, in a function that is called twice, or inside
of a block.  Every declaration makes a new container, but a snapshot knows containers by kind and
name only.  This file is about what is shown right after a declaration, whatever has been recorded
before it.

* An array announces itself: its declaration is recorded with its size, and then its initial
  elements.  So what is shown is the new array, and nothing is left of an earlier one
  (`Recorder.createArray_shows`).
* A stack, queue or list is recorded only when it changes.  So a declaration leaves everything shown
  as it was: nothing, if no container of this kind and name was constructed before
  (`Recorder.unseen_of_not_constructed`), and otherwise the items of the earlier ones.
* `declaration_shows` states both of the statements of a run, and `redeclaration_keeps_items` shows
  that the second of them cannot be strengthened.
-/

set_option autoImplicit false

namespace Stepwise

/-! ## Initial elements -/

namespace Slots

/-- A write at a number changes the slot of this number, and only if there is one. -/
theorem set_ofNat {a a' : Slots} {array : String} {index : Nat} {value : Value}
    {change : Option Change} (hindex : index < Nat.pow 2 63)
    (h : a.set array (.int (Int64.ofNat index)) value = .ok (a', change)) :
    a'.slots.size = a.slots.size ∧
      ∀ j, a'.slots[j]? = if j = index ∧ index < a.slots.size
        then some value.toScalar? else a.slots[j]? := by
  have hnumber := slot?_ofNat a hindex
  by_cases hslot : index < a.slots.size
  · rw [if_pos hslot] at hnumber
    rw [set_slot hnumber] at h
    split at h
    · cases h
      simp only [Array.set!_eq_setIfInBounds, toNat_ofNat hindex]
      refine ⟨by simp, fun j => ?_⟩
      by_cases hj : j = index
      · simp [hj, hslot]
      · simp [hj, Ne.symm hj]
    · cases h
  · rw [if_neg hslot] at hnumber
    rw [set_beyond hnumber] at h
    cases h
    exact ⟨rfl, fun j => by rw [if_neg fun hj => hslot hj.2]⟩

end Slots

namespace Recorder

/-- The initial elements are found in the slots of their numbers, and the other slots are left as
they were. -/
theorem slots_of_fill {name : String} (vs : List Value) :
    ∀ {r r' : Recorder} {a a' : Slots} {index : Nat}, index + vs.length ≤ a.slots.size →
      a.slots.size ≤ Slots.capacity → r.fill name a index vs = (.ok a', r') →
      a'.slots.size = a.slots.size ∧
        ∀ j, a'.slots[j]? = if index ≤ j ∧ j < index + vs.length
          then some (vs[j - index]?.bind Value.toScalar?) else a.slots[j]? := by
  induction vs with
  | nil =>
    intro r r' a a' index _ _ h
    rw [fill] at h
    cases h
    refine ⟨rfl, fun j => ?_⟩
    rw [if_neg (by simp only [List.length_nil]; omega)]
  | cons v vs ih =>
    intro r r' a a' index hroom hsize h
    rw [List.length_cons] at hroom
    rw [fill] at h
    cases hset : a.set name (.int (Int64.ofNat index)) v with
    | error cause =>
      rw [hset] at h
      cases h
    | ok result =>
      obtain ⟨a₁, change⟩ := result
      rw [hset] at h
      have hindex : index < Nat.pow 2 63 := Slots.lt_of_le_capacity (by omega)
      obtain ⟨hsize₁, hwrite⟩ := Slots.set_ofNat hindex hset
      obtain ⟨hsize', hslots⟩ := ih (by omega) (by omega) h
      refine ⟨hsize'.trans hsize₁, fun j => ?_⟩
      rw [hslots j, hwrite j, List.length_cons]
      by_cases hfirst : j = index
      · subst hfirst
        rw [if_neg (by omega), if_pos ⟨rfl, by omega⟩, if_pos (by omega), Nat.sub_self,
          List.getElem?_cons_zero, Option.bind_some]
      · rw [if_neg (by omega : ¬(j = index ∧ _))]
        by_cases hlater : index + 1 ≤ j ∧ j < index + 1 + vs.length
        · have hsub : j - index = j - (index + 1) + 1 := by omega
          rw [if_pos hlater, if_pos (by omega), hsub, List.getElem?_cons_succ]
        · rw [if_neg hlater, if_neg (by omega)]

/-- **An array is shown as it was constructed,** whatever has been recorded before: it has the size
of its declaration, and its slots hold the initial elements and nothing else. -/
theorem createArray_shows {r r' : Recorder} {name : String} {size : UInt64} {init : List Value}
    {id : Nat} (h : r.createArray name size init = (.ok id, r')) :
    ∃ a : Slots, r'.containers = r.containers.push ⟨name, .array a⟩ ∧ id = r.containers.size ∧
      r'.replayed.Shows ⟨name, .array a⟩ ∧ a.slots.size = size.toNat ∧
      ∀ i < size.toNat, a.slots[i]? = some (init[i]?.bind Value.toScalar?) := by
  obtain ⟨hrecords, hvalues⟩ :=
    fill_inStep (init.take size.toNat) _ _ 0 (values_declaration r name size)
  have hseen : ((r.append (r.declaration name size)).replayed.get? .array name).isSome = true := by
    rw [replayed_append, Snapshot.get?_apply, if_pos ⟨rfl, rfl⟩]
    rfl
  rw [createArray_eq] at h
  split at h
  case isFalse hsize => cases h
  case isTrue hcapacity =>
    cases hfill : (r.append (r.declaration name size)).fill name (.blank size) 0
        (init.take size.toNat) with
    | mk result r₁ =>
      rw [hfill] at h hrecords hvalues
      cases result with
      | error f => cases h
      | ok a =>
        cases h
        have hempty : (Slots.blank size).slots.size = size.toNat := by simp [Slots.blank]
        obtain ⟨hsize, hslots⟩ := slots_of_fill (init.take size.toNat)
          (by simp only [hempty, List.length_take]; omega) (by rwa [hempty]) hfill
        have hcontainers : r₁.containers = r.containers := hrecords.containers
        refine ⟨a, by simp [allocate, hcontainers], by rw [hcontainers], ?_, hsize.trans hempty,
          fun i hi => ?_⟩
        · exact Snapshot.shows_iff.2 ⟨hvalues a rfl, fun _ => hrecords.seen hseen⟩
        · have hblank : (Slots.blank size).slots[i]? = some none := by simp [Slots.blank, hi]
          rw [hslots i, List.length_take, Nat.sub_zero, List.getElem?_take, if_pos hi, hblank]
          by_cases hinit : i < init.length
          · rw [if_pos (by omega)]
          · rw [if_neg (by omega), List.getElem?_eq_none (by omega), Option.bind_none]

/-! ## Containers that were never constructed -/

/-- Live containers, and those that commands are about, are among the kinds and names `used`. -/
structure Accounts (used : List (Target × String)) (r : Recorder) : Prop where
  log : ∀ c ∈ r.log, c.key ∈ used
  containers : ∀ c ∈ r.containers, c.key ∈ used

variable {used : List (Target × String)} {r : Recorder}

theorem Accounts.mono (h : Accounts used r) {more : List (Target × String)} (hle : used ⊆ more) :
    Accounts more r :=
  ⟨fun c hc => hle (h.log c hc), fun c hc => hle (h.containers c hc)⟩

theorem Accounts.append (h : Accounts used r) {c : Command} (hc : c.key ∈ used) :
    Accounts used (r.append c) := by
  refine ⟨fun d hd => ?_, h.containers⟩
  rw [log_append, List.mem_append, List.mem_singleton] at hd
  rcases hd with hd | rfl
  · exact h.log d hd
  · exact hc

theorem Accounts.record (h : Accounts used r) {t : Target} {n : String} (hkey : (t, n) ∈ used)
    (change : Option Change) : Accounts used (r.record t n change) := by
  cases change with
  | none => exact h
  | some change =>
    rw [Recorder.record]
    split
    · exact h
    · exact h.append hkey

theorem Accounts.allocate (h : Accounts used r) {c : Container} (hc : c.key ∈ used) :
    Accounts used (r.allocate c).2 := by
  refine ⟨h.log, fun d hd => ?_⟩
  rcases Array.mem_push.1 hd with hd | rfl
  · exact h.containers d hd
  · exact hc

theorem Accounts.replace (h : Accounts used r) (id : Nat) {c : Container} (hc : c.key ∈ used) :
    Accounts used (r.replace id c) := by
  refine ⟨h.log, fun d hd => ?_⟩
  rcases Array.mem_or_eq_of_mem_setIfInBounds hd with hd | rfl
  · exact h.containers d hd
  · exact hc

theorem Accounts.fill {name : String} (hkey : (.array, name) ∈ used) (vs : List Value) :
    ∀ {r : Recorder} (a : Slots) (index : Nat), Accounts used r →
      Accounts used (r.fill name a index vs).2 := by
  induction vs with
  | nil => exact fun _ _ h => h
  | cons v vs ih =>
    intro r a index h
    rw [Recorder.fill]
    split
    · exact h
    · rename_i a' change _
      exact ih a' (index + 1) (h.record hkey change)

theorem Accounts.createArray (h : Accounts used r) {name : String} (hkey : (.array, name) ∈ used)
    (size : UInt64) (init : List Value) : Accounts used (r.createArray name size init).2 := by
  have hdeclared : Accounts used (r.append (r.declaration name size)) := h.append hkey
  have hfill := Accounts.fill hkey (init.take size.toNat) (.blank size) 0 hdeclared
  rw [createArray_eq]
  split
  · split
    · rename_i heq
      rwa [heq] at hfill
    · rename_i a r' heq
      rw [heq] at hfill
      exact hfill.allocate hkey
  · exact hdeclared

/-- A method call leaves a container of the same kind and name behind. -/
theorem key_of_call {c c' : Container} {method : String} {args : List Value} {value : Value}
    {change : Option Change} (h : c.call method args = .ok (value, c', change)) :
    c'.key = c.key := by
  obtain ⟨name, kind, items, m, rfl, -, ⟨-, rfl, -⟩ | ⟨items', ch, -, -, rfl, -⟩⟩ :=
    Container.call_eq_ok_cases h
  · rfl
  · rfl

/-- An operation accounts for what it constructs, and for nothing else that is new. -/
theorem Accounts.perform (h : Accounts used r) (op : Operation) :
    Accounts (op.constructed?.toList ++ used) (r.perform op) := by
  have hmore : used ⊆ op.constructed?.toList ++ used := List.subset_append_right _ _
  cases op with
  | setLine line => exact ⟨h.log, h.containers⟩
  | createSequence kind name => exact (h.mono hmore).allocate List.mem_cons_self
  | createArray name size init => exact (h.mono hmore).createArray List.mem_cons_self size init
  | call id method args =>
    rw [Recorder.perform]
    rcases r.call_cases id method args with ⟨f, hcall⟩ | ⟨c, value, c', change, hid, hc, hcall⟩
    · rw [hcall]
      exact h
    · have hkey : c.key ∈ used := h.containers c (Array.mem_of_getElem? hid)
      rw [hcall]
      exact (h.replace id (by rwa [key_of_call hc])).record hkey change
  | setElement id index value =>
    rw [Recorder.perform]
    rcases r.setElement_cases id index value with ⟨f, hset⟩ | ⟨name, a, a', change, hid, -, hset⟩
    · rw [hset]
      exact h
    · have hkey : (.array, name) ∈ used := h.containers _ (Array.mem_of_getElem? hid)
      rw [hset]
      exact (h.replace id (c := ⟨name, .array a'⟩) hkey).record hkey change
  | getElement id index => exact h

theorem Accounts.performAll (ops : List Operation) :
    ∀ {used : List (Target × String)} {r : Recorder}, Accounts used r →
      Accounts (ops.filterMap Operation.constructed? ++ used) (r.performAll ops) := by
  induction ops with
  | nil => exact id
  | cons op ops ih =>
    intro used r h
    refine (ih (h.perform op)).mono fun k hk => ?_
    rw [List.filterMap_cons]
    cases hop : op.constructed? with
    | none => simpa [hop] using hk
    | some key =>
      rw [hop, Option.toList_some, List.mem_append, List.mem_append, List.mem_singleton] at hk
      rcases hk with hk | rfl | hk
      · exact List.mem_append_left _ (List.mem_cons_of_mem _ hk)
      · exact List.mem_append_left _ List.mem_cons_self
      · exact List.mem_append_right _ hk

/-- **What was never constructed is not shown.** -/
theorem unseen_of_not_constructed (suppress : Bool) (ops : List Operation) {t : Target} {n : String}
    (h : (t, n) ∉ ops.filterMap Operation.constructed?) :
    (({ suppress := suppress } : Recorder).performAll ops).replayed.get? t n = none := by
  have hstart : Accounts [] ({ suppress := suppress } : Recorder) := ⟨by simp [log], by simp⟩
  have hops := hstart.performAll ops
  rw [List.append_nil] at hops
  rw [← Option.not_isSome_iff_eq_none, replayed, ← Snapshot.whole, Snapshot.isSome_get?_iff,
    Snapshot.whole, Snapshot.replay_lastIndex, Snapshot.keys_foldl, List.mem_eraseDups,
    List.mem_map]
  rintro ⟨c, hc, hkey⟩
  exact h (hkey ▸ hops.log c hc)

end Recorder

/-! ## Declarations of a run -/

/-- The name stands for the container, which is the last that was constructed. -/
def State.Constructed (s : State) (name : String) (c : Container) : Prop :=
  ∃ id, s.recorder.containers.size = id + 1 ∧ s.recorder.container? id = some c ∧
    s.stack.lookup name = some { value := .container id, constant := true }

theorem CallStack.lookup_declare (s : CallStack) (name : String) (b : Binding) :
    (s.declare name b).lookup name = some b := by
  have hcurrent : (s.declare name b).current = s.current.declare name b := by
    unfold declare setCurrent current
    cases s.calls <;> rfl
  have hget : (s.current.declare name b).get? name = some b := by
    simp [Frame.get?, Frame.declare, Table.get?_insert]
  rw [lookup, hcurrent, hget, Option.some_or]

namespace Stmt

open Recorder (Operation)

variable {x : Horizon} {callee : Callee}

/-- A declaration of a sequence makes a new one and records nothing. -/
theorem exec_construct (x : Horizon) (callee : Callee) (name : String) (kind : SequenceKind)
    (s : State) :
    ∃ s', (Stmt.construct name kind).exec x callee s = .ok () s' ∧
      s'.Constructed name ⟨name, .sequence kind []⟩ ∧ s'.recorder.log = s.recorder.log := by
  refine ⟨_, rfl, ⟨s.recorder.containers.size, ?_, ?_, CallStack.lookup_declare _ _ _⟩, rfl⟩
  · exact Array.size_push _
  · exact Array.getElem?_push_size

/-- A declaration of an array that succeeds has found a size and values for all initial elements,
and has made an array of them. -/
theorem exec_array_eq_ok {name : String} {size : Option Expr} {init : List Expr} {s s' : State}
    {u : Unit} (h : (Stmt.array name size init).exec x callee s = .ok u s') :
    ∃ n s₁ values s₂ id r, arraySize x callee size init s = .ok n s₁ ∧
      Expr.evalAll x callee init s₁ = .ok values s₂ ∧
      s₂.recorder.createArray name n values = (.ok id, r) ∧
      s' = { s₂ with
        recorder := r,
        stack := s₂.stack.declare name { value := .container id, constant := true } } := by
  rw [exec] at h
  obtain ⟨n, s₁, hn, h⟩ := Run.bind_eq_ok h
  obtain ⟨values, s₂, hvalues, h⟩ := Run.bind_eq_ok h
  obtain ⟨id, s₃, hid, h⟩ := Run.bind_eq_ok h
  rw [Run.createArray_apply] at hid
  cases hr : s₂.recorder.createArray name n values with
  | mk result r =>
    rw [Recorder.perform, hr] at hid
    cases result with
    | error f => cases hid
    | ok id' =>
      cases hid
      cases h
      exact ⟨n, s₁, values, s₂, id, r, hn, hvalues, hr, rfl⟩

/-- **What a declaration shows.**  From whatever state of a run it is executed:

* The declaration of a stack, queue or list succeeds and makes an empty one, and what is shown of
  its kind and name stays as it was.  That is nothing if all that was done to the recorder before
  did not construct a container of this kind and name.
* Once the declaration of an array has succeeded the array is shown with the size that was declared,
  each slot with the initial element of its number if there is one, and with nothing otherwise. -/
theorem declaration_shows (x : Horizon) (callee : Callee) (name : String) (s : State) :
    (∀ kind : SequenceKind, ∃ s',
      (Stmt.construct name kind).exec x callee s = .ok () s' ∧
      s'.Constructed name ⟨name, .sequence kind []⟩ ∧
      (∀ t n, s'.recorder.replayed.get? t n = s.recorder.replayed.get? t n) ∧
      ∀ (suppress : Bool) (ops : List Operation),
        s.recorder = ({ suppress := suppress } : Recorder).performAll ops →
        (kind.target, name) ∉ ops.filterMap Operation.constructed? →
        s'.recorder.replayed.get? kind.target name = none) ∧
    ∀ (size : Option Expr) (init : List Expr) (s' : State),
      (Stmt.array name size init).exec x callee s = .ok () s' →
      ∃ n s₁ values s₂ a, arraySize x callee size init s = .ok n s₁ ∧
        Expr.evalAll x callee init s₁ = .ok values s₂ ∧
        s'.Constructed name ⟨name, .array a⟩ ∧ s'.recorder.replayed.Shows ⟨name, .array a⟩ ∧
        a.slots.size = n.toNat ∧
        ∀ i < n.toNat, a.slots[i]? = some (values[i]?.bind Value.toScalar?) := by
  constructor
  · intro kind
    obtain ⟨s', hexec, hnew, hlog⟩ := exec_construct x callee name kind s
    have hsame : s'.recorder.replayed = s.recorder.replayed := by
      rw [Recorder.replayed, Recorder.replayed, hlog]
    refine ⟨s', hexec, hnew, fun t n => by rw [hsame], fun suppress ops hops hfirst => ?_⟩
    rw [hsame, hops]
    exact Recorder.unseen_of_not_constructed suppress ops hfirst
  · intro size init s' h
    obtain ⟨n, s₁, values, s₂, id, r, hn, hvalues, hcreate, rfl⟩ := exec_array_eq_ok h
    obtain ⟨a, hcontainers, hid, hshows, hsize, hslots⟩ := Recorder.createArray_shows hcreate
    refine ⟨n, s₁, values, s₂, a, hn, hvalues, ?_, hshows, hsize, hslots⟩
    refine ⟨id, ?_, ?_, CallStack.lookup_declare _ _ _⟩
    · rw [hcontainers, hid]
      exact Array.size_push _
    · rw [Recorder.container?, hcontainers, hid]
      exact Array.getElem?_push_size

/-- An array with two elements has been constructed. -/
def pairDeclared : State where
  recorder := ({ suppress := false } : Recorder).performAll [.createArray "a" 2 [.int 1, .int 2]]

theorem declaration_shows_pairDeclared :
    (∃ s, (Stmt.construct "a" .stack).exec (Settings.horizon {})
        (Program.callee {} (Settings.horizon {}) 0) pairDeclared = .ok () s ∧
      s.recorder.replayed.get? .stack "a" = none) ∧
    ∃ s a, (Stmt.array "a" (some (.literal (.int 3))) [.literal (.int 5)]).exec
        (Settings.horizon {}) (Program.callee {} (Settings.horizon {}) 0) pairDeclared = .ok () s ∧
      s.recorder.replayed.Shows ⟨"a", .array a⟩ ∧ a.slots[0]? = some (some (.int 5)) ∧
      a.slots[1]? = some none := by
  obtain ⟨hsequence, harray⟩ := declaration_shows (Settings.horizon {})
    (Program.callee {} (Settings.horizon {}) 0) "a" pairDeclared
  constructor
  · obtain ⟨s, hexec, -, -, hfirst⟩ := hsequence .stack
    exact ⟨s, hexec, hfirst false [.createArray "a" 2 [.int 1, .int 2]] rfl (by decide)⟩
  · obtain ⟨n, s₁, values, s₂, a, hn, hvalues, -, hshows, -, hslots⟩ :=
      harray (some (.literal (.int 3))) [.literal (.int 5)] _ rfl
    cases hn
    cases hvalues
    exact ⟨_, a, rfl, hshows, hslots 0 (by decide), hslots 1 (by decide)⟩

/-- A stack that is declared again after an item was pushed. -/
def redeclared : Program where
  body := [.construct "s" .stack, .expr (.method (.var "s") "push" [.literal (.int 1)]),
    .construct "s" .stack]

/-- The new stack is empty, but it is not shown as it is: the item of the one before is. -/
theorem redeclaration_keeps_items :
    ∃ s, redeclared.exec (Settings.horizon {}) (State.initial {}) = .ok () s ∧
      s.Constructed "s" ⟨"s", .sequence .stack []⟩ ∧
      s.recorder.replayed.values .stack "s" = [some (.int 1)] ∧
      ¬ s.recorder.replayed.Shows ⟨"s", .sequence .stack []⟩ := by
  have hrun : ∃ s, redeclared.exec (Settings.horizon {}) (State.initial {}) = .ok () s ∧
      s.Constructed "s" ⟨"s", .sequence .stack []⟩ ∧
      s.recorder.replayed.values .stack "s" = [some (.int 1)] :=
    ⟨_, rfl, ⟨1, rfl, rfl, rfl⟩, rfl⟩
  obtain ⟨s, hexec, hnew, hvalues⟩ := hrun
  refine ⟨s, hexec, hnew, hvalues, fun hshows => ?_⟩
  cases hvalues.symm.trans (Snapshot.shows_iff.1 hshows).1

end Stmt

end Stepwise
