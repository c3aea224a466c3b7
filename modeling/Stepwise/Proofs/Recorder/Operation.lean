import Stepwise.Recorder
import Stepwise.Proofs.Snapshot.Values

/-!
# Operations of a recorder

A recorder is driven from outside: by a program that creates containers, calls their methods, reads
and writes array elements and marks lines.  `Recorder.Operation` is the list of what can be asked of
it and `Recorder.perform` the recorder afterwards, whether or not the request was refused.

The second half of the file is about single changes.  An operation changes a live container and says
by a `Change` what there is to record; `Change.Describes` is the statement that the recorded command
does to a replayed container what the operation did to the live one.  It holds of every write to an
array (`Slots.set_describes`) and of every method of a sequence (`Container.call_describes`) except
for those that reach the head of a list, because a list is replayed at its tail.
-/

set_option autoImplicit false

namespace Stepwise

namespace Recorder

/-- What can be asked of a recorder. -/
inductive Operation where
  | setLine (line : SourceLine)
  | createSequence (kind : SequenceKind) (name : String)
  | createArray (name : String) (size : UInt64) (init : List Value)
  | call (id : Nat) (method : String) (args : List Value)
  | setElement (id : Nat) (index value : Value)
  | getElement (id : Nat) (index : Value)

/-- The kind and name of the container that an operation is to construct. -/
def Operation.constructed? : Operation → Option (Target × String)
  | createSequence kind name => some (kind.target, name)
  | createArray name _ _ => some (.array, name)
  | _ => none

/-- The recorder after an operation, which may have failed. -/
def perform (r : Recorder) : Operation → Recorder
  | .setLine line => r.setLine line
  | .createSequence kind name => (r.createSequence kind name).2
  | .createArray name size init => (r.createArray name size init).2
  | .call id method args => (r.call id method args).2
  | .setElement id index value => (r.setElement id index value).2
  | .getElement _ _ => r

/-- The recorder after operations in order. -/
def performAll (r : Recorder) (ops : List Operation) : Recorder :=
  ops.foldl perform r

@[simp]
theorem performAll_nil (r : Recorder) : r.performAll [] = r := rfl

@[simp]
theorem performAll_cons (r : Recorder) (op : Operation) (ops : List Operation) :
    r.performAll (op :: ops) = (r.perform op).performAll ops := rfl

theorem performAll_append (r : Recorder) (ops ops' : List Operation) :
    r.performAll (ops ++ ops') = (r.performAll ops).performAll ops' :=
  List.foldl_append

end Recorder

/-! ## What an operation has done -/

theorem ok_of_bind_eq_ok {ε α β : Type} {x : Except ε α} {f : α → Except ε β} {b : β}
    (h : x >>= f = .ok b) : ∃ a, x = .ok a ∧ f a = .ok b := by
  cases x with
  | error e => cases h
  | ok a => exact ⟨a, rfl, h⟩

namespace Recorder

/-- **A method call is refused and leaves everything as it was, or it replaces the container behind
the handle and records the change.** -/
theorem call_cases (r : Recorder) (id : Nat) (method : String) (args : List Value) :
    (∃ f, r.call id method args = (.error f, r)) ∨
      ∃ c value c' change, r.container? id = some c ∧
        c.call method args = .ok (value, c', change) ∧
        r.call id method args
          = (.ok value, (r.replace id c').record c.target c.name change) := by
  rw [call]
  cases hid : r.container? id with
  | none => exact .inl ⟨_, rfl⟩
  | some c =>
    dsimp only
    cases hc : c.call method args with
    | error cause => exact .inl ⟨_, rfl⟩
    | ok result => exact .inr ⟨c, _, _, _, rfl, hc, rfl⟩

theorem array_eq_ok {r : Recorder} {id : Nat} {name : String} {a : Slots}
    (h : r.array id = .ok (name, a)) : r.container? id = some ⟨name, .array a⟩ := by
  rw [array] at h
  cases hid : r.container? id with
  | none => rw [hid] at h; cases h
  | some c =>
    obtain ⟨n, contents⟩ := c
    cases contents with
    | sequence kind items => simp only [hid] at h; cases h
    | array b => simp only [hid] at h; cases h; rfl

/-- So it is with a write to an array element. -/
theorem setElement_cases (r : Recorder) (id : Nat) (index value : Value) :
    (∃ f, r.setElement id index value = (.error f, r)) ∨
      ∃ name a a' change, r.container? id = some ⟨name, .array a⟩ ∧
        a.set name index value = .ok (a', change) ∧
        r.setElement id index value
          = (.ok (), (r.replace id ⟨name, .array a'⟩).record .array name change) := by
  rw [setElement]
  cases ha : r.array id with
  | error f => exact .inl ⟨f, rfl⟩
  | ok named =>
    obtain ⟨name, a⟩ := named
    dsimp only
    cases hw : a.set name index value with
    | error cause => exact .inl ⟨_, rfl⟩
    | ok result => exact .inr ⟨name, a, _, _, array_eq_ok ha, hw, rfl⟩

/-- The command that declares an array. -/
def declaration (r : Recorder) (name : String) (size : UInt64) : Command :=
  { action := .arrayDeclare, target := .array, name, size := some size, cited := r.line.text }

theorem createArray_eq (r : Recorder) (name : String) (size : UInt64) (init : List Value) :
    r.createArray name size init
      = if size.toNat ≤ Slots.capacity then
          match (r.append (r.declaration name size)).fill name (.blank size) 0
              (init.take size.toNat) with
          | (.error f, r') => (.error (.fault f), r')
          | (.ok a, r') => (.ok r'.containers.size, (r'.allocate ⟨name, .array a⟩).2)
        else (.error (.crash .capacity), r.append (r.declaration name size)) := by
  rw [createArray, Slots.ofSize?]
  by_cases hsize : size.toNat ≤ Slots.capacity
  · rw [if_pos hsize, if_pos hsize]
    rfl
  · rw [if_neg hsize, if_neg hsize]
    rfl

end Recorder

/-! ## What a change records -/

namespace Change

/-- The command that records a change. -/
def command (change : Change) (t : Target) (n cited : String) : Command :=
  { action := change.action, target := t, name := n, value := change.value, index := change.index,
    cited }

/-- A change that may be missing describes how the values of a container of kind `t` came from those
before: what it records does the same to them, and where there is nothing to record, or where it may
go unrecorded, they have not changed. -/
def Describes (t : Target) (before after : List (Option Scalar)) : Option Change → Prop
  | none => after = before
  | some change =>
    (change.idle = true → after = before) ∧
      ∀ n cited, after = (change.command t n cited).act t before

end Change

/-! ### Sequences -/

/-- The methods of a kind of sequence that do to its items what their recorded command does to a
replayed one.  Items enter a replayed sequence at its end, and leave a stack or list there and a
queue at its front. -/
def SequenceKind.Replays : SequenceKind → Method → Prop
  | stack, m => m ≠ .pushFront ∧ m ≠ .popFront ∧ m ≠ .remove
  | queue, m => m ≠ .pushFront ∧ m ≠ .popBack ∧ m ≠ .remove
  | list, m => m ≠ .pushFront ∧ m ≠ .popFront

/-- Only the two methods that reach the head of a list are not replayed as they were. -/
theorem SequenceKind.replays_of_method? {kind : SequenceKind} {name : String} {m : Method}
    (h : kind.method? name = some m)
    (hfront : kind = .list → name ≠ "push_front" ∧ name ≠ "pop_front") : kind.Replays m := by
  obtain ⟨before, after, hm, -⟩ := List.lookup_eq_some_iff.1 h
  have hmem : (name, m) ∈ kind.methods := by
    rw [hm]
    simp
  cases kind with
  | stack =>
    simp only [methods, List.mem_cons, Prod.mk.injEq, List.not_mem_nil, or_false] at hmem
    simp only [Replays]
    grind
  | queue =>
    simp only [methods, List.mem_cons, Prod.mk.injEq, List.not_mem_nil, or_false] at hmem
    simp only [Replays]
    grind
  | list =>
    have hname := hfront rfl
    simp only [methods, List.mem_cons, Prod.mk.injEq, List.not_mem_nil, or_false] at hmem
    simp only [Replays]
    grind

namespace Method

theorem scalarArg_eq_ok {method : String} {args : List Value} {s : Scalar} :
    scalarArg method args = .ok s ↔ ∃ v, args = [v] ∧ v.toScalar? = some s := by
  rw [scalarArg.eq_def]
  split
  · rename_i v
    cases hv : v.toScalar? with
    | none => simp [hv]
    | some t => simp [hv]
  · rename_i hargs
    refine iff_of_false nofun ?_
    rintro ⟨v, rfl, -⟩
    exact hargs v rfl

section

variable {kind : SequenceKind} {method : String} {args : List Value} {effect : Effect}

theorem reading_eq_ok {value : Value} :
    reading method args value = .ok effect ↔ args = [] ∧ effect = .read value := by
  cases args with
  | nil => exact ⟨fun h => by cases h; exact ⟨rfl, rfl⟩, fun h => by rw [h.2]; rfl⟩
  | cons v vs => exact iff_of_false nofun nofun

theorem removing_eq_ok {items rest : List Scalar} :
    removing kind method args items rest = .ok effect ↔
      args = [] ∧ effect = .changed rest { action := kind.removal, idle := items.isEmpty } := by
  cases args with
  | nil => exact ⟨fun h => by cases h; exact ⟨rfl, rfl⟩, fun h => by rw [h.2]; rfl⟩
  | cons v vs => exact iff_of_false nofun nofun

theorem inserting_eq_ok {insert : Scalar → List Scalar} :
    inserting kind method args insert = .ok effect ↔
      ∃ v s, args = [v] ∧ v.toScalar? = some s ∧
        effect = .changed (insert s) { action := kind.insertion, value := some s } := by
  constructor
  · intro h
    obtain ⟨s, hs, heffect⟩ := ok_of_bind_eq_ok h
    obtain ⟨v, hargs, hv⟩ := scalarArg_eq_ok.1 hs
    cases heffect
    exact ⟨v, s, hargs, hv, rfl⟩
  · rintro ⟨v, s, hargs, hv, rfl⟩
    rw [inserting, scalarArg_eq_ok.2 ⟨v, hargs, hv⟩]
    rfl

theorem removingValue_eq_ok {items : List Scalar} :
    remove.apply kind method args items = .ok effect ↔
      (args = [] ∧ effect = .changed items.dropLast
          { action := kind.removal, idle := items.isEmpty }) ∨
        ∃ v s, args = [v] ∧ v.toScalar? = some s ∧
          effect = .changed (items.eraseP fun item => item.agrees s)
            { action := kind.removal, value := some s, idle := items.isEmpty } := by
  cases args with
  | nil =>
    rw [apply, if_pos List.isEmpty_nil, removing_eq_ok]
    simp
  | cons w ws =>
    rw [apply, if_neg nofun]
    constructor
    · intro h
      obtain ⟨s, hs, heffect⟩ := ok_of_bind_eq_ok h
      obtain ⟨v, hargs, hv⟩ := scalarArg_eq_ok.1 hs
      cases heffect
      exact .inr ⟨v, s, hargs, hv, rfl⟩
    · rintro (⟨hargs, -⟩ | ⟨v, s, hargs, hv, rfl⟩)
      · cases hargs
      · rw [scalarArg_eq_ok.2 ⟨v, hargs, hv⟩]
        rfl

end

/-- A method that is replayed as it was describes its own effect. -/
theorem apply_describes {m : Method} {kind : SequenceKind} {method : String} {args : List Value}
    {items items' : List Scalar} {change : Change} (hm : kind.Replays m)
    (h : m.apply kind method args items = .ok (.changed items' change)) :
    Change.Describes kind.target (items.map some) (items'.map some) (some change) := by
  cases m with
  | pushBack =>
    obtain ⟨v, s, -, -, heffect⟩ := inserting_eq_ok.1 h
    cases heffect
    refine ⟨fun hidle => by simp at hidle, fun n cited => ?_⟩
    cases kind <;> simp [Change.command, Command.act, SequenceKind.insertion, SequenceKind.target]
  | pushFront => cases kind <;> simp [SequenceKind.Replays] at hm
  | popBack =>
    obtain ⟨-, heffect⟩ := removing_eq_ok.1 h
    cases heffect
    refine ⟨fun hidle => by simp_all, fun n cited => ?_⟩
    cases kind with
    | queue => simp [SequenceKind.Replays] at hm
    | stack | list =>
      simp [Change.command, Command.act, SequenceKind.removal, SequenceKind.target]
  | popFront =>
    obtain ⟨-, heffect⟩ := removing_eq_ok.1 h
    cases heffect
    refine ⟨fun hidle => by simp_all, fun n cited => ?_⟩
    cases kind with
    | queue => simp [Change.command, Command.act, SequenceKind.removal, SequenceKind.target]
    | stack | list => simp [SequenceKind.Replays] at hm
  | remove =>
    cases kind with
    | stack | queue => simp [SequenceKind.Replays] at hm
    | list =>
      obtain ⟨-, heffect⟩ | ⟨v, s, -, -, heffect⟩ := removingValue_eq_ok.1 h
      · cases heffect
        refine ⟨fun hidle => by simp_all, fun n cited => ?_⟩
        simp [Change.command, Command.act, SequenceKind.removal, SequenceKind.target]
      · cases heffect
        refine ⟨fun hidle => by simp_all, fun n cited => ?_⟩
        simp [Change.command, Command.act, SequenceKind.removal, SequenceKind.target,
          List.eraseP_map, Function.comp_def]
  | first | last | size | isEmpty => cases (reading_eq_ok.1 h).2

end Method

namespace Container

/-- The kind and the name of a container, by which a snapshot knows it. -/
def key (c : Container) : Target × String :=
  (c.target, c.name)

/-- A call that succeeds is that of a method of a sequence.  It has read something or has left other
items behind. -/
theorem call_eq_ok_cases {c c' : Container} {method : String} {args : List Value} {value : Value}
    {change : Option Change} (h : c.call method args = .ok (value, c', change)) :
    ∃ name kind items m, c = ⟨name, .sequence kind items⟩ ∧ kind.method? method = some m ∧
      (m.apply kind method args items = .ok (.read value) ∧ c' = c ∧ change = none ∨
        ∃ items' ch, m.apply kind method args items = .ok (.changed items' ch) ∧
          value = .undefined ∧ c' = ⟨name, .sequence kind items'⟩ ∧ change = some ch) := by
  obtain ⟨name, contents⟩ := c
  cases contents with
  | array a => cases h
  | sequence kind items =>
    simp only [call] at h
    cases hm : kind.method? method with
    | none =>
      simp only [hm] at h
      cases h
    | some m =>
      simp only [hm] at h
      obtain ⟨effect, ha, he⟩ := ok_of_bind_eq_ok h
      refine ⟨name, kind, items, m, rfl, hm, ?_⟩
      cases effect with
      | read v =>
        cases he
        exact .inl ⟨ha, rfl, rfl⟩
      | changed items' ch =>
        cases he
        exact .inr ⟨items', ch, ha, rfl, rfl, rfl⟩

/-- **A method call says what it did.**  The methods that reach the head of a list are left out. -/
theorem call_describes {c c' : Container} {method : String} {args : List Value} {value : Value}
    {change : Option Change} (h : c.call method args = .ok (value, c', change))
    (hfront : c.target = .linkedList → method ≠ "push_front" ∧ method ≠ "pop_front") :
    c'.key = c.key ∧ Change.Describes c.target c.items c'.items change := by
  obtain ⟨name, kind, items, m, rfl, hm, hresult⟩ := call_eq_ok_cases h
  have hr : kind.Replays m :=
    SequenceKind.replays_of_method? hm fun hk => hfront (by rw [hk]; rfl)
  obtain ⟨-, rfl, rfl⟩ | ⟨items', change, ha, -, rfl, rfl⟩ := hresult
  · exact ⟨rfl, rfl⟩
  · exact ⟨rfl, Method.apply_describes hr ha⟩

end Container

/-! ### Arrays -/

/-- **A write to an array says what it did.** -/
theorem Slots.set_describes {a a' : Slots} {array : String} {index value : Value}
    {change : Option Change} (h : a.set array index value = .ok (a', change)) :
    Change.Describes .array a.slots.toList a'.slots.toList change := by
  rw [set] at h
  cases hi : a.slot? index with
  | none => rw [hi] at h; cases h; rfl
  | some i =>
    rw [hi] at h
    obtain ⟨s, -, hs⟩ := ok_of_bind_eq_ok h
    cases hs
    refine ⟨fun hidle => by simp at hidle, fun n cited => ?_⟩
    simp [Change.command, Command.act]

end Stepwise
