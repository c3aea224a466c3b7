import Mathlib.Tactic.Tauto
import Stepwise.Proofs.Recorder.Operation

/-!
# What is recorded of an operation

An operation on a container has many ways to end: the handle may be that of no container, the method
may not exist for this kind, the number of arguments or what they are may be wrong, and an operation
that succeeds may be one that is not recorded.  This file goes through all of them.

* `Container.accepts` says which calls succeed, and `Container.call_cases` what a call that does has
  done: it has read something, or it has changed the items and there is one command to record, the
  one of `SequenceKind.recorded`.
* `Slots.set_slot` and `Slots.set_beyond` are the two kinds of writes to an array.
* `Recorder.fill_stored` follows the initial elements of an array as long as they can be stored, and
  `Recorder.fill_refused` stops at the first that cannot.
* `Recorder.CallRecorded`, `Recorder.WriteRecorded` and `Recorder.ArrayRecorded` put this together
  for the operations of a recorder: a call or write that fails leaves it as it was, reading changes
  nothing, and a change is that of one container and is recorded by one command, which cites the
  line that is being run.  `Recorder.recording_contract` states them of every recorder.
* The construction of an array with more slots than fit into an allocation is no failure of the
  program that is run, but a crash of the one that runs it (`Recorder.createArray_crashes`).
-/

set_option autoImplicit false

namespace Stepwise

/-! ## Methods -/

/-- The names of the methods that only read. -/
def Method.readers : List String := ["top", "front", "back", "size", "empty"]

/-- The names of the methods that take something out. -/
def Method.removers : List String := ["pop", "pop_back", "pop_front", "remove"]

namespace Method

/-- Whether the method can be called with these arguments: one that can be stored for an insertion,
none or such a one for a removal by value, and none otherwise. -/
def accepts : Method → List Value → Bool
  | pushBack, [v] | pushFront, [v] | remove, [v] => v.toScalar?.isSome
  | pushBack, _ | pushFront, _ => false
  | _, args => args.isEmpty

/-- Whether the method only reads. -/
def isReader : Method → Bool
  | first | last | size | isEmpty => true
  | _ => false

/-- Whether the method takes something out. -/
def isRemover : Method → Bool
  | popBack | popFront | remove => true
  | _ => false

/-- What a call has done that succeeds. -/
theorem apply_cases {m : Method} {kind : SequenceKind} {method : String} {args : List Value}
    {items : List Scalar} {effect : Effect}
    (h : m.apply kind method args items = .ok effect) :
    (m.isReader = true ∧ ∃ v, effect = .read v) ∨
      (m.isReader = false ∧ ∃ items',
        effect = .changed items'
          { action := if m.isRemover then kind.removal else kind.insertion
            value := args.head?.bind Value.toScalar?
            idle := m.isRemover && items.isEmpty } ∧
        (m.isRemover = true → items = [] → items' = [])) := by
  cases m with
  | first | last | size | isEmpty => exact .inl ⟨rfl, _, (reading_eq_ok.1 h).2⟩
  | pushBack | pushFront =>
    obtain ⟨v, s, rfl, hv, rfl⟩ := inserting_eq_ok.1 h
    exact .inr ⟨rfl, _, by rw [List.head?_cons, Option.bind_some, hv]; rfl, nofun⟩
  | popBack | popFront =>
    obtain ⟨rfl, rfl⟩ := removing_eq_ok.1 h
    exact .inr ⟨rfl, _, rfl, fun _ hitems => by rw [hitems]; rfl⟩
  | remove =>
    obtain ⟨rfl, rfl⟩ | ⟨v, s, rfl, hv, rfl⟩ := removingValue_eq_ok.1 h
    · exact .inr ⟨rfl, _, rfl, fun _ hitems => by rw [hitems]; rfl⟩
    · refine .inr ⟨rfl, items.eraseP fun item => item.agrees s, ?_, fun _ hitems => ?_⟩
      · rw [List.head?_cons, Option.bind_some, hv]
        rfl
      · rw [hitems, List.eraseP_nil]

/-- A method can be called with just the arguments that it accepts. -/
theorem apply_ok_iff (m : Method) (kind : SequenceKind) (method : String) (args : List Value)
    (items : List Scalar) :
    (∃ effect, m.apply kind method args items = .ok effect) ↔ m.accepts args = true := by
  have hone : ∀ (v : Value) (result : Scalar → Effect),
      (∃ effect s, v.toScalar? = some s ∧ effect = result s) ↔ ∃ s, v.toScalar? = some s :=
    fun v result => ⟨fun ⟨_, s, h, _⟩ => ⟨s, h⟩, fun ⟨s, h⟩ => ⟨_, s, h, rfl⟩⟩
  cases m with
  | first | last | size | isEmpty => simp [apply, reading_eq_ok, accepts]
  | popBack | popFront => simp [apply, removing_eq_ok, accepts]
  | pushBack | pushFront =>
    rcases args with _ | ⟨v, _ | ⟨w, ws⟩⟩ <;>
      simp [apply, inserting_eq_ok, accepts, Option.isSome_iff_exists, hone]
  | remove =>
    rcases args with _ | ⟨v, _ | ⟨w, ws⟩⟩ <;>
      simp [removingValue_eq_ok, accepts, Option.isSome_iff_exists, hone]

end Method

/-- What a name says of its method is the same for every kind of sequence. -/
theorem SequenceKind.mem_names {kind : SequenceKind} {name : String} {m : Method}
    (h : kind.method? name = some m) :
    (name ∈ Method.readers ↔ m.isReader = true) ∧
      (name ∈ Method.removers ↔ m.isRemover = true) := by
  have hall : ∀ e ∈ kind.methods, (e.1 ∈ Method.readers ↔ e.2.isReader = true) ∧
      (e.1 ∈ Method.removers ↔ e.2.isRemover = true) := by
    cases kind <;> decide
  obtain ⟨before, after, hm, -⟩ := List.lookup_eq_some_iff.1 h
  exact hall (name, m) (by rw [hm]; exact List.mem_append_right _ List.mem_cons_self)

namespace Container

/-- Whether a method can be called: it exists, and accepts the arguments. -/
def accepts (c : Container) (method : String) (args : List Value) : Bool :=
  match c.contents with
  | .sequence kind _ => (kind.method? method).any fun m => m.accepts args
  | .array _ => false

/-- A method can be called if it exists and accepts the arguments. -/
theorem call_ok_iff (c : Container) (method : String) (args : List Value) :
    (∃ result, c.call method args = .ok result) ↔ c.accepts method args = true := by
  constructor
  · rintro ⟨⟨value, c', change⟩, h⟩
    obtain ⟨name, kind, items, m, rfl, hm, hresult⟩ := call_eq_ok_cases h
    have hok : ∃ effect, m.apply kind method args items = .ok effect := by
      obtain ⟨ha, -⟩ | ⟨items', ch, ha, -⟩ := hresult
      · exact ⟨_, ha⟩
      · exact ⟨_, ha⟩
    simp only [accepts, hm, Option.any_some]
    exact (m.apply_ok_iff kind method args items).1 hok
  · intro haccepts
    obtain ⟨name, contents⟩ := c
    cases contents with
    | array a => cases haccepts
    | sequence kind items =>
      simp only [accepts, Option.any_eq_true] at haccepts
      obtain ⟨m, hm, haccepts⟩ := haccepts
      obtain ⟨effect, ha⟩ := (m.apply_ok_iff kind method args items).2 haccepts
      simp only [call, hm, ha]
      cases effect <;> exact ⟨_, rfl⟩

/-- **What a call has done that succeeds**: it has read something, or it has changed the items, and
there is something to record. -/
theorem call_cases {c c' : Container} {method : String} {args : List Value} {value : Value}
    {change : Option Change} (h : c.call method args = .ok (value, c', change)) :
    (method ∈ Method.readers ∧ c' = c ∧ change = none) ∨
      (method ∉ Method.readers ∧ ∃ name kind items items',
        c = ⟨name, .sequence kind items⟩ ∧ c' = ⟨name, .sequence kind items'⟩ ∧
        change = some
          { action := if method ∈ Method.removers then kind.removal else kind.insertion
            value := args.head?.bind Value.toScalar?
            idle := method ∈ Method.removers && items.isEmpty } ∧
        (method ∈ Method.removers → items = [] → items' = [])) := by
  obtain ⟨name, kind, items, m, rfl, hm, hresult⟩ := call_eq_ok_cases h
  obtain ⟨hreader, hremover⟩ := SequenceKind.mem_names hm
  simp only [hreader, hremover, Bool.decide_eq_true]
  obtain ⟨ha, rfl, rfl⟩ | ⟨items', ch, ha, -, rfl, rfl⟩ := hresult
  · obtain ⟨hread, -⟩ | ⟨-, _, heffect, -⟩ := Method.apply_cases ha
    · exact .inl ⟨hread, rfl, rfl⟩
    · cases heffect
  · obtain ⟨-, v, heffect⟩ | ⟨hread, _, heffect, hempty⟩ := Method.apply_cases ha
    · cases heffect
    · cases heffect
      exact .inr ⟨Bool.eq_false_iff.1 hread, name, kind, items, items', rfl, rfl, rfl, hempty⟩

end Container

/-! ## Writes to arrays -/

/-- Whether the value can be stored in a slot: `null` empties it. -/
def Value.isStorable : Value → Bool
  | null => true
  | v => v.toScalar?.isSome

namespace Slots

theorem stored_eq (array : String) (value : Value) :
    stored array value = if value.isStorable then .ok value.toScalar?
      else .error (.mismatch (.notStorable value.elementKind array)) := by
  rw [stored.eq_def]
  split
  · rfl
  · rename_i hnull
    have hstorable : value.isStorable = value.toScalar?.isSome := by
      cases value with
      | null => exact absurd rfl hnull
      | _ => rfl
    rw [hstorable]
    cases value.toScalar? <;> rfl

/-- The numbers of slots are machine integers. -/
theorem lt_of_le_capacity {index : Nat} (h : index ≤ capacity) : index < Nat.pow 2 63 :=
  Nat.lt_of_le_of_lt h (by decide)

/-- As a machine integer, a number of 63 bits is not negative. -/
theorem ofNat_nonneg {index : Nat} (hindex : index < Nat.pow 2 63) : 0 ≤ Int64.ofNat index := by
  have hzero : (0 : Int64).toInt = 0 := rfl
  have hpow : Nat.pow 2 63 = 9223372036854775808 := rfl
  rw [Int64.le_iff_toInt_le, Int64.toInt_ofNat', hzero, Int.bmod_def]
  rw [hpow] at hindex
  simp only [Int64.size]
  split <;> omega

theorem toNat_ofNat {index : Nat} (hindex : index < Nat.pow 2 63) :
    (UInt64.ofNat index).toNat = index :=
  UInt64.toNat_ofNat_of_lt (Nat.lt_trans hindex (by decide))

/-- The slot of a number is the one that it counts, if there is one. -/
theorem slot?_ofNat (a : Slots) {index : Nat} (hindex : index < Nat.pow 2 63) :
    a.slot? (.int (Int64.ofNat index))
      = if index < a.slots.size then some (UInt64.ofNat index) else none := by
  rw [slot?, Value.index?, if_pos (ofNat_nonneg hindex)]
  by_cases hsize : index < a.slots.size
  · rw [if_pos hsize, Option.filter_eq_some_iff]
    exact ⟨rfl, by simpa [toNat_ofNat hindex] using hsize⟩
  · rw [if_neg hsize, Option.filter_eq_none_iff]
    rintro i hi
    cases hi
    simpa [toNat_ofNat hindex] using hsize

theorem slot?_eq_some {a : Slots} {index : Value} {i : UInt64} :
    a.slot? index = some i ↔ index.index? = some i ∧ i.toNat < a.slots.size := by
  rw [slot?, Option.filter_eq_some_iff, decide_eq_true_iff]

/-- A write to a slot changes it and is recorded, if the value can be stored. -/
theorem set_slot {a : Slots} {index : Value} {i : UInt64} (hslot : a.slot? index = some i)
    (array : String) (value : Value) :
    a.set array index value = if value.isStorable
      then .ok ({ a with slots := a.slots.set! i.toNat value.toScalar? },
        some { action := .arraySet, value := value.toScalar?, index := some i })
      else .error (.mismatch (.notStorable value.elementKind array)) := by
  rw [set, hslot, stored_eq]
  cases value.isStorable <;> rfl

/-- Any other write leaves the slots as they are, and there is nothing to record. -/
theorem set_beyond {a : Slots} {index : Value} (hslot : a.slot? index = none) (array : String)
    (value : Value) :
    a.set array index value
      = .ok ({ a with beyond := a.beyond.insert index.text value }, none) := by
  rw [set, hslot]

end Slots

/-! ## What is recorded -/

/-- The command for a call of a method that inserts or takes out. -/
def SequenceKind.recorded (kind : SequenceKind) (name method : String) (args : List Value)
    (cited : String) : Command :=
  { action := if method ∈ Method.removers then kind.removal else kind.insertion
    target := kind.target, name, value := args.head?.bind Value.toScalar?, cited }

/-- The command for a write to the slot `index` of an array. -/
def Slots.recorded (array : String) (index : UInt64) (value : Value) (cited : String) : Command :=
  { action := .arraySet, target := .array, name := array, value := value.toScalar?
    index := some index, cited }

/-- The commands for writes to slots one after another, from `index` on. -/
def Slots.recordedFrom (array : String) (index : Nat) (values : List Value) (cited : String) :
    List Command :=
  values.mapIdx fun i value => recorded array (UInt64.ofNat (index + i)) value cited

theorem Slots.recordedFrom_cons (array : String) (index : Nat) (value : Value)
    (values : List Value) (cited : String) :
    recordedFrom array index (value :: values) cited
      = recorded array (UInt64.ofNat index) value cited
        :: recordedFrom array (index + 1) values cited := by
  simp only [recordedFrom, List.mapIdx_cons, Nat.add_zero, Nat.add_assoc, Nat.add_comm 1]

namespace Recorder

variable {r r' : Recorder}

/-- The recorder after commands were appended. -/
def appendAll (r : Recorder) (commands : List Command) : Recorder :=
  { r with commands := r.commands ++ commands }

/-- The recorder after an operation that has left `c` behind the handle `id`. -/
def changed (r : Recorder) (id : Nat) (c : Container) (commands : List Command) : Recorder :=
  { r with containers := r.containers.set! id c }.appendAll commands

theorem replace_self {id : Nat} {c : Container} (hid : r.container? id = some c) :
    r.replace id c = r := by
  have hsame : r.containers.set! id c = r.containers := by
    obtain ⟨hlt, rfl⟩ := Array.getElem?_eq_some_iff.1 hid
    rw [Array.set!_eq_setIfInBounds, Array.setIfInBounds, dif_pos hlt, Array.set_getElem_self]
  rw [replace, hsame]

theorem call_ok_iff (r : Recorder) (id : Nat) (method : String) (args : List Value) :
    (∃ value r', r.call id method args = (.ok value, r')) ↔
      ∃ c, r.container? id = some c ∧ c.accepts method args = true := by
  rw [call]
  cases r.container? id with
  | none => simp
  | some c =>
    simp only [Option.some.injEq, exists_eq_left', ← c.call_ok_iff]
    cases c.call method args with
    | error cause => simp
    | ok result => simp

theorem call_refused {id : Nat} {method : String} {args : List Value} {f : Fault}
    (h : r.call id method args = (.error f, r')) : r' = r := by
  rcases r.call_cases id method args with ⟨g, hcall⟩ | ⟨c, value, c', change, -, -, hcall⟩
  · cases hcall.symm.trans h
    rfl
  · cases hcall.symm.trans h

theorem call_reads {id : Nat} {method : String} {args : List Value} {value : Value}
    (h : r.call id method args = (.ok value, r')) (hmethod : method ∈ Method.readers) :
    r' = r := by
  rcases r.call_cases id method args with ⟨f, hcall⟩ | ⟨c, value', c', change, hid, hc, hcall⟩
  · cases hcall.symm.trans h
  · cases hcall.symm.trans h
    obtain ⟨-, rfl, rfl⟩ | ⟨hother, -⟩ := Container.call_cases hc
    · exact replace_self hid
    · exact absurd hmethod hother

theorem call_changes {id : Nat} {method : String} {args : List Value} {value : Value}
    (h : r.call id method args = (.ok value, r')) (hmethod : method ∉ Method.readers) :
    ∃ name kind items items', r.container? id = some ⟨name, .sequence kind items⟩ ∧
      (method ∈ Method.removers → items = [] → items' = []) ∧
      r' = r.changed id ⟨name, .sequence kind items'⟩
        (if r.suppress ∧ method ∈ Method.removers ∧ items = [] then []
          else [kind.recorded name method args r.line.text]) := by
  rcases r.call_cases id method args with ⟨f, hcall⟩ | ⟨c, value', c', change, hid, hc, hcall⟩
  · cases hcall.symm.trans h
  · cases hcall.symm.trans h
    obtain ⟨hreader, -⟩ | ⟨-, name, kind, items, items', rfl, rfl, rfl, hempty⟩ :=
      Container.call_cases hc
    · exact absurd hreader hmethod
    · refine ⟨name, kind, items, items', hid, hempty, ?_⟩
      have hidle : ((decide (method ∈ Method.removers) && items.isEmpty) && r.suppress) = true ↔
          r.suppress ∧ method ∈ Method.removers ∧ items = [] := by
        simp only [Bool.and_eq_true, decide_eq_true_eq, List.isEmpty_iff]
        tauto
      by_cases hsuppressed : r.suppress ∧ method ∈ Method.removers ∧ items = []
      · rw [if_pos hsuppressed]
        exact if_pos (hidle.2 hsuppressed)
      · rw [if_neg hsuppressed]
        exact if_neg (mt hidle.1 hsuppressed)

theorem setElement_refused {id : Nat} {index value : Value} {f : Fault}
    (h : r.setElement id index value = (.error f, r')) : r' = r := by
  rcases r.setElement_cases id index value with ⟨g, hset⟩ | ⟨name, a, a', change, -, -, hset⟩
  · cases hset.symm.trans h
    rfl
  · cases hset.symm.trans h

theorem setElement_eq {id : Nat} {name : String} {a : Slots}
    (hid : r.container? id = some ⟨name, .array a⟩) (index value : Value) :
    r.setElement id index value = match a.set name index value with
      | .error cause => (.error (r.fault cause), r)
      | .ok (a', change) =>
        (.ok (), (r.replace id ⟨name, .array a'⟩).record .array name change) := by
  have harray : r.array id = .ok (name, a) := by rw [array, hid]
  cases hset : a.set name index value <;> simp only [setElement, harray, hset]

theorem fill_append (name : String) (vs ws : List Value) :
    ∀ (r : Recorder) (a : Slots) (index : Nat), r.fill name a index (vs ++ ws)
      = match r.fill name a index vs with
        | (.error f, r') => (.error f, r')
        | (.ok a', r') => r'.fill name a' (index + vs.length) ws := by
  induction vs with
  | nil => exact fun r a index => rfl
  | cons v vs ih =>
    intro r a index
    rw [List.cons_append, fill, fill]
    cases a.set name (.int (Int64.ofNat index)) v with
    | error cause => rfl
    | ok result =>
      have hplace : index + (v :: vs).length = index + 1 + vs.length := by
        rw [List.length_cons]
        omega
      simp only [ih, hplace]

/-- **Initial elements that can be stored are recorded in order.** -/
theorem fill_stored (name : String) (vs : List Value) :
    ∀ (r : Recorder) (a : Slots) (index : Nat), index + vs.length ≤ a.slots.size →
      a.slots.size ≤ Slots.capacity → (∀ v ∈ vs, v.isStorable = true) →
      ∃ a', a'.slots.size = a.slots.size ∧ r.fill name a index vs
        = (.ok a', r.appendAll (Slots.recordedFrom name index vs r.line.text)) := by
  induction vs with
  | nil => exact fun r a index _ _ _ => ⟨a, rfl, rfl⟩
  | cons v vs ih =>
    intro r a index hroom hsize hvs
    rw [List.length_cons] at hroom
    have hindex : index < Nat.pow 2 63 := Slots.lt_of_le_capacity (by omega)
    have hslot := Slots.slot?_ofNat a hindex
    rw [if_pos (by omega)] at hslot
    have hsame : (a.slots.set! (UInt64.ofNat index).toNat v.toScalar?).size = a.slots.size := by
      rw [Array.set!_eq_setIfInBounds, Array.size_setIfInBounds]
    obtain ⟨a', ha', hfill⟩ := ih
      (r.append (Slots.recorded name (UInt64.ofNat index) v r.line.text))
      { a with slots := a.slots.set! (UInt64.ofNat index).toNat v.toScalar? }
      (index + 1) (by rw [hsame]; omega) (by rwa [hsame])
      fun w hw => hvs w (List.mem_cons_of_mem v hw)
    refine ⟨a', ha'.trans hsame, ?_⟩
    rw [fill, Slots.set_slot hslot, if_pos (hvs v List.mem_cons_self), Slots.recordedFrom_cons]
    exact hfill

/-- **The first that cannot be stored ends it,** and nothing is recorded of it or of those after
it. -/
theorem fill_refused {name : String} {a : Slots} {v : Value} {before : List Value}
    (hroom : before.length < a.slots.size) (hsize : a.slots.size ≤ Slots.capacity)
    (hbefore : ∀ w ∈ before, w.isStorable = true) (hv : v.isStorable = false) (r : Recorder)
    (after : List Value) :
    r.fill name a 0 (before ++ v :: after)
      = (.error (r.fault (.mismatch (.notStorable v.elementKind name))),
          r.appendAll (Slots.recordedFrom name 0 before r.line.text)) := by
  obtain ⟨a', ha', hfill⟩ := fill_stored name before r a 0 (by omega) hsize hbefore
  have hindex : 0 + before.length < Nat.pow 2 63 := Slots.lt_of_le_capacity (by omega)
  have hslot := Slots.slot?_ofNat a' hindex
  rw [if_pos (by omega)] at hslot
  rw [fill_append, hfill]
  simp only
  rw [fill, Slots.set_slot hslot, if_neg (by rw [hv]; exact Bool.false_ne_true)]
  rfl

/-! ## The contract -/

/-- What a method call does, and what is recorded of it. -/
structure CallRecorded (r : Recorder) (id : Nat) (method : String) (args : List Value) : Prop where
  /-- A call that fails leaves everything as it was. -/
  refused : ∀ f r', r.call id method args = (.error f, r') → r' = r
  /-- It fails unless the container has the method and this accepts the arguments. -/
  accepted : (∃ value r', r.call id method args = (.ok value, r')) ↔
    ∃ c, r.container? id = some c ∧ c.accepts method args = true
  /-- Reading changes nothing. -/
  reads : ∀ value r', r.call id method args = (.ok value, r') → method ∈ Method.readers → r' = r
  /-- Any other method changes the items of the container and is recorded by one command, unless it
  takes out of an empty container and this is to go unrecorded. -/
  changes : ∀ value r', r.call id method args = (.ok value, r') → method ∉ Method.readers →
    ∃ name kind items items', r.container? id = some ⟨name, .sequence kind items⟩ ∧
      (method ∈ Method.removers → items = [] → items' = []) ∧
      r' = r.changed id ⟨name, .sequence kind items'⟩
        (if r.suppress ∧ method ∈ Method.removers ∧ items = [] then []
          else [kind.recorded name method args r.line.text])

theorem callRecorded (r : Recorder) (id : Nat) (method : String) (args : List Value) :
    CallRecorded r id method args where
  refused _ _ := call_refused
  accepted := r.call_ok_iff id method args
  reads _ _ := call_reads
  changes _ _ := call_changes

/-- What a write to an element does, and what is recorded of it. -/
structure WriteRecorded (r : Recorder) (id : Nat) (index value : Value) : Prop where
  /-- A write that fails leaves everything as it was. -/
  refused : ∀ f r', r.setElement id index value = (.error f, r') → r' = r
  /-- A write to a slot changes it and is recorded by one command, if the value can be stored. -/
  slot : ∀ name a i, r.container? id = some ⟨name, .array a⟩ → index.index? = some i →
    i.toNat < a.slots.size →
    r.setElement id index value = if value.isStorable
      then (.ok (), r.changed id
        ⟨name, .array { a with slots := a.slots.set! i.toNat value.toScalar? }⟩
        [Slots.recorded name i value r.line.text])
      else (.error (r.fault (.mismatch (.notStorable value.elementKind name))), r)
  /-- Any other write to an array changes no slot, and nothing is recorded. -/
  beyond : ∀ name a, r.container? id = some ⟨name, .array a⟩ →
    (∀ i, index.index? = some i → a.slots.size ≤ i.toNat) →
    r.setElement id index value
      = (.ok (), r.changed id
          ⟨name, .array { a with beyond := a.beyond.insert index.text value }⟩ [])

theorem writeRecorded (r : Recorder) (id : Nat) (index value : Value) :
    WriteRecorded r id index value := by
  refine ⟨fun _ _ => setElement_refused, fun name a i hid hi hslot => ?_,
    fun name a hid hbeyond => ?_⟩
  · rw [setElement_eq hid, Slots.set_slot (Slots.slot?_eq_some.2 ⟨hi, hslot⟩)]
    cases value.isStorable <;> rfl
  · have hslot : a.slot? index = none := by
      refine Option.eq_none_iff_forall_ne_some.2 fun i hi => ?_
      obtain ⟨hi, hroom⟩ := Slots.slot?_eq_some.1 hi
      exact absurd (hbeyond i hi) (Nat.not_le.2 hroom)
    rw [setElement_eq hid, Slots.set_beyond hslot]
    rfl

/-- What the construction of an array does, and what is recorded of it: the declaration, and then
the initial elements that get a slot. -/
structure ArrayRecorded (r : Recorder) (name : String) (size : UInt64) (init : List Value) :
    Prop where
  /-- If they can all be stored, there is one more container. -/
  stored : size.toNat ≤ Slots.capacity → (∀ v ∈ init.take size.toNat, v.isStorable = true) →
    ∃ a, a.slots.size = size.toNat ∧ r.createArray name size init
      = (.ok r.containers.size,
          ((r.appendAll (r.declaration name size
              :: Slots.recordedFrom name 0 (init.take size.toNat) r.line.text)).allocate
            ⟨name, .array a⟩).2)
  /-- At the first that cannot be stored this ends, and there is no new container. -/
  refused : size.toNat ≤ Slots.capacity → ∀ before v after,
    init.take size.toNat = before ++ v :: after → (∀ w ∈ before, w.isStorable = true) →
    v.isStorable = false →
    r.createArray name size init
      = (.error (.fault (r.fault (.mismatch (.notStorable v.elementKind name)))),
          r.appendAll (r.declaration name size
            :: Slots.recordedFrom name 0 before r.line.text))
  /-- If there are more slots than fit into an allocation, the recorder crashes once the declaration
  has been recorded. -/
  oversized : Slots.capacity < size.toNat →
    r.createArray name size init
      = (.error (.crash .capacity), r.appendAll [r.declaration name size])

theorem createArray_stored {size : UInt64} {init : List Value}
    (hsize : size.toNat ≤ Slots.capacity)
    (hinit : ∀ v ∈ init.take size.toNat, v.isStorable = true) (r : Recorder) (name : String) :
    ∃ a, a.slots.size = size.toNat ∧ r.createArray name size init
      = (.ok r.containers.size,
          ((r.appendAll (r.declaration name size
              :: Slots.recordedFrom name 0 (init.take size.toNat) r.line.text)).allocate
            ⟨name, .array a⟩).2) := by
  have hblank : (Slots.blank size).slots.size = size.toNat := Array.size_replicate
  obtain ⟨a, ha, hfill⟩ := fill_stored name (init.take size.toNat)
    (r.append (r.declaration name size)) (.blank size) 0 (by rw [List.length_take]; omega)
    (by omega) hinit
  refine ⟨a, ha.trans hblank, ?_⟩
  rw [createArray_eq, if_pos hsize, hfill]
  rfl

theorem createArray_refused {size : UInt64} {init before after : List Value} {v : Value}
    (hsize : size.toNat ≤ Slots.capacity) (hinit : init.take size.toNat = before ++ v :: after)
    (hbefore : ∀ w ∈ before, w.isStorable = true) (hv : v.isStorable = false) (r : Recorder)
    (name : String) :
    r.createArray name size init
      = (.error (.fault (r.fault (.mismatch (.notStorable v.elementKind name)))),
          r.appendAll (r.declaration name size
            :: Slots.recordedFrom name 0 before r.line.text)) := by
  have hblank : (Slots.blank size).slots.size = size.toNat := Array.size_replicate
  have hlength := congrArg List.length hinit
  simp only [List.length_take, List.length_append, List.length_cons] at hlength
  rw [createArray_eq, if_pos hsize, hinit, fill_refused (by omega) (by omega) hbefore hv]
  rfl

theorem createArray_crashes {size : UInt64} (hsize : Slots.capacity < size.toNat) (r : Recorder)
    (name : String) (init : List Value) :
    r.createArray name size init
      = (.error (.crash .capacity), r.appendAll [r.declaration name size]) := by
  rw [createArray_eq, if_neg (Nat.not_le.2 hsize)]
  rfl

theorem arrayRecorded (r : Recorder) (name : String) (size : UInt64) (init : List Value) :
    ArrayRecorded r name size init where
  stored hsize hinit := createArray_stored hsize hinit r name
  refused hsize _ _ _ hinit hbefore hv := createArray_refused hsize hinit hbefore hv r name
  oversized hsize := createArray_crashes hsize r name init

/-- **What is recorded of an operation.**  In every state of a recorder, a method call, a write to
an element and the construction of an array change what they say and record what they change; only
an array that is too large for an allocation makes the recorder crash. -/
theorem recording_contract (r : Recorder) :
    (∀ (id : Nat) (method : String) (args : List Value), CallRecorded r id method args) ∧
    (∀ (id : Nat) (index value : Value), WriteRecorded r id index value) ∧
    ∀ (name : String) (size : UInt64) (init : List Value), ArrayRecorded r name size init :=
  ⟨callRecorded r, writeRecorded r, arrayRecorded r⟩

/-- A stack has been constructed, and then an array with two slots. -/
def stackAndArray : Recorder :=
  ({} : Recorder).performAll [.createSequence .stack "s", .createArray "a" 2 [.int 1]]

theorem recording_contract_stackAndArray :
    (∃ value r', stackAndArray.call 0 "push" [.int 3] = (.ok value, r') ∧
      r'.log = stackAndArray.log ++ [SequenceKind.stack.recorded "s" "push" [.int 3] ""]) ∧
    (∃ f, stackAndArray.call 0 "push" [] = (.error f, stackAndArray)) ∧
    (∃ r', stackAndArray.setElement 1 (.int 1) (.str "x") = (.ok (), r') ∧
      r'.log = stackAndArray.log ++ [Slots.recorded "a" 1 (.str "x") ""]) ∧
    ∃ e r', stackAndArray.createArray "b" 2 [.int 1, .container 0] = (.error e, r') ∧
      r'.containers = stackAndArray.containers ∧
      r'.log = stackAndArray.log
        ++ [stackAndArray.declaration "b" 2, Slots.recorded "b" 0 (.int 1) ""] := by
  obtain ⟨hcall, hset, hcreate⟩ := recording_contract stackAndArray
  refine ⟨?_, ?_, ?_, ?_⟩
  · obtain ⟨value, r', h⟩ := (hcall 0 "push" [.int 3]).accepted.2 ⟨_, rfl, rfl⟩
    obtain ⟨name, kind, items, items', hid, -, rfl⟩ :=
      (hcall 0 "push" [.int 3]).changes value r' h (by decide)
    cases hid
    exact ⟨value, _, h, rfl⟩
  · exact ⟨_, congrArg _ ((hcall 0 "push" []).refused _ _ rfl)⟩
  · exact ⟨_, (hset 1 (.int 1) (.str "x")).slot "a" _ 1 rfl rfl (by decide), rfl⟩
  · exact ⟨_, _, (hcreate "b" 2 [.int 1, .container 0]).refused (by decide) [.int 1]
      (.container 0) [] rfl (by decide) rfl, rfl, rfl⟩

/-- **An array that is too large is recorded, and not constructed.**  The recorder does not refuse
the size of an array for which there is not enough room in any memory: the declaration is in the
log, and there is no container, no handle and no fault. -/
theorem recording_contract_oversized :
    ({} : Recorder).createArray "a" 9223372036854775807 []
        = (.error (.crash .capacity),
            ({} : Recorder).appendAll [({} : Recorder).declaration "a" 9223372036854775807]) ∧
      ¬∃ id r, ({} : Recorder).createArray "a" 9223372036854775807 [] = (.ok id, r) := by
  have hsize : Slots.capacity < (9223372036854775807 : UInt64).toNat := by decide
  have hcrash := createArray_crashes hsize {} "a" []
  refine ⟨hcrash, ?_⟩
  rintro ⟨id, r, h⟩
  cases hcrash.symm.trans h

end Recorder

end Stepwise
