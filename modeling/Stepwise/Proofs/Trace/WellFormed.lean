import Stepwise.Proofs.Run.Operations

/-!
# Traced logs are well formed

A log that is read from a file may hold anything: an action that does not fit its container, an
insertion without a value, a write to an array that was never declared.  A log that was traced holds
none of this, whatever the program did.

* `Command.WellFormed` says which of the optional parts a command has, and `Log.Admits` adds that a
  write to an array comes after a declaration with room for it.
* `Recorder.WellFormed` is the invariant of a recording.  Besides the log it has to know of every
  live array that all its slots have been declared, because the handle of an array outlives the
  scope that declared it and may be written through from anywhere.
* `Recorder.wellFormed_perform` preserves it over any one operation, and since a run does nothing to
  its recorder but perform operations, `trace_wellFormed` follows.
-/

set_option autoImplicit false

namespace Stepwise

/-! ## Well-formed logs -/

namespace Action

/-- The kind of container that an action is about. -/
def target : Action → Target
  | push | pop => .stack
  | enqueue | dequeue => .queue
  | arrayDeclare | arraySet => .array
  | listInsert | listRemove => .linkedList

/-- Whether the action puts in an item, which its command has to name. -/
def inserts : Action → Bool
  | push | enqueue | listInsert => true
  | _ => false

/-- Whether the action leaves no choice of a value. -/
def valueless : Action → Bool
  | pop | dequeue | arrayDeclare => true
  | _ => false

end Action

/-- Whether a scalar is anything but an infinite double or NaN. -/
def Scalar.isFinite : Scalar → Bool
  | float x => x.isFinite
  | _ => true

/-- A command has the parts that its action asks for, and no others. -/
structure Command.WellFormed (c : Command) : Prop where
  /-- The action fits the kind of container. -/
  fits : c.target = c.action.target
  valued : c.action.inserts = true → c.value.isSome = true
  unvalued : c.action.valueless = true → c.value = none
  /-- Writes to an array, and only they, have an index. -/
  indexed : c.index.isSome = true ↔ c.action = .arraySet
  /-- Declarations of an array, and only they, have a size. -/
  sized : c.size.isSome = true ↔ c.action = .arrayDeclare
  finite : ∀ s ∈ c.value, s.isFinite = true

namespace Log

/-- The log declares an array of the given name that has a slot `i`. -/
def Declares (log : Log) (name : String) (i : Nat) : Prop :=
  ∃ c ∈ log, c.action = .arrayDeclare ∧ c.name = name ∧ ∃ n ∈ c.size, i < n.toNat

/-- The command may follow the log: it is well formed, and if it writes to a slot of an array then
the log declares that slot. -/
structure Admits (log : Log) (c : Command) : Prop where
  command : c.WellFormed
  declared : c.action = .arraySet → ∀ i ∈ c.index, log.Declares c.name i.toNat

/-- Every command of the log may follow those before it. -/
def WellFormed (log : Log) : Prop :=
  ∀ before c after, log = before ++ c :: after → Admits before c

theorem Declares.append {log : Log} {name : String} {i : Nat} (h : log.Declares name i)
    (later : Log) : Declares (log ++ later) name i := by
  obtain ⟨c, hc, hdeclares⟩ := h
  exact ⟨c, List.mem_append_left later hc, hdeclares⟩

theorem wellFormed_nil : WellFormed [] := by
  intro before c after h
  simp at h

/-- A log stays well formed when a command is added that may follow it. -/
theorem WellFormed.append_singleton {log : Log} {c : Command} (h : log.WellFormed)
    (hc : log.Admits c) : WellFormed (log ++ [c]) := by
  intro before d after heq
  -- Either `d` is the new command, or it was there and only what comes after it has grown.
  rcases List.eq_nil_or_concat after with rfl | ⟨after', last, rfl⟩
  · obtain ⟨rfl, hlast⟩ := List.append_inj' heq rfl
    obtain rfl : c = d := by simpa using hlast
    exact hc
  · refine h before d after' ?_
    rw [List.concat_eq_append, ← List.cons_append, ← List.append_assoc] at heq
    exact (List.append_inj' heq rfl).1

end Log

/-! ## Changes

What an operation says there is to record makes a well-formed command, and one that writes to an
array names a slot which the array has. -/

theorem Value.isFinite_of_toScalar? {v : Value} {s : Scalar} (h : v.toScalar? = some s) :
    s.isFinite = true := by
  cases v with
  | float x =>
    rw [toScalar?] at h
    split at h
    · rename_i hx
      cases h
      exact hx
    · cases h
  | int n | str t | bool b => cases h; rfl
  | null | undefined | container id => cases h

namespace SequenceKind

theorem command_insertion_wellFormed (kind : SequenceKind) {s : Scalar} (hs : s.isFinite = true)
    (name cited : String) :
    (({ action := kind.insertion, value := some s } : Change).command kind.target name
      cited).WellFormed := by
  cases kind <;> constructor <;> simp_all [Change.command, insertion, target, Action.target,
    Action.valueless]

theorem command_removal_wellFormed (kind : SequenceKind) (idle : Bool) (name cited : String) :
    (({ action := kind.removal, idle } : Change).command kind.target name cited).WellFormed := by
  cases kind <;> constructor <;> simp [Change.command, removal, target, Action.target,
    Action.inserts]

/-- Only a list can be asked to remove a value. -/
theorem eq_list_of_method?_remove {kind : SequenceKind} {name : String}
    (h : kind.method? name = some .remove) : kind = .list := by
  obtain ⟨before, after, hm, -⟩ := List.lookup_eq_some_iff.1 h
  have hmem : (name, Method.remove) ∈ kind.methods := by
    rw [hm]
    simp
  cases kind with
  | list => rfl
  | stack | queue => simp [methods] at hmem

theorem insertion_ne_arraySet (kind : SequenceKind) : kind.insertion ≠ .arraySet := by
  cases kind <;> simp [insertion]

theorem removal_ne_arraySet (kind : SequenceKind) : kind.removal ≠ .arraySet := by
  cases kind <;> simp [removal]

end SequenceKind

namespace Method

theorem apply_admitted {m : Method} {kind : SequenceKind} {method : String} {args : List Value}
    {items items' : List Scalar} {change : Change} (hm : m = .remove → kind = .list)
    (h : m.apply kind method args items = .ok (.changed items' change)) (name cited : String) :
    (change.command kind.target name cited).WellFormed ∧ change.action ≠ .arraySet := by
  cases m with
  | pushBack | pushFront =>
    obtain ⟨v, s, -, hs, heffect⟩ := inserting_eq_ok.1 h
    cases heffect
    exact ⟨kind.command_insertion_wellFormed (Value.isFinite_of_toScalar? hs) name cited,
      kind.insertion_ne_arraySet⟩
  | popBack | popFront =>
    obtain ⟨-, heffect⟩ := removing_eq_ok.1 h
    cases heffect
    exact ⟨kind.command_removal_wellFormed _ name cited, kind.removal_ne_arraySet⟩
  | remove =>
    obtain ⟨-, heffect⟩ | ⟨v, s, -, hs, heffect⟩ := removingValue_eq_ok.1 h
    · cases heffect
      exact ⟨kind.command_removal_wellFormed _ name cited, kind.removal_ne_arraySet⟩
    · cases heffect
      obtain rfl := hm rfl
      have hfinite := Value.isFinite_of_toScalar? hs
      refine ⟨?_, SequenceKind.list.removal_ne_arraySet⟩
      constructor <;> simp_all [Change.command, SequenceKind.removal, SequenceKind.target,
        Action.target, Action.valueless]
  | first | last | size | isEmpty => cases (reading_eq_ok.1 h).2

end Method

/-- A method call leaves a sequence behind, and does not record a write to an array. -/
theorem Container.call_admitted {c c' : Container} {method : String} {args : List Value}
    {value : Value} {change : Option Change} (h : c.call method args = .ok (value, c', change)) :
    (∃ kind items, c'.contents = .sequence kind items) ∧
      ∀ ch ∈ change, ∀ name cited,
        (ch.command c.target name cited).WellFormed ∧ ch.action ≠ .arraySet := by
  obtain ⟨n, kind, items, m, rfl, hm, ⟨-, rfl, rfl⟩ | ⟨items', ch, ha, -, rfl, rfl⟩⟩ :=
    call_eq_ok_cases h
  · exact ⟨⟨kind, items, rfl⟩, fun ch hch => by cases hch⟩
  · refine ⟨⟨kind, items', rfl⟩, ?_⟩
    rintro _ ⟨⟩ name cited
    exact Method.apply_admitted (fun hr => SequenceKind.eq_list_of_method?_remove (hr ▸ hm)) ha
      name cited

/-- The log declares every slot of the array. -/
def Log.Covers (log : Log) (name : String) (a : Slots) : Prop :=
  ∀ i < a.slots.size, log.Declares name i

theorem Slots.stored_isFinite {array : String} {value : Value} {s : Option Scalar}
    (h : stored array value = .ok s) : ∀ x ∈ s, x.isFinite = true := by
  rw [stored.eq_def] at h
  split at h
  · cases h
    simp
  · split at h
    · rename_i hv
      cases h
      rintro x ⟨⟩
      exact Value.isFinite_of_toScalar? hv
    · cases h

/-- A write leaves an array with as many slots, and records nothing beyond them. -/
theorem Slots.set_admitted {a a' : Slots} {array : String} {index value : Value}
    {change : Option Change} (h : a.set array index value = .ok (a', change)) {log : Log}
    (hlog : log.Covers array a) :
    log.Covers array a' ∧
      ∀ ch ∈ change, ∀ cited, log.Admits (ch.command .array array cited) := by
  rw [set] at h
  cases hi : a.slot? index with
  | none =>
    rw [hi] at h
    cases h
    exact ⟨hlog, fun ch hch => by cases hch⟩
  | some i =>
    rw [hi] at h
    obtain ⟨s, hs, heq⟩ := ok_of_bind_eq_ok h
    cases heq
    have hlt : i.toNat < a.slots.size := by
      rw [slot?, Option.filter_eq_some_iff] at hi
      simpa using hi.2
    refine ⟨fun j hj => hlog j (by simpa using hj), ?_⟩
    rintro ch ⟨⟩ cited
    refine ⟨?_, fun _ j hj => ?_⟩
    · have hfinite := stored_isFinite hs
      constructor <;> simp_all [Change.command, Action.target, Action.inserts, Action.valueless]
    · cases hj
      exact hlog i.toNat hlt

/-! ## Recordings -/

namespace Recorder

/-- What has been recorded is well formed, and declares every slot of every live array. -/
structure WellFormed (r : Recorder) : Prop where
  log : r.log.WellFormed
  arrays : ∀ c ∈ r.containers, ∀ a, c.contents = .array a → r.log.Covers c.name a

variable {r : Recorder}

theorem wellFormed_append (h : r.WellFormed) {c : Command} (hc : r.log.Admits c) :
    (r.append c).WellFormed where
  log := by
    rw [log_append]
    exact h.log.append_singleton hc
  arrays d hd a ha i hi := by
    rw [log_append]
    exact (h.arrays d hd a ha i hi).append [c]

theorem covers_append {name : String} {a : Slots} (h : r.log.Covers name a) (c : Command) :
    (r.append c).log.Covers name a := by
  rw [log_append]
  exact fun i hi => (h i hi).append [c]

theorem wellFormed_record (h : r.WellFormed) {t : Target} {name : String} {change : Option Change}
    (hc : ∀ ch ∈ change, ∀ cited, r.log.Admits (ch.command t name cited)) :
    (r.record t name change).WellFormed := by
  cases change with
  | none => exact h
  | some ch =>
    rw [record]
    split
    · exact h
    · exact wellFormed_append h (hc ch rfl r.line.text)

theorem covers_record {name : String} {a : Slots} (h : r.log.Covers name a) (t : Target)
    (n : String) (change : Option Change) : (r.record t n change).log.Covers name a := by
  cases change with
  | none => exact h
  | some ch =>
    rw [record]
    split
    · exact h
    · exact covers_append h _

theorem wellFormed_allocate (h : r.WellFormed) {c : Container}
    (hc : ∀ a, c.contents = .array a → r.log.Covers c.name a) : (r.allocate c).2.WellFormed where
  log := h.log
  arrays d hd := by
    rcases Array.mem_push.1 hd with hmem | rfl
    · exact h.arrays d hmem
    · exact hc

theorem wellFormed_replace (h : r.WellFormed) (id : Nat) {c : Container}
    (hc : ∀ a, c.contents = .array a → r.log.Covers c.name a) : (r.replace id c).WellFormed where
  log := h.log
  arrays d hd := by
    rcases Array.mem_or_eq_of_mem_setIfInBounds hd with hmem | rfl
    · exact h.arrays d hmem
    · exact hc

/-- Filling an array that has been declared keeps the recording well formed and the array covered,
whether or not all initial elements can be stored. -/
theorem wellFormed_fill {name : String} (init : List Value) :
    ∀ {r : Recorder} {a : Slots} (index : Nat), r.WellFormed → r.log.Covers name a →
      (r.fill name a index init).2.WellFormed ∧
        ∀ a', (r.fill name a index init).1 = .ok a' →
          (r.fill name a index init).2.log.Covers name a' := by
  induction init with
  | nil =>
    intro r a index h ha
    refine ⟨h, ?_⟩
    rintro a' ⟨⟩
    exact ha
  | cons v vs ih =>
    intro r a index h ha
    rw [fill]
    cases hset : a.set name (.int (Int64.ofNat index)) v with
    -- What was recorded before the failure stays, and no array is made.
    | error cause => exact ⟨h, fun a' ha' => by cases ha'⟩
    | ok result =>
      obtain ⟨a', change⟩ := result
      obtain ⟨hcovers, hadmits⟩ := Slots.set_admitted hset ha
      exact ih (index + 1) (wellFormed_record h hadmits)
        (covers_record hcovers .array name change)

theorem admits_declaration (r : Recorder) (name : String) (size : UInt64) :
    r.log.Admits (r.declaration name size) := by
  refine ⟨?_, fun h => by cases h⟩
  constructor <;> simp [declaration, Action.target, Action.inserts]

theorem covers_declaration (r : Recorder) (name : String) (size : UInt64) :
    (r.append (r.declaration name size)).log.Covers name (.blank size) := by
  intro i hi
  refine ⟨r.declaration name size, by simp [log_append], rfl, rfl, size, rfl, ?_⟩
  simpa [Slots.blank] using hi

theorem wellFormed_createArray (h : r.WellFormed) (name : String) (size : UInt64)
    (init : List Value) : (r.createArray name size init).2.WellFormed := by
  obtain ⟨hfilled, hcovers⟩ := wellFormed_fill (init.take size.toNat) 0
    (wellFormed_append h (r.admits_declaration name size)) (r.covers_declaration name size)
  rw [createArray_eq]
  split
  case isFalse => exact wellFormed_append h (r.admits_declaration name size)
  split
  · rename_i heq
    rw [heq] at hfilled
    exact hfilled
  · rename_i a r' heq
    rw [heq] at hfilled hcovers
    refine wellFormed_allocate hfilled ?_
    rintro b ⟨⟩
    exact hcovers a rfl

theorem wellFormed_call (h : r.WellFormed) (id : Nat) (method : String) (args : List Value) :
    (r.call id method args).2.WellFormed := by
  rcases r.call_cases id method args with ⟨f, hcall⟩ | ⟨c, value, c', change, -, hc, hcall⟩
  · rw [hcall]
    exact h
  · rw [hcall]
    obtain ⟨⟨kind, items, hcontents⟩, hchange⟩ := Container.call_admitted hc
    refine wellFormed_record (wellFormed_replace h id fun a ha => ?_) fun ch hch cited => ?_
    · rw [hcontents] at ha
      cases ha
    · obtain ⟨hcommand, hne⟩ := hchange ch hch c.name cited
      exact ⟨hcommand, fun heq => absurd heq hne⟩

theorem wellFormed_setElement (h : r.WellFormed) (id : Nat) (index value : Value) :
    (r.setElement id index value).2.WellFormed := by
  rcases r.setElement_cases id index value with ⟨f, hset⟩ | ⟨name, a, a', change, hid, ha, hset⟩
  · rw [hset]
    exact h
  · rw [hset]
    have hcovers : r.log.Covers name a := h.arrays _ (Array.mem_of_getElem? hid) a rfl
    obtain ⟨hcovers', hadmits⟩ := Slots.set_admitted ha hcovers
    refine wellFormed_record (wellFormed_replace h id ?_) hadmits
    rintro b ⟨⟩
    exact hcovers'

/-- **One step.**  Whatever is asked of a recorder, its recording stays well formed. -/
theorem wellFormed_perform (h : r.WellFormed) (op : Operation) : (r.perform op).WellFormed := by
  cases op with
  | setLine line => exact ⟨h.log, h.arrays⟩
  | createSequence kind name => exact wellFormed_allocate h fun a ha => by cases ha
  | createArray name size init => exact wellFormed_createArray h name size init
  | call id method args => exact wellFormed_call h id method args
  | setElement id index value => exact wellFormed_setElement h id index value
  | getElement id index => exact h

theorem wellFormed_performAll (ops : List Operation) :
    ∀ {r : Recorder}, r.WellFormed → (r.performAll ops).WellFormed := by
  induction ops with
  | nil => exact id
  | cons op ops ih => exact fun h => ih (wellFormed_perform h op)

theorem wellFormed_empty (suppress : Bool) : ({ suppress } : Recorder).WellFormed :=
  ⟨Log.wellFormed_nil, by simp⟩

end Recorder

/-- **Traced logs are well formed.**  Whatever the source text and whatever the settings, every
command of the traced log has exactly the parts that its action asks for, and every write to a slot
of an array comes after a declaration of that slot. -/
theorem trace_wellFormed (source : String) (settings : Settings) :
    Log.WellFormed (trace source settings).log := by
  obtain ⟨ops, hops⟩ := (Program.ofSource source).exists_operations settings.horizon
  rw [trace, Program.execute, hops]
  exact (Recorder.wellFormed_performAll ops (Recorder.wellFormed_empty _)).log

end Stepwise
