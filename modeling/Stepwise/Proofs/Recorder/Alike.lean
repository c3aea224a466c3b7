import Stepwise.Proofs.Recorder.Operation

/-!
# Recorders that answer alike

What a recorder answers depends on its containers and on the line that is being run, and on nothing
that it has recorded.

* `Recorder.Alike` relates recorders that hold the same containers and stand on the same line,
  whatever they have recorded and whether or not they leave something out.
* Operations keep them alike (`Alike.perform`), and are answered in the same way (`Alike.call`,
  `Alike.createArray` and their kin).
* `Recorder.perform_fields` says what operations leave as it is.
-/

set_option autoImplicit false

namespace Stepwise

namespace Recorder

/-- Recording touches nothing but the commands. -/
theorem record_fields (r : Recorder) (t : Target) (n : String) (change : Option Change) :
    (r.record t n change).line = r.line ∧ (r.record t n change).containers = r.containers ∧
      (r.record t n change).suppress = r.suppress := by
  cases change with
  | none => exact ⟨rfl, rfl, rfl⟩
  | some change =>
    rw [record]
    split <;> exact ⟨rfl, rfl, rfl⟩

/-- Recorders with the same containers on the same line. -/
structure Alike (r r' : Recorder) : Prop where
  line : r.line = r'.line
  containers : r.containers = r'.containers

namespace Alike

variable {r r' : Recorder}

theorem fault (h : r.Alike r') (cause : Cause) : r.fault cause = r'.fault cause := by
  rw [Recorder.fault, Recorder.fault, h.line]

theorem container? (h : r.Alike r') (id : Nat) : r.container? id = r'.container? id := by
  rw [Recorder.container?, Recorder.container?, h.containers]

theorem record (h : r.Alike r') (t : Target) (n : String) (change : Option Change) :
    (r.record t n change).Alike (r'.record t n change) := by
  obtain ⟨hline, hcontainers, -⟩ := r.record_fields t n change
  obtain ⟨hline', hcontainers', -⟩ := r'.record_fields t n change
  exact ⟨by rw [hline, hline', h.line], by rw [hcontainers, hcontainers', h.containers]⟩

theorem replace (h : r.Alike r') (id : Nat) (c : Container) :
    (r.replace id c).Alike (r'.replace id c) :=
  ⟨h.line, by rw [Recorder.replace, Recorder.replace, h.containers]⟩

theorem allocate (h : r.Alike r') (c : Container) :
    (r.allocate c).1 = (r'.allocate c).1 ∧ (r.allocate c).2.Alike (r'.allocate c).2 := by
  refine ⟨?_, h.line, ?_⟩
  · rw [Recorder.allocate, Recorder.allocate, h.containers]
  · rw [Recorder.allocate, Recorder.allocate, h.containers]

/-- What a method call does to both recorders. -/
theorem call (h : r.Alike r') (id : Nat) (method : String) (args : List Value) :
    (∃ f, r.call id method args = (.error f, r) ∧ r'.call id method args = (.error f, r')) ∨
      ∃ c value c' change, r.container? id = some c ∧
        c.call method args = .ok (value, c', change) ∧
        r.call id method args = (.ok value, (r.replace id c').record c.target c.name change) ∧
        r'.call id method args
          = (.ok value, (r'.replace id c').record c.target c.name change) := by
  rw [Recorder.call, Recorder.call, ← h.container? id]
  cases r.container? id with
  | none => exact .inl ⟨_, rfl, by rw [h.fault]⟩
  | some c =>
    dsimp only
    cases hc : c.call method args with
    | error cause => exact .inl ⟨_, rfl, by rw [h.fault]⟩
    | ok result => exact .inr ⟨c, _, _, _, rfl, hc, rfl, rfl⟩

theorem call_answer (h : r.Alike r') (id : Nat) (method : String) (args : List Value) :
    (r.call id method args).1 = (r'.call id method args).1 := by
  rcases h.call id method args with ⟨f, hr, hr'⟩ | ⟨c, value, c', change, -, -, hr, hr'⟩
  · rw [hr, hr']
  · rw [hr, hr']

theorem array (h : r.Alike r') (id : Nat) : r.array id = r'.array id := by
  rw [Recorder.array, Recorder.array, h.container? id]
  simp only [h.fault]

theorem getElement (h : r.Alike r') (id : Nat) (index : Value) :
    r.getElement id index = r'.getElement id index := by
  rw [Recorder.getElement, Recorder.getElement, h.array id]

theorem arrayLength? (h : r.Alike r') (id : Nat) : r.arrayLength? id = r'.arrayLength? id := by
  rw [Recorder.arrayLength?, Recorder.arrayLength?, h.array id]

theorem setElement (h : r.Alike r') (id : Nat) (index value : Value) :
    (∃ f, r.setElement id index value = (.error f, r) ∧
        r'.setElement id index value = (.error f, r')) ∨
      ∃ (name : String) (a a' : Slots) (change : Option Change),
        a.set name index value = .ok (a', change) ∧
        r.setElement id index value
          = (.ok (), (r.replace id ⟨name, .array a'⟩).record .array name change) ∧
        r'.setElement id index value
          = (.ok (), (r'.replace id ⟨name, .array a'⟩).record .array name change) := by
  rw [Recorder.setElement, Recorder.setElement, h.array id]
  cases r'.array id with
  | error f => exact .inl ⟨f, rfl, rfl⟩
  | ok named =>
    obtain ⟨name, a⟩ := named
    dsimp only
    cases ha : a.set name index value with
    | error cause => exact .inl ⟨_, rfl, by rw [h.fault]⟩
    | ok result => exact .inr ⟨name, a, _, _, ha, rfl, rfl⟩

theorem setElement_answer (h : r.Alike r') (id : Nat) (index value : Value) :
    (r.setElement id index value).1 = (r'.setElement id index value).1 := by
  rcases h.setElement id index value with ⟨f, hr, hr'⟩ | ⟨name, a, a', change, -, hr, hr'⟩
  · rw [hr, hr']
  · rw [hr, hr']

theorem fill (name : String) :
    ∀ (vs : List Value) {r r' : Recorder} (_ : r.Alike r') (a : Slots) (index : Nat),
      (r.fill name a index vs).1 = (r'.fill name a index vs).1 ∧
        (r.fill name a index vs).2.Alike (r'.fill name a index vs).2
  | [], _, _, h, _, _ => ⟨rfl, h⟩
  | v :: vs, r, r', h, a, index => by
    rw [Recorder.fill, Recorder.fill]
    cases a.set name (.int (Int64.ofNat index)) v with
    | error cause => exact ⟨congrArg Except.error (h.fault cause), h⟩
    | ok result => exact fill name vs (h.record .array name _) _ _

theorem createArray (h : r.Alike r') (name : String) (size : UInt64) (init : List Value) :
    (r.createArray name size init).1 = (r'.createArray name size init).1 ∧
      (r.createArray name size init).2.Alike (r'.createArray name size init).2 := by
  have hdeclared : (r.append (r.declaration name size)).Alike
      (r'.append (r'.declaration name size)) := ⟨h.line, h.containers⟩
  obtain ⟨hresult, hleft⟩ := fill name (init.take size.toNat) hdeclared (.blank size) 0
  rw [createArray_eq, createArray_eq]
  by_cases hsize : size.toNat ≤ Slots.capacity
  case neg =>
    rw [if_neg hsize, if_neg hsize]
    exact ⟨rfl, hdeclared⟩
  rw [if_pos hsize, if_pos hsize]
  cases hfill : (r.append (r.declaration name size)).fill name (.blank size) 0
      (init.take size.toNat) with
  | mk result q =>
    cases hfill' : (r'.append (r'.declaration name size)).fill name (.blank size) 0
        (init.take size.toNat) with
    | mk result' q' =>
      rw [hfill, hfill'] at hresult hleft
      cases hresult
      cases result with
      | error f => exact ⟨rfl, hleft⟩
      | ok a =>
        have hid : q.containers.size = q'.containers.size := by rw [hleft.containers]
        exact ⟨congrArg Except.ok hid, (hleft.allocate _).2⟩

/-- **Operations keep recorders alike.** -/
theorem perform (h : r.Alike r') (op : Operation) : (r.perform op).Alike (r'.perform op) := by
  cases op with
  | setLine line => exact ⟨rfl, h.containers⟩
  | createSequence kind name => exact (h.allocate _).2
  | createArray name size init => exact (h.createArray name size init).2
  | call id method args =>
    rw [Recorder.perform, Recorder.perform]
    rcases h.call id method args with ⟨f, hr, hr'⟩ | ⟨c, value, c', change, -, -, hr, hr'⟩
    · rw [hr, hr']
      exact h
    · rw [hr, hr']
      exact (h.replace id c').record c.target c.name change
  | setElement id index value =>
    rw [Recorder.perform, Recorder.perform]
    rcases h.setElement id index value with ⟨f, hr, hr'⟩ | ⟨name, a, a', change, -, hr, hr'⟩
    · rw [hr, hr']
      exact h
    · rw [hr, hr']
      exact (h.replace id ⟨name, .array a'⟩).record .array name change
  | getElement id index => exact h

theorem performAll (h : r.Alike r') (ops : List Operation) :
    (r.performAll ops).Alike (r'.performAll ops) := by
  induction ops generalizing r r' with
  | nil => exact h
  | cons op ops ih => exact ih (h.perform op)

end Alike

/-! ## What operations leave as it is -/

theorem fill_fields (name : String) :
    ∀ (vs : List Value) (r : Recorder) (a : Slots) (index : Nat),
      (r.fill name a index vs).2.suppress = r.suppress ∧
        (r.fill name a index vs).2.line = r.line
  | [], _, _, _ => ⟨rfl, rfl⟩
  | v :: vs, r, a, index => by
    rw [fill]
    cases a.set name (.int (Int64.ofNat index)) v with
    | error cause => exact ⟨rfl, rfl⟩
    | ok result =>
      obtain ⟨hline, -, hsuppress⟩ := r.record_fields .array name result.2
      obtain ⟨hsuppress', hline'⟩ := fill_fields name vs (r.record .array name result.2) result.1
        (index + 1)
      exact ⟨hsuppress'.trans hsuppress, hline'.trans hline⟩

/-- Operations do not change what a recorder leaves out, and only one of them the line. -/
theorem perform_fields (r : Recorder) (op : Operation) :
    (r.perform op).suppress = r.suppress ∧
      ((∀ line, op ≠ .setLine line) → (r.perform op).line = r.line) := by
  cases op with
  | setLine line => exact ⟨rfl, fun h => absurd rfl (h line)⟩
  | createSequence kind name => exact ⟨rfl, fun _ => rfl⟩
  | getElement id index => exact ⟨rfl, fun _ => rfl⟩
  | createArray name size init =>
    obtain ⟨hsuppress, hline⟩ := fill_fields name (init.take size.toNat)
      (r.append (r.declaration name size)) (.blank size) 0
    rw [perform, createArray_eq]
    split
    case isFalse => exact ⟨rfl, fun _ => rfl⟩
    cases hresult : (r.append (r.declaration name size)).fill name (.blank size) 0
        (init.take size.toNat) with
    | mk result q =>
      rw [hresult] at hsuppress hline
      cases result <;> exact ⟨hsuppress, fun _ => hline⟩
  | call id method args =>
    rw [perform]
    rcases r.call_cases id method args with ⟨f, hr⟩ | ⟨c, value, c', change, -, -, hr⟩
    · rw [hr]
      exact ⟨rfl, fun _ => rfl⟩
    · rw [hr]
      obtain ⟨hline, -, hsuppress⟩ := (r.replace id c').record_fields c.target c.name change
      exact ⟨hsuppress, fun _ => hline⟩
  | setElement id index value =>
    rw [perform]
    rcases r.setElement_cases id index value with ⟨f, hr⟩ | ⟨name, a, a', change, -, -, hr⟩
    · rw [hr]
      exact ⟨rfl, fun _ => rfl⟩
    · rw [hr]
      obtain ⟨hline, -, hsuppress⟩ :=
        (r.replace id ⟨name, .array a'⟩).record_fields .array name change
      exact ⟨hsuppress, fun _ => hline⟩

theorem suppress_performAll (r : Recorder) (ops : List Operation) :
    (r.performAll ops).suppress = r.suppress := by
  induction ops generalizing r with
  | nil => rfl
  | cons op ops ih => rw [performAll_cons, ih, (r.perform_fields op).1]

end Recorder

end Stepwise
