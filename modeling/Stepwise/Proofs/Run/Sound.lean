import Stepwise.Proofs.Run.Handles
import Stepwise.Proofs.Run.Operations

/-!
# Sound runs

A handle is valid where it is made, and stays so.  But a run passes handles on: it binds them to
names, hands them to calls, returns them and writes them beyond the slots of arrays.  So what has to
be shown of every part of a run is that it passes on only what it was given or has made itself.

* `Run.Sound needs yields m` says of `m`, started where the values `needs` are held, that it keeps
  all handles valid, yields valid handles, and does not stop because a handle is that of no
  container.  All that it does to its recorder is to perform operations.
* Sound runs go on with sound runs (`Run.Sound.bind`), and scopes, calls and loops are sound if what
  is in them is.
* The steps of a run are sound, and so is what is done with single values.
-/

set_option autoImplicit false

namespace Stepwise

open Recorder (Operation)

theorem Cause.ne_dangling_of_isLocal {cause : Cause} (h : cause.isLocal = true) :
    cause ≠ .mismatch .dangling := by
  rintro rfl
  cases h

/-! ## Operators yield no handles -/

theorem BinaryOp.isPlain_arithmetic {op : BinaryOp} {a b v : Value}
    (h : op.arithmetic a b = .ok v) : v.IsPlain := by
  rw [arithmetic] at h
  split at h
  · rename_i m n _ _
    cases hwhole : op.wholeArithmetic m n with
    | error cause => rw [hwhole] at h; cases h
    | ok k => rw [hwhole] at h; cases h; rintro id ⟨⟩
  · split at h
    · cases h
      rintro id ⟨⟩
    · cases h

theorem BinaryOp.isPlain_apply {op : BinaryOp} {a b v : Value} (h : op.apply a b = .ok v) :
    v.IsPlain := by
  cases op with
  | add =>
    simp only [apply] at h
    split at h
    · cases h
      rintro id ⟨⟩
    · cases h
      rintro id ⟨⟩
    · exact isPlain_arithmetic h
  | sub | mul | div | mod => exact isPlain_arithmetic h
  | bitAnd | bitOr | bitXor | shl | shr =>
    simp only [apply, bitwise] at h
    split at h
    · cases h
      rintro id ⟨⟩
    · cases h
  | _ =>
    cases h
    rintro id ⟨⟩

theorem UnaryOp.isPlain_apply {op : UnaryOp} {a v : Value} (h : op.apply a = .ok v) :
    v.IsPlain := by
  unfold apply at h
  split at h
  · cases h
    exact nofun
  · cases h
    exact nofun
  · split at h
    · cases h
      exact nofun
    · cases h
  · split at h
    · cases h
      exact nofun
    · cases h

theorem StepOp.isPlain_apply {op : StepOp} {a v : Value} (h : op.apply a = .ok v) :
    v.IsPlain := by
  rw [apply] at h
  split at h
  · exact BinaryOp.isPlain_apply h
  · cases h

/-- The values that a place is made of. -/
def Place.values : Place → List Value
  | named _ => []
  | element array index => [.container array, index]

namespace Run

variable {α β : Type}

/-! ## Sound runs -/

/-- The end of a run that held the values `held` besides what it yields: all handles are valid, and
none was found not to be. -/
inductive Settles (held : List Value) (yields : α → List Value) :
    EStateM.Result Stop State α → Prop
  | ok {a : α} {t : State} (h : t.Resolves (yields a ++ held)) : Settles held yields (.ok a t)
  | error {e : Stop} {t : State} (h : t.Resolves held)
      (hcause : ∀ f, e = .fault f → f.cause ≠ .mismatch .dangling) :
      Settles held yields (.error e t)

/-- A run that uses the values `needs` and yields others.  It performs operations, and where all
handles were valid they stay so. -/
structure Sound (needs : List Value) (yields : α → List Value) (m : Run α) : Prop where
  drives : Drives m
  settles {held : List Value} {s : State} (hneeds : needs ⊆ held) (hs : s.Resolves held) :
    Settles held yields (m s)

variable {needs : List Value} {yields : α → List Value} {yields' : β → List Value}

theorem Settles.mono {held held' : List Value} {r : EStateM.Result Stop State α}
    (h : Settles held yields r) (hle : held' ⊆ held) : Settles held' yields r := by
  cases h with
  | ok h => exact .ok (h.mono (List.append_subset.2 ⟨List.subset_append_left _ _,
      List.Subset.trans hle (List.subset_append_right _ _)⟩))
  | error h hcause => exact .error (h.mono hle) hcause

theorem Sound.mono {m : Run α} (h : Sound needs yields m) {more : List Value}
    (hle : needs ⊆ more) : Sound more yields m :=
  ⟨h.drives, fun hneeds => h.settles (List.Subset.trans hle hneeds)⟩

theorem Sound.of_ok {m : Run α} (h : Sound needs yields m) {held : List Value} {s t : State} {a : α}
    (hneeds : needs ⊆ held) (hs : s.Resolves held) (hok : m s = .ok a t) :
    t.Resolves (yields a ++ held) := by
  have hsettles := h.settles hneeds hs
  rw [hok] at hsettles
  cases hsettles with
  | ok h => exact h

/-- What goes on after a sound run may use what that run has yielded. -/
theorem Sound.bind {m : Run α} {f : α → Run β} (hm : Sound needs yields m)
    (hf : ∀ a, Sound (yields a ++ needs) yields' (f a)) : Sound needs yields' (m >>= f) := by
  refine ⟨hm.drives.bind fun a => (hf a).drives, fun {held s} hneeds hs => ?_⟩
  have hsettles := hm.settles hneeds hs
  rw [bind_apply]
  cases hms : m s with
  | error e t =>
    rw [hms] at hsettles
    cases hsettles with
    | error h hcause => exact .error h hcause
  | ok a t =>
    rw [hms] at hsettles
    cases hsettles with
    | ok h =>
      have hheld : yields a ++ needs ⊆ yields a ++ held := List.append_subset.2
        ⟨List.subset_append_left _ _, List.Subset.trans hneeds (List.subset_append_right _ _)⟩
      exact ((hf a).settles hheld h).mono (List.subset_append_right _ _)

/-- A run that yields nothing of its own, if what goes on after it is sound. -/
theorem sound_pure (a : α) (h : ∀ v ∈ yields a, v.IsPlain ∨ v ∈ needs) :
    Sound needs yields (pure a) := by
  refine ⟨(Primitive.pure a).drives, fun {held s} hneeds hs => .ok (hs.hold fun v hv => ?_)⟩
  rcases List.mem_append.1 hv with hv | hv
  · exact (h v hv).imp_right fun hv => List.mem_append_right _ (hneeds hv)
  · exact .inr (List.mem_append_right _ hv)

theorem sound_throw (e : Stop) (h : ∀ f, e = .fault f → f.cause ≠ .mismatch .dangling) :
    Sound needs yields (throw e : Run α) :=
  ⟨drives_of_eq fun _ => rfl, fun _ hs => .error hs h⟩

theorem sound_fail {cause : Cause} (h : cause ≠ .mismatch .dangling) :
    Sound needs yields (fail cause : Run α) :=
  ⟨drives_of_eq fun _ => rfl, fun _ hs => .error hs fun f hf => by cases hf; exact h⟩

/-- A step that performs one operation on values that are held. -/
theorem sound_answer {m : Run α} (op : Operation) {answer : State → Except Stop α}
    (hm : ∀ s, m s = ofStop (answer s) { s with recorder := s.recorder.perform op })
    (hop : op.values ⊆ needs)
    (hanswer : ∀ {held : List Value} {s : State}, needs ⊆ held → s.Resolves held →
      (∀ a, answer s = .ok a → (s.recorder.perform op).Resolves (yields a)) ∧
        ∀ f, answer s = .error (.fault f) → f.cause ≠ .mismatch .dangling) :
    Sound needs yields m := by
  refine ⟨drives_of_answer op hm, fun {held s} hneeds hs => ?_⟩
  have hperform := hs.perform op (List.Subset.trans hop hneeds)
  obtain ⟨hok, herror⟩ := hanswer hneeds hs
  rw [hm]
  cases h : answer s with
  | ok a => exact .ok (hperform.append (hok a h))
  | error e => exact .error hperform fun f hf => herror f (hf ▸ h)

/-! ### Scopes, calls and loops -/

theorem Sound.bracket {m : Run α} (h : Sound needs yields m) {enter leave : CallStack → CallStack}
    {settle : Flow → Flow} (henter : ∀ a : CallStack, (enter a).values ⊆ a.values)
    (hleave : ∀ a : CallStack, (leave a).values ⊆ a.values)
    (hsettle : ∀ flow : Flow, (settle flow).values ⊆ flow.values) :
    Sound needs yields (bracket enter leave settle m) := by
  refine ⟨h.drives.bracket enter leave settle, fun {held s} hneeds hs => ?_⟩
  have hsettles := h.settles hneeds
    (hs.stack (List.Subset.trans (henter s.stack) (List.subset_append_right _ _)))
  have hleft : ∀ {held : List Value} {t : State}, t.Resolves held →
      ({ t with stack := leave t.stack, flow := settle t.flow } : State).Resolves held :=
    fun h => (h.stack (List.Subset.trans (hleave _) (List.subset_append_right _ _))).flow
      (List.Subset.trans (hsettle _) (List.subset_append_right _ _))
  rw [Run.bracket]
  generalize m { s with stack := enter s.stack } = r at hsettles
  cases hsettles with
  | ok h => exact .ok (hleft h)
  | error h hcause => exact .error (hleft h) hcause

theorem Sound.inScope {m : Run α} (h : Sound needs yields m) : Sound needs yields (inScope m) := by
  rw [inScope_eq_bracket]
  exact h.bracket CallStack.values_pushScope CallStack.values_popScope
    fun flow => List.Subset.refl flow.values

/-- What is returned is the value of the flow of control. -/
theorem sound_flow : Sound needs Flow.values Run.flow := by
  refine ⟨Primitive.flow.drives, fun {held s} _ hs => .ok (hs.hold fun v hv => .inr ?_)⟩
  rcases List.mem_append.1 hv with hv | hv
  · exact List.mem_append_left _ (State.mem_values.2 (.inr (.inl hv)))
  · exact List.mem_append_right _ hv

theorem sound_setFlow {flow : Flow} (h : flow.values ⊆ needs) :
    Sound needs (fun _ => []) (setFlow flow) :=
  ⟨(Primitive.setFlow flow).drives, fun hneeds hs => .ok (hs.flow
    (List.Subset.trans h (List.Subset.trans hneeds (List.subset_append_left _ _))))⟩

theorem Sound.inCall {m : Run Unit} (h : Sound needs (fun _ => []) m) (function : String) :
    Sound needs Flow.values (inCall function m) := by
  rw [inCall_eq_bracket]
  exact (h.bind fun _ => sound_flow).bracket (fun a => a.values_pushFrame function)
    CallStack.values_popFrame fun _ => List.nil_subset _

theorem sound_goesOn : Sound needs (fun _ => []) goesOn := by
  have hnormal : ∀ {more : List Value} (b : Bool),
      Sound more (fun _ => []) (do setFlow .normal; return b) := fun b =>
    (sound_setFlow (List.nil_subset _)).bind fun _ => sound_pure b nofun
  refine sound_flow.bind fun flow => ?_
  rcases flow with _ | (_ | _) | value
  · exact hnormal true
  · exact hnormal false
  · exact hnormal true
  · exact sound_pure false nofun

theorem sound_countGuard (settings : Settings) :
    Sound needs (fun _ => []) (countGuard settings) := by
  refine ⟨drives_countGuard settings, fun {held s} _ hs => ?_⟩
  rw [countGuard_apply]
  split
  · exact .error hs nofun
  · split
    · exact .error hs fun f hf => by cases hf; exact nofun
    · exact .ok hs

theorem Sound.iterate {turn : Run Bool} (h : Sound needs (fun _ => []) turn) :
    ∀ turns, Sound needs (fun _ => []) (iterate turn turns)
  | 0 => sound_throw .unfinished nofun
  | turns + 1 => by
    refine h.bind fun again => ?_
    cases again with
    | false => exact sound_pure () nofun
    | true => exact Sound.iterate h turns

/-! ### Steps -/

theorem sound_setLine (line : SourceLine) : Sound needs (fun _ => []) (Run.setLine line) :=
  ⟨(Primitive.setLine line).drives, fun _ hs => .ok (hs.perform (.setLine line)
    (List.nil_subset _))⟩

theorem sound_currentLine : Sound needs (fun _ => []) Run.currentLine :=
  ⟨Primitive.currentLine.drives, fun _ hs => .ok hs⟩

theorem sound_arrayLength (id : Nat) : Sound needs (fun _ => []) (Run.arrayLength id) :=
  ⟨(Primitive.arrayLength id).drives, fun _ hs => .ok hs⟩

theorem sound_declare (name : String) (b : Binding) (h : b.value ∈ needs) :
    Sound needs (fun _ => []) (Run.declare name b) := by
  refine ⟨(Primitive.declare name b).drives, fun {held s} hneeds hs => .ok (hs.stack ?_)⟩
  refine List.Subset.trans (s.stack.values_declare name b) (List.append_subset.2 ⟨?_, ?_⟩)
  · exact List.cons_subset.2 ⟨List.mem_append_left _ (hneeds h), List.nil_subset _⟩
  · exact List.subset_append_right _ _

theorem sound_read (name : String) : Sound needs (fun v => [v]) (Run.read name) := by
  refine ⟨(Primitive.read name).drives, fun {held s} _ hs => ?_⟩
  rw [read_apply]
  cases hname : s.stack.lookup name with
  | none => exact .error hs fun f hf => by cases hf; exact nofun
  | some b =>
    refine .ok (hs.hold fun v hv => .inr ?_)
    rcases List.mem_cons.1 hv with rfl | hv
    · exact List.mem_append_left _ (List.mem_append_left _ (CallStack.mem_values_of_lookup hname))
    · exact List.mem_append_right _ hv

theorem sound_write (name : String) (value : Value) (h : value ∈ needs) :
    Sound needs (fun _ => []) (Run.write name value) := by
  refine ⟨(Primitive.write name value).drives, fun {held s} hneeds hs => ?_⟩
  rw [write_apply]
  cases s.stack.lookup name with
  | none => exact .error hs fun f hf => by cases hf; exact nofun
  | some b =>
    dsimp only
    split
    · exact .error hs fun f hf => by cases hf; exact nofun
    · refine .ok (hs.stack ?_)
      cases hassign : s.stack.assign? name value with
      | none => exact List.subset_append_right _ _
      | some stack =>
        refine List.Subset.trans (CallStack.values_assign hassign) (List.append_subset.2 ⟨?_, ?_⟩)
        · exact List.cons_subset.2 ⟨List.mem_append_left _ (hneeds h), List.nil_subset _⟩
        · exact List.subset_append_right _ _

/-- The handle that was not valid before is that of the new container. -/
theorem sound_createSequence (kind : SequenceKind) (name : String) :
    Sound needs (fun id => [.container id]) (Run.createSequence kind name) := by
  refine ⟨(Primitive.createSequence kind name).drives, fun {held s} _ hs => ?_⟩
  rw [createSequence_apply]
  have hperform := hs.perform (.createSequence kind name) (List.nil_subset _)
  refine .ok (hperform.append fun id hid => ?_)
  cases List.mem_singleton.1 hid
  change s.recorder.containers.size < (s.recorder.containers.push _).size
  rw [Array.size_push]
  exact Nat.lt_succ_self _

/-- An array that has been created is the last container. -/
theorem lt_size_of_createArray {r r' : Recorder} {name : String} {size : UInt64}
    {init : List Value} {id : Nat} (h : r.createArray name size init = (.ok id, r')) :
    id < r'.containers.size := by
  rw [Recorder.createArray_eq] at h
  split at h
  · cases hfill : (r.append (r.declaration name size)).fill name (.blank size) 0
        (init.take size.toNat) with
    | mk result q =>
      rw [hfill] at h
      cases result with
      | error f => cases h
      | ok slots =>
        cases h
        change q.containers.size < (q.containers.push _).size
        rw [Array.size_push]
        exact Nat.lt_succ_self _
  · cases h

theorem sound_createArray (name : String) (size : UInt64) {init : List Value} (h : init ⊆ needs) :
    Sound needs (fun id => [.container id]) (Run.createArray name size init) := by
  refine sound_answer (.createArray name size init) (createArray_apply name size init) h
    fun {held s} _ _ => ⟨fun id hid id' hid' => ?_, fun f hf => ?_⟩
  · cases List.mem_singleton.1 hid'
    exact lt_size_of_createArray (Prod.ext hid rfl)
  · have hends := (s.recorder.createArray_ends name size init).2
    rw [hf] at hends
    cases hends with
    | fault h => exact Cause.ne_dangling_of_isLocal h

/-- An operation on a container does not find its handle to be invalid. -/
theorem ne_dangling_of_failsAt {held : List Value} {s : State} {id : Nat} {f : Fault}
    (hs : s.Resolves held) (hid : .container id ∈ held) (hf : s.recorder.FailsAt id f) :
    f.cause ≠ .mismatch .dangling := by
  rcases hf with hlocal | ⟨-, hnone⟩
  · exact Cause.ne_dangling_of_isLocal hlocal
  · have hlt : id < s.recorder.containers.size := hs (List.mem_append_right _ hid)
    rw [Recorder.container?, Array.getElem?_eq_getElem hlt] at hnone
    cases hnone

theorem sound_callContainer {id : Nat} (method : String) (args : List Value)
    (h : .container id ∈ needs) :
    Sound needs (fun v => [v]) (Run.callContainer id method args) := by
  refine sound_answer (.call id method args) (callContainer_apply id method args)
    (List.nil_subset _) fun {held s} hneeds hs => ?_
  rcases s.recorder.call_cases id method args with ⟨f, hcall⟩ | ⟨c, value, c', change, -, hc, hcall⟩
  · rw [hcall]
    refine ⟨nofun, fun g hg => ?_⟩
    cases hg
    exact ne_dangling_of_failsAt hs (hneeds h) (Recorder.call_eq_error hcall)
  · rw [hcall]
    refine ⟨fun a ha id hid => ?_, nofun⟩
    cases ha
    exact absurd (List.mem_singleton.1 hid).symm ((Container.call_eq_ok hc).2.2 id)

theorem sound_getElement {id : Nat} (index : Value) (h : .container id ∈ needs) :
    Sound needs (fun v => [v]) (Run.getElement id index) := by
  refine sound_answer (.getElement id index) (getElement_apply id index) (List.nil_subset _)
    fun {held s} hneeds hs => ?_
  cases hget : s.recorder.getElement id index with
  | error f =>
    refine ⟨nofun, fun g hg => ?_⟩
    cases hg
    exact ne_dangling_of_failsAt hs (hneeds h) (Recorder.getElement_eq_error hget)
  | ok v =>
    refine ⟨fun a ha id' hid => ?_, nofun⟩
    cases ha
    obtain ⟨⟨name, slots⟩, harray, hget⟩ := ok_of_bind_eq_ok hget
    cases hget
    rcases slots.get_cases index with hplain | hmem
    · exact absurd (List.mem_singleton.1 hid).symm (hplain id')
    · rw [← List.mem_singleton.1 hid] at hmem
      have hvalue := Recorder.mem_values (Recorder.array_eq_ok harray) hmem
      exact hs (List.mem_append_left _ (State.mem_values.2 (.inr (.inr hvalue))))

theorem sound_setElement {id : Nat} (index value : Value) (h : .container id ∈ needs)
    (hvalue : value ∈ needs) : Sound needs (fun _ => []) (Run.setElement id index value) := by
  refine sound_answer (.setElement id index value) (setElement_apply id index value)
    (List.cons_subset.2 ⟨hvalue, List.nil_subset _⟩)
    fun {held s} hneeds hs => ⟨fun _ _ => nofun, fun f hf => ?_⟩
  rcases s.recorder.setElement_cases id index value with
    ⟨g, hset⟩ | ⟨name, a, a', change, -, -, hset⟩
  · rw [hset] at hf
    cases hf
    exact ne_dangling_of_failsAt hs (hneeds h) (Recorder.setElement_eq_error hset)
  · rw [hset] at hf
    cases hf

/-! ## Values -/

theorem sound_ofCause {x : Except Cause Value} (hx : WithinBounds x)
    (hplain : ∀ v, x = .ok v → v.IsPlain) : Sound needs (fun v => [v]) (ofCause x) := by
  cases x with
  | error cause => exact sound_fail (Cause.ne_dangling_of_isLocal (hx cause rfl))
  | ok v =>
    refine sound_pure v fun w hw => .inl ?_
    rw [List.mem_singleton.1 hw]
    exact hplain v rfl

/-- A value that is no handle. -/
theorem sound_plain {v : Value} (h : v.IsPlain) :
    Sound needs (fun v => [v]) (pure v : Run Value) :=
  sound_pure v fun w hw => .inl (by rwa [List.mem_singleton.1 hw])

theorem sound_load (spot : Place) : Sound spot.values (fun v => [v]) spot.load := by
  cases spot with
  | named name => exact sound_read name
  | element array index => exact sound_getElement index List.mem_cons_self

theorem sound_store (v : Value) (spot : Place) :
    Sound (v :: spot.values) (fun _ => []) (spot.store v) := by
  cases spot with
  | named name => exact sound_write name v List.mem_cons_self
  | element array index =>
    exact sound_setElement index v (List.mem_cons_of_mem _ List.mem_cons_self) List.mem_cons_self

theorem sound_element (v index : Value) : Sound [v] (fun v => [v]) (v.element index) := by
  unfold Value.element
  split
  · exact sound_getElement index List.mem_cons_self
  · split
    · exact sound_plain nofun
    · exact sound_plain nofun
  · exact sound_fail nofun

theorem sound_member (v : Value) (name : String) : Sound [v] (fun v => [v]) (v.member name) := by
  unfold Value.member
  extract_lets answer
  have hanswer : ∀ length, Sound ([] ++ [v]) (fun v => [v]) (answer length) := by
    intro length
    cases length with
    | none => exact sound_fail nofun
    | some n =>
      by_cases hn : name = "length"
      · simp only [answer, if_pos hn]
        exact sound_plain nofun
      · simp only [answer, if_neg hn]
        exact sound_fail nofun
  have hpure : ∀ length : Option Nat, Sound [v] (fun _ => []) (pure length) := fun length =>
    sound_pure length nofun
  split
  · exact (sound_arrayLength _).bind hanswer
  · exact (hpure _).bind hanswer
  · exact (hpure _).bind hanswer

theorem sound_call (v : Value) (method : String) (args : List Value) :
    Sound [v] (fun v => [v]) (v.call method args) := by
  unfold Value.call
  split
  · exact sound_callContainer method args List.mem_cons_self
  · split
    · split
      · exact sound_plain nofun
      · exact sound_fail nofun
    · exact sound_fail nofun
  · exact sound_fail nofun

end Run

end Stepwise
