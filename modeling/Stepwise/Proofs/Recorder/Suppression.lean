import Stepwise.Proofs.Recorder.Alike

/-!
# What a recorder leaves out

A recorder may be told to leave removals from empty containers unrecorded.  This does not change
what it does to its containers, and so not what it answers to later operations; it only filters what
it records.

* `Recorder.issued` are the commands of one operation before anything is left out, and
  `Recorder.history` those of many, each with the mark whether it is a removal that found its
  container empty.
* `Recorder.log_performAll` says that the log grows by these commands, less those that are marked if
  the recorder leaves them out.
-/

set_option autoImplicit false

namespace Stepwise

/-- Whether a command takes something out of a stack, a queue or a list. -/
def Command.isRemoval (c : Command) : Bool :=
  match c.action with
  | .pop | .dequeue | .listRemove => true
  | _ => false

namespace Recorder

/-! ## What is recorded -/

/-- Whether the operation is a method call that finds its container empty. -/
def findsEmpty (r : Recorder) : Operation → Bool
  | .call id _ _ => (r.container? id).any fun c => c.items.isEmpty
  | _ => false

/-- The commands of an operation before anything is left out: what a recorder with the same
containers on the same line would record into an empty log. -/
def issued (r : Recorder) (op : Operation) : List Command :=
  (({ r with commands := #[], suppress := false } : Recorder).perform op).log

/-- The commands of operations in order, each with the mark whether it is a removal that was issued
while its container was empty. -/
def history (r : Recorder) : List Operation → List (Command × Bool)
  | [] => []
  | op :: ops =>
    (r.issued op).map (fun c => (c, c.isRemoval && r.findsEmpty op)) ++ (r.perform op).history ops

/-! ### Single operations -/

theorem log_record_some (r : Recorder) (t : Target) (n : String) (change : Change) :
    (r.record t n (some change)).log =
      r.log ++ [change.command t n r.line.text].filter fun _ => !(r.suppress && change.idle) := by
  rw [record]
  cases change.idle <;> cases hsuppress : r.suppress <;>
    simp [append, log, Change.command, hsuppress]

end Recorder

/-- A change goes unrecorded just if it is a removal from a container that holds nothing. -/
theorem Method.idle_of_apply {m : Method} {kind : SequenceKind} {method : String}
    {args : List Value} {items items' : List Scalar} {change : Change}
    (h : m.apply kind method args items = .ok (.changed items' change)) (t : Target)
    (n cited : String) :
    change.idle = ((change.command t n cited).isRemoval && items.isEmpty) := by
  have hinsertion : ∀ s, (Change.command { action := kind.insertion, value := some s } t n
      cited).isRemoval = false := by
    intro s
    cases kind <;> rfl
  have hremoval : ∀ value, (Change.command { action := kind.removal, value := value } t n
      cited).isRemoval = true := by
    intro value
    cases kind <;> rfl
  cases m with
  | pushBack | pushFront =>
    obtain ⟨v, s, -, -, heffect⟩ := inserting_eq_ok.1 h
    cases heffect
    rw [hinsertion s, Bool.false_and]
  | popBack | popFront =>
    obtain ⟨-, heffect⟩ := removing_eq_ok.1 h
    cases heffect
    exact (congrArg (· && items.isEmpty) (hremoval none)).symm
  | remove =>
    obtain ⟨-, heffect⟩ | ⟨v, s, -, -, heffect⟩ := removingValue_eq_ok.1 h
    · cases heffect
      exact (congrArg (· && items.isEmpty) (hremoval none)).symm
    · cases heffect
      exact (congrArg (· && items.isEmpty) (hremoval (some s))).symm
  | first | last | size | isEmpty => cases (reading_eq_ok.1 h).2

theorem Container.idle_of_call {c c' : Container} {method : String} {args : List Value}
    {value : Value} {change : Change} (h : c.call method args = .ok (value, c', some change))
    (t : Target) (n cited : String) :
    change.idle = ((change.command t n cited).isRemoval && c.items.isEmpty) := by
  obtain ⟨name, kind, items, m, rfl, -, ⟨-, -, hnone⟩ | ⟨items', ch, ha, -, -, hch⟩⟩ :=
    call_eq_ok_cases h
  · cases hnone
  · cases hch
    rw [Method.idle_of_apply ha t n cited, Container.items, List.isEmpty_map]

/-- Nothing that is written to an array goes unrecorded. -/
theorem Slots.isRemoval_of_set {a a' : Slots} {array : String} {index value : Value}
    {change : Change} (h : a.set array index value = .ok (a', some change)) (t : Target)
    (n cited : String) :
    change.idle = false ∧ (change.command t n cited).isRemoval = false := by
  rw [set] at h
  cases hi : a.slot? index with
  | none => rw [hi] at h; cases h
  | some i =>
    rw [hi] at h
    obtain ⟨s, -, hs⟩ := ok_of_bind_eq_ok h
    cases hs
    exact ⟨rfl, rfl⟩

namespace Recorder

/-- What a recorder keeps of the commands of an operation. -/
def keeps (r : Recorder) (op : Operation) (c : Command) : Bool :=
  !(r.suppress && (c.isRemoval && r.findsEmpty op))

/-- What alike recorders record of the initial elements of an array is the same, and no removal.  It
cites the line that is being run. -/
theorem log_fill (name : String) :
    ∀ (vs : List Value) {r r' : Recorder} (_ : r.Alike r') (a : Slots) (index : Nat),
      ∃ cs : List Command, (r.fill name a index vs).2.log = r.log ++ cs ∧
        (r'.fill name a index vs).2.log = r'.log ++ cs ∧
        ∀ c ∈ cs, c.isRemoval = false ∧ c.cited = r.line.text
  | [], r, r', _, _, _ =>
    ⟨[], (List.append_nil r.log).symm, (List.append_nil r'.log).symm, fun _ h => by cases h⟩
  | v :: vs, r, r', h, a, index => by
    rw [fill, fill]
    cases hset : a.set name (.int (Int64.ofNat index)) v with
    | error cause => exact ⟨[], by simp, by simp, by simp⟩
    | ok result =>
      obtain ⟨a', change⟩ := result
      obtain ⟨cs, hr, hr', hcs⟩ := log_fill name vs (h.record .array name change) a' (index + 1)
      rw [(r.record_fields .array name change).1] at hcs
      cases change with
      | none => exact ⟨cs, hr, hr', hcs⟩
      | some change =>
        obtain ⟨hidle, hremoval⟩ := Slots.isRemoval_of_set hset .array name r.line.text
        refine ⟨change.command .array name r.line.text :: cs, ?_, ?_, ?_⟩
        · rw [hr, log_record_some, hidle]
          simp
        · rw [hr', log_record_some, hidle, ← h.line]
          simp
        · exact List.forall_mem_cons.2 ⟨⟨hremoval, rfl⟩, hcs⟩

theorem log_createArray {r r' : Recorder} (h : r.Alike r') (name : String) (size : UInt64)
    (init : List Value) :
    ∃ cs : List Command, (r.createArray name size init).2.log = r.log ++ cs ∧
      (r'.createArray name size init).2.log = r'.log ++ cs ∧
      ∀ c ∈ cs, c.isRemoval = false ∧ c.cited = r.line.text := by
  have hdeclared : (r.append (r.declaration name size)).Alike
      (r'.append (r'.declaration name size)) := ⟨h.line, h.containers⟩
  obtain ⟨cs, hr, hr', hcs⟩ := log_fill name (init.take size.toNat) hdeclared (.blank size) 0
  have hdeclaration : r.declaration name size = r'.declaration name size := by
    rw [declaration, declaration, h.line]
  by_cases hsize : size.toNat ≤ Slots.capacity
  case neg =>
    rw [createArray_eq, createArray_eq, if_neg hsize, if_neg hsize]
    refine ⟨[r.declaration name size], ?_, ?_, List.forall_mem_singleton.2 ⟨rfl, rfl⟩⟩
    · simp [append, log]
    · simp [append, log, hdeclaration]
  have hcreated : ∀ q : Recorder, (q.createArray name size init).2.log
      = ((q.append (q.declaration name size)).fill name (.blank size) 0
          (init.take size.toNat)).2.log := by
    intro q
    rw [createArray_eq, if_pos hsize]
    cases (q.append (q.declaration name size)).fill name (.blank size) 0
        (init.take size.toNat) with
    | mk result q' => cases result <;> rfl
  refine ⟨r.declaration name size :: cs, ?_, ?_, List.forall_mem_cons.2 ⟨⟨rfl, rfl⟩, hcs⟩⟩
  · rw [hcreated, hr]
    simp [append, log]
  · rw [hcreated, hr', hdeclaration]
    simp [append, log]

theorem logs_perform {r r' : Recorder} (h : r.Alike r') (op : Operation) :
    ∃ cs : List Command, (r.perform op).log = r.log ++ cs.filter (r.keeps op) ∧
      (r'.perform op).log = r'.log ++ cs.filter (r'.keeps op) ∧
      ∀ c ∈ cs, c.cited = r.line.text := by
  have hnothing : ∃ cs : List Command, r.log = r.log ++ cs.filter (r.keeps op) ∧
      r'.log = r'.log ++ cs.filter (r'.keeps op) ∧ ∀ c ∈ cs, c.cited = r.line.text :=
    ⟨[], by simp, by simp, fun _ hc => absurd hc List.not_mem_nil⟩
  cases op with
  | setLine line => exact hnothing
  | createSequence kind name => exact hnothing
  | getElement id index => exact hnothing
  | createArray name size init =>
    obtain ⟨cs, hr, hr', hcs⟩ := log_createArray h name size init
    have hall : ∀ (q : Recorder) (op : Operation), cs.filter (q.keeps op) = cs := by
      intro q op
      refine List.filter_eq_self.2 fun c hc => ?_
      rw [keeps, (hcs c hc).1, Bool.false_and, Bool.and_false, Bool.not_false]
    exact ⟨cs, by rw [hall]; exact hr, by rw [hall]; exact hr', fun c hc => (hcs c hc).2⟩
  | call id method args =>
    rw [perform, perform]
    rcases h.call id method args with ⟨f, hr, hr'⟩ | ⟨c, value, c', change, hc, hcall, hr, hr'⟩
    · rw [hr, hr']
      exact hnothing
    · rw [hr, hr']
      cases change with
      | none => exact hnothing
      | some change =>
        have hc' : r'.container? id = some c := (h.container? id).symm.trans hc
        have hidle := Container.idle_of_call hcall c.target c.name r.line.text
        refine ⟨[change.command c.target c.name r.line.text], ?_, ?_,
          List.forall_mem_singleton.2 rfl⟩
        · rw [log_record_some, hidle]
          simp only [List.filter, keeps, findsEmpty, hc, Option.any_some]
          rfl
        · rw [log_record_some, hidle, h.line]
          simp only [List.filter, keeps, findsEmpty, hc', Option.any_some]
          rfl
  | setElement id index value =>
    rw [perform, perform]
    rcases h.setElement id index value with ⟨f, hr, hr'⟩ | ⟨name, a, a', change, hset, hr, hr'⟩
    · rw [hr, hr']
      exact hnothing
    · rw [hr, hr']
      cases change with
      | none => exact hnothing
      | some change =>
        obtain ⟨hidle, hremoval⟩ := Slots.isRemoval_of_set hset .array name r.line.text
        refine ⟨[change.command .array name r.line.text], ?_, ?_, List.forall_mem_singleton.2 rfl⟩
        · rw [log_record_some, hidle]
          simp only [List.filter, keeps, hremoval, Bool.false_and, Bool.and_false]
          rfl
        · rw [log_record_some, hidle, h.line]
          rw [h.line] at hremoval
          simp only [List.filter, keeps, hremoval, Bool.false_and, Bool.and_false]
          rfl

/-- **What one operation records.** -/
theorem log_perform (r : Recorder) (op : Operation) :
    (r.perform op).log = r.log ++ (r.issued op).filter (r.keeps op) ∧
      ∀ c ∈ r.issued op, c.cited = r.line.text := by
  have hbare : r.Alike { r with commands := #[], suppress := false } := ⟨rfl, rfl⟩
  obtain ⟨cs, hr, hbare, hcited⟩ := logs_perform hbare op
  have hissued : r.issued op = cs := by
    rw [issued, hbare]
    simp [log, keeps]
  rw [hissued]
  exact ⟨hr, hcited⟩

theorem Alike.issued {r r' : Recorder} (h : r.Alike r') (op : Operation) :
    r.issued op = r'.issued op := by
  rw [Recorder.issued, Recorder.issued, h.line, h.containers]

theorem Alike.findsEmpty {r r' : Recorder} (h : r.Alike r') (op : Operation) :
    r.findsEmpty op = r'.findsEmpty op := by
  cases op with
  | call id method args => rw [Recorder.findsEmpty, Recorder.findsEmpty, h.container? id]
  | _ => rfl

theorem Alike.history {r r' : Recorder} (h : r.Alike r') (ops : List Operation) :
    r.history ops = r'.history ops := by
  induction ops generalizing r r' with
  | nil => rfl
  | cons op ops ih =>
    rw [Recorder.history, Recorder.history, h.issued, h.findsEmpty, ih (h.perform op)]

/-! ### All operations -/

/-- **What operations record.**  The log grows by the commands that they issue, less those that are
marked if the recorder leaves them out. -/
theorem log_performAll (r : Recorder) (ops : List Operation) :
    (r.performAll ops).log =
      r.log ++ ((r.history ops).filter fun entry => !(r.suppress && entry.2)).map Prod.fst := by
  induction ops generalizing r with
  | nil => simp [history]
  | cons op ops ih =>
    rw [performAll_cons, ih, (r.log_perform op).1, (r.perform_fields op).1, history,
      List.filter_append, List.map_append, List.append_assoc]
    congr 2
    rw [List.filter_map, List.map_map]
    exact (List.map_id _).symm

end Recorder

end Stepwise
