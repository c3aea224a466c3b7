import Stepwise.Timeline
import Stepwise.Proofs.Recorder.Operation

/-!
# Recording refines replay

Two parts of the library know how stacks, queues, lists and arrays behave: `Container`, which holds
the live ones, and `Snapshot`, which rebuilds them from what was recorded.  This file proves that
they stay in step.

* `Recorder.replayed` is the snapshot of everything recorded so far, and `Snapshot.Shows` says that
  a live container looks the same in it.
* `Recorder.InStep` is the invariant.  Besides `Shows` for every live container it has to know that
  no two live containers share kind and name, for they would share an entry, and that a kind and
  name not yet constructed has no entry, for a new container starts empty.
* `Recorder.inStep_perform` preserves it over any one operation, and `replayed_shows_live` follows
  by induction over a run.

The two hypotheses of the main result are the two places where recording loses information.  A
second construction of the same kind and name is recorded only for arrays, and an insertion or
removal at the head of a list is recorded as one at its tail.
-/

set_option autoImplicit false

namespace Stepwise

/-- A live container looks the same in a snapshot: a sequence has the items shown, and none if it is
not shown at all, and an array is shown with the contents of its slots. -/
def Snapshot.Shows (s : Snapshot) (c : Container) : Prop :=
  match c.contents with
  | .sequence kind items =>
    match s.get? kind.target c.name with
    | some e => e.holding.values = items.map some
    | none => items = []
  | .array a => ∃ e, s.get? .array c.name = some e ∧ e.holding.values = a.slots.toList

namespace Snapshot

theorem values_of_get? {s s' : Snapshot} {t : Target} {n : String} (h : s'.get? t n = s.get? t n) :
    s'.values t n = s.values t n := by
  rw [values, values, holding, holding, h]

theorem values_of_get?_none {s : Snapshot} {t : Target} {n : String} (h : s.get? t n = none) :
    s.values t n = [] := by
  rw [values, holding, h]
  exact Holding.values_empty t

/-- `Shows` in terms of the values shown; an array has to be there as well. -/
theorem shows_iff {s : Snapshot} {c : Container} :
    s.Shows c ↔ s.values c.target c.name = c.items ∧
      (c.target = .array → (s.get? .array c.name).isSome = true) := by
  obtain ⟨name, contents⟩ := c
  cases contents with
  | sequence kind items =>
    have ht : kind.target ≠ .array := by cases kind <;> simp [SequenceKind.target]
    simp only [Shows, Container.target, Container.items, ht, false_implies, and_true, values,
      holding]
    cases s.get? kind.target name with
    | none =>
      rw [Option.map_none, Option.getD_none, Holding.values_empty, eq_comm (a := []),
        List.map_eq_nil_iff]
    | some e => rfl
  | array a =>
    simp only [Shows, Container.target, Container.items, values, holding, true_implies]
    cases s.get? .array name with
    | none => simp
    | some e => simp

theorem Shows.of_get? {s s' : Snapshot} {c : Container} (h : s.Shows c)
    (hget : s'.get? c.target c.name = s.get? c.target c.name) : s'.Shows c := by
  rw [shows_iff] at h ⊢
  refine ⟨(values_of_get? hget).trans h.1, fun ht => ?_⟩
  rw [ht] at hget
  rw [hget]
  exact h.2 ht

/-- Replaying a log to its last command carries out all of it. -/
theorem replay_lastIndex (log : Log) :
    replay log (Timeline.ofLog log).lastIndex = log.foldl apply {} := by
  have hlast : (Timeline.ofLog log).lastIndex =
      if log.isEmpty then none else some (log.length - 1) := rfl
  rw [replay, hlast]
  cases log with
  | nil => rfl
  | cons c log => simp [applied]

end Snapshot

namespace Recorder

/-- What replaying the commands recorded so far shows. -/
def replayed (r : Recorder) : Snapshot :=
  .replay r.log (Timeline.ofLog r.log).lastIndex

theorem replayed_append (r : Recorder) (c : Command) :
    (r.append c).replayed = r.replayed.apply c := by
  rw [replayed, replayed, Snapshot.replay_lastIndex, Snapshot.replay_lastIndex, log, log, append,
    Array.toList_push, List.foldl_append]
  rfl

theorem replayed_of_commands {r r' : Recorder} (h : r'.commands = r.commands) :
    r'.replayed = r.replayed := by
  rw [replayed, replayed, log, log, h]

/-! ## Recording about one container

`r.RecordsOf t n r'` says that `r'` has the commands of `r` and perhaps more, all of them about the
container `n` of kind `t`, so that every other container is shown as before. -/

/-- Only commands about one container have been recorded since `r`. -/
structure RecordsOf (t : Target) (n : String) (r r' : Recorder) : Prop where
  /-- The live containers are the same. -/
  containers : r'.containers = r.containers
  /-- Other containers are shown as before. -/
  frame : ∀ t' n', ¬(t = t' ∧ n = n') → r'.replayed.get? t' n' = r.replayed.get? t' n'
  /-- A container that was shown still is. -/
  seen : (r.replayed.get? t n).isSome = true → (r'.replayed.get? t n).isSome = true

theorem RecordsOf.refl (t : Target) (n : String) (r : Recorder) : RecordsOf t n r r :=
  ⟨rfl, fun _ _ _ => rfl, id⟩

theorem RecordsOf.trans {t : Target} {n : String} {r r' r'' : Recorder} (h : RecordsOf t n r r')
    (h' : RecordsOf t n r' r'') : RecordsOf t n r r'' :=
  ⟨h'.containers.trans h.containers,
    fun t' n' hne => (h'.frame t' n' hne).trans (h.frame t' n' hne), fun hs => h'.seen (h.seen hs)⟩

theorem recordsOf_append (r : Recorder) (c : Command) :
    RecordsOf c.target c.name r (r.append c) where
  containers := rfl
  frame t' n' hne := by rw [replayed_append, Snapshot.get?_apply_of_ne hne]
  seen _ := by rw [replayed_append, Snapshot.get?_apply, if_pos ⟨rfl, rfl⟩]; rfl

theorem recordsOf_record (r : Recorder) (t : Target) (n : String) (change : Option Change) :
    RecordsOf t n r (r.record t n change) := by
  cases change with
  | none => exact .refl t n r
  | some change =>
    rw [record]
    split
    · exact .refl t n r
    · exact recordsOf_append r (change.command t n r.line.text)

/-- **Recording what a change describes keeps replay in step with it.** -/
theorem values_record {r : Recorder} {t : Target} {n : String} {change : Option Change}
    {before after : List (Option Scalar)} (h : Change.Describes t before after change)
    (hbefore : r.replayed.values t n = before) :
    (r.record t n change).replayed.values t n = after := by
  cases change with
  | none => exact hbefore.trans h.symm
  | some change =>
    rw [record]
    split
    · next hidle =>
      rw [Bool.and_eq_true] at hidle
      exact hbefore.trans (h.1 hidle.1).symm
    · have happ := replayed_append r (change.command t n r.line.text)
      rw [Change.command] at happ
      rw [happ, Snapshot.values_apply, if_pos ⟨rfl, rfl⟩, hbefore]
      exact (h.2 n r.line.text).symm

/-- The initial elements of an array are recorded as they are written. -/
theorem fill_inStep {name : String} (vs : List Value) :
    ∀ (r : Recorder) (a : Slots) (index : Nat), r.replayed.values .array name = a.slots.toList →
      RecordsOf .array name r (r.fill name a index vs).2 ∧
        ∀ a', (r.fill name a index vs).1 = .ok a' →
          (r.fill name a index vs).2.replayed.values .array name = a'.slots.toList := by
  induction vs with
  | nil =>
    intro r a index h
    refine ⟨.refl .array name r, fun a' ha' => ?_⟩
    cases ha'
    exact h
  | cons v vs ih =>
    intro r a index h
    rw [fill]
    cases hs : a.set name (.int (Int64.ofNat index)) v with
    | error cause => exact ⟨.refl .array name r, fun a' ha' => by cases ha'⟩
    | ok result =>
      obtain ⟨a₁, change⟩ := result
      have hstep := ih (r.record .array name change) a₁ (index + 1)
        (values_record (Slots.set_describes hs) h)
      exact ⟨(recordsOf_record r .array name change).trans hstep.1, hstep.2⟩

/-! ## The invariant -/

/-- Live containers and replay agree, where containers of the kinds and names `used` have been
constructed so far. -/
structure InStep (used : List (Target × String)) (r : Recorder) : Prop where
  /-- No two live containers share kind and name. -/
  distinct : (r.containers.toList.map Container.key).Nodup
  /-- Live containers have been constructed. -/
  named : ∀ c ∈ r.containers, c.key ∈ used
  /-- Only containers that have been constructed are shown. -/
  unseen : ∀ t n, (t, n) ∉ used → r.replayed.get? t n = none
  /-- Every live container looks the same in the replayed snapshot. -/
  shown : ∀ c ∈ r.containers, r.replayed.Shows c

theorem inStep_start (suppress : Bool) : InStep [] { suppress := suppress } where
  distinct := List.nodup_nil
  named _ hc := by simp at hc
  unseen _ _ _ := rfl
  shown _ hc := by simp at hc

/-- Nothing that the invariant speaks of depends on the marked line. -/
theorem InStep.setLine {used : List (Target × String)} {r : Recorder} (h : InStep used r)
    (line : SourceLine) : InStep used (r.setLine line) :=
  ⟨h.distinct, h.named, h.unseen, h.shown⟩

/-- A failed construction: commands about a new kind and name disturb no live container. -/
theorem InStep.construct {used : List (Target × String)} {r r' : Recorder} {t : Target}
    {n : String} (h : InStep used r) (hfresh : (t, n) ∉ used) (hr : RecordsOf t n r r') :
    InStep ((t, n) :: used) r' where
  distinct := by rw [hr.containers]; exact h.distinct
  named c hc := by
    rw [hr.containers] at hc
    exact List.mem_cons_of_mem _ (h.named c hc)
  unseen t' n' hnew := by
    rw [List.mem_cons, not_or] at hnew
    rw [hr.frame t' n' (fun he => hnew.1 (by rw [he.1, he.2]))]
    exact h.unseen t' n' hnew.2
  shown c hc := by
    rw [hr.containers] at hc
    refine (h.shown c hc).of_get? (hr.frame _ _ ?_)
    rintro ⟨rfl, rfl⟩
    exact hfresh (h.named c hc)

/-- A successful construction: the new container is live as well, and is shown as it is. -/
theorem InStep.allocate {used : List (Target × String)} {r r' : Recorder} {c : Container}
    (h : InStep used r) (hfresh : c.key ∉ used) (hr : RecordsOf c.target c.name r r')
    (hc : r'.replayed.Shows c) : InStep (c.key :: used) (r'.allocate c).2 := by
  have hbase := h.construct hfresh hr
  have hnew : ∀ d ∈ (r'.allocate c).2.containers, d ∈ r'.containers ∨ d = c := by
    intro d hd
    exact Array.mem_push.1 hd
  refine ⟨?_, fun d hd => ?_, hbase.unseen, fun d hd => ?_⟩
  · rw [Recorder.allocate, Array.toList_push, List.map_append, List.nodup_append]
    refine ⟨hbase.distinct, by simp, fun k hk k' hk' => ?_⟩
    obtain ⟨d, hd, rfl⟩ := List.mem_map.1 hk
    rw [List.map_singleton, List.mem_singleton] at hk'
    rintro rfl
    rw [Array.mem_toList_iff, hr.containers] at hd
    exact hfresh (hk' ▸ h.named d hd)
  · obtain hd | rfl := hnew d hd
    · exact hbase.named d hd
    · exact List.mem_cons_self
  · obtain hd | rfl := hnew d hd
    · exact hbase.shown d hd
    · exact hc

/-- A change of one live container: it keeps kind and name, only commands about it are recorded, and
it is shown as it has become. -/
theorem InStep.replace {used : List (Target × String)} {r r' : Recorder} {id : Nat}
    {c c' : Container} (h : InStep used r) (hid : r.container? id = some c) (hkey : c'.key = c.key)
    (hr : RecordsOf c.target c.name (r.replace id c') r') (hc : r'.replayed.Shows c') :
    InStep used r' := by
  have hlt : id < r.containers.size := (Array.getElem?_eq_some_iff.1 hid).1
  have hat : r.containers[id] = c := (Array.getElem?_eq_some_iff.1 hid).2
  have hset : r'.containers = r.containers.set id c' hlt := by
    rw [hr.containers]
    exact Array.set!_eq_setIfInBounds.trans (by rw [Array.setIfInBounds, dif_pos hlt])
  have hkeys : r'.containers.toList.map Container.key = r.containers.toList.map Container.key := by
    rw [hset, Array.toList_set, List.map_set, hkey, ← hat, ← Array.getElem_toList, ← List.map_set,
      List.set_getElem_self]
  have hbase : (r.replace id c').replayed = r.replayed := replayed_of_commands rfl
  refine ⟨hkeys ▸ h.distinct, fun d hd => ?_, fun t n hn => ?_, fun d hd => ?_⟩
  · have hk : d.key ∈ r.containers.toList.map Container.key :=
      hkeys ▸ List.mem_map_of_mem (Array.mem_toList_iff.2 hd)
    obtain ⟨d', hd', hk'⟩ := List.mem_map.1 hk
    exact hk' ▸ h.named d' (Array.mem_toList_iff.1 hd')
  · rw [hr.frame t n, hbase]
    · exact h.unseen t n hn
    · rintro ⟨rfl, rfl⟩
      exact hn (h.named c (hat ▸ Array.getElem_mem hlt))
  · -- Another live container has another kind or name, so nothing recorded is about it.
    obtain ⟨j, hj, rfl⟩ := Array.mem_iff_getElem.1 hd
    by_cases hij : id = j
    · subst hij
      simp only [hset, Array.getElem_set_self]
      exact hc
    · have hj' : j < r.containers.size := by simpa [hset] using hj
      have hd' : r'.containers[j] = r.containers[j] := by
        simp only [hset]
        exact Array.getElem_set_ne hlt hj' hij
      rw [hd']
      refine (h.shown _ (Array.getElem_mem hj')).of_get? ((hr.frame _ _ ?_).trans (by rw [hbase]))
      rintro ⟨ht, hn⟩
      have hk : Container.key r.containers[id] = Container.key r.containers[j] := by
        rw [hat, Container.key, Container.key, ht, hn]
      exact hij ((List.getElem?_inj (by simpa using hlt) h.distinct).1 (by simp [hlt, hj', hk]))

/-! ## One operation, and a run of them -/

/-- Whether an operation leaves the head of every list alone: it does not call `push_front` or
`pop_front` on one. -/
def Operation.sparesHeads (r : Recorder) : Operation → Bool
  | .call id method _ =>
    (r.container? id).all fun c =>
      c.target != .linkedList || (method != "push_front" && method != "pop_front")
  | _ => true

/-- Whether all operations of a run that starts at `r` leave the heads of lists alone. -/
def sparesHeads : Recorder → List Operation → Bool
  | _, [] => true
  | r, op :: ops => op.sparesHeads r && sparesHeads (r.perform op) ops

theorem values_declaration (r : Recorder) (name : String) (size : UInt64) :
    (r.append (r.declaration name size)).replayed.values .array name
      = (Slots.blank size).slots.toList := by
  rw [replayed_append, Snapshot.values_apply, if_pos ⟨rfl, rfl⟩]
  simp [Command.act, declaration, Slots.blank]

theorem inStep_createArray {used : List (Target × String)} {r : Recorder} (h : InStep used r)
    (name : String) (size : UInt64) (init : List Value) (hfresh : (.array, name) ∉ used) :
    InStep ((.array, name) :: used) (r.createArray name size init).2 := by
  have hfill := fill_inStep (init.take size.toNat) _ _ 0 (values_declaration r name size)
  have hr := (recordsOf_append r (r.declaration name size)).trans hfill.1
  rw [createArray_eq]
  split
  case isFalse => exact h.construct hfresh (recordsOf_append r (r.declaration name size))
  cases hres : (r.append (r.declaration name size)).fill name (.blank size) 0
      (init.take size.toNat) with
  | mk result r' =>
    rw [hres] at hfill hr
    cases result with
    | error f => exact h.construct hfresh hr
    | ok a =>
      have hshows : r'.replayed.Shows ⟨name, .array a⟩ := by
        refine Snapshot.shows_iff.2 ⟨hfill.2 a rfl, fun _ => hfill.1.seen ?_⟩
        rw [replayed_append, Snapshot.get?_apply, if_pos ⟨rfl, rfl⟩]
        rfl
      exact h.allocate (c := ⟨name, .array a⟩) hfresh hr hshows

/-- **The step.**  An operation that constructs nothing old and spares the heads of lists keeps live
containers and replay in step, whether it succeeds or fails. -/
theorem inStep_perform {used : List (Target × String)} {r : Recorder} (h : InStep used r)
    (op : Operation) (hfresh : ∀ k ∈ op.constructed?, k ∉ used) (hheads : op.sparesHeads r = true) :
    InStep (op.constructed?.toList ++ used) (r.perform op) := by
  cases op with
  | setLine line => exact h.setLine line
  | createSequence kind name =>
    have hnew : (kind.target, name) ∉ used := hfresh _ rfl
    refine h.allocate (c := ⟨name, .sequence kind []⟩) hnew (.refl _ _ r)
      (Snapshot.shows_iff.2 ⟨?_, ?_⟩)
    · exact Snapshot.values_of_get?_none (h.unseen _ _ hnew)
    · cases kind <;> simp [Container.target, SequenceKind.target]
  | createArray name size init => exact inStep_createArray h name size init (hfresh _ rfl)
  | call id method args =>
    rw [perform]
    rcases r.call_cases id method args with ⟨f, hcall⟩ | ⟨c, value, c', change, hid, hc, hcall⟩
    · rw [hcall]
      exact h
    · simp only [hcall]
      have hfront : c.target = .linkedList → method ≠ "push_front" ∧ method ≠ "pop_front" := by
        intro ht
        simpa [Operation.sparesHeads, hid, ht] using hheads
      obtain ⟨hkey, hdesc⟩ := Container.call_describes hc hfront
      obtain ⟨ht, hn⟩ := Prod.mk.inj hkey
      have hshown := Snapshot.shows_iff.1 (h.shown c (Array.mem_of_getElem? hid))
      have hr := recordsOf_record (r.replace id c') c.target c.name change
      refine h.replace hid hkey hr (Snapshot.shows_iff.2 ⟨?_, fun harr => ?_⟩)
      · simp only [ht, hn]
        exact values_record hdesc hshown.1
      · rw [ht] at harr
        rw [harr] at hr ⊢
        rw [hn]
        exact hr.seen (hshown.2 harr)
  | setElement id index value =>
    rw [perform]
    rcases r.setElement_cases id index value with ⟨f, hset⟩ | ⟨name, a, a', change, hid, hw, hset⟩
    · rw [hset]
      exact h
    · simp only [hset]
      have hshown := Snapshot.shows_iff.1 (h.shown _ (Array.mem_of_getElem? hid))
      have hr := recordsOf_record (r.replace id ⟨name, .array a'⟩) .array name change
      have hkey : Container.key ⟨name, .array a'⟩ = Container.key ⟨name, .array a⟩ := rfl
      refine h.replace hid hkey hr (Snapshot.shows_iff.2 ⟨?_, fun _ => ?_⟩)
      · exact values_record (Slots.set_describes hw) hshown.1
      · exact hr.seen (hshown.2 rfl)
  | getElement id index => exact h

theorem inStep_performAll (ops : List Operation) :
    ∀ {used : List (Target × String)} {r : Recorder}, InStep used r →
      (ops.filterMap Operation.constructed?).Nodup →
      (∀ k ∈ ops.filterMap Operation.constructed?, k ∉ used) → r.sparesHeads ops = true →
      ∃ used', InStep used' (r.performAll ops) := by
  induction ops with
  | nil => intro used r h _ _ _; exact ⟨used, h⟩
  | cons op ops ih =>
    intro used r h hnodup hfresh hheads
    rw [sparesHeads, Bool.and_eq_true] at hheads
    have hkeys : (op :: ops).filterMap Operation.constructed?
        = op.constructed?.toList ++ ops.filterMap Operation.constructed? := by
      rw [List.filterMap_cons]
      cases op.constructed? <;> rfl
    rw [hkeys, List.nodup_append] at hnodup
    rw [hkeys] at hfresh
    have hstep := inStep_perform h op
      (fun k hk => hfresh k (List.mem_append_left _ (Option.mem_toList.2 hk))) hheads.1
    refine ih hstep hnodup.2.1 (fun k hk => ?_) hheads.2
    rw [List.mem_append, not_or]
    exact ⟨fun hk' => hnodup.2.2 k hk' k hk rfl, hfresh k (List.mem_append_right _ hk)⟩

/-- A run that spares heads does so up to any point. -/
theorem sparesHeads_upTo {done ops : List Operation} (h : done <+: ops) :
    ∀ {r : Recorder}, r.sparesHeads ops = true → r.sparesHeads done = true := by
  obtain ⟨rest, rfl⟩ := h
  induction done with
  | nil => intro r _; rfl
  | cons op done ih =>
    intro r hr
    rw [List.cons_append, sparesHeads, Bool.and_eq_true] at hr
    rw [sparesHeads, Bool.and_eq_true]
    exact ⟨hr.1, ih hr.2⟩

/-- **Recording refines replay.**  Let operations be performed on a new recorder, suppressing empty
removals or not, such that no kind and name is constructed twice and no list has items inserted or
removed at its head.  After each of them, whether it succeeded or failed, replaying what has been
recorded so far shows every live container as it is. -/
theorem replayed_shows_live (suppress : Bool) (ops : List Operation)
    (hdistinct : (ops.filterMap Operation.constructed?).Nodup)
    (hheads : ({ suppress := suppress } : Recorder).sparesHeads ops = true) (done : List Operation)
    (hdone : done <+: ops) (id : Nat) (c : Container)
    (hc : (({ suppress := suppress } : Recorder).performAll done).container? id = some c) :
    (({ suppress := suppress } : Recorder).performAll done).replayed.Shows c := by
  obtain ⟨used, h⟩ := inStep_performAll done (inStep_start suppress)
    (hdistinct.sublist (hdone.sublist.filterMap _)) (fun _ _ => List.not_mem_nil)
    (sparesHeads_upTo hdone hheads)
  exact h.shown c (Array.mem_of_getElem? hc)

/-- A run with a suppressed removal, a refused element of an array that is never allocated, a stack
and an array of one name, and a removal by value from a list. -/
def mixedRun : List Operation :=
  [.createSequence .list "l", .createSequence .stack "a", .call 1 "pop" [],
   .createArray "a" 2 [.int 1, .undefined], .createArray "b" 2 [.int 3],
   .setElement 2 (.int 1) (.str "x"), .call 0 "push_back" [.int 5], .call 0 "insert" [.int 7],
   .call 0 "remove" [.int 5]]

theorem replayed_shows_live_mixedRun :
    (mixedRun.filterMap Operation.constructed?).Nodup ∧
      ({ suppress := true } : Recorder).sparesHeads mixedRun = true ∧
      (({ suppress := true } : Recorder).performAll mixedRun).container? 0
        = some ⟨"l", .sequence .list [.int 7]⟩ ∧
      (({ suppress := true } : Recorder).performAll mixedRun).replayed.Shows
        ⟨"l", .sequence .list [.int 7]⟩ := by
  have hdistinct : (mixedRun.filterMap Operation.constructed?).Nodup := by decide
  have hheads : ({ suppress := true } : Recorder).sparesHeads mixedRun = true := by decide
  have hc : (({ suppress := true } : Recorder).performAll mixedRun).container? 0
      = some ⟨"l", .sequence .list [.int 7]⟩ := rfl
  exact ⟨hdistinct, hheads, hc,
    replayed_shows_live true mixedRun hdistinct hheads mixedRun List.prefix_rfl 0 _ hc⟩

end Recorder
end Stepwise
