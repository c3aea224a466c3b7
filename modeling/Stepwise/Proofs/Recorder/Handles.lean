import Stepwise.Proofs.Recorder.Alike
import Stepwise.Proofs.Run.Declaration

/-!
# Handles and the containers behind them

A handle is the number of a container in the order of creation.  It is valid because containers are
only ever added, and it keeps its meaning because no operation changes what kind of container it
stands for.  Stacks, queues and lists hold scalars, and so do the slots of arrays; the only handles
that a container can hold are those that were written beyond the slots of an array.

* `Container.values` are the values that a container holds other than scalars, and
  `Recorder.values` those of all containers.
* `Recorder.Changed` lists all that an operation can do to the containers: nothing, add one, or put
  one of the same kind, name and length in place of another (`Recorder.changed_perform`).
* `Recorder.Keeps` says that the containers of one recorder are still there in another, with the
  same kinds, names and lengths; operations keep them (`Recorder.keeps_performAll`).
* `Recorder.Resolves` says of values that their handles belong to containers.
-/

set_option autoImplicit false

namespace Stepwise

namespace Table

variable {α : Type}

theorem entries_erase_subset (t : Table α) (key : String) : (t.erase key).entries ⊆ t.entries :=
  List.filter_sublist.subset

theorem entries_insert_subset (t : Table α) (key : String) (value : α) :
    (t.insert key value).entries ⊆ (key, value) :: t.entries :=
  List.cons_subset_cons _ (t.entries_erase_subset key)

theorem mem_entries_of_get? {t : Table α} {key : String} {value : α}
    (h : t.get? key = some value) : (key, value) ∈ t.entries := by
  obtain ⟨before, after, heq, -⟩ := List.lookup_eq_some_iff.1 h
  rw [heq]
  exact List.mem_append_right _ List.mem_cons_self

end Table

namespace Value

/-- The value is no handle. -/
def IsPlain (v : Value) : Prop :=
  ∀ id, v ≠ container id

theorem isPlain_ofScalar (s : Scalar) : (ofScalar s).IsPlain := by
  intro id h
  cases s <;> cases h

theorem isPlain_ofItem? (item : Option Scalar) : (ofItem? item).IsPlain := by
  cases item with
  | none => exact fun id h => by cases h
  | some s => exact isPlain_ofScalar s

end Value

/-! ## What containers hold -/

namespace Slots

/-- The values that were written beyond the slots. -/
def values (a : Slots) : List Value :=
  a.beyond.entries.map Prod.snd

/-- What is read from an array is no handle, or was written beyond the slots. -/
theorem get_cases (a : Slots) (index : Value) :
    (a.get index).IsPlain ∨ a.get index ∈ a.values := by
  rw [get]
  cases a.slot? index with
  | some i =>
    left
    dsimp only
    cases a.slots.getD i.toNat none with
    | none => exact fun id h => by cases h
    | some s => exact Value.isPlain_ofScalar s
  | none =>
    dsimp only
    cases hbeyond : a.beyond.get? index.text with
    | none => exact .inl fun id h => by cases h
    | some v => exact .inr (List.mem_map_of_mem (Table.mem_entries_of_get? hbeyond))

/-- A write adds at most the value that is written, and leaves the length as it is. -/
theorem values_set {a a' : Slots} {array : String} {index value : Value} {change : Option Change}
    (h : a.set array index value = .ok (a', change)) :
    a'.values ⊆ value :: a.values ∧ a'.slots.size = a.slots.size := by
  rw [set] at h
  cases hi : a.slot? index with
  | none =>
    rw [hi] at h
    cases h
    exact ⟨List.map_subset Prod.snd (a.beyond.entries_insert_subset index.text value), rfl⟩
  | some i =>
    rw [hi] at h
    obtain ⟨s, -, hs⟩ := ok_of_bind_eq_ok h
    cases hs
    exact ⟨List.subset_cons_self _ _, Array.size_set! _ _ _⟩

end Slots

/-- What a method reads is no handle, because a sequence holds none. -/
theorem Method.isPlain_of_apply {m : Method} {kind : SequenceKind} {method : String}
    {args : List Value} {items : List Scalar} {value : Value}
    (h : m.apply kind method args items = .ok (.read value)) : value.IsPlain := by
  have hreading : ∀ v : Value, v.IsPlain → reading method args v = .ok (.read value) →
      value.IsPlain := by
    intro v hv hread
    obtain ⟨_, -, heq⟩ := ok_of_bind_eq_ok hread
    cases heq
    exact hv
  cases m with
  | first => exact hreading _ (Value.isPlain_ofItem? items.head?) h
  | last => exact hreading _ (Value.isPlain_ofItem? items.getLast?) h
  | size | isEmpty => exact hreading _ (fun id hid => by cases hid) h
  | pushBack | pushFront | popBack | popFront =>
    obtain ⟨_, -, heq⟩ := ok_of_bind_eq_ok h
    cases heq
  | remove =>
    rw [apply] at h
    split at h <;>
    · obtain ⟨_, -, heq⟩ := ok_of_bind_eq_ok h
      cases heq

namespace Container

/-- The values that a container holds other than scalars. -/
def values (c : Container) : List Value :=
  match c.contents with
  | .sequence _ _ => []
  | .array a => a.values

/-- The length of an array. -/
def length? (c : Container) : Option Nat :=
  match c.contents with
  | .sequence _ _ => none
  | .array a => some a.slots.size

/-- A container of the same kind and name, and of the same length if it is an array. -/
def SameShape (c c' : Container) : Prop :=
  c'.key = c.key ∧ c'.length? = c.length?

/-- A method is called on a sequence, and leaves a sequence behind.  No handle comes out of it. -/
theorem call_eq_ok {c c' : Container} {method : String} {args : List Value} {value : Value}
    {change : Option Change} (h : c.call method args = .ok (value, c', change)) :
    c.SameShape c' ∧ c'.values = [] ∧ value.IsPlain := by
  have hkey := Recorder.key_of_call h
  obtain ⟨name, kind, items, m, rfl, -, ⟨ha, rfl, -⟩ | ⟨items', ch, -, rfl, rfl, -⟩⟩ :=
    call_eq_ok_cases h
  · exact ⟨⟨hkey, rfl⟩, rfl, Method.isPlain_of_apply ha⟩
  · exact ⟨⟨hkey, rfl⟩, rfl, fun id h => by cases h⟩

end Container

/-! ## What operations do to the containers -/

namespace Recorder

/-- The values that an operation may leave in a container. -/
def Operation.values : Operation → List Value
  | createArray _ _ init => init
  | setElement _ _ value => [value]
  | _ => []

/-- All that an operation on the values `vs` can do to the containers. -/
inductive Changed (vs : List Value) (cs : Array Container) : Array Container → Prop
  | same : Changed vs cs cs
  | added (c : Container) (hvalues : c.values ⊆ vs) : Changed vs cs (cs.push c)
  | replaced {id : Nat} {c : Container} (hid : cs[id]? = some c) (c' : Container)
      (hshape : c.SameShape c') (hvalues : c'.values ⊆ vs ++ c.values) :
      Changed vs cs (cs.set! id c')

theorem containers_record (r : Recorder) (t : Target) (n : String) (change : Option Change) :
    (r.record t n change).containers = r.containers :=
  (r.record_fields t n change).2.1

theorem containers_fill (name : String) :
    ∀ (vs : List Value) (r : Recorder) (a : Slots) (index : Nat),
      (r.fill name a index vs).2.containers = r.containers ∧
        ∀ a', (r.fill name a index vs).1 = .ok a' → a'.values ⊆ a.values ++ vs
  | [], r, a, _ => ⟨rfl, fun a' h => by cases h; exact List.subset_append_left _ _⟩
  | v :: vs, r, a, index => by
    rw [fill]
    cases hset : a.set name (.int (Int64.ofNat index)) v with
    | error cause => exact ⟨rfl, fun a' h => by cases h⟩
    | ok result =>
      obtain ⟨a₁, change⟩ := result
      obtain ⟨hcontainers, hvalues⟩ := containers_fill name vs (r.record .array name change) a₁
        (index + 1)
      refine ⟨hcontainers.trans (r.containers_record .array name change), fun a' h w hw => ?_⟩
      have hw := hvalues a' h hw
      have hsubset := (Slots.values_set hset).1
      grind

/-- **What an operation does to the containers**: nothing, or it adds one, or it puts one of the
same shape in place of another. -/
theorem changed_perform (r : Recorder) (op : Operation) :
    Changed op.values r.containers (r.perform op).containers := by
  cases op with
  | setLine line => exact .same
  | getElement id index => exact .same
  | createSequence kind name => exact .added ⟨name, .sequence kind []⟩ (List.nil_subset _)
  | createArray name size init =>
    obtain ⟨hcontainers, hvalues⟩ := containers_fill name (init.take size.toNat)
      (r.append (r.declaration name size)) (.blank size) 0
    rw [perform, createArray_eq]
    split
    case isFalse => exact .same
    cases hfill : (r.append (r.declaration name size)).fill name (.blank size) 0
        (init.take size.toNat) with
    | mk result q =>
      rw [hfill] at hcontainers hvalues
      have hcontainers : q.containers = r.containers := hcontainers
      cases result with
      | error f =>
        rw [hcontainers]
        exact .same
      | ok a =>
        have hinit : a.values ⊆ init := fun v hv =>
          List.mem_of_mem_take ((hvalues a rfl) hv)
        change Changed init r.containers (q.containers.push ⟨name, .array a⟩)
        rw [hcontainers]
        exact .added ⟨name, .array a⟩ hinit
  | call id method args =>
    rw [perform]
    rcases r.call_cases id method args with ⟨f, hr⟩ | ⟨c, value, c', change, hid, hc, hr⟩
    · rw [hr]
      exact .same
    · obtain ⟨hshape, hvalues, -⟩ := Container.call_eq_ok hc
      simp only [hr, containers_record]
      exact .replaced hid c' hshape (by rw [hvalues]; exact List.nil_subset _)
  | setElement id index value =>
    rw [perform]
    rcases r.setElement_cases id index value with ⟨f, hr⟩ | ⟨name, a, a', change, hid, ha, hr⟩
    · rw [hr]
      exact .same
    · obtain ⟨hvalues, hsize⟩ := Slots.values_set ha
      simp only [hr, containers_record]
      exact .replaced hid ⟨name, .array a'⟩ ⟨rfl, congrArg some hsize⟩ hvalues

/-! ## Containers that stay -/

/-- Every container of `r` is still there in `r'`, in the same shape. -/
def Keeps (r r' : Recorder) : Prop :=
  ∀ ⦃id c⦄, r.container? id = some c → ∃ c', r'.container? id = some c' ∧ c.SameShape c'

theorem Keeps.refl (r : Recorder) : r.Keeps r :=
  fun _ c h => ⟨c, h, rfl, rfl⟩

theorem Keeps.trans {r r' r'' : Recorder} (h : r.Keeps r') (h' : r'.Keeps r'') : r.Keeps r'' := by
  intro id c hc
  obtain ⟨c', hc', hshape⟩ := h hc
  obtain ⟨c'', hc'', hshape'⟩ := h' hc'
  exact ⟨c'', hc'', hshape'.1.trans hshape.1, hshape'.2.trans hshape.2⟩

theorem Keeps.size_le {r r' : Recorder} (h : r.Keeps r') :
    r.containers.size ≤ r'.containers.size := by
  by_contra hlt
  have hlast : r.containers.size - 1 < r.containers.size := by omega
  obtain ⟨c', hc', -⟩ := h (Array.getElem?_eq_getElem hlast)
  have := (Array.getElem?_eq_some_iff.1 hc').1
  omega

/-- **Operations keep every container in its shape.** -/
theorem keeps_perform (r : Recorder) (op : Operation) : r.Keeps (r.perform op) := by
  intro id c hc
  have hlt : id < r.containers.size := (Array.getElem?_eq_some_iff.1 hc).1
  have hchanged := r.changed_perform op
  rw [container?] at hc ⊢
  generalize (r.perform op).containers = cs at hchanged
  cases hchanged with
  | same => exact ⟨c, hc, rfl, rfl⟩
  | added d _ =>
    refine ⟨c, ?_, rfl, rfl⟩
    rw [Array.getElem?_push_lt hlt, ← Array.getElem?_eq_getElem hlt, hc]
  | @replaced id' d hid d' hshape _ =>
    rw [Array.set!_eq_setIfInBounds, Array.getElem?_setIfInBounds]
    by_cases heq : id' = id
    · subst heq
      rw [hc] at hid
      cases hid
      exact ⟨d', by rw [if_pos rfl, if_pos hlt], hshape⟩
    · exact ⟨c, by rw [if_neg heq, hc], rfl, rfl⟩

theorem keeps_performAll (ops : List Operation) : ∀ r : Recorder, r.Keeps (r.performAll ops) := by
  induction ops with
  | nil => exact Keeps.refl
  | cons op ops ih => exact fun r => (r.keeps_perform op).trans (ih (r.perform op))

/-! ## Values whose handles are valid -/

/-- The values that containers hold other than scalars. -/
def values (r : Recorder) : List Value :=
  r.containers.toList.flatMap Container.values

/-- Every handle among the values is that of a container. -/
def Resolves (r : Recorder) (vs : List Value) : Prop :=
  ∀ ⦃id⦄, Value.container id ∈ vs → id < r.containers.size

theorem mem_values {r : Recorder} {id : Nat} {c : Container} (h : r.container? id = some c)
    {v : Value} (hv : v ∈ c.values) : v ∈ r.values :=
  List.mem_flatMap.2 ⟨c, Array.mem_toList_iff.2 (Array.mem_of_getElem? h), hv⟩

/-- An operation leaves no values behind but its own and those that were there. -/
theorem values_perform (r : Recorder) (op : Operation) :
    (r.perform op).values ⊆ op.values ++ r.values := by
  intro v hv
  obtain ⟨c, hc, hv⟩ := List.mem_flatMap.1 hv
  rw [Array.mem_toList_iff] at hc
  have hchanged := r.changed_perform op
  generalize (r.perform op).containers = cs at hchanged hc
  have hold : ∀ d ∈ r.containers, v ∈ d.values → v ∈ op.values ++ r.values := fun d hd hvd =>
    List.mem_append_right _ (List.mem_flatMap.2 ⟨d, Array.mem_toList_iff.2 hd, hvd⟩)
  cases hchanged with
  | same => exact hold c hc hv
  | added d hd =>
    rcases Array.mem_push.1 hc with hc | rfl
    · exact hold c hc hv
    · exact List.mem_append_left _ (hd hv)
  | replaced hid d _ hd =>
    rcases Array.mem_or_eq_of_mem_setIfInBounds hc with hc | rfl
    · exact hold c hc hv
    · rcases List.mem_append.1 (hd hv) with hv | hv
      · exact List.mem_append_left _ hv
      · exact hold _ (Array.mem_of_getElem? hid) hv

end Recorder

end Stepwise
