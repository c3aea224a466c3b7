import Stepwise.Proofs.Wire.Number

/-!
# The wire form of a log reads back as the log

The reader takes fields in any order and skips what it does not know, so it has to find out what a
command lacks from the keys that do not come.  What the writer leaves out is left as it was, and the
reader starts with nothing.

* `Wire.Reader.FieldsRead` follows the fields of a command from key to key; `fieldsRead_fields` does
  so for all that the writer writes.
* `Wire.Reader.command_entry` reads a command back, `Wire.Reader.elements_lines` a list.
* `Wire.read_write` is the result.  The only thing that it asks is that the text of each double is
  read back (`Wire.Restored`); integers, texts and truth values are read back as what they were.
-/

set_option autoImplicit false

namespace Stepwise.Wire

/-- The text of a double is read back as this double. -/
def Restored (x : Float) : Prop :=
  x.isFinite = true ∧ Reader.number (Decimal.wired.write x).toList = .ok (.float x, [])

namespace Reader

variable {α : Type}

/-! ## Values of fields -/

theorem nullable_scalar_number {cs rest : List Char} {n : Number} (h : number cs = .ok (n, []))
    (hrest : Stops rest) : nullable scalar (cs ++ rest) = .ok (some (scalarOfNumber n), rest) := by
  have hscalar := scalar_number (endsNumber_number h hrest)
  obtain ⟨c, body, rfl, hc⟩ := head_of_number h
  exact nullable_number hc hscalar

/-- **A scalar is read back** as one of the same kind. -/
theorem nullable_scalar {s : Scalar} (hs : ∀ x, s = .float x → Restored x) {rest : List Char}
    (hrest : Stops rest) :
    nullable scalar ((Wire.scalar s).toList ++ rest) = .ok (some s, rest) := by
  cases s with
  | int n =>
    obtain ⟨m, hm, hn⟩ := number_toString n
    have hread := nullable_scalar_number hm hrest
    rwa [hn] at hread
  | float x =>
    obtain ⟨hfinite, hread⟩ := hs x rfl
    rw [Wire.scalar, if_pos hfinite]
    exact nullable_scalar_number hread hrest
  | str s =>
    rw [Wire.scalar, toList_text]
    refine nullable_of_ne rfl (by decide) (scalar_of_anyValueBy fun nested => ?_)
    rw [anyValueBy_quote]
    exact bind_of_ok (textRest_escaped s rest) fun s => pure (some (Scalar.str s))
  | bool b => cases b <;> rfl

theorem nullable_index (n : UInt64) {rest : List Char} (hrest : Stops rest) :
    nullable index ((toString n.toNat).toList ++ rest) = .ok (some n, rest) := by
  have hindex := index_toString n hrest
  obtain ⟨c, ds, hds, hc⟩ := toDigits_eq_cons n.toNat
  change index ((Nat.repr n.toNat).toList ++ rest) = _ at hindex
  change nullable index ((Nat.repr n.toNat).toList ++ rest) = _
  rw [Nat.toList_repr, hds] at hindex ⊢
  exact nullable_number (.inr hc) hindex

theorem ofLabel?_label_action : ∀ a : Action, Action.ofLabel? a.label = some a
  | .push | .pop | .enqueue | .dequeue | .arrayDeclare | .arraySet | .listInsert | .listRemove => by
    decide

theorem ofLabel?_label_target : ∀ t : Target, Target.ofLabel? t.label = some t
  | .stack | .queue | .array | .linkedList => by decide

/-! ## Items on lines of their own -/

/-- What stands before an item: a comma, unless it is the first, and the end of a line. -/
def lineBreak (isFirst : Bool) : List Char :=
  if isFirst then ['\n'] else [',', '\n']

/-- Items, each on a line of its own. -/
def lines (isFirst : Bool) : List (List Char) → List Char
  | [] => []
  | x :: xs => lineBreak isFirst ++ (x ++ lines false xs)

theorem intercalate_eq_lines (x : List Char) (xs : List (List Char)) :
    List.intercalate [',', '\n'] (x :: xs) = x ++ lines false xs := by
  induction xs generalizing x with
  | nil => simp [lines]
  | cons y ys ih =>
    rw [List.intercalate_cons_cons, ih y]
    simp [lines, lineBreak]

theorem lines_true {xs : List (List Char)} (h : xs ≠ []) :
    lines true xs = '\n' :: List.intercalate [',', '\n'] xs := by
  obtain ⟨x, xs, rfl⟩ := List.exists_cons_of_ne_nil h
  rw [intercalate_eq_lines]
  rfl

theorem length_le_lines (isFirst : Bool) (xs : List (List Char)) :
    xs.length ≤ (lines isFirst xs).length := by
  induction xs generalizing isFirst with
  | nil => exact Nat.le_refl 0
  | cons x xs ih =>
    have hrest := ih false
    have hbreak : 0 < (lineBreak isFirst).length := by cases isFirst <;> decide
    simp only [lines, List.length_cons, List.length_append]
    omega

/-- What follows an item does not continue a number. -/
theorem stops_lines (xs : List (List Char)) (rest : List Char) :
    Stops (lines false xs ++ '\n' :: rest) := by
  cases xs with
  | nil => exact stops_cons rfl (by decide) (by decide) (by decide) _
  | cons x xs => exact stops_cons rfl (by decide) (by decide) (by decide) _

/-! ## Fields -/

/-- A key and a value, as they stand in an object. -/
def member (m : String × String) : List Char :=
  ' ' :: ' ' :: ' ' :: ' ' :: '"' :: (m.1.toList ++ '"' :: ':' :: ' ' :: m.2.toList)

theorem textRest_plain {key : String} (h : key.toList.flatMap escapeChar = key.toList)
    (rest : List Char) : textRest (key.toList ++ '"' :: rest) = .ok (key, rest) := by
  have hread := textRest_escaped key rest
  rwa [h] at hread

/-- Members that are read one after another, starting with the fields `f` and ending with `f'`. -/
inductive FieldsRead : Fields → List (String × String) → Fields → Prop
  | nil (f : Fields) : FieldsRead f [] f
  | cons {f f' f'' : Fields} {k v : String} {members : List (String × String)}
    (hkey : k.toList.flatMap escapeChar = k.toList)
    (hfield : ∀ {rest}, Stops rest → field f k (':' :: ' ' :: (v.toList ++ rest)) = .ok (f', rest))
    (hmore : FieldsRead f' members f'') : FieldsRead f ((k, v) :: members) f''

theorem FieldsRead.append {f f' f'' : Fields} {members more : List (String × String)}
    (h : FieldsRead f members f') (hmore : FieldsRead f' more f'') :
    FieldsRead f (members ++ more) f'' := by
  induction h with
  | nil => exact hmore
  | cons hkey hfield _ ih => exact .cons hkey hfield (ih hmore)

theorem key_quote (isFirst : Bool) (cs : List Char) :
    key isFirst (lineBreak isFirst ++ ' ' :: ' ' :: ' ' :: ' ' :: '"' :: cs)
      = (do return some (← textRest)) cs := by
  cases isFirst <;> rfl

theorem key_member (isFirst : Bool) {k : String} (hkey : k.toList.flatMap escapeChar = k.toList)
    (v : String) (rest : List Char) :
    key isFirst (lineBreak isFirst ++ (member (k, v) ++ rest))
      = .ok (some k, ':' :: ' ' :: (v.toList ++ rest)) := by
  simp only [member, List.cons_append, List.append_assoc]
  rw [key_quote]
  exact bind_of_ok (textRest_plain hkey _) fun k => pure (some k)

/-- **The fields of an object** are read through its end. -/
theorem fields_lines {f f' : Fields} {members : List (String × String)}
    (h : FieldsRead f members f') (isFirst : Bool) {fuel : Nat} (hfuel : members.length < fuel)
    (rest : List Char) :
    fields f isFirst fuel
        (lines isFirst (members.map member) ++ '\n' :: ' ' :: ' ' :: '\x7d' :: rest)
      = .ok (f', rest) := by
  induction h generalizing isFirst fuel with
  | nil f =>
    obtain ⟨fuel, rfl⟩ := Nat.exists_eq_succ_of_ne_zero (Nat.ne_of_gt hfuel)
    cases isFirst <;> rfl
  | @cons f f' f'' k v members hkey hfield hmore ih =>
    obtain ⟨fuel, rfl⟩ := Nat.exists_eq_succ_of_ne_zero (Nat.ne_of_gt (Nat.zero_lt_of_lt hfuel))
    rw [List.map_cons, lines, List.append_assoc, List.append_assoc, fields,
      bind_of_ok (key_member isFirst hkey v _)]
    exact (bind_of_ok (hfield (stops_lines _ _)) _).trans
      (ih false (Nat.lt_of_succ_lt_succ hfuel))

/-! ### The fields that are written -/

/-- All fields of a command. -/
def Fields.ofCommand (c : Command) : Fields where
  action := some c.action
  target := some c.target
  name := some c.name
  value := c.value.map some
  index := c.index.map some
  size := c.size.map some
  cited := some c.cited

theorem Fields.command_ofCommand (c : Command) (cs : List Char) :
    (Fields.ofCommand c).command cs = .ok (c, cs) := by
  obtain ⟨action, target, name, value, i, size, cited⟩ := c
  cases value <;> cases i <;> cases size <;> rfl

/-- A field that was not there before is read by a reader that skips the blank after the colon. -/
theorem fieldsRead_single (item : Reader α) (put : Option α → Fields) {f : Fields} {k v : String}
    {a : α} (hfield : field f k = do return put (← fieldValue none item))
    (hkey : k.toList.flatMap escapeChar = k.toList) (hblank : ∀ cs, item (' ' :: cs) = item cs)
    (hitem : ∀ {rest}, Stops rest → item (v.toList ++ rest) = .ok (a, rest)) :
    FieldsRead f [(k, v)] (put (some a)) := by
  refine .cons hkey (fun hrest => ?_) (.nil _)
  have hvalue : fieldValue none item (':' :: ' ' :: (v.toList ++ _)) = .ok (some a, _) :=
    bind_of_ok ((hblank _).trans (hitem hrest)) fun a => pure (some a)
  rw [hfield]
  exact bind_of_ok hvalue fun a? => pure (put a?)

/-- A field that a command may lack is read, or left as it was if it is not there. -/
theorem fieldsRead_optional (item : Reader α) (put : Option (Option α) → Fields) {k : String}
    {write : α → String} {a? : Option α}
    (hfield : field (put none) k = do return put (← fieldValue none (nullable item)))
    (hkey : k.toList.flatMap escapeChar = k.toList)
    (hitem : ∀ a, a? = some a → ∀ {rest}, Stops rest →
      nullable item ((write a).toList ++ rest) = .ok (some a, rest)) :
    FieldsRead (put none) (optional k write a?) (put (a?.map some)) := by
  cases a? with
  | none => exact .nil (put none)
  | some a => exact fieldsRead_single (nullable item) put hfield hkey (fun _ => rfl) (hitem a rfl)

/-- **All that is written of a command is read back.** -/
theorem fieldsRead_fields {c : Command} (hc : ∀ x, c.value = some (.float x) → Restored x) :
    FieldsRead {} (Wire.fields c) (Fields.ofCommand c) := by
  let named : Fields := { action := some c.action, target := some c.target, name := some c.name }
  let valued : Fields := { named with value := c.value.map some }
  let indexed : Fields := { valued with index := c.index.map some }
  let sized : Fields := { indexed with size := c.size.map some }
  have htype : FieldsRead {} [("type", text c.action.label)] { action := some c.action } :=
    fieldsRead_single (choice Action.ofLabel?) (fun a => { action := a }) (by simp [field])
      (by decide) (fun _ => rfl) fun _ => choice_text (ofLabel?_label_action c.action) _
  have htarget : FieldsRead { action := some c.action } [("target", text c.target.label)]
      { action := some c.action, target := some c.target } :=
    fieldsRead_single (choice Target.ofLabel?) (fun t => { action := some c.action, target := t })
      (by simp [field]) (by decide) (fun _ => rfl)
      fun _ => choice_text (ofLabel?_label_target c.target) _
  have hname : FieldsRead { action := some c.action, target := some c.target }
      [("targetName", text c.name)] named :=
    fieldsRead_single string (fun s => { named with name := s }) (by simp [field, named])
      (by decide) (fun _ => rfl) fun _ => string_text c.name _
  have hvalue : FieldsRead named (optional "value" Wire.scalar c.value) valued :=
    fieldsRead_optional scalar (fun v => { named with value := v }) (by simp [field, named])
      (by decide) fun s hs _ hrest => nullable_scalar (fun x hx => hc x (hx ▸ hs)) hrest
  have hindex : FieldsRead valued (optional "index" (fun i => toString i.toNat) c.index) indexed :=
    fieldsRead_optional index (fun i => { valued with index := i })
      (by simp [field, valued, named]) (by decide) fun i _ _ hrest => nullable_index i hrest
  have hsize : FieldsRead indexed (optional "size" (fun n => toString n.toNat) c.size) sized :=
    fieldsRead_optional index (fun n => { indexed with size := n })
      (by simp [field, indexed, valued, named]) (by decide)
      fun n _ _ hrest => nullable_index n hrest
  have hcited : FieldsRead sized [("raw", text c.cited)] (Fields.ofCommand c) :=
    fieldsRead_single string (fun s => { sized with cited := s })
      (by simp [field, sized, indexed, valued, named]) (by decide) (fun _ => rfl)
      fun _ => string_text c.cited _
  have hnamed := (htype.append htarget).append hname
  exact (((hnamed.append hvalue).append hindex).append hsize).append hcited

/-! ## Commands and logs -/

/-- An object on a line of a list, given what follows its opening brace. -/
def indented (body : List Char) : List Char :=
  ' ' :: ' ' :: '\x7b' :: body

/-- What follows the opening brace of a command. -/
def entry (c : Command) : List Char :=
  lines true ((Wire.fields c).map member) ++ ['\n', ' ', ' ', '\x7d']

theorem toList_command (c : Command) : (Wire.command c).toList = indented (entry c) := by
  have hmembers : ((Wire.fields c).map fun m => "    \"" ++ m.1 ++ "\": " ++ m.2).map String.toList
      = (Wire.fields c).map member := by
    rw [List.map_map]
    refine List.map_congr_left fun m _ => ?_
    simp [member]
  rw [Wire.command, String.toList_append, String.toList_append, String.toList_intercalate, hmembers,
    entry, lines_true (by simp [Wire.fields])]
  rfl

theorem command_brace (cs : List Char) :
    command ('\x7b' :: cs) = (fields {} true (cs.length + 1) >>= Fields.command) cs :=
  rfl

/-- **A command is read back.** -/
theorem command_entry {c : Command} (hc : ∀ x, c.value = some (.float x) → Restored x)
    (rest : List Char) : command ('\x7b' :: (entry c ++ rest)) = .ok (c, rest) := by
  have hcount : ((Wire.fields c).map member).length
      ≤ (lines true ((Wire.fields c).map member)).length := length_le_lines _ _
  rw [List.length_map] at hcount
  -- every field takes at least one character, and the steps are counted by characters
  have hfuel : (Wire.fields c).length < (entry c ++ rest).length + 1 := by
    simp only [entry, List.length_append]
    omega
  have hentry : entry c ++ rest = lines true ((Wire.fields c).map member)
      ++ '\n' :: ' ' :: ' ' :: '\x7d' :: rest := by
    rw [entry, List.append_assoc]
    rfl
  have hfields := fields_lines (fieldsRead_fields hc) true hfuel rest
  rw [← hentry] at hfields
  rw [command_brace, bind_of_ok hfields]
  exact Fields.command_ofCommand c rest

theorem element_brace (isFirst : Bool) (item : Reader α) (cs : List Char) :
    element isFirst item (lineBreak isFirst ++ indented cs)
      = (do return some (← item)) ('\x7b' :: cs) := by
  cases isFirst <;> rfl

/-- **A list of objects is read back** if the objects are. -/
theorem elements_lines {item : Reader α} {text : α → List Char} {xs : List α}
    (hitem : ∀ x ∈ xs, ∀ rest, item ('\x7b' :: (text x ++ rest)) = .ok (x, rest)) (isFirst : Bool)
    {fuel : Nat} (hfuel : xs.length < fuel) (rest : List Char) :
    elements item isFirst fuel
        (lines isFirst (xs.map fun x => indented (text x)) ++ '\n' :: ']' :: rest)
      = .ok (xs, rest) := by
  induction xs generalizing isFirst fuel with
  | nil =>
    obtain ⟨fuel, rfl⟩ := Nat.exists_eq_succ_of_ne_zero (Nat.ne_of_gt hfuel)
    cases isFirst <;> rfl
  | cons x xs ih =>
    obtain ⟨fuel, rfl⟩ := Nat.exists_eq_succ_of_ne_zero (Nat.ne_of_gt (Nat.zero_lt_of_lt hfuel))
    rw [List.forall_mem_cons] at hitem
    have hothers := ih hitem.2 false (Nat.lt_of_succ_lt_succ hfuel)
    have helement : ∀ rest, element isFirst item (lineBreak isFirst ++ (indented (text x) ++ rest))
        = .ok (some x, rest) := by
      intro rest
      rw [indented, List.cons_append, List.cons_append, List.cons_append, ← indented, element_brace]
      exact bind_of_ok (hitem.1 rest) fun x => pure (some x)
    rw [List.map_cons, lines, List.append_assoc, List.append_assoc, elements,
      bind_of_ok (helement _)]
    exact bind_of_ok hothers fun xs => pure (x :: xs)

theorem log_bracket (cs : List Char) :
    log ('[' :: cs) = (elements command true (cs.length + 1) >>= fun commands => do
      match ← peekToken with
      | none => return commands
      | some _ => throw WireError.malformed) cs :=
  rfl

end Reader

theorem toList_write {log : Log} (h : log ≠ []) :
    (write log).toList = '[' ::
      (Reader.lines true (log.map fun c => Reader.indented (Reader.entry c)) ++ ['\n', ']']) := by
  have hcommands : (log.map command).map String.toList
      = log.map fun c => Reader.indented (Reader.entry c) := by
    rw [List.map_map]
    exact List.map_congr_left fun c _ => Reader.toList_command c
  rw [write, if_neg (by simpa using h), Reader.lines_true (by simpa using h), ← hcommands,
    String.toList_append, String.toList_append, String.toList_intercalate]
  rfl

/-- **The wire form of a log reads back as the log.** -/
theorem read_write (log : Log) (h : ∀ c ∈ log, ∀ x, c.value = some (.float x) → Restored x) :
    read (write log) = .ok log := by
  by_cases hnil : log = []
  · subst hnil
    rfl
  · have hcount := Reader.length_le_lines true
      (log.map fun c => Reader.indented (Reader.entry c))
    rw [List.length_map] at hcount
    have hread := fun fuel (hfuel : log.length < fuel) => Reader.elements_lines
      (fun c hc => Reader.command_entry (h c hc)) true hfuel []
    rw [read, toList_write hnil, Reader.log_bracket, Reader.bind_of_ok (hread _ ?_)]
    · rfl
    · rw [List.length_append]
      omega

/-- A log with numbers at their limits, a double, texts that need escapes, and fields that are not
there. -/
def mixedLog : Log :=
  [ { action := .push, target := .stack, name := "s", value := some (.int (-9223372036854775808)),
      cited := "s.push(least);" },
    { action := .enqueue, target := .queue, name := "größe", value := some (.float 0.1),
      cited := "\tgröße.push(\"\x01\");" },
    { action := .listInsert, target := .linkedList, name := "l", value := some (.str "\\ 😀\n"),
      index := some 18446744073709551615, cited := "" },
    { action := .arraySet, target := .array, name := "a", value := some (.bool false),
      index := some 0, cited := "a[0] = false;" },
    { action := .arrayDeclare, target := .array, name := "a", size := some 18446744073709551615 } ]

theorem read_write_mixedLog :
    (∀ c ∈ mixedLog, ∀ x, c.value = some (.float x) → Restored x) ∧
      read (write mixedLog) = .ok mixedLog := by
  have hrestored : ∀ c ∈ mixedLog, ∀ x, c.value = some (.float x) → Restored x := by
    intro c hc x hx
    simp only [mixedLog, List.mem_cons, List.not_mem_nil, or_false] at hc
    rcases hc with rfl | rfl | rfl | rfl | rfl <;> cases hx
    exact ⟨rfl, rfl⟩
  exact ⟨hrestored, read_write mixedLog hrestored⟩

end Stepwise.Wire
