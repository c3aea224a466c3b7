import Mathlib.Data.List.Induction
import Stepwise.Proofs.Recorder.Refinement

/-!
# Containers are replayed independently

All containers of a snapshot stand in one list, which is searched by kind and name, and all items
draw their identities from one count.  This file proves that nothing of this shows in the values:
each container holds what it would hold if the others had never been mentioned.

* `Snapshot.applyTo_split` says what a command does to the list of entries: it takes one entry out
  of its place, puts the changed one back there, and leaves the others alone.
* `Snapshot.keys_foldl` follows: the entries are those that the log mentions, in the order in which
  it first does.
* `Snapshot.shown` is what a look-up gives, without identities, and `Snapshot.shown_foldl` says that
  it depends only on the commands about that container.
* `containers_independent` puts them together for a whole log.
-/

set_option autoImplicit false

namespace Stepwise

/-- The kind and the name of the container that a command is about. -/
def Command.key (c : Command) : Target × String :=
  (c.target, c.name)

/-- The kind and the name of an entry. -/
def Entry.key (e : Entry) : Target × String :=
  (e.holding.target, e.name)

theorem Entry.isNamed_iff_key {e : Entry} {t : Target} {n : String} :
    e.isNamed t n = true ↔ e.key = (t, n) := by
  rw [isNamed_iff, key, Prod.mk.injEq]

theorem Command.key_eq_iff {c : Command} {t : Target} {n : String} :
    c.key = (t, n) ↔ c.target = t ∧ c.name = n := by
  rw [key, Prod.mk.injEq]

namespace Snapshot

/-! ## The list of entries -/

/-- The kinds and names of the containers, in the order of their first mention. -/
def keys (s : Snapshot) : List (Target × String) :=
  s.entries.map Entry.key

/-- A command about a container that was not mentioned before finds an empty one at the end. -/
def mentioned (c : Command) (es : List Entry) : List Entry :=
  if c.key ∈ es.map Entry.key then es else es ++ [⟨c.name, .empty c.target⟩]

theorem mentioned_cons_of_ne {c : Command} {e : Entry} (es : List Entry) (h : e.key ≠ c.key) :
    mentioned c (e :: es) = e :: mentioned c es := by
  simp only [mentioned, List.map_cons, List.mem_cons, h.symm, false_or]
  split <;> rfl

/-- A command changes the first entry of its kind and name, and leaves the others in place. -/
theorem applyTo_split (c : Command) (issued : Nat) (es : List Entry) :
    ∃ before e after, mentioned c es = before ++ e :: after ∧ e.key = c.key ∧
      applyTo c issued es = (before ++ ⟨e.name, (e.holding.apply c issued).1⟩ :: after,
        (e.holding.apply c issued).2) := by
  induction es with
  | nil =>
    refine ⟨[], ⟨c.name, .empty c.target⟩, [], rfl, ?_, rfl⟩
    rw [Entry.key, Holding.target_empty, Command.key]
  | cons e es ih =>
    rw [applyTo]
    by_cases he : e.key = c.key
    · have hmem : c.key ∈ (e :: es).map Entry.key := by simp [he]
      refine ⟨[], e, es, if_pos hmem, he, ?_⟩
      rw [if_pos (Entry.isNamed_iff_key.2 he)]
      rfl
    · obtain ⟨before, e', after, hsplit, hkey, happly⟩ := ih
      refine ⟨e :: before, e', after, ?_, hkey, ?_⟩
      · rw [mentioned_cons_of_ne es he, hsplit, List.cons_append]
      · rw [if_neg (fun h => he (Entry.isNamed_iff_key.1 h)), happly]
        rfl

/-- A command adds its container to those mentioned so far, unless it is one of them. -/
theorem keys_apply (s : Snapshot) (c : Command) :
    (s.apply c).keys = if c.key ∈ s.keys then s.keys else s.keys ++ [c.key] := by
  obtain ⟨before, e, after, hsplit, -, happly⟩ := applyTo_split c s.issued s.entries
  have hkeys : (s.apply c).keys = (mentioned c s.entries).map Entry.key := by
    rw [keys, apply, happly, hsplit]
    simp [Entry.key]
  rw [hkeys, mentioned, keys]
  split
  · rfl
  · simp [Entry.key, Command.key]

/-- **Containers appear in the order of their first mention.** -/
theorem keys_foldl (log : Log) :
    (log.foldl apply {}).keys = (log.map Command.key).eraseDups := by
  induction log using List.reverseRecOn with
  | nil => rfl
  | append_singleton log c ih =>
    rw [List.foldl_append, List.foldl_cons, List.foldl_nil, keys_apply, ih, List.map_append,
      List.eraseDups_append, List.map_singleton, List.cons_removeAll]
    by_cases h : c.key ∈ log.map Command.key
    · simp only [List.mem_eraseDups, if_pos h, List.contains_iff_mem.2 h]
      simp
    · simp [h, List.eraseDups_cons]

theorem isSome_get?_iff {s : Snapshot} {t : Target} {n : String} :
    (s.get? t n).isSome = true ↔ (t, n) ∈ s.keys := by
  rw [get?, List.find?_isSome, keys, List.mem_map]
  simp only [Entry.isNamed_iff_key]

/-! ## What is shown of one container -/

/-- What is shown of the container of the given kind and name, if there is one: the values of its
items in order, or of the slots of an array. -/
def shown (s : Snapshot) (t : Target) (n : String) : Option (List (Option Scalar)) :=
  (s.get? t n).map fun e => e.holding.values

theorem getD_shown (s : Snapshot) (t : Target) (n : String) :
    (s.shown t n).getD [] = s.values t n := by
  rw [shown, values, holding]
  cases s.get? t n with
  | none => exact (Holding.values_empty t).symm
  | some e => rfl

/-- What a command does to what is shown of any container. -/
theorem shown_apply (s : Snapshot) (c : Command) (t : Target) (n : String) :
    (s.apply c).shown t n
      = if c.key = (t, n) then some (c.act t ((s.shown t n).getD [])) else s.shown t n := by
  rw [shown, get?_apply, getD_shown, values]
  simp only [Command.key_eq_iff]
  split
  · rw [Option.map_some, Holding.values_apply, target_holding]
  · rfl

/-- **Only the commands about a container matter to what is shown of it.** -/
theorem shown_foldl (log : Log) (t : Target) (n : String) :
    ∀ s s' : Snapshot, s.shown t n = s'.shown t n →
      (log.foldl apply s).shown t n
        = ((log.filter fun c => c.key = (t, n)).foldl apply s').shown t n := by
  induction log with
  | nil => exact fun s s' h => h
  | cons c log ih =>
    intro s s' h
    rw [List.foldl_cons, List.filter_cons]
    by_cases hc : c.key = (t, n)
    · rw [if_pos (decide_eq_true hc), List.foldl_cons]
      exact ih _ _ (by rw [shown_apply, shown_apply, h])
    · rw [if_neg (by simpa using hc)]
      exact ih _ _ (by rw [shown_apply, if_neg hc, h])

/-! ## Whole logs -/

/-- What a whole log shows: the snapshot at its last command. -/
def whole (log : Log) : Snapshot :=
  .replay log (Timeline.ofLog log).lastIndex

theorem shown_whole (log : Log) (t : Target) (n : String) :
    (whole log).shown t n = (whole (log.filter fun c => c.key = (t, n))).shown t n := by
  rw [whole, whole, replay_lastIndex, replay_lastIndex]
  exact shown_foldl log t n {} {} rfl

/-- Commands about different containers can change places, as far as any one container is
concerned. -/
theorem filter_swap {c d : Command} (h : c.key ≠ d.key) (before after : Log) (t : Target)
    (n : String) :
    (before ++ c :: d :: after).filter (fun c => c.key = (t, n))
      = (before ++ d :: c :: after).filter fun c => c.key = (t, n) := by
  rw [List.filter_append, List.filter_append]
  congr 1
  by_cases hc : c.key = (t, n)
  · have hd : d.key ≠ (t, n) := fun hd => h (hc.trans hd.symm)
    simp [hc, hd]
  · simp [List.filter_cons, hc]

/-- **Containers are replayed independently.**  A whole log shows the containers that its commands
name, in the order in which they first do.  Of each it shows what replaying the commands about it
alone would show, and so two commands in a row about different containers can change places without
changing what is shown of any container. -/
theorem containers_independent (log : Log) :
    (whole log).keys = (log.map Command.key).eraseDups ∧
    (∀ t n, ((whole log).get? t n).isSome = true ↔ ∃ c ∈ log, c.target = t ∧ c.name = n) ∧
    (∀ t n, (whole log).shown t n
      = (whole (log.filter fun c => c.key = (t, n))).shown t n) ∧
    ∀ before c d after, log = before ++ c :: d :: after → c.key ≠ d.key →
      ∀ t n, (whole (before ++ d :: c :: after)).shown t n = (whole log).shown t n := by
  have hkeys : (whole log).keys = (log.map Command.key).eraseDups := by
    rw [whole, replay_lastIndex, keys_foldl]
  refine ⟨hkeys, fun t n => ?_, shown_whole log, fun before c d after hlog hne t n => ?_⟩
  · rw [isSome_get?_iff, hkeys, List.mem_eraseDups, List.mem_map]
    simp only [Command.key_eq_iff]
  · rw [hlog, shown_whole (before ++ c :: d :: after), filter_swap hne before after t n,
      ← shown_whole]

/-- A stack and a queue of the same name, with their commands in turns. -/
def entangled : Log :=
  [{ action := .push, target := .stack, name := "s", value := some (.int 1) },
   { action := .enqueue, target := .queue, name := "s", value := some (.int 2) },
   { action := .pop, target := .stack, name := "s" },
   { action := .enqueue, target := .queue, name := "s", value := some (.int 3) }]

theorem containers_independent_entangled :
    (whole entangled).keys = [(.stack, "s"), (.queue, "s")] ∧
      (whole entangled).shown .queue "s" = some [some (.int 2), some (.int 3)] ∧
      ∀ t n, (whole [entangled[0], entangled[2], entangled[1], entangled[3]]).shown t n
        = (whole entangled).shown t n := by
  have h := containers_independent entangled
  refine ⟨h.1.trans (by decide), ?_, ?_⟩
  · rw [h.2.2.1]
    rfl
  · exact h.2.2.2 [entangled[0]] entangled[1] entangled[2] [entangled[3]] rfl (by decide)

end Snapshot
end Stepwise
