/-!
# Tables with text keys

A finite map from texts to values, kept as a list of entries with at most one per key.  It is small
and looked up by equality, so its laws are those of a function: `get?_insert` and `get?_erase` say
what a change does to every later look-up.
-/

set_option autoImplicit false

namespace Stepwise

variable {α : Type}

/-- A finite map from texts to `α`. -/
structure Table (α : Type) where
  entries : List (String × α) := []

namespace Table

def get? (t : Table α) (key : String) : Option α :=
  t.entries.lookup key

def erase (t : Table α) (key : String) : Table α :=
  ⟨t.entries.filter fun e => e.1 != key⟩

/-- The table with `value` at `key`, in place of whatever was there. -/
def insert (t : Table α) (key : String) (value : α) : Table α :=
  ⟨(key, value) :: (t.erase key).entries⟩

@[simp]
theorem get?_empty (key : String) : (({} : Table α).get? key) = none := rfl

theorem get?_erase (t : Table α) (key other : String) :
    (t.erase key).get? other = if other = key then none else t.get? other := by
  unfold get? erase
  induction t.entries with
  | nil => simp
  | cons e es ih => grind

theorem get?_insert (t : Table α) (key other : String) (value : α) :
    (t.insert key value).get? other = if other = key then some value else t.get? other := by
  have h := get?_erase t key other
  unfold get? at h
  grind [get?, insert]

end Table

end Stepwise
