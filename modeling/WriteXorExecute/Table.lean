/-!
# Tables of named objects

A table holds objects under names, in the order of their creation. A name stands for one object for
good: adding under a name that is taken changes nothing.

The view of a table is `get?`; each operation says what it does to it.
-/
namespace WriteXorExecute

/-- Objects under their names. -/
structure Table (α : Type) where
  entries : List (String × α) := []

namespace Table

variable {α β : Type}

instance : EmptyCollection (Table α) := ⟨{}⟩

def get? (t : Table α) (name : String) : Option α :=
  t.entries.lookup name

def contains (t : Table α) (name : String) : Bool :=
  (t.get? name).isSome

/-- Puts an object under a name that is free. -/
def add (t : Table α) (name : String) (a : α) : Table α :=
  if t.contains name then t else ⟨t.entries ++ [(name, a)]⟩

/-- Changes the object under a name, if there is one. -/
def update (t : Table α) (name : String) (change : α → α) : Table α :=
  ⟨t.entries.map fun e => if e.1 = name then (e.1, change e.2) else e⟩

/-- The table of what is seen of each object. -/
def map (f : α → β) (t : Table α) : Table β :=
  ⟨t.entries.map fun e => (e.1, f e.2)⟩

@[simp] theorem get?_empty (name : String) : (∅ : Table α).get? name = none := rfl

theorem get?_add_of_ne {t : Table α} {name other : String} {a : α} (h : other ≠ name) :
    (t.add name a).get? other = t.get? other := by
  unfold add
  split
  · rfl
  · simp [get?, List.lookup_append, List.lookup_cons, beq_false_of_ne h]

theorem get?_add_self {t : Table α} {name : String} {a : α} :
    (t.add name a).get? name = some ((t.get? name).getD a) := by
  unfold add contains
  cases h : t.get? name with
  | some b => simp [h]
  | none =>
    have h' : t.entries.lookup name = none := h
    simp [get?, List.lookup_append, h']

theorem get?_update (t : Table α) (name other : String) (change : α → α) :
    (t.update name change).get? other
      = if other = name then (t.get? other).map change else t.get? other := by
  obtain ⟨entries⟩ := t
  simp only [get?, update]
  induction entries with
  | nil => simp
  | cons e entries ih =>
    obtain ⟨key, a⟩ := e
    by_cases hk : key = name <;> by_cases ho : other = key <;> grind

@[simp] theorem get?_update_self (t : Table α) (name : String) (change : α → α) :
    (t.update name change).get? name = (t.get? name).map change := by
  simp [get?_update]

theorem get?_update_of_ne {t : Table α} {name other : String} {change : α → α}
    (h : other ≠ name) : (t.update name change).get? other = t.get? other := by
  simp [get?_update, h]

@[simp] theorem get?_map (f : α → β) (t : Table α) (name : String) :
    (t.map f).get? name = (t.get? name).map f := by
  obtain ⟨entries⟩ := t
  simp only [get?, map]
  induction entries with
  | nil => rfl
  | cons e entries ih => grind

end Table

end WriteXorExecute
