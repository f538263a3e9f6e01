/-!
# Tables

A finite map from texts to values.  The entries stand in the order in which their keys were first
written; writing a key again changes its value in place.  All statements about tables go through
`get?`.
-/

namespace Metering

/-- A finite map from texts to values. -/
structure Table (α : Type) where
  entries : List (String × α)
  deriving DecidableEq, Repr

namespace Table

variable {α β : Type}

def empty : Table α := ⟨[]⟩

instance : Inhabited (Table α) := ⟨empty⟩

/-- The value that the first entry with the key holds. -/
def find? (key : String) : List (String × α) → Option α
  | [] => none
  | (k, v) :: rest => if k = key then some v else find? key rest

/-- Entries with the key's value replaced, or added at the end. -/
def put (key : String) (value : α) : List (String × α) → List (String × α)
  | [] => [(key, value)]
  | (k, v) :: rest => if k = key then (key, value) :: rest else (k, v) :: put key value rest

def get? (t : Table α) (key : String) : Option α := find? key t.entries

def contains (t : Table α) (key : String) : Bool := (t.get? key).isSome

def insert (t : Table α) (key : String) (value : α) : Table α := ⟨put key value t.entries⟩

def erase (t : Table α) (key : String) : Table α := ⟨t.entries.filter (·.1 ≠ key)⟩

/-- Keeps the entries whose value passes a test. -/
def keep (t : Table α) (test : α → Bool) : Table α := ⟨t.entries.filter fun e => test e.2⟩

def size (t : Table α) : Nat := t.entries.length

def map (f : α → β) (t : Table α) : Table β := ⟨t.entries.map fun e => (e.1, f e.2)⟩

def toList (t : Table α) : List (String × α) := t.entries

/-- Writes the entries one after the other, so the last value of a repeated key stays. -/
def ofList (entries : List (String × α)) : Table α :=
  entries.foldl (fun t e => t.insert e.1 e.2) empty

@[simp] theorem get?_empty (key : String) : (empty : Table α).get? key = none := rfl

theorem find?_put (key other : String) (value : α) (entries : List (String × α)) :
    find? other (put key value entries) =
      if key = other then some value else find? other entries := by
  induction entries with
  | nil => simp [put, find?]
  | cons e rest ih =>
      obtain ⟨k, v⟩ := e
      by_cases hk : k = key
      · subst hk
        by_cases ho : k = other <;> simp [put, find?, ho]
      · by_cases ho : k = other
        · subst ho
          simp [put, find?, hk, Ne.symm hk]
        · simp [put, find?, hk, ho, ih]

theorem find?_filter_ne (key other : String) (entries : List (String × α)) :
    find? other (entries.filter (·.1 ≠ key)) =
      if key = other then none else find? other entries := by
  induction entries with
  | nil => simp [find?]
  | cons e rest ih =>
      obtain ⟨k, v⟩ := e
      by_cases hk : k = key
      · subst hk
        by_cases ho : k = other <;> simp_all [find?]
      · by_cases ho : k = other
        · subst ho
          simp [find?, hk, Ne.symm hk]
        · simp_all [find?]

/-- Writing a key changes what that key answers and nothing else. -/
theorem get?_insert (t : Table α) (key other : String) (value : α) :
    (t.insert key value).get? other = if key = other then some value else t.get? other :=
  find?_put key other value t.entries

/-- Removing a key changes what that key answers and nothing else. -/
theorem get?_erase (t : Table α) (key other : String) :
    (t.erase key).get? other = if key = other then none else t.get? other :=
  find?_filter_ne key other t.entries

@[simp] theorem get?_insert_self (t : Table α) (key : String) (value : α) :
    (t.insert key value).get? key = some value := by
  simp [get?_insert]

@[simp] theorem get?_erase_self (t : Table α) (key : String) : (t.erase key).get? key = none := by
  simp [get?_erase]

end Table
end Metering
