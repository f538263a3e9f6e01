/-!
# Live values

A value that is replaced as a whole while others read it.  All handles share the current value; a
snapshot that a reader holds does not change with it.
-/

namespace Metering

/-- A value that all its handles share. -/
structure Live (α : Type) where
  current : α
  deriving DecidableEq, Repr

namespace Live

variable {α : Type}

/-- A snapshot of the value. -/
def get (l : Live α) : α := l.current

/-- Replaces the value, for all handles at once. -/
def set (_ : Live α) (value : α) : Live α := ⟨value⟩

@[simp] theorem get_set (l : Live α) (value : α) : (l.set value).get = value := rfl

end Live
end Metering
