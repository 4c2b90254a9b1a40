import MixedInteger.Numeric

/-! # Assignments

An assignment gives values to variables by position. It may have holes, and
variables beyond its end are unbound as well.
-/

namespace MixedInteger

/-- Values by variable. -/
structure Assignment (A : Type) where
  /-- The entries; `none` is a hole. -/
  entries : Array (Option A) := #[]

namespace Assignment

variable {A : Type}

def size (assignment : Assignment A) : Nat := assignment.entries.size

def isEmpty (assignment : Assignment A) : Bool := assignment.entries.isEmpty

/-- The value that a variable is bound to. -/
def get? (assignment : Assignment A) (id : VariableId) : Option A :=
  assignment.entries[id]?.join

/-- Bind a variable. Entries below it that are new are holes. -/
def set (assignment : Assignment A) (id : VariableId) (value : A) : Assignment A :=
  let missing := id + 1 - assignment.size
  ⟨(assignment.entries ++ Array.replicate missing none).setIfInBounds id (some value)⟩

/-- Leave a variable without a value. -/
def unset (assignment : Assignment A) (id : VariableId) : Assignment A :=
  ⟨assignment.entries.setIfInBounds id none⟩

/-- The assignment of the first variables to values in order. -/
def ofList (values : List A) : Assignment A := ⟨(values.map some).toArray⟩

/-- The assignment that makes every entry of a point an independent variable. -/
def seeded {K : Type} [Numeric K A] (point : List K) : Assignment A :=
  ofList (point.zipIdx.map fun (value, id) => Numeric.seed id value)

end Assignment

end MixedInteger
