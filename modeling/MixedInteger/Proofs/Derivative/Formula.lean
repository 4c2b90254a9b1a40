import MixedInteger.Proofs.Scalar.Exact
import MixedInteger.Proofs.Expression.Unfolding

/-! # Formulas and their derivatives

The expression that a node unfolds to is a formula, and the textbook rules give
the sum derivatives of a formula as formulas again. What an evaluation with
derivatives finds is held against the values of these formulas.
-/

namespace MixedInteger

/-- An unfolded expression. -/
inductive Formula (K : Type) where
  | leaf (id : VariableId)
  | constant (value : K)
  | neg (argument : Formula K)
  | add (left right : Formula K)
  | mul (left right : Formula K)
  | div (left right : Formula K)
  | power (base exponent : Formula K)
  | ln (argument : Formula K)
  | apply (function : UnaryFunction) (order : Nat) (argument : Formula K)

/-- The derivatives of a unary function, the function itself being that of order
zero. Two derivatives are supplied; the second derivatives of an expression contain
none of a higher order. -/
def Scalar.ofOrder {K : Type} [Scalar K] (function : UnaryFunction) : Nat → K → K
  | 0 => Scalar.unary function
  | 1 => Scalar.slope function
  | 2 => Scalar.curvature function
  | _ + 3 => fun _ => 0

namespace Formula

variable {K : Type} [Scalar K]

instance : Zero (Formula K) := ⟨constant 0⟩

/-- The value of a formula at a point. -/
def eval (point : VariableId → K) : Formula K → K
  | leaf id => point id
  | constant value => value
  | neg argument => -argument.eval point
  | add left right => left.eval point + right.eval point
  | mul left right => left.eval point * right.eval point
  | div left right => left.eval point / right.eval point
  | power base exponent => Scalar.power (base.eval point) (exponent.eval point)
  | ln argument => Scalar.ln (argument.eval point)
  | apply function order argument => Scalar.ofOrder function order (argument.eval point)

/-- The sum derivative by a variable, by the rules for sums, products,
quotients, powers, the logarithm and the chain rule. -/
def derivative (id : VariableId) : Formula K → Formula K
  | leaf other => constant (if other = id then 1 else 0)
  | constant _ => constant 0
  | neg argument => neg (argument.derivative id)
  | add left right => add (left.derivative id) (right.derivative id)
  | mul left right => add (mul (left.derivative id) right) (mul left (right.derivative id))
  | div left right =>
      div (add (mul (left.derivative id) right) (neg (mul left (right.derivative id))))
        (mul right right)
  | power base exponent =>
      add (mul (mul exponent (power base (add exponent (constant (-1))))) (base.derivative id))
        (mul (mul (power base exponent) (ln base)) (exponent.derivative id))
  | ln argument => div (argument.derivative id) argument
  | apply function order argument =>
      mul (apply function (order + 1) argument) (argument.derivative id)

/-- The formula of an operator, given those of the children in order. -/
def ofOperator : Operator K → List (Formula K) → Formula K
  | .negation, [x] => neg x
  | .sum, args => args.foldl add (constant 0)
  | .linear coefficients offset, args =>
      (args.zip coefficients).foldl (fun total term => add total (mul term.1 (constant term.2)))
        (constant offset)
  | .product, [x, y] => mul x y
  | .division, [x, y] => div x y
  | .power, [x, y] => power x y
  | .unary function, [x] => apply function 0 x
  | _, _ => 0

/-- A relation between the quantities of a numeric domain and formulas that every
operation respects. The exponents of powers may be restricted. -/
structure Respected {A : Type} [Numeric K A] (admitted : A → Prop)
    (related : A → Formula K → Prop) : Prop where
  zero : related 0 0
  constant : ∀ value, related (Numeric.constant value) (Formula.constant value)
  neg : ∀ {x f}, related x f → related (-x) (Formula.neg f)
  add : ∀ {x y f g}, related x f → related y g → related (x + y) (Formula.add f g)
  mul : ∀ {x y f g}, related x f → related y g → related (x * y) (Formula.mul f g)
  div : ∀ {x y f g}, related x f → related y g → related (x / y) (Formula.div f g)
  scale : ∀ {x f}, related x f → ∀ factor,
    related (Numeric.scale x factor) (Formula.mul f (Formula.constant factor))
  apply : ∀ {x f}, related x f → ∀ function,
    related (Numeric.apply function x) (Formula.apply function 0 f)
  power : ∀ {x y f g}, related x f → related y g → admitted y →
    related (Numeric.power x y) (Formula.power f g)

end Formula

/-- The expression that a node unfolds to. -/
def Graph.formula {K : Type} [Scalar K] (graph : Graph K) (idx : NodeIdx) : Formula K :=
  graph.interpret ⟨Formula.leaf, Formula.constant, Formula.ofOperator⟩ idx

/-- At an operator, the expression is that of the operator over the expressions of the children. -/
theorem Graph.formula_operator {K : Type} [Scalar K] {graph : Graph K} {idx : NodeIdx}
    (wellFormed : graph.WellFormed) {op : Operator K} {children : List NodeIdx}
    (known : graph.kind? idx = some (.operator op children)) :
    graph.formula idx = Formula.ofOperator op (children.map graph.formula) :=
  interpret_operator wellFormed known

namespace Formula.Respected

variable {K A : Type} [Scalar K] [Numeric K A] {admitted : A → Prop}
  {related : A → Formula K → Prop}

/-- Sums of related quantities and formulas are related. -/
theorem foldl_add (respected : Respected admitted related) {children : List NodeIdx}
    {quantity : NodeIdx → A} {formula : NodeIdx → Formula K}
    (each : ∀ child ∈ children, related (quantity child) (formula child)) {total : A}
    {sum : Formula K} (start : related total sum) :
    related ((children.map quantity).foldl (· + ·) total)
      ((children.map formula).foldl Formula.add sum) := by
  induction children generalizing total sum with
  | nil => exact start
  | cons child children ih =>
      exact ih (fun later member => each later (List.mem_cons_of_mem child member))
        (respected.add start (each child List.mem_cons_self))

/-- Linear combinations of related quantities and formulas are related. -/
theorem foldl_scale (respected : Respected admitted related) {children : List NodeIdx}
    {quantity : NodeIdx → A} {formula : NodeIdx → Formula K}
    (each : ∀ child ∈ children, related (quantity child) (formula child))
    (coefficients : List K) {total : A} {sum : Formula K} (start : related total sum) :
    related
      (((children.map quantity).zip coefficients).foldl
        (fun total term => total + Numeric.scale term.1 term.2) total)
      (((children.map formula).zip coefficients).foldl
        (fun total term => total.add (term.1.mul (.constant term.2))) sum) := by
  induction children generalizing total sum coefficients with
  | nil => exact start
  | cons child children ih =>
      cases coefficients with
      | nil => exact start
      | cons coefficient coefficients =>
          exact ih (fun later member => each later (List.mem_cons_of_mem child member)) coefficients
            (respected.add start (respected.scale (each child List.mem_cons_self) coefficient))

/-- An operator takes quantities that are related to formulas to a quantity that is
related to the formula of the operator. -/
theorem operator (respected : Respected admitted related) {op : Operator K}
    {children : List NodeIdx} {quantity : NodeIdx → A} {formula : NodeIdx → Formula K}
    (each : ∀ child ∈ children, related (quantity child) (formula child))
    (exponents : ∀ base exponent, op = .power → children = [base, exponent] →
      admitted (quantity exponent)) {result : A}
    (applied : op.apply (children.map quantity) = .ok result) :
    related result (ofOperator op (children.map formula)) := by
  cases op with
  | sum =>
      cases children with
      | nil => cases applied
      | cons child children =>
          cases applied
          exact respected.foldl_add each respected.zero
  | linear coefficients offset =>
      simp only [Operator.apply] at applied
      split at applied
      · cases applied
        exact respected.foldl_scale each coefficients (respected.constant offset)
      · cases applied
  | negation =>
      rcases children with _ | ⟨x, _ | ⟨y, rest⟩⟩ <;> cases applied
      exact respected.neg (each x List.mem_cons_self)
  | unary function =>
      rcases children with _ | ⟨x, _ | ⟨y, rest⟩⟩ <;> cases applied
      exact respected.apply (each x List.mem_cons_self) function
  | product =>
      rcases children with _ | ⟨x, _ | ⟨y, _ | ⟨z, rest⟩⟩⟩ <;> cases applied
      exact respected.mul (each x List.mem_cons_self)
        (each y (List.mem_cons_of_mem x List.mem_cons_self))
  | division =>
      rcases children with _ | ⟨x, _ | ⟨y, _ | ⟨z, rest⟩⟩⟩ <;> cases applied
      exact respected.div (each x List.mem_cons_self)
        (each y (List.mem_cons_of_mem x List.mem_cons_self))
  | power =>
      rcases children with _ | ⟨x, _ | ⟨y, _ | ⟨z, rest⟩⟩⟩ <;> cases applied
      exact respected.power (each x List.mem_cons_self)
        (each y (List.mem_cons_of_mem x List.mem_cons_self)) (exponents x y rfl rfl)

/-- Every node below a root is related to its formula if the variables are. -/
theorem interpret (respected : Respected admitted related) {graph : Graph K}
    (wellFormed : graph.WellFormed) {root idx : NodeIdx} (inside : root < graph.size)
    {point : VariableId → A}
    (leaf : ∀ id, graph.Occurs root id → related (point id) (Formula.leaf id))
    (exponents : ∀ idx base exponent, graph.Reaches root idx →
      graph.kind? idx = some (.operator .power [base, exponent]) →
        admitted (graph.interpret (.values point) exponent))
    (reaches : graph.Reaches root idx) :
    related (graph.interpret (.values point) idx) (graph.formula idx) := by
  refine wellFormed.induction inside
    (motive := fun idx => related (graph.interpret (.values point) idx) (graph.formula idx))
    ?_ ?_ ?_ reaches
  · intro idx id below known
    rw [Graph.formula, Graph.interpret_leaf known, Graph.interpret_leaf known]
    exact leaf id ⟨idx, below, known⟩
  · intro idx value below known
    rw [Graph.formula, Graph.interpret_constant known, Graph.interpret_constant known]
    exact respected.constant value
  · intro idx op children below known each
    rw [Graph.formula_operator wellFormed known]
    refine respected.operator each ?_ (Graph.apply_eq_ok_interpret wellFormed known)
    rintro base exponent rfl rfl
    exact exponents idx base exponent below known

/-- Plain evaluation computes the values of formulas. -/
theorem value (point : VariableId → K) :
    Respected (fun _ : K => True) (fun value formula => value = formula.eval point) where
  zero := rfl
  constant _ := rfl
  neg same := congrArg Neg.neg same
  add first second := congrArg₂ HAdd.hAdd first second
  mul first second := congrArg₂ HMul.hMul first second
  div first second := congrArg₂ HDiv.hDiv first second
  scale same factor := congrArg (· * factor) same
  apply same function := congrArg (Scalar.unary function) same
  power first second _ := congrArg₂ Scalar.power first second

/-- A formula whose variables have no derivative by a variable has none either. -/
theorem independent {K : Type} [ExactScalar K] (id : VariableId) (point : VariableId → K) :
    Respected (fun _ : K => True) (fun _ formula => (formula.derivative id).eval point = 0) where
  zero := rfl
  constant _ := rfl
  neg zero := by rw [Formula.derivative, Formula.eval, zero, neg_zero]
  add first second := by rw [Formula.derivative, Formula.eval, first, second, add_zero]
  mul first second := by
    simp only [Formula.derivative, Formula.eval, first, second, zero_mul, mul_zero, add_zero]
  div first second := by
    simp only [Formula.derivative, Formula.eval, first, second, zero_mul, mul_zero, neg_zero,
      add_zero, zero_div]
  scale zero factor := by
    simp only [Formula.derivative, Formula.eval, zero, zero_mul, mul_zero, add_zero]
  apply zero function := by simp only [Formula.derivative, Formula.eval, zero, mul_zero]
  power first second _ := by
    simp only [Formula.derivative, Formula.eval, first, second, mul_zero, add_zero]

end Formula.Respected

/-- The derivative by a variable that does not occur below a root is zero. -/
theorem Graph.derivative_formula_of_not_occurs {K : Type} [ExactScalar K] {graph : Graph K}
    (wellFormed : graph.WellFormed) {root : NodeIdx} (inside : root < graph.size)
    {id : VariableId} (absent : ¬ graph.Occurs root id) (point : VariableId → K) :
    ((graph.formula root).derivative id).eval point = 0 := by
  have leaf (other : VariableId) (occurs : graph.Occurs root other) :
      (((Formula.leaf other).derivative id : Formula K).eval point) = 0 :=
    if_neg fun same : other = id => absent (same ▸ occurs)
  exact @Formula.Respected.interpret K K _ _ _ _ (.independent id point) graph wellFormed root root
    inside point leaf (fun _ _ _ _ _ => trivial) Relation.ReflTransGen.refl

end MixedInteger
