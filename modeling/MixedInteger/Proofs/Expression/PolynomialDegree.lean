import Mathlib.Algebra.MvPolynomial.CommRing
import MixedInteger.Proofs.Expression.UnfoldedDegree
import MixedInteger.Proofs.Scalar.Exact

/-! # Polynomial degrees

With exact scalars a known degree bounds the total degree of a polynomial that has
the values of the expression at all points (`Graph.exists_polynomial_of_degree`).
Each rule of the analysis is a closure property of the functions that are
polynomials of bounded degree; the rules that drop a child rest on the child's
contribution being zero or constant.
-/

namespace MixedInteger

variable {K : Type} [ExactScalar K]

/-- Whether a function of the variables is a polynomial of at most a certain total
degree. -/
def IsPolynomial (bound : Nat) (function : (VariableId → K) → K) : Prop :=
  ∃ polynomial : MvPolynomial VariableId K, polynomial.totalDegree ≤ bound ∧
    ∀ point, function point = MvPolynomial.eval point polynomial

namespace IsPolynomial

variable {bound other : Nat} {f g : (VariableId → K) → K}

/-- A constant is a polynomial of degree zero. -/
theorem const (value : K) : IsPolynomial 0 fun _ : VariableId → K => value :=
  ⟨MvPolynomial.C value, (MvPolynomial.totalDegree_C value).le,
    fun _ => (MvPolynomial.eval_C value).symm⟩

/-- A variable is a polynomial of degree one. -/
theorem leaf (id : VariableId) : IsPolynomial 1 fun point : VariableId → K => point id :=
  ⟨MvPolynomial.X id, (MvPolynomial.totalDegree_X id).le, fun _ => (MvPolynomial.eval_X id).symm⟩

/-- A negation has the degree of what is negated. -/
theorem neg (polynomial : IsPolynomial bound f) : IsPolynomial bound fun point => -f point := by
  obtain ⟨p, degree, values⟩ := polynomial
  exact ⟨-p, (MvPolynomial.totalDegree_neg p).le.trans degree,
    fun point => by simp only [values, map_neg]⟩

/-- A sum has the larger of the degrees. -/
theorem add (first : IsPolynomial bound f) (second : IsPolynomial other g) :
    IsPolynomial (Nat.max bound other) fun point => f point + g point := by
  obtain ⟨p, degree, values⟩ := first
  obtain ⟨q, otherDegree, otherValues⟩ := second
  exact ⟨p + q, (MvPolynomial.totalDegree_add p q).trans (max_le_max degree otherDegree),
    fun point => by simp only [values, otherValues, map_add]⟩

/-- A product has the sum of the degrees. -/
theorem mul (first : IsPolynomial bound f) (second : IsPolynomial other g) :
    IsPolynomial (bound + other) fun point => f point * g point := by
  obtain ⟨p, degree, values⟩ := first
  obtain ⟨q, otherDegree, otherValues⟩ := second
  exact ⟨p * q, (MvPolynomial.totalDegree_mul p q).trans (add_le_add degree otherDegree),
    fun point => by simp only [values, otherValues, map_mul]⟩

/-- A power by a natural number multiplies the degree. -/
theorem pow (polynomial : IsPolynomial bound f) (exponent : Nat) :
    IsPolynomial (bound * exponent) fun point => f point ^ exponent := by
  obtain ⟨p, degree, values⟩ := polynomial
  refine ⟨p ^ exponent, (MvPolynomial.totalDegree_pow p exponent).trans ?_,
    fun point => by simp only [values, map_pow]⟩
  rw [Nat.mul_comm]
  exact Nat.mul_le_mul_right exponent degree

/-- A factor does not raise the degree. -/
theorem scale (polynomial : IsPolynomial bound f) (factor : K) :
    IsPolynomial bound fun point => f point * factor :=
  polynomial.mul (const factor)

/-- A polynomial of degree zero has the same value at all points. -/
theorem eq_const (polynomial : IsPolynomial 0 f) : ∃ value, f = fun _ => value := by
  obtain ⟨p, degree, values⟩ := polynomial
  have constant := MvPolynomial.totalDegree_eq_zero_iff_eq_C.mp (Nat.le_zero.mp degree)
  refine ⟨MvPolynomial.coeff 0 p, funext fun point => ?_⟩
  rw [values, constant, MvPolynomial.eval_C, MvPolynomial.coeff_C, if_pos rfl]

end IsPolynomial

namespace Degree

variable {first second : Degree} {bound : Nat}

/-- A maximum that is known is one of known degrees. -/
theorem max_eq_known (known : first.max second = .known bound) :
    ∃ a b, first = .known a ∧ second = .known b ∧ bound = Nat.max a b := by
  cases first with
  | unknown => cases known
  | known a =>
      cases second with
      | unknown => cases known
      | known b =>
          cases known
          exact ⟨a, b, rfl, rfl, rfl⟩

/-- A number is known as a degree if it fits into a word. -/
theorem ofNat_eq_known {degree : Nat} (known : ofNat degree = .known bound) :
    bound = degree ∧ bound ≤ largestWord := by
  unfold ofNat at known
  split at known
  · cases known
    exact ⟨rfl, by assumption⟩
  · cases known

/-- A product of degrees that is known is the sum of known ones, and fits into a word. -/
theorem product_eq_known (known : first.product second = .known bound) :
    ∃ a b, first = .known a ∧ second = .known b ∧ bound = a + b ∧ bound ≤ largestWord := by
  cases first with
  | unknown => cases known
  | known a =>
      cases second with
      | unknown => cases known
      | known b => exact ⟨a, b, rfl, rfl, ofNat_eq_known known⟩

/-- A power of a degree that is known is a multiple of a known one, and fits into a word. -/
theorem power_eq_known {exponent : Nat} (known : first.power exponent = .known bound) :
    ∃ a, first = .known a ∧ bound = a * exponent ∧ bound ≤ largestWord := by
  cases first with
  | unknown => cases known
  | known a => exact ⟨a, rfl, ofNat_eq_known known⟩

/-- Whether a degree, if it is known, is a 32-bit word that bounds the degree of a
function as a polynomial. -/
def Bounds (degree : Degree) (function : (VariableId → K) → K) : Prop :=
  ∀ bound, degree = .known bound → bound ≤ largestWord ∧ IsPolynomial bound function

namespace Bounds

variable {degree left right : Degree} {f g : (VariableId → K) → K}

/-- An unknown degree promises nothing. -/
theorem unknown (f : (VariableId → K) → K) : Degree.unknown.Bounds f := nofun

/-- The degree of a constant is zero. -/
theorem const (value : K) : (Degree.known 0).Bounds fun _ : VariableId → K => value := by
  rintro bound ⟨⟩
  exact ⟨Nat.zero_le _, .const value⟩

/-- The degree of a variable is one. -/
theorem leaf (id : VariableId) :
    (Degree.known 1).Bounds fun point : VariableId → K => point id := by
  rintro bound ⟨⟩
  exact ⟨by decide, .leaf id⟩

/-- A function of degree zero is constant. -/
theorem eq_const (bounds : (Degree.known 0).Bounds f) : ∃ value, f = fun _ => value :=
  (bounds 0 rfl).2.eq_const

/-- A negation keeps its degree. -/
theorem neg (bounds : degree.Bounds f) : degree.Bounds fun point => -f point :=
  fun bound known => ⟨(bounds bound known).1, (bounds bound known).2.neg⟩

/-- A multiple keeps its degree. -/
theorem scale (bounds : degree.Bounds f) (factor : K) :
    degree.Bounds fun point => f point * factor :=
  fun bound known => ⟨(bounds bound known).1, (bounds bound known).2.scale factor⟩

/-- The degree of a sum is the maximum. -/
theorem add (first : left.Bounds f) (second : right.Bounds g) :
    (left.max right).Bounds fun point => f point + g point := by
  intro bound known
  obtain ⟨a, b, rfl, rfl, rfl⟩ := max_eq_known known
  obtain ⟨fits, polynomial⟩ := first a rfl
  obtain ⟨alsoFits, otherPolynomial⟩ := second b rfl
  exact ⟨Nat.max_le.mpr ⟨fits, alsoFits⟩, polynomial.add otherPolynomial⟩

/-- The degree of a product is the product of the degrees. -/
theorem mul (first : left.Bounds f) (second : right.Bounds g) :
    (left.product right).Bounds fun point => f point * g point := by
  intro bound known
  obtain ⟨a, b, rfl, rfl, rfl, fits⟩ := product_eq_known known
  exact ⟨fits, (first a rfl).2.mul (second b rfl).2⟩

/-- The degree of a power is the power of the degree. -/
theorem pow (bounds : degree.Bounds f) (exponent : Nat) :
    (degree.power exponent).Bounds fun point => f point ^ exponent := by
  intro bound known
  obtain ⟨a, rfl, rfl, fits⟩ := power_eq_known known
  exact ⟨fits, (bounds a rfl).2.pow exponent⟩

/-- The degree of a sum bounds the sum of the children. -/
theorem foldl_add {children : List NodeIdx} {degrees : NodeIdx → Degree}
    {values : NodeIdx → (VariableId → K) → K}
    (each : ∀ child ∈ children, (degrees child).Bounds (values child)) (start : degree.Bounds f) :
    ((children.map degrees).foldl Degree.max degree).Bounds fun point =>
      (children.map (values · point)).foldl (· + ·) (f point) := by
  induction children generalizing degree f with
  | nil => exact start
  | cons child children ih =>
      exact ih (fun later member => each later (List.mem_cons_of_mem child member))
        (start.add (each child List.mem_cons_self))

/-- The degree of a linear form bounds the form. A child with a zero coefficient adds
nothing to the form, so its degree does not count. -/
theorem foldl_scale {children : List NodeIdx} {degrees : NodeIdx → Degree}
    {values : NodeIdx → (VariableId → K) → K}
    (each : ∀ child ∈ children, (degrees child).Bounds (values child)) (coefficients : List K)
    (start : degree.Bounds f) :
    ((((children.map degrees).zip coefficients).filter fun term => !(term.2 == 0)).foldl
        (fun degree term => degree.max term.1) degree).Bounds fun point =>
      ((children.map (values · point)).zip coefficients).foldl
        (fun total term => total + Numeric.scale term.1 term.2) (f point) := by
  induction children generalizing degree f coefficients with
  | nil => exact start
  | cons child children ih =>
      cases coefficients with
      | nil => exact start
      | cons coefficient coefficients =>
          have later := fun next member => each next (List.mem_cons_of_mem child member)
          simp only [List.map_cons, List.zip_cons_cons, List.filter_cons, List.foldl_cons]
          by_cases zero : coefficient = 0
          · have dropped : (!(coefficient == 0)) = false := by simp [zero]
            simp only [dropped, Bool.false_eq_true, ↓reduceIte]
            have same :
                (fun point => f point + Numeric.scale (values child point) coefficient) = f := by
              funext point
              change f point + values child point * coefficient = f point
              rw [zero, mul_zero, add_zero]
            refine ih later coefficients (f := fun point =>
              f point + Numeric.scale (values child point) coefficient) ?_
            rwa [same]
          · have counted : (!(coefficient == 0)) = true := by simp [zero]
            simp only [counted, ↓reduceIte, List.foldl_cons]
            have scaled := (each child List.mem_cons_self).scale coefficient
            exact ih later coefficients (start.add scaled)

/-- A quotient by a constant is a scaling. -/
theorem div (first : left.Bounds f) (second : right.Bounds g) :
    (if right = .known 0 then left else .unknown).Bounds fun point => f point / g point := by
  split
  · rename_i constant
    subst constant
    obtain ⟨divisor, rfl⟩ := second.eq_const
    simp only [div_eq_mul_inv]
    exact first.scale divisor⁻¹
  · exact unknown _

/-- A function of a constant is a constant. -/
theorem comp (bounds : degree.Bounds f) (function : K → K) :
    (if degree = .known 0 then Degree.known 0 else .unknown).Bounds fun point =>
      function (f point) := by
  split
  · rename_i constant
    subst constant
    obtain ⟨value, rfl⟩ := bounds.eq_const
    exact const (function value)
  · exact unknown _

/-- A constant to a constant is a constant, and the power of a polynomial to a whole
exponent is a polynomial. -/
theorem power [WholePower K] (first : left.Bounds f) (second : right.Bounds g)
    {constantExponent : Option K}
    (exponent : ∀ value, constantExponent = some value → g = fun _ => value) :
    (Operator.powerDegree left right constantExponent).Bounds fun point =>
      Scalar.power (f point) (g point) := by
  unfold Operator.powerDegree
  split
  · rename_i constants
    obtain ⟨rfl, rfl⟩ := constants
    obtain ⟨base, rfl⟩ := first.eq_const
    obtain ⟨value, rfl⟩ := second.eq_const
    exact const (Scalar.power base value)
  · split
    · rename_i k whole
      obtain ⟨value, given, denoted⟩ := Option.bind_eq_some_iff.mp whole
      have power : (fun point => Scalar.power (f point) (g point)) = fun point => f point ^ k := by
        rw [exponent value given, WholePower.eq_natCast denoted]
        exact funext fun point => WholePower.power_natCast (f point) k
      rw [power]
      exact first.pow k
    · exact unknown _

end Bounds

end Degree

/-- The degree of an operator bounds the values of the operator, if the degrees of the
children bound their values. -/
theorem Operator.bounds_degree [WholePower K] {op : Operator K} {children : List NodeIdx}
    {degrees : NodeIdx → Degree} {values : NodeIdx → (VariableId → K) → K}
    (each : ∀ child ∈ children, (degrees child).Bounds (values child))
    {constantExponent : Option K}
    (exponent : ∀ child value, children[1]? = some child → constantExponent = some value →
      values child = fun _ => value) {degree : Degree}
    (found : op.degree (children.map degrees) constantExponent = .ok degree)
    {result : (VariableId → K) → K}
    (applied : ∀ point, op.apply (children.map (values · point)) = .ok (result point)) :
    degree.Bounds result := by
  have result_eq {others : (VariableId → K) → K}
      (same : ∀ point, op.apply (children.map (values · point)) = .ok (others point)) :
      result = others :=
    funext fun point => Except.ok.inj ((applied point).symm.trans (same point))
  cases op with
  | sum =>
      cases children with
      | nil => cases applied 0
      | cons child children =>
          cases found
          rw [result_eq fun _ => rfl]
          exact Degree.Bounds.foldl_add each (.const 0)
  | linear coefficients offset =>
      have count : children.length = coefficients.length := by
        have shape := applied 0
        simp only [apply, List.length_map] at shape
        split at shape
        · assumption
        · cases shape
      cases found
      rw [result_eq fun _ => by rw [apply, if_pos (by rw [List.length_map, count])]]
      exact Degree.Bounds.foldl_scale each coefficients (.const offset)
  | negation =>
      rcases children with _ | ⟨x, _ | ⟨y, rest⟩⟩ <;> [cases applied 0; skip; cases applied 0]
      cases found
      rw [result_eq fun _ => rfl]
      exact (each x List.mem_cons_self).neg
  | unary function =>
      rcases children with _ | ⟨x, _ | ⟨y, rest⟩⟩ <;> [cases applied 0; skip; cases applied 0]
      cases found
      rw [result_eq fun _ => rfl]
      exact (each x List.mem_cons_self).comp (Scalar.unary function)
  | product =>
      rcases children with _ | ⟨x, _ | ⟨y, _ | ⟨z, rest⟩⟩⟩ <;>
        [cases applied 0; cases applied 0; skip; cases applied 0]
      cases found
      rw [result_eq fun _ => rfl]
      exact (each x List.mem_cons_self).mul (each y (List.mem_cons_of_mem x List.mem_cons_self))
  | division =>
      rcases children with _ | ⟨x, _ | ⟨y, _ | ⟨z, rest⟩⟩⟩ <;>
        [cases applied 0; cases applied 0; skip; cases applied 0]
      have quotient := (each x List.mem_cons_self).div
        (each y (List.mem_cons_of_mem x List.mem_cons_self))
      rw [result_eq fun _ => rfl]
      change (if degrees y = .known 0 then Except.ok (degrees x) else .ok .unknown) = _ at found
      rw [← apply_ite Except.ok] at found
      cases found
      exact quotient
  | power =>
      rcases children with _ | ⟨x, _ | ⟨y, _ | ⟨z, rest⟩⟩⟩ <;>
        [cases applied 0; cases applied 0; skip; cases applied 0]
      cases found
      rw [result_eq fun _ => rfl]
      exact (each x List.mem_cons_self).power (each y (List.mem_cons_of_mem x List.mem_cons_self))
        (exponent y · rfl)

namespace Graph

variable {graph : Graph K} {root : NodeIdx}

/-- The exponent that the analysis reads off a child is the value of the child at all
points. -/
theorem interpret_of_constantExponent {children : List NodeIdx} {child : NodeIdx} {value : K}
    (second : children[1]? = some child)
    (given : graph.constantExponent children = some value) (point : VariableId → K) :
    graph.interpret (.values point) child = value :=
  interpret_constant (kind?_of_constantExponent second given)

/-- The unfolded degree of every node below a root bounds the values of the node. -/
theorem bounds_unfoldedDegree [WholePower K] (wellFormed : graph.WellFormed)
    (inside : root < graph.size) {idx : NodeIdx} (reaches : graph.Reaches root idx) :
    (graph.unfoldedDegree idx).Bounds fun point => (graph.interpret (.values point) idx : K) := by
  refine wellFormed.induction inside (motive := fun idx =>
    (graph.unfoldedDegree idx).Bounds fun point => (graph.interpret (.values point) idx : K))
    ?_ ?_ ?_ reaches
  · intro idx id below known
    obtain ⟨node, held, kind⟩ := exists_node_of_kind? known
    rw [unfoldedDegree_eq wellFormed held (by rw [kind]; rfl)]
    simp only [interpret_leaf known]
    exact .leaf id
  · intro idx value below known
    obtain ⟨node, held, kind⟩ := exists_node_of_kind? known
    rw [unfoldedDegree_eq wellFormed held (by rw [kind]; rfl)]
    simp only [interpret_constant known]
    exact .const value
  · intro idx op children below known each
    obtain ⟨node, held, kind⟩ := exists_node_of_kind? known
    have found := nodeDegree_unfoldedDegree wellFormed held
    rw [Node.children, kind] at found
    exact Operator.bounds_degree each
      (fun child value second given => funext (interpret_of_constantExponent second given)) found
      fun point => apply_eq_ok_interpret wellFormed known

/-- The graph of `((x0 * x1) ^ 2 + 0 * exp x0 + 5) / 2`, in which the two is shared. -/
noncomputable def halvedSquare : Graph ℝ where
  id := ⟨0, 0⟩
  nodes := #[
    { uid := ⟨0⟩, idx := some 0, graph := some ⟨0, 0⟩, kind := .leaf 0 },
    { uid := ⟨1⟩, idx := some 1, graph := some ⟨0, 0⟩, kind := .leaf 1 },
    { uid := ⟨2⟩, idx := some 2, graph := some ⟨0, 0⟩, kind := .operator .product [0, 1] },
    { uid := ⟨3⟩, idx := some 3, graph := some ⟨0, 0⟩, kind := .constant (2 : ℕ) },
    { uid := ⟨4⟩, idx := some 4, graph := some ⟨0, 0⟩, kind := .operator .power [2, 3] },
    { uid := ⟨5⟩, idx := some 5, graph := some ⟨0, 0⟩, kind := .operator (.unary .exp) [0] },
    { uid := ⟨6⟩, idx := some 6, graph := some ⟨0, 0⟩,
      kind := .operator (.linear [1, 0] 5) [4, 5] },
    { uid := ⟨7⟩, idx := some 7, graph := some ⟨0, 0⟩, kind := .operator .division [6, 3] }]
  depths := #[0, 0, 1, 1, 2, 1, 3, 4]

/-- The example is built by insertions. -/
theorem built_halvedSquare : halvedSquare.Built := by
  let left : Node ℝ := { uid := ⟨0⟩, kind := .leaf 0 }
  let right : Node ℝ := { uid := ⟨1⟩, kind := .leaf 1 }
  let product : Node ℝ := { uid := ⟨2⟩, kind := .operator .product [0, 1] }
  let two : Node ℝ := { uid := ⟨3⟩, kind := .constant (2 : ℕ) }
  let square : Node ℝ := { uid := ⟨4⟩, kind := .operator .power [2, 3] }
  let exponential : Node ℝ := { uid := ⟨5⟩, kind := .operator (.unary .exp) [0] }
  let form : Node ℝ := { uid := ⟨6⟩, kind := .operator (.linear [1, 0] 5) [4, 5] }
  let half : Node ℝ := { uid := ⟨7⟩, kind := .operator .division [6, 3] }
  have first : Built _ := (Built.empty ⟨0, 0⟩ none).insert (rfl : left.kind.checkArity = _) rfl
  have second : Built _ := first.insert (rfl : right.kind.checkArity = _) rfl
  have third : Built _ := second.insert (rfl : product.kind.checkArity = _) rfl
  have fourth : Built _ := third.insert (rfl : two.kind.checkArity = _) rfl
  have fifth : Built _ := fourth.insert (rfl : square.kind.checkArity = _) rfl
  have sixth : Built _ := fifth.insert (rfl : exponential.kind.checkArity = _) rfl
  have seventh : Built _ := sixth.insert (rfl : form.kind.checkArity = _) rfl
  exact seventh.insert (rfl : half.kind.checkArity = _) rfl

/-- The exponential has no known degree, but its coefficient is zero. -/
theorem degree_halvedSquare : halvedSquare.degree 7 = .ok (.known 4) := by
  have wellFormed := built_halvedSquare.wellFormed
  have left : halvedSquare.unfoldedDegree 0 = .known 1 := unfoldedDegree_eq wellFormed rfl rfl
  have right : halvedSquare.unfoldedDegree 1 = .known 1 := unfoldedDegree_eq wellFormed rfl rfl
  have product : halvedSquare.unfoldedDegree 2 = .known 2 := by
    refine unfoldedDegree_eq wellFormed rfl ?_
    change Except.ok ((halvedSquare.unfoldedDegree 0).product (halvedSquare.unfoldedDegree 1)) = _
    rw [left, right]
    rfl
  have two : halvedSquare.unfoldedDegree 3 = .known 0 := unfoldedDegree_eq wellFormed rfl rfl
  have square : halvedSquare.unfoldedDegree 4 = .known 4 := by
    have whole : Scalar.wholeExponent? ((2 : ℕ) : ℝ) = some 2 := by
      refine Option.ite_none_right_eq_some.mpr ⟨⟨?_, ?_, ?_⟩, ?_⟩ <;> norm_num
    refine unfoldedDegree_eq wellFormed rfl ?_
    change Except.ok (Operator.powerDegree (halvedSquare.unfoldedDegree 2)
      (halvedSquare.unfoldedDegree 3) (some ((2 : ℕ) : ℝ))) = _
    rw [product, two, Operator.powerDegree, Option.bind_some, whole]
    rfl
  have exponential : halvedSquare.unfoldedDegree 5 = .unknown := by
    refine unfoldedDegree_eq wellFormed rfl ?_
    change Except.ok (if halvedSquare.unfoldedDegree 0 = .known 0 then _ else _) = _
    rw [left]
    rfl
  have form : halvedSquare.unfoldedDegree 6 = .known 4 := by
    refine unfoldedDegree_eq wellFormed rfl ?_
    change (Operator.linear [(1 : ℝ), 0] 5).degree
      [halvedSquare.unfoldedDegree 4, halvedSquare.unfoldedDegree 5] none = _
    rw [square, exponential]
    simp [Operator.degree, Degree.max, pure, Except.pure]
  have half : halvedSquare.unfoldedDegree 7 = .known 4 := by
    refine unfoldedDegree_eq wellFormed rfl ?_
    change (if halvedSquare.unfoldedDegree 3 = .known 0 then
      Except.ok (halvedSquare.unfoldedDegree 6) else _) = _
    rw [two, form]
    rfl
  rw [degree_eq wellFormed (by decide), half]

end Graph

end MixedInteger
