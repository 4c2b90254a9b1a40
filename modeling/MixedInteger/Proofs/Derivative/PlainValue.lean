import MixedInteger.Proofs.Derivative.FirstOrder
import MixedInteger.Proofs.Derivative.SecondOrder
import MixedInteger.Proofs.Derivative.TapeValue
import MixedInteger.Proofs.Expression.Compilation
import MixedInteger.Proofs.Scalar.Binary64

/-! # Plain values beside derivatives

A first-order quantity carries the plain value of its node, under any arithmetic: what
evaluation with first derivatives finds is what plain evaluation finds, to the last bit
(`Graph.eval_firstOrder_plain`). A second-order quantity has formulas of its own for
quotients and for powers, which round differently. It carries the plain value where
they agree with plain arithmetic, and at an operator over plain values only there
(`Graph.eval_secondOrder_plain`, `Graph.eval_secondOrder_selfRatio`).
-/

namespace MixedInteger

variable {K : Type}

namespace FirstOrder

variable [Scalar K]

/-- The value of a first-order quantity follows the plain arithmetic, whatever the derivatives
are. -/
theorem carriesValue : Numeric.CarriesValue K (FirstOrder K) where
  zero := rfl
  constant _ := rfl
  seed _ _ := rfl
  neg _ := rfl
  add _ _ := rfl
  mul _ _ := rfl
  scale _ _ := rfl
  apply _ _ := rfl
  isFinite _ finite := (Bool.and_eq_true_iff.mp finite).1

/-- No operator on first-order quantities has a formula of its own for the value. -/
theorem keepsValue (op : Operator K) (args : List (FirstOrder K)) : op.KeepsValue args := by
  unfold Operator.KeepsValue
  split
  · rfl
  · exact value_power _ _
  · trivial

end FirstOrder

namespace SecondOrder

variable [Scalar K]

/-- A second-order quantity is negated by a multiplication. -/
theorem carriesValue (negates : ∀ x : K, x * Scalar.minusOne = -x) :
    Numeric.CarriesValue K (SecondOrder K) where
  zero := rfl
  constant _ := rfl
  seed _ _ := rfl
  neg quantity := negates quantity.value
  add _ _ := rfl
  mul _ _ := rfl
  scale _ _ := rfl
  apply _ _ := value_chain ..
  isFinite _ finite := (Bool.and_eq_true_iff.mp (Bool.and_eq_true_iff.mp finite).1).1

/-- Whether the formula that an operator has on second-order quantities gives the plain
value. A quotient is a product with the reciprocal. A power is the exponential of a
product with the logarithm, unless its exponent stores no derivative; it is then the
plain power, but for the exponent one, where it is the base. -/
def IsFaithful : Operator K → List (SecondOrder K) → Prop
  | .division, [x, y] => x.value * (1 / y.value) = x.value / y.value
  | .power, [x, y] =>
      if y.isConstant then
        (y.value == 0) = false → (y.value == 1) = true → x.value = Scalar.power x.value y.value
      else Scalar.exp (y.value * Scalar.ln x.value) = Scalar.power x.value y.value
  | _, _ => True

/-- The value of a power with a constant exponent is the plain one, except that the exponent one
leaves the base alone. -/
theorem value_power_of_isConstant {left right : SecondOrder K}
    (constant : right.isConstant = true) :
    (left.power right).value =
      if (right.value == 0) = false ∧ (right.value == 1) = true then left.value
      else Scalar.power left.value right.value := by
  unfold power
  rw [if_pos constant]
  dsimp only
  cases right.value == 0 with
  | true => rfl
  | false =>
      cases right.value == 1 with
      | true => rfl
      | false => exact value_chain ..

/-- The value of a power with a variable exponent is taken through the logarithm. -/
theorem value_power_of_not_isConstant {left right : SecondOrder K}
    (varies : right.isConstant = false) :
    (left.power right).value = Scalar.exp (right.value * Scalar.ln left.value) := by
  unfold power
  rw [varies]
  change (exp (right.mul left.ln)).value = _
  rw [exp, value_chain]
  exact congrArg (fun logarithm => Scalar.exp (right.value * logarithm)) (value_chain ..)

/-- A power keeps the value exactly where its formula gives the plain value. -/
theorem keepsValue_power_iff (x y : SecondOrder K) :
    (Operator.power : Operator K).KeepsValue [x, y] ↔ IsFaithful .power [x, y] := by
  change (x.power y).value = Scalar.power x.value y.value ↔ _
  cases constant : y.isConstant with
  | false =>
      rw [value_power_of_not_isConstant constant, IsFaithful, constant]
      rfl
  | true =>
      rw [value_power_of_isConstant constant, IsFaithful, if_pos constant, ← and_imp]
      split
      · rename_i one
        exact ⟨fun same _ => same, fun same => same one⟩
      · rename_i other
        exact ⟨fun _ one => absurd one other, fun _ => rfl⟩

/-- An operator keeps the value exactly where its formula gives the plain value. -/
theorem keepsValue_iff (op : Operator K) (args : List (SecondOrder K)) :
    op.KeepsValue args ↔ IsFaithful op args := by
  rcases args with _ | ⟨x, _ | ⟨y, _ | ⟨z, rest⟩⟩⟩
  case cons.cons.nil =>
    cases op with
    | division =>
        change (x.div y).value = _ ↔ _
        rw [value_div_eq_mul]
        rfl
    | power => exact keepsValue_power_iff x y
    | negation | sum | linear | product | unary => rfl
  all_goals cases op <;> rfl

end SecondOrder

namespace Graph

section Plain

variable [Scalar K] {graph : Graph K} {root : NodeIdx}

/-- Under first-order quantities every operator below a root keeps the value. -/
theorem keepsValues_firstOrder (assignment : Assignment (FirstOrder K)) :
    graph.KeepsValues root assignment :=
  fun _ op _ _ _ _ => FirstOrder.keepsValue op _

/-- **First derivatives leave the value alone.** Under any arithmetic of the scalars, and
with any holes in the assignment: without checks, evaluation with first derivatives and
plain evaluation meet the same unbound variable at the same node, or both succeed, with
the same value. With checks, what evaluation with derivatives finds has the value that
plain evaluation finds, and where plain evaluation fails, evaluation with derivatives
fails at the same node or at an earlier one. The values on a tape are the same again. -/
theorem eval_firstOrder_plain (built : graph.Built) (inside : root < graph.size)
    (plain : Assignment K) :
    ((∃ id node,
        graph.eval root (plain.withSeeds : Assignment (FirstOrder K)) { checkFinite := false } =
          .error (.error (.unboundVariable id node)) ∧
        graph.eval root plain { checkFinite := false } =
          .error (.error (.unboundVariable id node))) ∨
      ∃ quantity : FirstOrder K,
        graph.eval root plain.withSeeds { checkFinite := false } = .ok quantity ∧
        graph.eval root plain { checkFinite := false } = .ok quantity.value) ∧
    (∀ quantity : FirstOrder K,
      graph.eval root plain.withSeeds { checkFinite := true } = .ok quantity →
        graph.eval root plain { checkFinite := true } = .ok quantity.value) ∧
    (∀ fault, graph.eval root plain { checkFinite := true } = .error fault →
      ∃ error earlier, fault = .error error ∧
        graph.eval root (plain.withSeeds : Assignment (FirstOrder K)) { checkFinite := true } =
          .error (.error earlier) ∧
        graph.Reaches root error.node ∧ graph.Reaches root earlier.node ∧
        earlier.node ≤ error.node) ∧
    ∀ variableCount, ∃ tape, graph.compile root variableCount = .ok tape ∧
      (∀ options (quantity : FirstOrder K),
        tape.eval plain.withSeeds options = .ok quantity →
          tape.eval plain options = .ok quantity.value) ∧
      ∀ value, tape.eval plain { checkFinite := false } = .ok value →
        ∃ quantity : FirstOrder K,
          tape.eval plain.withSeeds { checkFinite := false } = .ok quantity ∧
          quantity.value = value := by
  have wellFormed := built.wellFormed
  have carries : Numeric.CarriesValue K (FirstOrder K) := FirstOrder.carriesValue
  have keeps : graph.KeepsValues root (plain.withSeeds : Assignment (FirstOrder K)) :=
    keepsValues_firstOrder _
  have unchecked := eval_unchecked_cases carries wellFormed inside keeps
  refine ⟨unchecked, fun quantity => eval_plain_of_eval_eq_ok carries wellFormed inside keeps,
    fun fault => exists_earlier_error carries wellFormed inside keeps, fun variableCount => ?_⟩
  obtain ⟨tape, compiled, -⟩ := exists_compile wellFormed inside variableCount
  have shown (id : VariableId) : plain.get? id =
      ((plain.withSeeds : Assignment (FirstOrder K)).get? id).map Numeric.value := by
    rw [Assignment.get?_withSeeds, Option.map_map]
    cases plain.get? id <;> rfl
  -- slots may be shared by mistake, but a run and its plain run share the same ones
  have mirrored (options : EvalOptions) : Outcome.Mirrors (options.checkFinite = false)
      Numeric.value (tape.run _ options) (tape.run _ options) :=
    Tape.mirrors_run carries FirstOrder.keepsValue shown
  refine ⟨tape, compiled, fun options => (mirrored options).shown, fun value found => ?_⟩
  obtain ⟨quantity, evaluated⟩ := (mirrored { checkFinite := false }).exists_ok rfl value found
  have carried := (mirrored { checkFinite := false }).shown quantity evaluated
  exact ⟨quantity, evaluated, Except.ok.inj (carried.symm.trans found)⟩

/-- The first variable is the only one there. -/
theorem occurs_sharedExponential {id : VariableId} (occurs : sharedExponential.Occurs 3 id) :
    id = 0 := by
  obtain ⟨idx, -, known⟩ := occurs
  rcases idx with _ | _ | _ | _ | idx <;> cases known
  rfl

/-- A hole in the assignment stops both evaluations at the leaf, and at the point one both give the
same value. -/
theorem eval_firstOrder_plain_sharedExponential :
    sharedExponential.eval 3 (({} : Assignment Float).withSeeds : Assignment (FirstOrder Float))
        { checkFinite := false } = .error (.error (.unboundVariable 0 0)) ∧
      ∃ quantity : FirstOrder Float,
        sharedExponential.eval 3 (Assignment.seeded [1.0]) { checkFinite := false } = .ok quantity ∧
        sharedExponential.eval 3 (Assignment.ofList [(1.0 : Float)]) { checkFinite := false } =
          .ok quantity.value := by
  have wellFormed := built_sharedExponential.wellFormed
  have inside : 3 < sharedExponential.size := by decide
  constructor
  · have exponential : sharedExponential.Reaches 3 1 := reaches_child rfl (by simp)
    have below : sharedExponential.Reaches 3 0 :=
      exponential.trans (reaches_child rfl (by simp))
    have failed : sharedExponential.eval 3 ({} : Assignment Float) { checkFinite := false } =
        .error (.error (.unboundVariable 0 0)) :=
      eval_eq_error_of_first wellFormed inside (fun lower _ less => absurd less lower.not_lt_zero)
        below (.unbound rfl rfl)
    obtain ⟨id, node, evaluated, plainEvaluated⟩ | ⟨quantity, -, plainEvaluated⟩ :=
      (eval_firstOrder_plain built_sharedExponential inside {}).1
    · cases failed.symm.trans plainEvaluated
      exact evaluated
    · cases failed.symm.trans plainEvaluated
  · have bound : ∀ id, sharedExponential.Occurs 3 id →
        (Assignment.ofList [(1.0 : Float)]).get? id ≠ none := by
      intro id occurs
      cases occurs_sharedExponential occurs
      nofun
    obtain ⟨id, node, -, failed⟩ | both :=
      (eval_firstOrder_plain built_sharedExponential inside (Assignment.ofList [1.0])).1
    · cases failed.symm.trans (eval_eq_ok_knownValue wellFormed inside bound .refl).2
    · rwa [Assignment.withSeeds_ofList] at both

end Plain

section Machine

variable {graph : Graph Float} {root : NodeIdx} {plain : Assignment Float}

/-- A variable that is bound is bound with its seed, too. -/
theorem get?_withSeeds_ne_none {A : Type} [Numeric Float A]
    (bound : ∀ id, graph.Occurs root id → plain.get? id ≠ none) (id : VariableId)
    (occurs : graph.Occurs root id) : (plain.withSeeds : Assignment A).get? id ≠ none := by
  rw [Assignment.get?_withSeeds, Ne, Option.map_eq_none_iff]
  exact bound id occurs

/-- **Second derivatives keep the value where their formulas do.** On machine numbers,
with all variables below the root bound and without checks, evaluation with second
derivatives and plain evaluation both succeed. They find the same value, to the last bit,
if at every operator below the root the formula for second-order quantities gives the
plain value. At an operator over operands that carry their plain values they find the
same value only then. -/
theorem eval_secondOrder_plain (built : graph.Built) (inside : root < graph.size)
    (bound : ∀ id, graph.Occurs root id → plain.get? id ≠ none) :
    ∃ (quantity : SecondOrder Float) (value : Float),
      graph.eval root plain.withSeeds { checkFinite := false } = .ok quantity ∧
      graph.eval root plain { checkFinite := false } = .ok value ∧
      ((∀ idx op children args, graph.Reaches root idx →
          graph.kind? idx = some (.operator op children) →
          children.mapM (fun child => graph.eval child plain.withSeeds { checkFinite := false }) =
            .ok args → SecondOrder.IsFaithful op args) →
        quantity.value = value) ∧
      ∀ op children args, graph.kind? root = some (.operator op children) →
        children.mapM (fun child => graph.eval child plain.withSeeds { checkFinite := false }) =
          .ok args →
        children.mapM (fun child => graph.eval child plain { checkFinite := false }) =
          .ok (args.map SecondOrder.value) →
        (quantity.value = value ↔ SecondOrder.IsFaithful op args) := by
  have wellFormed := built.wellFormed
  have carries : Numeric.CarriesValue Float (SecondOrder Float) :=
    SecondOrder.carriesValue Binary64.mul_minusOne
  have seeded := get?_withSeeds_ne_none (A := SecondOrder Float) bound
  have evaluated := (eval_eq_ok_knownValue wellFormed inside seeded .refl).2
  have plainEvaluated := (eval_eq_ok_knownValue wellFormed inside bound .refl).2
  refine ⟨_, _, evaluated, plainEvaluated, fun faithful => ?_,
    fun op children args known found plainFound => ?_⟩
  · have keeps : graph.KeepsValues root (plain.withSeeds : Assignment (SecondOrder Float)) := by
      intro idx op children reaches known _
      refine (SecondOrder.keepsValue_iff op _).mpr (faithful idx op children _ reaches known ?_)
      exact mapM_eval_eq_ok_knownValue wellFormed inside seeded reaches known
    have carried := eval_plain_of_eval_eq_ok carries wellFormed inside keeps evaluated
    exact Except.ok.inj (carried.symm.trans plainEvaluated)
  · have args_eq := mapM_eval_eq_ok_knownValue wellFormed inside seeded .refl known
    cases found.symm.trans args_eq
    have applied := apply_knownValue wellFormed inside seeded .refl known
    have plainArgs := plainFound.symm.trans
      (mapM_eval_eq_ok_knownValue wellFormed inside bound .refl known)
    have plainApplied := apply_knownValue wellFormed inside bound .refl known
    rw [← Except.ok.inj plainArgs] at plainApplied
    exact (carries.value_eq_iff applied plainApplied).trans (SecondOrder.keepsValue_iff op _)

/-- The graph of `x0 / x0`. -/
def selfRatio : Graph Float where
  id := ⟨0, 0⟩
  nodes := #[
    { uid := ⟨0⟩, idx := some 0, graph := some ⟨0, 0⟩, kind := .leaf 0 },
    { uid := ⟨1⟩, idx := some 1, graph := some ⟨0, 0⟩, kind := .operator .division [0, 0] }]
  depths := #[0, 1]

/-- Two insertions build the quotient. -/
theorem built_selfRatio : selfRatio.Built := by
  let argument : Node Float := { uid := ⟨0⟩, kind := .leaf 0 }
  let ratio : Node Float := { uid := ⟨1⟩, kind := .operator .division [0, 0] }
  have first : Built _ := (Built.empty ⟨0, 0⟩ none).insert (rfl : argument.kind.checkArity = _) rfl
  exact first.insert (rfl : ratio.kind.checkArity = _) rfl

/-- The first variable is the only one in the quotient. -/
theorem occurs_selfRatio {id : VariableId} (occurs : selfRatio.Occurs 1 id) : id = 0 := by
  obtain ⟨idx, -, known⟩ := occurs
  rcases idx with _ | _ | idx <;> cases known
  rfl

/-- The quotient divides what the variable is bound to by itself. -/
theorem eval_selfRatio {A : Type} [Numeric Float A] {assignment : Assignment A} {x : A}
    (entry : assignment.get? 0 = some x) :
    selfRatio.eval 0 assignment { checkFinite := false } = .ok x ∧
      selfRatio.eval 1 assignment { checkFinite := false } = .ok (x / x) := by
  have wellFormed := built_selfRatio.wellFormed
  have inside : 1 < selfRatio.size := by decide
  have bound : ∀ id, selfRatio.Occurs 1 id → assignment.get? id ≠ none := by
    intro id occurs
    rw [occurs_selfRatio occurs, entry]
    nofun
  have below : selfRatio.Reaches 1 0 := reaches_child rfl (by simp)
  obtain ⟨valued, leaf⟩ := eval_eq_ok_knownValue wellFormed inside bound below
  have ratio := (eval_eq_ok_knownValue wellFormed inside bound .refl).2
  have applied := apply_knownValue wellFormed inside bound .refl
    (rfl : selfRatio.kind? 1 = some (.operator .division [0, 0]))
  rw [value?_leaf rfl, entry] at valued
  simp only [List.map_cons, List.map_nil, ← Option.some.inj valued] at applied
  rw [← Option.some.inj valued] at leaf
  rw [← Except.ok.inj applied] at ratio
  exact ⟨leaf, ratio⟩

/-- At two the formula for the quotient gives the plain value. -/
theorem eval_secondOrder_plain_selfRatio :
    ∃ (quantity : SecondOrder Float) (value : Float),
      selfRatio.eval 1 (Assignment.seeded [2.0]) { checkFinite := false } = .ok quantity ∧
      selfRatio.eval 1 (Assignment.ofList [2.0]) { checkFinite := false } = .ok value ∧
      quantity.value = value := by
  have bound : ∀ id, selfRatio.Occurs 1 id →
      (Assignment.ofList [(2.0 : Float)]).get? id ≠ none := by
    intro id occurs
    cases occurs_selfRatio occurs
    nofun
  obtain ⟨quantity, value, evaluated, plainEvaluated, same, -⟩ :=
    eval_secondOrder_plain built_selfRatio (by decide) bound
  rw [Assignment.withSeeds_ofList] at evaluated same
  refine ⟨quantity, value, evaluated, plainEvaluated, same ?_⟩
  intro idx op children args _ known found
  rcases idx with _ | _ | idx <;> cases known
  have leaf : selfRatio.eval 0 (Assignment.seeded [2.0]) { checkFinite := false } =
      .ok (Numeric.seed 0 (2.0 : Float) : SecondOrder Float) := (eval_selfRatio rfl).1
  simp only [List.mapM_cons, leaf] at found
  cases found
  change (2.0 : Float) * (1 / 2.0) = 2.0 / 2.0
  decide

/-- At forty-nine it does not, and the two evaluations differ. -/
theorem eval_secondOrder_selfRatio :
    selfRatio.Built ∧ 1 < selfRatio.size ∧
      (∀ id, selfRatio.Occurs 1 id → (Assignment.ofList [(49.0 : Float)]).get? id ≠ none) ∧
      ∃ (quantity : SecondOrder Float) (value : Float),
        selfRatio.eval 1 (Assignment.seeded [49.0]) { checkFinite := false } = .ok quantity ∧
        selfRatio.eval 1 (Assignment.ofList [49.0]) { checkFinite := false } = .ok value ∧
        quantity.value ≠ value := by
  refine ⟨built_selfRatio, by decide, fun id occurs => ?_,
    _, _, (eval_selfRatio rfl).2, (eval_selfRatio rfl).2, ?_⟩
  · cases occurs_selfRatio occurs
    nofun
  · change (SecondOrder.div _ _).value ≠ (49.0 : Float) / 49.0
    rw [SecondOrder.value_div_eq_mul]
    change (49.0 : Float) * (1 / 49.0) ≠ 49.0 / 49.0
    decide

end Machine

end Graph

end MixedInteger
