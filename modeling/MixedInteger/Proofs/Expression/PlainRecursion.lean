import MixedInteger.Proofs.Expression.Unfolding
import MixedInteger.Scalar.Binary64

/-! # Evaluation by plain recursion

By plain recursion the value of a node is computed from those of its children,
once for every use, and is not checked. A node gives rise to an error of its own
when it is an unbound variable, or when its value has to be finite and is not.
Evaluation finds the value of the root if there is no such node below it, and
otherwise ends with the error of the first one (`Graph.eval_meets_recursion`).
-/

namespace MixedInteger

variable {K A : Type} [Numeric K A]

/-- The values of expressions where variables may be unbound. An operator has a
value when all its arguments have one and it takes their number. -/
def Interpretation.partialValues (assignment : Assignment A) : Interpretation K (Option A) where
  leaf := assignment.get?
  constant value := some (Numeric.constant value)
  operator op args := (args.mapM id).bind fun args => (op.apply args).toOption

/-- What the value of a node is reported as. -/
def NodeKind.reportName : NodeKind K → String
  | .leaf _ => "variable"
  | .constant _ => "constant"
  | .operator op _ => op.name

namespace Graph

/-- The value of a node by plain recursion. There is none when a variable below the
node is unbound. -/
def value? (graph : Graph K) (assignment : Assignment A) (idx : NodeIdx) : Option A :=
  @interpret K (Option A) ⟨none⟩ graph (.partialValues assignment) idx

/-- The errors that a node gives rise to, whatever happens at other nodes. -/
inductive Offends (graph : Graph K) (assignment : Assignment A) (options : EvalOptions)
    (idx : NodeIdx) : EvalError K → Prop where
  | unbound {id : VariableId} (leaf : graph.kind? idx = some (.leaf id))
      (absent : assignment.get? id = none) :
      Offends graph assignment options idx (.unboundVariable id idx)
  | nonFinite {kind : NodeKind K} {value : A} (known : graph.kind? idx = some kind)
      (found : graph.value? assignment idx = some value) (checked : options.checkFinite = true)
      (infinite : Numeric.isFinite value = false) :
      Offends graph assignment options idx
        (.nonFinite idx kind.reportName (Numeric.value value))

variable {graph : Graph K} {root idx : NodeIdx} {node : Node K} {assignment : Assignment A}
  {options : EvalOptions}

theorem value?_leaf {id : VariableId} (known : graph.kind? idx = some (.leaf id)) :
    graph.value? assignment idx = assignment.get? id :=
  @interpret_leaf K (Option A) graph idx ⟨none⟩ _ id known

theorem value?_constant {value : K} (known : graph.kind? idx = some (.constant value)) :
    graph.value? assignment idx = some (Numeric.constant value) :=
  @interpret_constant K (Option A) graph idx ⟨none⟩ _ value known

/-- A finite constant gives rise to no error. -/
theorem not_offends_of_constant {value : K} (known : graph.kind? idx = some (.constant value))
    (finite : Numeric.isFinite (Numeric.constant value : A) = true) (error : EvalError K) :
    ¬ graph.Offends assignment options idx error := by
  intro offends
  cases offends with
  | unbound leaf =>
      rw [known] at leaf
      cases leaf
  | nonFinite _ found _ infinite =>
      rw [value?_constant known] at found
      rw [← Option.some.inj found, finite] at infinite
      cases infinite

/-- An operator is applied to the values of its children. -/
theorem value?_operator (wellFormed : graph.WellFormed) {op : Operator K}
    {children : List NodeIdx} (known : graph.kind? idx = some (.operator op children))
    {values : NodeIdx → A}
    (earlier : ∀ child ∈ children, graph.value? assignment child = some (values child)) :
    graph.value? assignment idx = (op.apply (children.map values)).toOption := by
  have unfolded := @interpret_operator K (Option A) graph idx ⟨none⟩
    (.partialValues assignment) wellFormed op children known
  have args : children.map (graph.value? assignment) = (children.map values).map some := by
    rw [List.map_map]
    exact List.map_congr_left earlier
  refine unfolded.trans ?_
  change ((children.map (graph.value? assignment)).mapM fun value => value).bind _ = _
  rw [args, List.mapM_map]
  change Option.bind ((children.map values).mapM pure) _ = _
  rw [List.mapM_pure, List.map_id']
  rfl

/-- A node whose children have values has a value, or it is an unbound variable. The
value is what its rule checks. -/
theorem evalNode_cases (wellFormed : graph.WellFormed) (held : graph.get? idx = some node)
    (options : EvalOptions) {values : NodeIdx → A}
    (earlier : ∀ child ∈ node.children, graph.value? assignment child = some (values child)) :
    (∃ value, graph.value? assignment idx = some value ∧
        evalNode node.kind idx (node.children.map values) assignment options =
          Fault.report (options.check idx node.kind.reportName value)) ∨
      ∃ id, node.kind = .leaf id ∧ assignment.get? id = none := by
  have known := kind?_eq held
  have formed := wellFormed.arity held
  unfold Node.children at earlier ⊢
  cases kind : node.kind with
  | leaf id =>
      rw [kind] at known
      cases bound : assignment.get? id with
      | none => exact Or.inr ⟨id, rfl, bound⟩
      | some value =>
          refine Or.inl ⟨value, (value?_leaf known).trans bound, ?_⟩
          simp only [evalNode, bound]
          rfl
  | constant value =>
      rw [kind] at known
      exact Or.inl ⟨_, value?_constant known, rfl⟩
  | operator op children =>
      rw [kind] at known formed earlier
      obtain ⟨value, applied⟩ := Operator.exists_apply_eq_ok formed (List.length_map values)
      refine Or.inl ⟨value, ?_, ?_⟩
      · rw [value?_operator wellFormed known earlier, applied]
        rfl
      · simp only [NodeKind.children, evalNode, applied]
        rfl

section Children

variable (wellFormed : graph.WellFormed) (held : graph.get? idx = some node)
  {values : NodeIdx → A}
  (earlier : ∀ child ∈ node.children, graph.value? assignment child = some (values child))

include wellFormed held earlier

/-- A node that gives rise to no error passes its value on. -/
theorem evalNode_eq_ok_of_not_offends
    (blameless : ∀ error, ¬ graph.Offends assignment options idx error) :
    ∃ value, graph.value? assignment idx = some value ∧
      evalNode node.kind idx (node.children.map values) assignment options = .ok value := by
  have known := kind?_eq held
  obtain ⟨value, found, rule⟩ | ⟨id, leaf, absent⟩ :=
    evalNode_cases wellFormed held options earlier
  · refine ⟨value, found, ?_⟩
    rw [rule, Fault.report_eq_ok_iff, EvalOptions.check, if_neg]
    intro refused
    obtain ⟨checked, infinite⟩ := Bool.and_eq_true_iff.mp refused
    exact blameless _ (.nonFinite known found checked (Bool.not_eq_true' _ ▸ infinite))
  · rw [leaf] at known
    exact absurd (.unbound known absent) (blameless _)

/-- A node that gives rise to an error ends the evaluation with it. -/
theorem evalNode_eq_error_of_offends {error : EvalError K}
    (offends : graph.Offends assignment options idx error) :
    evalNode node.kind idx (node.children.map values) assignment options =
      .error (.error error) := by
  have known := kind?_eq held
  cases offends with
  | unbound leaf absent =>
      rw [known] at leaf
      rw [Option.some.inj leaf]
      simp only [evalNode, absent]
  | @nonFinite kind value same found checked infinite =>
      obtain rfl : node.kind = kind := Option.some.inj (known.symm.trans same)
      obtain ⟨other, alsoFound, rule⟩ | ⟨id, leaf, absent⟩ :=
        evalNode_cases wellFormed held options earlier
      · obtain rfl : value = other := Option.some.inj (found.symm.trans alsoFound)
        rw [rule, EvalOptions.check, checked, infinite]
        rfl
      · rw [leaf] at known
        rw [value?_leaf known, absent] at found
        cases found

end Children

/-- The value of a node by plain recursion, where one is known to exist. -/
def knownValue (graph : Graph K) (assignment : Assignment A) (idx : NodeIdx) : A :=
  (graph.value? assignment idx).getD 0

section Below

variable (wellFormed : graph.WellFormed) (inside : root < graph.size) {bound : NodeIdx}
  (blameless : ∀ idx, graph.Reaches root idx → idx < bound →
    ∀ error, ¬ graph.Offends assignment options idx error)

include wellFormed inside blameless

/-- The nodes before the first one that gives rise to an error have values. -/
theorem value?_eq_knownValue (reaches : graph.Reaches root idx) (lower : idx < bound) :
    graph.value? assignment idx = some (graph.knownValue assignment idx) := by
  induction idx using Nat.strongRecOn with
  | ind idx ih =>
      obtain ⟨node, held⟩ := reaches.exists_node wellFormed inside
      have earlier : ∀ child ∈ node.children,
          graph.value? assignment child = some (graph.knownValue assignment child) :=
        fun child member =>
          have before := wellFormed.child_lt held member
          ih child before (reaches.tail ⟨node, held, member⟩) (Nat.lt_trans before lower)
      obtain ⟨value, found, -⟩ :=
        evalNode_eq_ok_of_not_offends wellFormed held earlier (blameless idx reaches lower)
      rw [knownValue, found]
      rfl

/-- The nodes before the first one that gives rise to an error are evaluated to their
values. -/
theorem evalNode_eq_knownValue (reaches : graph.Reaches root idx) (lower : idx < bound)
    (held : graph.get? idx = some node) :
    evalNode node.kind idx (node.children.map (graph.knownValue assignment)) assignment options =
      .ok (graph.knownValue assignment idx) := by
  have earlier : ∀ child ∈ node.children,
      graph.value? assignment child = some (graph.knownValue assignment child) :=
    fun child member => value?_eq_knownValue wellFormed inside blameless
      (reaches.tail ⟨node, held, member⟩)
      (Nat.lt_trans (wellFormed.child_lt held member) lower)
  obtain ⟨value, found, rule⟩ :=
    evalNode_eq_ok_of_not_offends wellFormed held earlier (blameless idx reaches lower)
  rw [rule, knownValue, found]
  rfl

end Below

/-- Evaluation finds the value of the root if no node below it gives rise to an
error. -/
theorem eval_eq_ok_of_blameless (wellFormed : graph.WellFormed) (inside : root < graph.size)
    (blameless : ∀ idx, graph.Reaches root idx →
      ∀ error, ¬ graph.Offends assignment options idx error) :
    graph.value? assignment root = some (graph.knownValue assignment root) ∧
      graph.eval root assignment options = .ok (graph.knownValue assignment root) := by
  have below : ∀ idx, graph.Reaches root idx → idx < root + 1 →
      ∀ error, ¬ graph.Offends assignment options idx error :=
    fun idx reaches _ => blameless idx reaches
  refine ⟨value?_eq_knownValue wellFormed inside below .refl (Nat.lt_succ_self root),
    eval_eq_ok_of_valuation wellFormed inside fun idx reaches => ?_⟩
  obtain ⟨node, held⟩ := reaches.exists_node wellFormed inside
  exact ⟨node, held, evalNode_eq_knownValue wellFormed inside below reaches
    (Nat.lt_succ_of_le (reaches.le wellFormed)) held⟩

/-- Evaluation ends with the error of the first node below the root that gives rise to
one. -/
theorem eval_eq_error_of_first (wellFormed : graph.WellFormed) (inside : root < graph.size)
    (blameless : ∀ lower, graph.Reaches root lower → lower < idx →
      ∀ error, ¬ graph.Offends assignment options lower error)
    (reaches : graph.Reaches root idx) {error : EvalError K}
    (offends : graph.Offends assignment options idx error) :
    graph.eval root assignment options = .error (.error error) := by
  obtain ⟨order, found, valid⟩ := subtree_spec wellFormed inside
  obtain ⟨before, after, split⟩ := List.append_of_mem ((valid.mem_iff idx).mpr reaches)
  obtain ⟨node, held⟩ := reaches.exists_node wellFormed inside
  obtain ⟨memo, traversed, known⟩ := valid.exists_table_before wellFormed inside split
    (graph.knownValue assignment) (graph.evalVisit assignment options)
    fun lower member other table otherHeld args => by
      have below := (valid.mem_iff lower).mp (by simp [split, member])
      rw [evalVisit_eq otherHeld args, evalNode_eq_knownValue wellFormed inside blameless below
        (valid.before_lt split member) otherHeld]
      rfl
  have args : node.children.mapM (visited memo) =
      .ok (node.children.map (graph.knownValue assignment)) :=
    Outcome.mapM_eq_ok_map fun child member => by
      unfold visited
      rw [known child (valid.child_mem_before wellFormed split held member)]
  have earlier : ∀ child ∈ node.children,
      graph.value? assignment child = some (graph.knownValue assignment child) :=
    fun child member => value?_eq_knownValue wellFormed inside blameless
      (reaches.tail ⟨node, held, member⟩) (wellFormed.child_lt held member)
  unfold eval
  rw [found]
  change (order.foldlM (graph.evalVisit assignment options) _ >>= _) = _
  rw [split, List.foldlM_append, traversed, Outcome.ok_bind, List.foldlM_cons,
    evalVisit_eq held args, evalNode_eq_error_of_offends wellFormed held earlier offends]
  rfl

/-- **Evaluation meets plain recursion.** It breaks no contract: in particular every node
below the root is attached, under the index that an error names. If no node below the
root gives rise to an error, the root has a value by plain recursion and evaluation
finds it. Otherwise evaluation ends with the error of the first node that gives rise to
one. What a checked evaluation finds, an unchecked one finds as well. -/
theorem eval_meets_recursion (built : graph.Built) (inside : root < graph.size)
    (assignment : Assignment A) (options : EvalOptions) :
    (∀ broken, graph.eval root assignment options ≠ .error (.violation broken)) ∧
    (∀ idx, graph.Reaches root idx →
      ∃ node, graph.get? idx = some node ∧ node.idx = some idx) ∧
    ((∀ idx, graph.Reaches root idx → ∀ error, ¬ graph.Offends assignment options idx error) →
      ∃ value, graph.value? assignment root = some value ∧
        graph.eval root assignment options = .ok value) ∧
    (∀ idx error, graph.Reaches root idx → graph.Offends assignment options idx error →
      (∀ lower, graph.Reaches root lower → lower < idx →
        ∀ other, ¬ graph.Offends assignment options lower other) →
      graph.eval root assignment options = .error (.error error)) ∧
    ∀ value, graph.eval root assignment { checkFinite := true } = .ok value →
      graph.eval root assignment { checkFinite := false } = .ok value := by
  have wellFormed := built.wellFormed
  refine ⟨fun broken violated => ?_, fun idx reaches => ?_, fun blameless => ?_,
    fun idx error reaches offends blameless => ?_, fun value found => ?_⟩
  · have yields := yields_eval wellFormed inside assignment options
    rw [violated] at yields
    exact Fault.not_isReported_violation broken yields
  · obtain ⟨node, held⟩ := reaches.exists_node wellFormed inside
    exact ⟨node, held, built.idx_eq held⟩
  · obtain ⟨known, found⟩ := eval_eq_ok_of_blameless wellFormed inside blameless
    exact ⟨_, known, found⟩
  · exact eval_eq_error_of_first wellFormed inside blameless reaches offends
  · exact eval_unchecked_of_eval_eq_ok wellFormed inside found

/-- The graph of `1 / 0 + x0`, in which the quotient comes before the variable. -/
def quotientByZero : Graph Float where
  id := ⟨0, 0⟩
  nodes := #[
    { uid := ⟨0⟩, idx := some 0, graph := some ⟨0, 0⟩, kind := .constant 0.0 },
    { uid := ⟨1⟩, idx := some 1, graph := some ⟨0, 0⟩, kind := .constant 1.0 },
    { uid := ⟨2⟩, idx := some 2, graph := some ⟨0, 0⟩, kind := .operator .division [1, 0] },
    { uid := ⟨3⟩, idx := some 3, graph := some ⟨0, 0⟩, kind := .leaf 0 },
    { uid := ⟨4⟩, idx := some 4, graph := some ⟨0, 0⟩, kind := .operator .sum [2, 3] }]
  depths := #[1, 1, 2, 0, 3]

theorem built_quotientByZero : quotientByZero.Built := by
  let zero : Node Float := { uid := ⟨0⟩, kind := .constant 0.0 }
  let one : Node Float := { uid := ⟨1⟩, kind := .constant 1.0 }
  let quotient : Node Float := { uid := ⟨2⟩, kind := .operator .division [1, 0] }
  let leaf : Node Float := { uid := ⟨3⟩, kind := .leaf 0 }
  let sum : Node Float := { uid := ⟨4⟩, kind := .operator .sum [2, 3] }
  have first : Built _ := (Built.empty ⟨0, 0⟩ none).insert (rfl : zero.kind.checkArity = _) rfl
  have second : Built _ := first.insert (rfl : one.kind.checkArity = _) rfl
  have third : Built _ := second.insert (rfl : quotient.kind.checkArity = _) rfl
  have fourth : Built _ := third.insert (rfl : leaf.kind.checkArity = _) rfl
  exact fourth.insert (rfl : sum.kind.checkArity = _) rfl

/-- With checks the quotient is reported, without them the variable. -/
theorem eval_meets_recursion_quotientByZero :
    quotientByZero.Built ∧ 4 < quotientByZero.size ∧
      quotientByZero.eval 4 ({} : Assignment Float) { checkFinite := true } =
        .error (.error (.nonFinite 2 "division" (1.0 / 0.0))) ∧
      quotientByZero.eval 4 ({} : Assignment Float) { checkFinite := false } =
        .error (.error (.unboundVariable 0 3)) := by
  have inside : 4 < quotientByZero.size := by decide
  have wellFormed := built_quotientByZero.wellFormed
  have zero : quotientByZero.kind? 0 = some (.constant 0.0) := rfl
  have one : quotientByZero.kind? 1 = some (.constant 1.0) := rfl
  have quotient : quotientByZero.value? ({} : Assignment Float) 2 = some (1.0 / 0.0) := by
    let values (idx : NodeIdx) : Float := if idx = 1 then 1.0 else 0.0
    have earlier : ∀ child ∈ [1, 0],
        quotientByZero.value? ({} : Assignment Float) child = some (values child) :=
      List.forall_mem_cons.mpr
        ⟨value?_constant one, List.forall_mem_singleton.mpr (value?_constant zero)⟩
    exact (value?_operator wellFormed rfl earlier).trans rfl
  have reaches (idx : NodeIdx) (child : idx = 2 ∨ idx = 3) : quotientByZero.Reaches 4 idx :=
    reaches_child rfl (by simpa using child)
  have constants (options : EvalOptions) (lower : NodeIdx) (below : lower < 2)
      (error : EvalError Float) :
      ¬ quotientByZero.Offends ({} : Assignment Float) options lower error := by
    rcases lower with _ | _ | lower
    · exact not_offends_of_constant zero (by decide) error
    · exact not_offends_of_constant one (by decide) error
    · exact absurd below (Nat.not_lt_of_le (Nat.le_add_left 2 lower))
  obtain ⟨-, -, -, checked, -⟩ :=
    eval_meets_recursion built_quotientByZero inside ({} : Assignment Float) { checkFinite := true }
  obtain ⟨-, -, -, unchecked, -⟩ :=
    eval_meets_recursion built_quotientByZero inside ({} : Assignment Float)
      { checkFinite := false }
  have division : quotientByZero.kind? 2 = some (.operator .division [1, 0]) := rfl
  refine ⟨built_quotientByZero, inside, ?_, ?_⟩
  · exact checked 2 _ (reaches 2 (Or.inl rfl)) (.nonFinite division quotient rfl (by decide))
      fun lower _ below => constants _ lower below
  · refine unchecked 3 _ (reaches 3 (Or.inr rfl)) (.unbound rfl rfl) fun lower _ below other => ?_
    rcases Nat.lt_or_eq_of_le (Nat.le_of_lt_succ below) with below | rfl
    · exact constants _ lower below other
    · intro offends
      cases offends with
      | unbound leaf => cases leaf
      | nonFinite _ _ checks => cases checks

end Graph

end MixedInteger
