import Mathlib.Data.Nat.Find
import MixedInteger.Proofs.Expression.PlainRecursion

/-! # Values carried along

A quantity carries a value beside its derivatives. If the operations of a numeric
domain act on the values as the scalars do (`Numeric.CarriesValue`), then evaluation
in the domain finds a quantity that carries what plain evaluation finds. A quantity
may fail to be finite where its value is finite, so a check may end the evaluation in
the domain at an earlier node, but never at a later one. Quotients and powers may
have formulas of their own, which carry the value of some arguments only
(`Operator.KeepsValue`).
-/

namespace MixedInteger

variable {K A : Type}

/-- Whether the operations of a numeric domain, quotients and powers apart, act on the
values as the scalars do, and finite quantities carry finite values. -/
structure Numeric.CarriesValue (K A : Type) [Scalar K] [Numeric K A] : Prop where
  zero : value (0 : A) = (0 : K)
  constant : ∀ v : K, value (constant v : A) = v
  seed : ∀ (id : VariableId) (v : K), value (seed id v : A) = v
  neg : ∀ x : A, value (-x) = -value x
  add : ∀ x y : A, value (x + y) = value x + value y
  mul : ∀ x y : A, value (x * y) = value x * value y
  scale : ∀ (x : A) (factor : K), value (scale x factor) = value x * factor
  apply : ∀ (function : UnaryFunction) (x : A),
    value (apply function x) = Scalar.unary function (value x)
  isFinite : ∀ x : A, isFinite x = true → Scalar.isFinite (value x) = true

/-- Whether an operator carries the values of its arguments to the value of its
result. -/
def Operator.KeepsValue [Scalar K] [Numeric K A] : Operator K → List A → Prop
  | .division, [x, y] => Numeric.value (x / y) = Numeric.value x / Numeric.value y
  | .power, [x, y] =>
      Numeric.value (Numeric.power x y) = Scalar.power (Numeric.value x) (Numeric.value y)
  | _, _ => True

namespace Numeric.CarriesValue

variable [Scalar K] [Numeric K A]

/-- The value of a sum is the sum of the values. -/
theorem foldl_add (carries : CarriesValue K A) (args : List A) (total : A) :
    (args.map value).foldl (· + ·) (value total) = value (args.foldl (· + ·) total) := by
  induction args generalizing total with
  | nil => rfl
  | cons x args ih => rw [List.map_cons, List.foldl_cons, ← carries.add, ih, List.foldl_cons]

/-- The value of a linear combination is that of the values. -/
theorem foldl_scale (carries : CarriesValue K A) (args : List A) (coefficients : List K)
    (total : A) :
    ((args.map value).zip coefficients).foldl
        (fun total term => total + Numeric.scale term.1 term.2) (value total) =
      value ((args.zip coefficients).foldl
        (fun total term => total + Numeric.scale term.1 term.2) total) := by
  induction args generalizing total coefficients with
  | nil => rfl
  | cons x args ih =>
      cases coefficients with
      | nil => rfl
      | cons coefficient coefficients =>
          simp only [List.map_cons, List.zip_cons_cons, List.foldl_cons]
          have next : value total + Numeric.scale (value x) coefficient =
              value (total + Numeric.scale x coefficient) := by
            rw [carries.add, carries.scale]
            rfl
          rw [next, ih]

/-- The value of the result of an operator is the result of the values. -/
theorem apply_map (carries : CarriesValue K A) {op : Operator K} {args : List A}
    (keeps : op.KeepsValue args) {result : A} (applied : op.apply args = .ok result) :
    op.apply (args.map value) = .ok (value result) := by
  cases op with
  | sum =>
      cases args with
      | nil => cases applied
      | cons x args =>
          cases applied
          have total := carries.foldl_add (x :: args) 0
          rw [carries.zero] at total
          exact congrArg Except.ok total
  | linear coefficients offset =>
      simp only [Operator.apply, List.length_map] at applied ⊢
      split at applied
      · rename_i count
        cases applied
        have total := carries.foldl_scale args coefficients (Numeric.constant offset)
        rw [carries.constant] at total
        rw [if_pos count]
        exact congrArg Except.ok total
      · cases applied
  | negation =>
      rcases args with _ | ⟨x, _ | ⟨y, rest⟩⟩ <;> cases applied
      exact congrArg Except.ok (carries.neg x).symm
  | unary function =>
      rcases args with _ | ⟨x, _ | ⟨y, rest⟩⟩ <;> cases applied
      exact congrArg Except.ok (carries.apply function x).symm
  | product =>
      rcases args with _ | ⟨x, _ | ⟨y, _ | ⟨z, rest⟩⟩⟩ <;> cases applied
      exact congrArg Except.ok (carries.mul x y).symm
  | division =>
      rcases args with _ | ⟨x, _ | ⟨y, _ | ⟨z, rest⟩⟩⟩ <;> cases applied
      exact congrArg Except.ok keeps.symm
  | power =>
      rcases args with _ | ⟨x, _ | ⟨y, _ | ⟨z, rest⟩⟩⟩ <;> cases applied
      exact congrArg Except.ok keeps.symm

/-- An operator over the plain values has the plain result only where it keeps the
value. -/
theorem value_eq_iff (carries : CarriesValue K A) {op : Operator K} {args : List A} {result : A}
    {plain : K} (applied : op.apply args = .ok result)
    (plainApplied : op.apply (args.map value) = .ok plain) :
    value result = plain ↔ op.KeepsValue args := by
  refine ⟨fun same => ?_, fun keeps => ?_⟩
  · cases op with
    | division =>
        rcases args with _ | ⟨x, _ | ⟨y, _ | ⟨z, rest⟩⟩⟩ <;> cases applied
        cases plainApplied
        exact same
    | power =>
        rcases args with _ | ⟨x, _ | ⟨y, _ | ⟨z, rest⟩⟩⟩ <;> cases applied
        cases plainApplied
        exact same
    | negation | sum | linear | product | unary => trivial
  · exact Except.ok.inj ((carries.apply_map keeps applied).symm.trans plainApplied)

end Numeric.CarriesValue

/-- The assignment that makes every bound variable independent, with the holes of the
plain one. -/
def Assignment.withSeeds [Numeric K A] (plain : Assignment K) : Assignment A :=
  ⟨plain.entries.mapIdx fun id entry => entry.map (Numeric.seed id)⟩

/-- A seeded assignment binds what the plain one binds. -/
theorem Assignment.get?_withSeeds [Numeric K A] (plain : Assignment K) (id : VariableId) :
    (plain.withSeeds : Assignment A).get? id = (plain.get? id).map (Numeric.seed id) := by
  simp only [get?, withSeeds, Array.getElem?_mapIdx]
  cases plain.entries[id]? with
  | none => rfl
  | some entry => rfl

/-- With every variable bound these are the independent variables of a point. -/
theorem Assignment.withSeeds_ofList [Numeric K A] (point : List K) :
    (ofList point).withSeeds = (seeded point : Assignment A) := by
  rw [withSeeds, seeded, ofList, ofList, List.mapIdx_toArray]
  congr 2
  refine List.ext_getElem? fun id => ?_
  simp only [List.getElem?_mapIdx, List.getElem?_map, List.getElem?_zipIdx, Option.map_map]
  cases point[id]? with
  | none => rfl
  | some value => simp

/-- The node that an error of an evaluation names. -/
def EvalError.node : EvalError K → NodeIdx
  | unboundVariable _ node => node
  | nonFinite node _ _ => node

namespace Graph

section Offenders

variable [Numeric K A] {graph : Graph K} {root idx : NodeIdx} {assignment : Assignment A}
  {options : EvalOptions}

/-- An operator has no value if one of its children has none. -/
theorem value?_operator_eq_none (wellFormed : graph.WellFormed) {op : Operator K}
    {children : List NodeIdx} (known : graph.kind? idx = some (.operator op children))
    {child : NodeIdx} (member : child ∈ children) (absent : graph.value? assignment child = none) :
    graph.value? assignment idx = none := by
  have unfolded := @interpret_operator K (Option A) graph idx ⟨none⟩
    (.partialValues assignment) wellFormed op children known
  refine unfolded.trans ?_
  change ((children.map (graph.value? assignment)).mapM fun value => value).bind _ = _
  suffices missing : (children.map (graph.value? assignment)).mapM (fun value => value) = none by
    rw [missing]
    rfl
  clear known unfolded
  induction children with
  | nil => cases member
  | cons first rest ih =>
      rw [List.map_cons, List.mapM_cons]
      rcases List.mem_cons.mp member with rfl | member
      · rw [absent]
        rfl
      · rw [ih member]
        cases graph.value? assignment first <;> rfl

/-- An error names the node that gives rise to it. -/
theorem Offends.node_eq {error : EvalError K}
    (offends : graph.Offends assignment options idx error) : error.node = idx := by
  cases offends with
  | unbound => rfl
  | nonFinite => rfl

/-- Evaluation finds the value of the root where no node gives rise to an error, or it
ends at the first one that does. -/
theorem eval_cases (wellFormed : graph.WellFormed) (inside : root < graph.size)
    (assignment : Assignment A) (options : EvalOptions) :
    ((∀ idx, graph.Reaches root idx → ∀ error, ¬ graph.Offends assignment options idx error) ∧
      graph.value? assignment root = some (graph.knownValue assignment root) ∧
      graph.eval root assignment options = .ok (graph.knownValue assignment root)) ∨
    ∃ idx error, graph.Reaches root idx ∧ graph.Offends assignment options idx error ∧
      (∀ lower, graph.Reaches root lower → lower < idx →
        ∀ other, ¬ graph.Offends assignment options lower other) ∧
      graph.eval root assignment options = .error (.error error) := by
  classical
  by_cases blamed : ∃ idx, graph.Reaches root idx ∧ ∃ error,
      graph.Offends assignment options idx error
  · obtain ⟨reaches, error, offends⟩ := Nat.find_spec blamed
    have first : ∀ lower, graph.Reaches root lower → lower < Nat.find blamed →
        ∀ other, ¬ graph.Offends assignment options lower other :=
      fun lower below less other offends => Nat.find_min blamed less ⟨below, other, offends⟩
    exact .inr ⟨_, error, reaches, offends, first,
      eval_eq_error_of_first wellFormed inside first reaches offends⟩
  · have blameless : ∀ idx, graph.Reaches root idx →
        ∀ error, ¬ graph.Offends assignment options idx error :=
      fun idx reaches error offends => blamed ⟨idx, reaches, error, offends⟩
    exact .inl ⟨blameless, eval_eq_ok_of_blameless wellFormed inside blameless⟩

section Bound

variable (wellFormed : graph.WellFormed) (inside : root < graph.size)
  (bound : ∀ id, graph.Occurs root id → assignment.get? id ≠ none)
include wellFormed inside bound

/-- Without checks every node below a root whose variables are bound has a value. -/
theorem eval_eq_ok_knownValue (reaches : graph.Reaches root idx) :
    graph.value? assignment idx = some (graph.knownValue assignment idx) ∧
      graph.eval idx assignment { checkFinite := false } =
        .ok (graph.knownValue assignment idx) := by
  refine eval_eq_ok_of_blameless wellFormed
    (Nat.lt_of_le_of_lt (reaches.le wellFormed) inside) fun lower below error offends => ?_
  cases offends with
  | @unbound id leaf absent => exact bound id ⟨lower, reaches.trans below, leaf⟩ absent
  | nonFinite _ _ checked => cases checked

/-- Without checks all children of a node have values. -/
theorem mapM_eval_eq_ok_knownValue (reaches : graph.Reaches root idx) {op : Operator K}
    {children : List NodeIdx} (known : graph.kind? idx = some (.operator op children)) :
    children.mapM (fun child => graph.eval child assignment { checkFinite := false }) =
      .ok (children.map (graph.knownValue assignment)) :=
  Outcome.mapM_eq_ok_map fun _ member =>
    (eval_eq_ok_knownValue wellFormed inside bound (reaches.trans (reaches_child known member))).2

/-- The value of an operator comes from those of its children. -/
theorem apply_knownValue (reaches : graph.Reaches root idx) {op : Operator K}
    {children : List NodeIdx} (known : graph.kind? idx = some (.operator op children)) :
    op.apply (children.map (graph.knownValue assignment)) =
      .ok (graph.knownValue assignment idx) := by
  have valued := (eval_eq_ok_knownValue wellFormed inside bound reaches).1
  rw [value?_operator wellFormed known fun child member =>
    (eval_eq_ok_knownValue wellFormed inside bound
      (reaches.trans (reaches_child known member))).1] at valued
  cases applied : op.apply (children.map (graph.knownValue assignment)) with
  | error broken =>
      rw [applied] at valued
      cases valued
  | ok value =>
      rw [applied] at valued
      exact congrArg Except.ok (Option.some.inj valued)

end Bound

end Offenders

section Carried

variable [Scalar K] [Numeric K A] {graph : Graph K} {root idx : NodeIdx} {plain : Assignment K}
  {options : EvalOptions}

/-- Whether every operator below a root carries the values of its arguments to the
value of its result, where its children have values. -/
def KeepsValues (graph : Graph K) (root : NodeIdx) (assignment : Assignment A) : Prop :=
  ∀ idx op children, graph.Reaches root idx → graph.kind? idx = some (.operator op children) →
    (∀ child ∈ children, graph.value? assignment child =
      some (graph.knownValue assignment child)) →
    op.KeepsValue (children.map (graph.knownValue assignment))

variable (carries : Numeric.CarriesValue K A) (wellFormed : graph.WellFormed)
  (inside : root < graph.size) (keeps : graph.KeepsValues root (plain.withSeeds : Assignment A))
include carries wellFormed inside keeps

/-- The quantity of a node carries its plain value. -/
theorem value?_plain (reaches : graph.Reaches root idx) :
    graph.value? plain idx =
      (graph.value? (plain.withSeeds : Assignment A) idx).map Numeric.value := by
  refine wellFormed.induction inside (motive := fun idx => graph.value? plain idx =
    (graph.value? (plain.withSeeds : Assignment A) idx).map Numeric.value) ?_ ?_ ?_ reaches
  · intro idx id below known
    rw [value?_leaf known, value?_leaf known, Assignment.get?_withSeeds, Option.map_map]
    cases plain.get? id with
    | none => rfl
    | some value => exact congrArg some (carries.seed id value).symm
  · intro idx value below known
    rw [value?_constant known, value?_constant known, Option.map_some, carries.constant]
    rfl
  · intro idx op children below known each
    by_cases valued : ∀ child ∈ children, graph.value? (plain.withSeeds : Assignment A) child =
        some (graph.knownValue plain.withSeeds child)
    · have plainValued : ∀ child ∈ children, graph.value? plain child =
          some (Numeric.value (graph.knownValue (plain.withSeeds : Assignment A) child)) := by
        intro child member
        rw [each child member, valued child member]
        rfl
      obtain ⟨node, held, kind⟩ := exists_node_of_kind? known
      have formed := wellFormed.arity held
      rw [kind] at formed
      obtain ⟨result, applied⟩ := Operator.exists_apply_eq_ok formed
        (List.length_map (graph.knownValue (plain.withSeeds : Assignment A)))
      have plainApplied := carries.apply_map (keeps idx op children below known valued) applied
      rw [List.map_map] at plainApplied
      rw [value?_operator wellFormed known valued, applied,
        value?_operator wellFormed known plainValued]
      exact congrArg Except.toOption plainApplied
    · simp only [not_forall, exists_prop] at valued
      obtain ⟨child, member, differs⟩ := valued
      have absent : graph.value? (plain.withSeeds : Assignment A) child = none := by
        cases found : graph.value? (plain.withSeeds : Assignment A) child with
        | none => rfl
        | some value =>
            rw [found, knownValue, found] at differs
            exact absurd rfl differs
      have plainAbsent : graph.value? plain child = none := by
        rw [each child member, absent]
        rfl
      rw [value?_operator_eq_none wellFormed known member absent,
        value?_operator_eq_none wellFormed known member plainAbsent]
      rfl

/-- A node that gives rise to an error plainly does so in the domain. -/
theorem exists_offends_withSeeds (reaches : graph.Reaches root idx) {error : EvalError K}
    (offends : graph.Offends plain options idx error) :
    ∃ other, graph.Offends (plain.withSeeds : Assignment A) options idx other := by
  cases offends with
  | unbound leaf absent =>
      exact ⟨_, .unbound leaf (by rw [Assignment.get?_withSeeds, absent]; rfl)⟩
  | @nonFinite kind value known found checked infinite =>
      rw [value?_plain carries wellFormed inside keeps reaches] at found
      obtain ⟨quantity, carried, rfl⟩ := Option.map_eq_some_iff.mp found
      refine ⟨_, .nonFinite known carried checked ?_⟩
      refine Bool.eq_false_iff.mpr fun finite => ?_
      cases infinite.symm.trans (carries.isFinite quantity finite)

/-- What evaluation finds in the domain carries what plain evaluation finds. -/
theorem eval_plain_of_eval_eq_ok {quantity : A}
    (found : graph.eval root plain.withSeeds options = .ok quantity) :
    graph.eval root plain options = .ok (Numeric.value quantity) := by
  obtain ⟨blameless, valued, evaluated⟩ | ⟨idx, error, -, -, -, failed⟩ :=
    eval_cases wellFormed inside (plain.withSeeds : Assignment A) options
  · cases found.symm.trans evaluated
    have plainBlameless : ∀ idx, graph.Reaches root idx →
        ∀ error, ¬ graph.Offends plain options idx error := by
      intro idx reaches error offends
      obtain ⟨other, offends⟩ :=
        exists_offends_withSeeds carries wellFormed inside keeps reaches offends
      exact blameless idx reaches other offends
    obtain ⟨plainValued, plainEvaluated⟩ := eval_eq_ok_of_blameless wellFormed inside plainBlameless
    rw [value?_plain carries wellFormed inside keeps .refl, valued] at plainValued
    rw [plainEvaluated, ← Option.some.inj plainValued]
  · cases found.symm.trans failed

/-- Where plain evaluation fails, evaluation in the domain fails at the same node or at
an earlier one. -/
theorem exists_earlier_error {fault : Fault (EvalError K)}
    (failed : graph.eval root plain options = .error fault) :
    ∃ error earlier, fault = .error error ∧
      graph.eval root (plain.withSeeds : Assignment A) options = .error (.error earlier) ∧
      graph.Reaches root error.node ∧ graph.Reaches root earlier.node ∧
      earlier.node ≤ error.node := by
  obtain ⟨-, -, evaluated⟩ | ⟨idx, error, reaches, offends, -, plainFailed⟩ :=
    eval_cases wellFormed inside plain options
  · cases failed.symm.trans evaluated
  · cases failed.symm.trans plainFailed
    obtain ⟨other, blamed⟩ :=
      exists_offends_withSeeds carries wellFormed inside keeps reaches offends
    obtain ⟨blameless, -, -⟩ | ⟨first, earlier, below, firstOffends, before, firstFailed⟩ :=
      eval_cases wellFormed inside (plain.withSeeds : Assignment A) options
    · exact absurd blamed (blameless idx reaches other)
    · refine ⟨error, earlier, rfl, firstFailed, ?_, ?_, ?_⟩
      · rwa [offends.node_eq]
      · rwa [firstOffends.node_eq]
      · rw [offends.node_eq, firstOffends.node_eq]
        exact Nat.le_of_not_lt fun less => before idx reaches less other blamed

/-- Without checks both evaluations meet the same unbound variable, or both succeed. -/
theorem eval_unchecked_cases :
    (∃ id node, graph.eval root (plain.withSeeds : Assignment A) { checkFinite := false } =
        .error (.error (.unboundVariable id node)) ∧
      graph.eval root plain { checkFinite := false } =
        .error (.error (.unboundVariable id node))) ∨
    ∃ quantity : A, graph.eval root plain.withSeeds { checkFinite := false } = .ok quantity ∧
      graph.eval root plain { checkFinite := false } = .ok (Numeric.value quantity) := by
  obtain ⟨-, -, evaluated⟩ | ⟨idx, error, reaches, offends, before, failed⟩ :=
    eval_cases wellFormed inside (plain.withSeeds : Assignment A) { checkFinite := false }
  · exact .inr ⟨_, evaluated, eval_plain_of_eval_eq_ok carries wellFormed inside keeps evaluated⟩
  · cases offends with
    | nonFinite _ _ checked => cases checked
    | @unbound id leaf absent =>
        rw [Assignment.get?_withSeeds, Option.map_eq_none_iff] at absent
        refine .inl ⟨id, idx, failed, eval_eq_error_of_first wellFormed inside ?_ reaches
          (.unbound leaf absent)⟩
        intro lower below less other offends
        obtain ⟨same, blamed⟩ :=
          exists_offends_withSeeds carries wellFormed inside keeps below offends
        exact before lower below less same blamed

end Carried

end Graph

end MixedInteger
