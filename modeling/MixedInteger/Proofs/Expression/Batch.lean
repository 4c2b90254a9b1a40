import Mathlib.Data.List.Forall2
import MixedInteger.Proofs.Expression.Compilation
import MixedInteger.Proofs.Expression.PlainRecursion

/-! # Batches

A batch runs one tape at many points and keeps its buffers from one point to the next. A run
empties the buffers before it uses them, so what it computes does not depend on what it finds
there (`Tape.run_of_runIn`), and a batch gives the values that the graph has at each of its
points, or the error of the first point that has one (`Graph.evalRows_pointwise`).
-/

namespace MixedInteger

variable {K A : Type}

/-- One point of a batch. A variable without a column is unbound. -/
def PointBatch.assignment (batch : PointBatch K) (point : Nat) : Assignment K :=
  ⟨(batch.columns.map fun column => column[point]?).toArray⟩

/-- A point of a batch binds the variables to the entries of its row. -/
theorem PointBatch.get?_assignment (batch : PointBatch K) (point : Nat) :
    (batch.assignment point).get? = batch.entry? point := by
  funext id
  simp only [Assignment.get?, assignment, entry?, List.getElem?_toArray, List.getElem?_map]
  cases batch.columns[id]? <;> rfl

namespace Outcome

variable {ε β : Type} {f : Nat → Except ε β} {count : Nat}

/-- A traversal of a range finds one value at each number. -/
theorem mapM_range_eq_ok_iff {values : List β} :
    (List.range count).mapM f = .ok values ↔ values.length = count ∧
      ∀ point value, values[point]? = some value → f point = .ok value := by
  simp only [mapM_eq_ok_iff, List.forall₂_iff_get, List.length_range, List.get_eq_getElem,
    List.getElem_range]
  constructor
  · rintro ⟨size, each⟩
    refine ⟨size.symm, fun point value found => ?_⟩
    obtain ⟨inside, rfl⟩ := List.getElem?_eq_some_iff.mp found
    exact each point (size ▸ inside) inside
  · rintro ⟨size, each⟩
    exact ⟨size.symm, fun point _ inside => each point _ (List.getElem?_eq_getElem inside)⟩

/-- A traversal of a range fails as it does at the first number at which it fails. -/
theorem mapM_range_eq_error_iff {e : ε} :
    (List.range count).mapM f = .error e ↔ ∃ point, point < count ∧ f point = .error e ∧
      ∀ earlier, earlier < point → ∃ value, f earlier = .ok value := by
  rw [mapM_eq_error_iff]
  constructor
  · rintro ⟨before, point, after, split, failed, succeeded⟩
    have found : (List.range count)[before.length]? = some point := by
      rw [split, List.getElem?_append_right (Nat.le_refl _), Nat.sub_self]
      rfl
    obtain ⟨bound, here⟩ := List.getElem?_eq_some_iff.mp found
    rw [List.getElem_range] at here
    rw [List.length_range] at bound
    subst here
    have first : before = List.range before.length := by
      have taken := congrArg (List.take before.length) split
      rwa [List.take_range, Nat.min_eq_left (Nat.le_of_lt bound), List.take_left, eq_comm] at taken
    refine ⟨before.length, bound, failed, fun earlier lower => succeeded earlier ?_⟩
    rw [first]
    exact List.mem_range.mpr lower
  · rintro ⟨point, bound, failed, succeeded⟩
    obtain ⟨later, rfl⟩ := Nat.exists_eq_add_of_lt bound
    refine ⟨List.range point, point, (List.range later).map fun distance => point + (distance + 1),
      ?_, failed, fun earlier member => succeeded earlier (List.mem_range.mp member)⟩
    rw [Nat.add_assoc, List.range_add, List.range_succ_eq_map, List.map_cons, List.map_map]
    rfl

end Outcome

namespace Tape

variable [Numeric K A] {tape : Tape K} {lookup : VariableId → Option A} {options : EvalOptions}

/-- Loading an instruction reads its arguments into the emptied buffer. -/
theorem load_eq (scratch : Scratch A) (instruction : Instruction K) :
    tape.load lookup options scratch instruction =
      (instruction.args.mapM (tape.read lookup options scratch.slots instruction.origin)).map
        fun args => { scratch with args := args.toArray } := by
  have emptied : scratch.args.shrink 0 = #[] := Array.eq_empty_of_size_eq_zero (by simp)
  unfold load
  change (instruction.args.foldlM (fun args operand =>
    tape.read lookup options scratch.slots instruction.origin operand >>= fun value =>
      .ok (args.push value)) (scratch.args.shrink 0)) >>= _ = _
  rw [emptied, Outcome.foldlM_push]
  cases instruction.args.mapM (tape.read lookup options scratch.slots instruction.origin) with
  | error fault => rfl
  | ok args => simp [Except.map, bind, Except.bind, pure, Except.pure]

/-- A step in the buffers does to the slots what a step does to slots of its own. -/
theorem step_of_stepIn (scratch : Scratch A) (instruction : Instruction K) :
    (tape.stepIn lookup options scratch instruction).map Scratch.slots =
      tape.step lookup options scratch.slots instruction := by
  unfold stepIn step
  rw [load_eq]
  cases instruction.args.mapM (tape.read lookup options scratch.slots instruction.origin) with
  | error fault => rfl
  | ok args =>
      change (Fault.contract (instruction.operator.apply args) >>= _).map _ =
        Fault.contract (instruction.operator.apply args) >>= _
      rw [Outcome.map_bind]
      refine bind_congr fun result => ?_
      rw [Outcome.map_bind]
      refine bind_congr fun value => ?_
      dsimp only
      split <;> rfl

/-- What a run finds in the buffers makes no difference to what it computes. -/
theorem run_of_runIn (scratch : Scratch A) :
    (tape.runIn lookup options scratch).map Prod.fst = tape.run lookup options := by
  have emptied : scratch.slots.shrink 0 = #[] := Array.eq_empty_of_size_eq_zero (by simp)
  unfold runIn run
  rw [emptied, Array.empty_append, Outcome.map_bind,
    ← Outcome.map_foldlM step_of_stepIn tape.instructions.toList
      { scratch with slots := Array.replicate tape.slotCount 0 }]
  cases tape.instructions.toList.foldlM (tape.stepIn lookup options) _ with
  | error fault => rfl
  | ok final =>
      change (tape.read lookup options final.slots tape.rootOrigin tape.root >>= _).map _ =
        tape.read lookup options final.slots tape.rootOrigin tape.root
      cases tape.read lookup options final.slots tape.rootOrigin tape.root <;> rfl

/-- A batch evaluates its points one by one. -/
theorem evalRows_eq [Scalar K] (tape : Tape K) (batch : PointBatch K) (options : EvalOptions) :
    tape.evalRows batch options =
      (List.range batch.count).mapM fun point => tape.eval (batch.assignment point) options := by
  refine Outcome.run'_mapM (fun point scratch => ?_) _ _
  rw [run_of_runIn, eval, PointBatch.get?_assignment]

end Tape

namespace Graph

variable {graph : Graph K} {root : NodeIdx}

/-- **A batch is evaluated point by point.** A batch ends with the fault of the first point at
which the tape has one. A variable is bound at a point to the entry of its column there, and is
unbound if it has no column. The buffers that the points share make no difference: whatever a run
finds in them, it computes what a run in new ones does. If no node is a child more than `2 ^ 32`
times below the root and fewer than `2 ^ 32` values are kept at once, the tape has plain
values at all points of a batch exactly when the graph has, and then they are the values of
the graph, in the order of the points, and whatever it ends with otherwise is an error that the
tape reports. -/
theorem evalRows_pointwise [Scalar K] (built : graph.Built) (inside : root < graph.size)
    (variableCount : Nat) :
    ∃ tape, graph.compile root variableCount = .ok tape ∧
      ∀ (batch : PointBatch K) (options : EvalOptions),
        (∀ fault, tape.evalRows batch options = .error fault ↔
          ∃ point, point < batch.count ∧
            tape.eval (batch.assignment point) options = .error fault ∧
            ∀ earlier, earlier < point →
              ∃ value, tape.eval (batch.assignment earlier) options = .ok value) ∧
        (∀ point id, (batch.assignment point).get? id =
          (batch.columns[id]?).bind fun column => column[point]?) ∧
        (∀ point (scratch : Scratch K),
          (tape.runIn (batch.assignment point).get? options scratch).map Prod.fst =
            tape.eval (batch.assignment point) options) ∧
        (graph.FitsWords root →
          ((∃ values, tape.evalRows batch options = .ok values) ↔
            ∀ point, point < batch.count →
              ∃ value, graph.eval root (batch.assignment point) options = .ok value) ∧
          (∀ values, tape.evalRows batch options = .ok values → values.length = batch.count ∧
            ∀ point value, values[point]? = some value →
              graph.eval root (batch.assignment point) options = .ok value) ∧
          ∀ fault, tape.evalRows batch options = .error fault → ∃ error, fault = .error error) := by
  have wellFormed := built.wellFormed
  obtain ⟨tape, compiled, -⟩ := exists_compile wellFormed inside variableCount
  refine ⟨tape, compiled, fun batch options => ?_⟩
  have failing (fault : Fault (EvalError K)) : tape.evalRows batch options = .error fault ↔
      ∃ point, point < batch.count ∧ tape.eval (batch.assignment point) options = .error fault ∧
        ∀ earlier, earlier < point →
          ∃ value, tape.eval (batch.assignment earlier) options = .ok value := by
    rw [Tape.evalRows_eq, Outcome.mapM_range_eq_error_iff]
  refine ⟨failing, fun point id => congrFun (batch.get?_assignment point) id,
    fun point scratch => Tape.run_of_runIn scratch, fun fits => ?_⟩
  have same (point : Nat) (value : K) : tape.eval (batch.assignment point) options = .ok value ↔
      graph.eval root (batch.assignment point) options = .ok value :=
    tape_eval_eq_ok_iff wellFormed inside fits compiled
  have found (values : List K) : tape.evalRows batch options = .ok values ↔
      values.length = batch.count ∧ ∀ point value, values[point]? = some value →
        graph.eval root (batch.assignment point) options = .ok value := by
    simp only [Tape.evalRows_eq, Outcome.mapM_range_eq_ok_iff, same]
  refine ⟨⟨?_, fun each => ?_⟩, fun values => (found values).mp, fun fault failed => ?_⟩
  · rintro ⟨values, evaluated⟩ point bound
    obtain ⟨size, each⟩ := (found values).mp evaluated
    exact ⟨_, each point _ (List.getElem?_eq_getElem (size ▸ bound))⟩
  · rw [Tape.evalRows_eq]
    refine Outcome.exists_mapM_eq_ok fun point member => ?_
    obtain ⟨value, evaluated⟩ := each point (List.mem_range.mp member)
    exact ⟨value, (same point value).mpr evaluated⟩
  · obtain ⟨point, -, failed, -⟩ := (failing fault).mp failed
    exact exists_error_of_tape_eval wellFormed inside fits compiled failed

/-- **Beyond words a batch and the graph disagree.** At the one point of a batch, one use more
than a word can count makes another value of the sum than the graph has, and one value more than
a word can count leaves the batch without a value. -/
theorem evalRows_beyond_words :
    ((overused 4294967297).Built ∧ 4 < (overused 4294967297).size ∧
      ∃ tape : Tape Float, (overused 4294967297).compile 4 0 = .ok tape ∧
        tape.evalRows ⟨[], 1⟩ { checkFinite := false } = .ok [4.0] ∧
        (overused 4294967297).eval 4 (PointBatch.assignment (K := Float) ⟨[], 1⟩ 0)
          { checkFinite := false } = .ok 3.0 ∧ (4.0 : Float) ≠ 3.0) ∧
    (crowded 4294967295).Built ∧ 4294967295 < (crowded 4294967295).size ∧
      ∃ (tape : Tape Float) (value : Float),
        (crowded 4294967295).compile 4294967295 0 = .ok tape ∧
        (crowded 4294967295).eval 4294967295 (PointBatch.assignment (K := Float) ⟨[], 1⟩ 0)
          { checkFinite := false } = .ok value ∧
        ∀ values, tape.evalRows ⟨[], 1⟩ { checkFinite := false } ≠ .ok values := by
  have used : 0 < 4294967297 := by decide
  have positive : 0 < 4294967295 := by decide
  have full : 4294967295 + 1 = 2 ^ 32 := by decide
  have fits : 4294967295 < 2 ^ 32 := by decide
  refine ⟨?_, ?_⟩
  · obtain ⟨built, size, -⟩ := built_overused used
    refine ⟨built, size ▸ by decide, _, compile_overused rfl, ?_, eval_overused used, by decide⟩
    rw [Tape.evalRows_eq]
    exact Outcome.mapM_eq_ok_map (g := fun _ => (4.0 : Float)) fun _ member => by
      rw [List.mem_singleton.mp member]
      exact eval_overusedTape used
  · obtain ⟨built, size, -⟩ := built_crowded positive fits
    obtain ⟨tape, compiled, -, fails⟩ := compile_crowded positive full
    obtain ⟨value, evaluated⟩ := eval_crowded positive fits
    refine ⟨built, size ▸ by decide, tape, value, compiled, evaluated, fun values found => ?_⟩
    rw [Tape.evalRows_eq] at found
    obtain ⟨first, there⟩ := Outcome.ok_of_mapM_eq_ok found (List.mem_singleton_self 0)
    exact fails _ _ first there

/-- The shared expression has values where its variable has a column. Without the column it has
none at any point. -/
theorem evalRows_pointwise_sharedExponential :
    sharedExponential.Built ∧ 3 < sharedExponential.size ∧ sharedExponential.FitsWords 3 ∧
      ∃ tape values error, sharedExponential.compile 3 0 = .ok tape ∧
        tape.evalRows ⟨[[0.5, 1.0]], 2⟩ { checkFinite := false } = .ok values ∧
        values.length = 2 ∧
        (∀ value, values[1]? = some value →
          sharedExponential.eval 3 (Assignment.ofList [(1.0 : Float)]) { checkFinite := false } =
            .ok value) ∧
        tape.evalRows ⟨[], 2⟩ { checkFinite := false } = .error (.error error) := by
  have inside : 3 < sharedExponential.size := by decide
  have wellFormed := built_sharedExponential.wellFormed
  obtain ⟨tape, compiled, evaluates⟩ := evalRows_pointwise built_sharedExponential inside 0
  obtain ⟨-, -, -, fitting⟩ := evaluates ⟨[[0.5, 1.0]], 2⟩ { checkFinite := false }
  obtain ⟨⟨-, full⟩, values, -⟩ := fitting fitsWords_sharedExponential
  obtain ⟨-, -, -, fitting⟩ := evaluates ⟨[], 2⟩ { checkFinite := false }
  obtain ⟨⟨empty, -⟩, -, reported⟩ := fitting fitsWords_sharedExponential
  have bound : ∀ point, point < 2 → ∀ id, sharedExponential.Occurs 3 id →
      (PointBatch.assignment ⟨[[0.5, 1.0]], 2⟩ point).get? id =
        some ([(0.5 : Float), 1.0].getD point 0) := by
    rintro point inside id ⟨idx, -, known⟩
    rcases idx with _ | _ | _ | _ | idx <;> cases known
    rcases point with _ | _ | point
    · rfl
    · rfl
    · exact absurd inside (by simp)
  obtain ⟨results, evaluated⟩ := full fun point before =>
    ⟨_, eval_eq_interpret wellFormed inside (bound point before)⟩
  obtain ⟨size, each⟩ := values results evaluated
  have unbound : sharedExponential.eval 3 (PointBatch.assignment (K := Float) ⟨[], 2⟩ 0)
      { checkFinite := false } = .error (.error (.unboundVariable 0 0)) := by
    have exponential : sharedExponential.Reaches 3 1 := reaches_child rfl (by simp)
    have below : sharedExponential.Reaches 3 0 := exponential.trans (reaches_child rfl (by simp))
    exact eval_eq_error_of_first wellFormed inside
      (fun lower _ less => absurd less lower.not_lt_zero) below (.unbound rfl rfl)
  cases outcome : tape.evalRows ⟨[], 2⟩ { checkFinite := false } with
  | ok others =>
      obtain ⟨value, found⟩ := empty ⟨others, outcome⟩ 0 (by simp)
      cases unbound.symm.trans found
  | error fault =>
      obtain ⟨error, rfl⟩ := reported fault outcome
      exact ⟨built_sharedExponential, inside, fitsWords_sharedExponential, tape, results, error,
        compiled, evaluated, size, each 1, outcome⟩

end Graph

end MixedInteger
