import MixedInteger.Derivative.SecondOrder
import MixedInteger.Proofs.Expression.DeferredEvaluation
import MixedInteger.Proofs.Expression.SlotAllocation
import MixedInteger.Proofs.Expression.WordOverflow

/-! # Running a tape

A tape computes what evaluation computes, if words can count the uses of a value and the
values kept at once. Its instructions are the operators of the subtree in order, and as long as
a value is needed the slot it was written to is not written again, so running a tape is the
same as evaluating with one place for each node and with leaves looked at when they are read
(`Graph.run_eq_evalDeferred`). The root therefore has a value on the tape exactly
when it has one in the graph, and the values are the same
(`Graph.compile_refines_eval`).
-/

namespace MixedInteger

variable {K A : Type}

namespace Layout

variable {layout next : Layout K} {graph : Graph K} {root : NodeIdx} {before uses : List NodeIdx}

/-- Whether scratch slots hold the values that are still needed. -/
def Stores (layout : Layout K) (root : NodeIdx) (uses : List NodeIdx) (values : NodeIdx → A)
    (slots : Array A) : Prop :=
  ∀ idx slot, layout.Holds root uses idx slot → slots[slot.toNat]? = some (values idx)

/-- Writing the result of an instruction stores the values that are needed
afterwards. -/
theorem Emits.stores {instruction : Instruction K} {remaining : List NodeIdx} {slots : Array A}
    {values : NodeIdx → A} (emits : layout.Emits next root uses remaining instruction)
    (stores : layout.Stores root uses values slots)
    (inside : instruction.destination.toNat < slots.size) (value : A) :
    next.Stores root remaining (Function.update values instruction.origin value)
      (slots.setIfInBounds instruction.destination.toNat value) := by
  intro idx slot holds
  rcases emits.held idx slot holds with ⟨rfl, rfl⟩ | ⟨other, old⟩
  · rw [Array.getElem?_setIfInBounds_self_of_lt inside, Function.update_self]
  · have elsewhere : instruction.destination.toNat ≠ slot.toNat := fun same => by
      cases UInt32.toNat_inj.mp same
      exact emits.destination_free idx old
    rw [Array.getElem?_setIfInBounds_ne elsewhere, Function.update_of_ne other, stores idx slot old]

variable [Numeric K A] {lookup : VariableId → Option A} {options : EvalOptions}

/-- Reading an operand finds what reading its node finds. -/
theorem Accounts.read_eq_fetch {tape : Tape K} {slots : Array A} {values : NodeIdx → A}
    (accounts : layout.Accounts graph root before uses)
    (constants : layout.KeepsConstants tape.constants)
    (stores : layout.Stores root uses values slots) {idx : NodeIdx} (visited : idx ∈ before)
    (needed : idx ∈ uses ∨ idx = root) {operand : Operand}
    (found : layout.operands[idx]? = some (some operand)) (origin : NodeIdx) :
    tape.read lookup options slots origin operand =
      graph.fetch lookup options values origin idx := by
  obtain ⟨located, same, locates⟩ := accounts.located idx visited
  cases Option.some.inj (Option.some.inj (found.symm.trans same))
  unfold Locates at locates
  unfold Graph.fetch
  cases known : graph.kind? idx with
  | none =>
      rw [known] at locates
      exact locates.elim
  | some kind =>
      rw [known] at locates
      cases kind with
      | leaf id =>
          cases locates
          rfl
      | constant value =>
          obtain ⟨index, rfl, entry⟩ := locates
          simp only [Tape.read, constants index _ entry]
      | operator op children =>
          obtain ⟨slot, rfl⟩ := locates
          simp only [Tape.read, stores idx slot ⟨found, needed⟩]

/-- An instruction computes the value of its operator from the slots, and writes
it to a slot that exists. -/
theorem Accounts.step_eq {tape : Tape K} {slots : Array A} {values : NodeIdx → A} {idx : NodeIdx}
    {op : Operator K} {children remaining : List NodeIdx} {args : List Operand}
    (accounts : layout.Accounts graph root before (children ++ remaining))
    (constants : layout.KeepsConstants tape.constants)
    (stores : layout.Stores root (children ++ remaining) values slots)
    (earlier : ∀ child ∈ children, child ∈ before)
    (read : children.mapM (visited layout.operands) = .ok args) {destination : UInt32}
    (inside : destination.toNat < slots.size) :
    tape.step lookup options slots ⟨op, args, destination, idx⟩ =
      graph.operatorValue lookup options values op children idx >>= fun value =>
        .ok (slots.setIfInBounds destination.toNat value) := by
  have operands : args.mapM (tape.read lookup options slots idx) =
      children.mapM (graph.fetch lookup options values idx) := by
    refine Outcome.mapM_mapM_of_ok read fun child member operand found => ?_
    exact accounts.read_eq_fetch constants stores (earlier child member)
      (Or.inl (List.mem_append_left _ member)) (visited_eq_ok_iff.mp found) idx
  unfold Tape.step Graph.operatorValue
  dsimp only
  rw [operands]
  simp only [inside, ↓reduceIte, bind_assoc]
  rfl

end Layout

namespace Graph

open Layout

variable [Numeric K A] {graph : Graph K} {root : NodeIdx} {order : List NodeIdx}
  {lookup : VariableId → Option A} {options : EvalOptions}

/-- Running the instructions of the rest of an order, and then reading the root,
computes what deferred evaluation computes from the same values. -/
theorem run_visits_eq (wellFormed : graph.WellFormed) (inside : root < graph.size)
    (valid : graph.EvaluationOrder root order) (peak : graph.peakOf order < 2 ^ 32)
    {final : Layout K} (tape : Tape K)
    (constants : tape.constants = final.constants)
    (rootFound : final.operands[root]? = some (some tape.root)) {before after : List NodeIdx}
    (split : order = before ++ after) {layout : Layout K} {values : NodeIdx → A} {slots : Array A}
    (accounts : layout.Accounts graph root before (graph.usesOf after))
    (visits : after.foldlM (Layout.visit graph) layout = .ok final)
    (size : slots.size = final.slotCount.toNat)
    (stores : layout.Stores root (graph.usesOf after) values slots) :
    ∃ emitted, final.instructions.toList = layout.instructions.toList ++ emitted ∧
      (emitted.foldlM (tape.step lookup options) slots >>= fun slots =>
        tape.read lookup options slots root tape.root) =
        graph.evalDeferredFrom root lookup options after values := by
  induction after generalizing before layout values slots with
  | nil =>
      cases visits
      rw [List.append_nil] at split
      subst split
      refine ⟨[], (List.append_nil _).symm, ?_⟩
      exact accounts.read_eq_fetch (fun _ _ found => constants ▸ found) stores valid.root_mem
        (Or.inr rfl) rootFound root
  | cons idx after ih =>
      obtain ⟨next, visited, -, kept, advances⟩ := accounts.visit wellFormed valid split inside
        (room_of_peak_lt wellFormed valid split peak)
      rw [List.foldlM_cons, visited, Outcome.ok_bind] at visits
      have split' : order = (before ++ [idx]) ++ after := by simp [split]
      obtain ⟨same, finished, -, slotsGrow, constantsKept⟩ :=
        kept.visits wellFormed inside valid peak split'
      cases Except.ok.inj (visits.symm.trans finished)
      unfold evalDeferredFrom
      cases advances with
      | @operator op children args known read earlier uses emits =>
          rw [uses] at accounts stores
          have destination : layout.nextSlot.toNat < slots.size :=
            size ▸ UInt32.lt_iff_toNat_lt.mp (UInt32.lt_of_lt_of_le emits.destination_lt slotsGrow)
          have laterConstants : layout.KeepsConstants tape.constants := fun index entry found => by
            rw [constants]
            refine constantsKept index entry ?_
            rw [emits.constants]
            exact found
          let instruction : Instruction K := ⟨op, args, layout.nextSlot, idx⟩
          have stepped : tape.step lookup options slots instruction =
              graph.operatorValue lookup options values op children idx >>= fun value =>
                .ok (slots.setIfInBounds layout.nextSlot.toNat value) :=
            accounts.step_eq laterConstants stores earlier read destination
          have continues (value : A) := ih split' kept visits
            (Array.size_setIfInBounds.trans size) (emits.stores stores destination value)
          obtain ⟨emitted, instructions, -⟩ := continues 0
          refine ⟨instruction :: emitted, ?_, ?_⟩
          · rw [instructions, emits.instructions, Array.toList_push, List.append_assoc]
            rfl
          · rw [List.foldlM_cons, stepped, List.foldlM_cons, deferredVisit_operator known]
            simp only [bind_assoc, Outcome.ok_bind]
            refine bind_congr fun value => ?_
            obtain ⟨others, otherInstructions, computed⟩ := continues value
            -- the instructions that follow are those of the final layout for every value
            rw [instructions, List.append_cancel_left_eq] at otherInstructions
            rw [otherInstructions]
            exact computed
      | leaf known uses skips =>
          rw [uses] at stores
          obtain ⟨emitted, instructions, computed⟩ := ih split' kept visits size
            fun query slot holds => stores query slot (skips.held query slot holds)
          refine ⟨emitted, by rw [instructions, skips.instructions], ?_⟩
          rw [List.foldlM_cons, deferredVisit_leaf known]
          exact computed

/-- Where words suffice, running the tape of a root is deferred evaluation. -/
theorem run_eq_evalDeferred (wellFormed : graph.WellFormed) (inside : root < graph.size)
    (fits : graph.FitsWords root) {variableCount : Nat} {tape : Tape K}
    (compiled : graph.compile root variableCount = .ok tape) (lookup : VariableId → Option A)
    (options : EvalOptions) : tape.run lookup options = graph.evalDeferred root lookup options := by
  obtain ⟨order, found, valid⟩ := subtree_spec wellFormed inside
  obtain ⟨counts, counted, uses⟩ := countUses_spec wellFormed inside valid
  have peak := fits.peak_lt order found
  have accounts := accounts_start (fits.uses_le order found) uses variableCount
  obtain ⟨final, visits, books, -, -⟩ := accounts.visits wellFormed inside valid peak rfl
  obtain ⟨operand, rootFound, -⟩ := books.located root valid.root_mem
  have readOff := compile_eq_ok found counted visits rootFound
  cases Except.ok.inj (compiled.symm.trans readOff)
  have nothing : (start root counts variableCount : Layout K).Stores root (graph.usesOf order)
      (fun _ => (0 : A)) (Array.replicate final.slotCount.toNat 0) := by
    rintro idx slot ⟨known, -⟩
    simp only [start, Array.getElem?_replicate] at known
    split at known <;> cases known
  obtain ⟨emitted, instructions, computed⟩ := run_visits_eq wellFormed inside valid peak
    (final.tape root operand) rfl rootFound rfl accounts visits Array.size_replicate nothing
  unfold evalDeferred
  rw [found]
  refine Eq.trans ?_ computed
  unfold Tape.run
  rw [show (final.tape root operand).instructions.toList = emitted from instructions]
  rfl

/-- Where words suffice, a tape has the values that its root has in the graph. -/
theorem tape_eval_eq_ok_iff (wellFormed : graph.WellFormed) (inside : root < graph.size)
    (fits : graph.FitsWords root) {variableCount : Nat} {tape : Tape K}
    (compiled : graph.compile root variableCount = .ok tape) {assignment : Assignment A}
    {options : EvalOptions} {value : A} :
    tape.eval assignment options = .ok value ↔
      graph.eval root assignment options = .ok value := by
  rw [Tape.eval, run_eq_evalDeferred wellFormed inside fits compiled]
  exact evalDeferred_eq_ok_iff wellFormed inside

/-- Where words suffice, a tape that fails reports an error. -/
theorem exists_error_of_tape_eval (wellFormed : graph.WellFormed) (inside : root < graph.size)
    (fits : graph.FitsWords root) {variableCount : Nat} {tape : Tape K}
    (compiled : graph.compile root variableCount = .ok tape) {assignment : Assignment A}
    {options : EvalOptions} {fault : Fault (EvalError K)}
    (failed : tape.eval assignment options = .error fault) : ∃ error, fault = .error error := by
  have yields := yields_evalDeferred wellFormed inside assignment options
  rw [← run_eq_evalDeferred wellFormed inside fits compiled, ← Tape.eval, failed] at yields
  exact yields

/-- **A compiled root evaluates like the graph.** Every root of a built graph compiles, and no
evaluation of the graph breaks a contract. If no node is a child more than `2 ^ 32` times below
the root and fewer than `2 ^ 32` values are kept at once, then under every assignment and all
options the tape yields a value exactly when the graph does, and the same one, so that one of
them fails exactly when the other does. The tape then breaks no contract either: it reads and
writes only slots, constants and arguments that it has. -/
theorem compile_refines_eval (built : graph.Built) (inside : root < graph.size)
    (variableCount : Nat) :
    ∃ tape, graph.compile root variableCount = .ok tape ∧
      ∀ (assignment : Assignment A) (options : EvalOptions),
        (∀ broken, graph.eval root assignment options ≠ .error (.violation broken)) ∧
        (graph.FitsWords root →
          (∀ value, tape.eval assignment options = .ok value ↔
            graph.eval root assignment options = .ok value) ∧
          ((∃ fault, tape.eval assignment options = .error fault) ↔
            ∃ fault, graph.eval root assignment options = .error fault) ∧
          ∀ broken, tape.eval assignment options ≠ .error (.violation broken)) := by
  have wellFormed := built.wellFormed
  obtain ⟨tape, compiled, -⟩ := exists_compile wellFormed inside variableCount
  refine ⟨tape, compiled, fun assignment options => ⟨fun broken violated => ?_, fun fits => ?_⟩⟩
  · have graphYields := yields_eval wellFormed inside assignment options
    rw [violated] at graphYields
    exact Fault.not_isReported_violation broken graphYields
  · have same : ∀ value, tape.eval assignment options = .ok value ↔
        graph.eval root assignment options = .ok value :=
      fun value => tape_eval_eq_ok_iff wellFormed inside fits compiled
    refine ⟨same, Outcome.exists_error_iff_of_ok_iff same, fun broken violated => ?_⟩
    obtain ⟨error, absurd⟩ := exists_error_of_tape_eval wellFormed inside fits compiled violated
    cases absurd

/-- **Beyond words a tape and its graph disagree.** One use more than a word can count gives a
slot to two values that are both needed, and the tape has another value than the graph. One
value more than a word can count leaves the last one without a slot, and the tape has no value
where the graph has one. -/
theorem tape_eval_beyond_words :
    ((overused 4294967297).Built ∧ 4 < (overused 4294967297).size ∧
      ∃ tape : Tape Float, (overused 4294967297).compile 4 0 = .ok tape ∧
        tape.eval ({} : Assignment Float) { checkFinite := false } = .ok 4.0 ∧
        (overused 4294967297).eval 4 ({} : Assignment Float) { checkFinite := false } = .ok 3.0 ∧
        (4.0 : Float) ≠ 3.0) ∧
    (crowded 4294967295).Built ∧ 4294967295 < (crowded 4294967295).size ∧
      ∃ (tape : Tape Float) (value : Float),
        (crowded 4294967295).compile 4294967295 0 = .ok tape ∧
        (crowded 4294967295).eval 4294967295 ({} : Assignment Float) { checkFinite := false } =
          .ok value ∧
        tape.eval ({} : Assignment Float) { checkFinite := false } ≠ .ok value := by
  have used : 0 < 4294967297 := by decide
  have positive : 0 < 4294967295 := by decide
  have full : 4294967295 + 1 = 2 ^ 32 := by decide
  have fits : 4294967295 < 2 ^ 32 := by decide
  refine ⟨?_, ?_⟩
  · obtain ⟨built, size, -⟩ := built_overused used
    exact ⟨built, size ▸ by decide, _, compile_overused rfl, eval_overusedTape used,
      eval_overused used, by decide⟩
  · obtain ⟨built, size, -⟩ := built_crowded positive fits
    obtain ⟨tape, compiled, -, fails⟩ := compile_crowded positive full
    obtain ⟨value, evaluated⟩ := eval_crowded positive fits
    exact ⟨built, size ▸ by decide, tape, value, compiled, evaluated, fails _ _ value⟩

/-- The graph of `(exp x0 + exp x0) * exp x0`, in which the exponential is
shared. -/
def sharedExponential : Graph Float where
  id := ⟨0, 0⟩
  nodes := #[
    { uid := ⟨0⟩, idx := some 0, graph := some ⟨0, 0⟩, kind := .leaf 0 },
    { uid := ⟨1⟩, idx := some 1, graph := some ⟨0, 0⟩, kind := .operator (.unary .exp) [0] },
    { uid := ⟨2⟩, idx := some 2, graph := some ⟨0, 0⟩, kind := .operator .sum [1, 1] },
    { uid := ⟨3⟩, idx := some 3, graph := some ⟨0, 0⟩, kind := .operator .product [2, 1] }]
  depths := #[0, 1, 2, 3]

theorem built_sharedExponential : sharedExponential.Built := by
  let leaf : Node Float := { uid := ⟨0⟩, kind := .leaf 0 }
  let exponential : Node Float := { uid := ⟨1⟩, kind := .operator (.unary .exp) [0] }
  let double : Node Float := { uid := ⟨2⟩, kind := .operator .sum [1, 1] }
  let product : Node Float := { uid := ⟨3⟩, kind := .operator .product [2, 1] }
  have first : Built _ := (Built.empty ⟨0, 0⟩ none).insert (rfl : leaf.kind.checkArity = _) rfl
  have second : Built _ := first.insert (rfl : exponential.kind.checkArity = _) rfl
  have third : Built _ := second.insert (rfl : double.kind.checkArity = _) rfl
  exact third.insert (rfl : product.kind.checkArity = _) rfl

/-- The product reads every other node of the shared expression, directly or not. -/
theorem evaluationOrder_sharedExponential :
    sharedExponential.EvaluationOrder 3 [0, 1, 2, 3] := by
  refine evaluationOrder_range built_sharedExponential.wellFormed fun idx lower => ?_
  have exponential : sharedExponential.Reaches 3 1 := .single ⟨_, rfl, by decide⟩
  match idx, lower with
  | 0, _ => exact exponential.tail ⟨_, rfl, by decide⟩
  | 1, _ => exact exponential
  | 2, _ => exact .single ⟨_, rfl, by decide⟩

/-- Words can count the three uses of the shared exponential. -/
theorem fitsWords_sharedExponential : sharedExponential.FitsWords 3 := by
  refine evaluationOrder_sharedExponential.fitsWords built_sharedExponential.wellFormed (by decide)
    (fun idx => ?_) (by decide)
  have few : (sharedExponential.usesOf [0, 1, 2, 3]).length = 5 := by decide
  exact Nat.le_trans List.count_le_length (few ▸ by decide)

/-- The shared expression evaluates to second order on its tape. -/
theorem compile_refines_eval_sharedExponential :
    sharedExponential.Built ∧ 3 < sharedExponential.size ∧ sharedExponential.FitsWords 3 ∧
      ∃ tape, sharedExponential.compile 3 0 = .ok tape ∧
        ∀ (assignment : Assignment (SecondOrder Float)) (options : EvalOptions),
          (∀ value, tape.eval assignment options = .ok value ↔
            sharedExponential.eval 3 assignment options = .ok value) ∧
          ((∃ fault, tape.eval assignment options = .error fault) ↔
            ∃ fault, sharedExponential.eval 3 assignment options = .error fault) ∧
          ∀ broken, tape.eval assignment options ≠ .error (.violation broken) := by
  have inside : 3 < sharedExponential.size := by decide
  obtain ⟨tape, compiled, evaluates⟩ :=
    compile_refines_eval (A := SecondOrder Float) built_sharedExponential inside 0
  exact ⟨built_sharedExponential, inside, fitsWords_sharedExponential, tape, compiled,
    fun assignment options => (evaluates assignment options).2 fitsWords_sharedExponential⟩

end Graph

end MixedInteger
