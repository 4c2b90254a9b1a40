import MixedInteger.Proofs.Expression.CarriedValue
import MixedInteger.Proofs.Expression.LayoutSteps

/-! # Plain values on a tape

Where every operator carries the values of its arguments to the value of its result, a run of a
tape in a numeric domain carries the plain run of the same tape. Each step does, whatever the
slots hold and whichever slot it writes, so nothing has to be known of the layout
(`Tape.mirrors_run`).
-/

namespace MixedInteger

namespace Outcome

variable {δ ε α β γ σ τ : Type}

/-- Whether a plain outcome is what a view shows of an outcome where that succeeds. In a sharp
mirror the plain outcome succeeds nowhere else. -/
structure Mirrors (sharp : Prop) (view : α → β) (outcome : Except ε α) (plain : Except δ β) :
    Prop where
  shown : ∀ a, outcome = .ok a → plain = .ok (view a)
  exists_ok : sharp → ∀ b, plain = .ok b → ∃ a, outcome = .ok a

variable {sharp : Prop} {view : α → β} {outcome : Except ε α} {plain : Except δ β}

/-- A result is mirrored by what is shown of it. -/
theorem Mirrors.ok (sharp : Prop) (view : α → β) (a : α) :
    Mirrors sharp view (.ok a : Except ε α) (.ok (view a) : Except δ β) :=
  ⟨fun _ same => congrArg (fun a => Except.ok (view a)) (Except.ok.inj same),
    fun _ _ _ => ⟨a, rfl⟩⟩

/-- Nothing is shown of an error. -/
theorem Mirrors.error (sharp : Prop) (view : α → β) (e : ε) (d : δ) :
    Mirrors sharp view (.error e : Except ε α) (.error d : Except δ β) :=
  ⟨nofun, nofun⟩

/-- Two steps are mirrored one after the other. -/
theorem Mirrors.bind (first : Mirrors sharp view outcome plain) {laterView : γ → τ}
    {next : α → Except ε γ} {plainNext : β → Except δ τ}
    (later : ∀ a, Mirrors sharp laterView (next a) (plainNext (view a))) :
    Mirrors sharp laterView (outcome >>= next) (plain >>= plainNext) := by
  constructor
  · intro c done
    obtain ⟨a, found, done⟩ := bind_eq_ok_iff.mp done
    exact bind_eq_ok_iff.mpr ⟨view a, first.shown a found, (later a).shown c done⟩
  · intro isSharp c done
    obtain ⟨b, found, done⟩ := bind_eq_ok_iff.mp done
    obtain ⟨a, known⟩ := first.exists_ok isSharp b found
    cases (first.shown a known).symm.trans found
    obtain ⟨c, done⟩ := (later a).exists_ok isSharp c done
    exact ⟨c, bind_eq_ok_iff.mpr ⟨a, known, done⟩⟩

/-- A traversal is mirrored by a traversal. -/
theorem Mirrors.mapM {f : γ → Except ε α} {g : γ → Except δ β}
    (each : ∀ c, Mirrors sharp view (f c) (g c)) (list : List γ) :
    Mirrors sharp (List.map view) (list.mapM f) (list.mapM g) := by
  induction list with
  | nil => exact .ok sharp (List.map view) []
  | cons c rest ih =>
      rw [List.mapM_cons, List.mapM_cons]
      exact (each c).bind fun a => ih.bind fun others => .ok sharp (List.map view) (a :: others)

/-- Steps that hand on a state are mirrored one by one. -/
theorem Mirrors.foldlM {f : α → γ → Except ε α} {g : β → γ → Except δ β}
    (each : ∀ state c, Mirrors sharp view (f state c) (g (view state) c)) (list : List γ)
    (start : α) : Mirrors sharp view (list.foldlM f start) (list.foldlM g (view start)) := by
  induction list generalizing start with
  | nil => exact .ok sharp view start
  | cons c rest ih =>
      rw [List.foldlM_cons, List.foldlM_cons]
      exact (each start c).bind ih

end Outcome

namespace Tape

open Outcome

variable {K A : Type} [Scalar K] [Numeric K A] {options : EvalOptions}

variable (options) in
/-- A check lets the value of a quantity pass with the quantity, and without checks both pass. -/
theorem mirrors_check (carries : Numeric.CarriesValue K A) (node : NodeIdx) (operator : String)
    (x : A) :
    Mirrors (options.checkFinite = false) Numeric.value
      (Fault.report (options.check node operator x))
      (Fault.report (options.check node operator (Numeric.value x))) := by
  constructor
  · intro passed found
    rw [Fault.report_eq_ok_iff] at found ⊢
    unfold EvalOptions.check at found ⊢
    split at found
    · cases found
    · rename_i passes
      cases found
      refine if_neg fun fails => passes ?_
      rw [Bool.and_eq_true_iff, Bool.not_eq_true'] at fails ⊢
      refine ⟨fails.1, Bool.eq_false_iff.mpr fun finite => ?_⟩
      cases fails.2.symm.trans (carries.isFinite x finite)
  · intro unchecked _ _
    refine ⟨x, Fault.report_eq_ok_iff.mpr ?_⟩
    unfold EvalOptions.check
    rw [unchecked]
    rfl

/-- An operator that keeps the value acts on plain values as it does on quantities. -/
theorem mirrors_apply (carries : Numeric.CarriesValue K A) {op : Operator K} {args : List A}
    (keeps : op.KeepsValue args) (sharp : Prop) :
    Mirrors sharp Numeric.value
      (Fault.contract (op.apply args) : Except (Fault (EvalError K)) A)
      (Fault.contract (op.apply (args.map Numeric.value)) : Except (Fault (EvalError K)) K) := by
  constructor
  · intro result applied
    rw [Fault.contract_eq_ok_iff] at applied ⊢
    exact carries.apply_map keeps applied
  · intro _ result applied
    rw [Fault.contract_eq_ok_iff] at applied
    cases found : op.apply args with
    | ok result => exact ⟨result, rfl⟩
    | error broken =>
        -- whether an operator takes its arguments is a matter of their number
        obtain ⟨refused, named⟩ := (op.apply_eq_error_iff args broken).mp found
        have failed := (op.apply_eq_error_iff (args.map Numeric.value) broken).mpr
          (by rw [List.length_map]; exact ⟨refused, named⟩)
        cases applied.symm.trans failed

section Run

variable (carries : Numeric.CarriesValue K A)
  (keeps : ∀ (op : Operator K) (args : List A), op.KeepsValue args) {tape : Tape K}
  {lookup : VariableId → Option A} {plain : VariableId → Option K}
  (shown : ∀ id, plain id = (lookup id).map Numeric.value)

include carries shown

/-- An operand has the value of its quantity. -/
theorem mirrors_read (slots : Array A) (origin : NodeIdx) (operand : Operand) :
    Mirrors (options.checkFinite = false) Numeric.value
      (tape.read lookup options slots origin operand)
      (tape.read plain options (slots.map Numeric.value) origin operand) := by
  cases operand with
  | leaf id =>
      simp only [read, shown id]
      cases lookup id with
      | none => exact .error ..
      | some x => exact mirrors_check options carries origin "variable" x
  | constant index =>
      simp only [read]
      cases tape.constants[index]? with
      | none => exact .error ..
      | some entry =>
          have checked := mirrors_check options carries entry.2 "constant"
            (Numeric.constant entry.1 : A)
          rwa [carries.constant] at checked
  | slot index =>
      simp only [read, Array.getElem?_map]
      cases slots[index.toNat]? with
      | none => exact .error ..
      | some x => exact .ok _ Numeric.value x

include keeps

/-- A step writes a quantity where the plain step writes its value. -/
theorem mirrors_step (slots : Array A) (instruction : Instruction K) :
    Mirrors (options.checkFinite = false) (Array.map Numeric.value)
      (tape.step lookup options slots instruction)
      (tape.step plain options (slots.map Numeric.value) instruction) := by
  unfold step
  refine (Mirrors.mapM (mirrors_read carries shown slots instruction.origin)
    instruction.args).bind fun args => ?_
  refine (mirrors_apply carries (keeps instruction.operator args) _).bind fun result => ?_
  refine (mirrors_check options carries instruction.origin instruction.operator.name result).bind
    fun value => ?_
  dsimp only
  rw [Array.size_map]
  split
  · rw [← Array.map_setIfInBounds]
    exact .ok _ (Array.map Numeric.value) _
  · exact .error ..

/-- **A run carries the plain run.** Where a tape has a quantity for its root, its plain run has
the value of that quantity. Without checks the plain run has no values beside these. -/
theorem mirrors_run :
    Mirrors (options.checkFinite = false) Numeric.value (tape.run lookup options)
      (tape.run plain options) := by
  unfold run
  have empty : Array.replicate tape.slotCount (0 : K) =
      (Array.replicate tape.slotCount (0 : A)).map Numeric.value := by
    rw [Array.map_replicate, carries.zero]
  rw [empty]
  exact (Mirrors.foldlM (mirrors_step carries keeps shown) tape.instructions.toList _).bind
    fun slots => mirrors_read carries shown slots tape.rootOrigin tape.root

end Run

end Tape

end MixedInteger
