import MixedInteger.Contract
import Mathlib.Data.List.Basic

/-! # Outcomes of steps that may fail

Facts about sequences of steps in `Except`, in the form in which the proofs use
them: what a successful sequence says about its steps, and how an invariant of
the steps becomes an invariant of a traversal.
-/

namespace MixedInteger

namespace Outcome

variable {δ ε α β γ σ : Type}

/-- A sequence of two steps succeeds when both do. -/
theorem bind_eq_ok_iff {outcome : Except ε α} {next : α → Except ε β} {b : β} :
    (outcome >>= next) = .ok b ↔ ∃ a, outcome = .ok a ∧ next a = .ok b := by
  cases outcome with
  | error e => exact ⟨nofun, fun ⟨_, absurd, _⟩ => nomatch absurd⟩
  | ok a => exact ⟨fun done => ⟨a, rfl, done⟩, fun ⟨_, same, done⟩ => by cases same; exact done⟩

/-- Only an error is mapped to an error. -/
theorem eq_error_of_map {outcome : Except ε α} {f : α → β} {e : ε}
    (failed : outcome.map f = .error e) : outcome = .error e := by
  cases outcome with
  | error d =>
      cases failed
      rfl
  | ok a => cases failed

/-- What follows a result runs on it. -/
theorem ok_bind (a : α) (next : α → Except ε β) : (Except.ok a >>= next) = next a := rfl

/-- Of two outcomes that succeed together, one fails exactly when the other
does. -/
theorem exists_error_iff_of_ok_iff {first second : Except ε α}
    (same : ∀ a, first = .ok a ↔ second = .ok a) :
    (∃ e, first = .error e) ↔ ∃ e, second = .error e := by
  cases first with
  | ok a => rw [(same a).mp rfl]
  | error e =>
      cases second with
      | ok a => cases (same a).mpr rfl
      | error d => exact ⟨fun _ => ⟨d, rfl⟩, fun _ => ⟨e, rfl⟩⟩

/-- Functions that agree on a list traverse it alike. -/
theorem mapM_congr {f g : α → Except ε β} {list : List α} (same : ∀ a ∈ list, f a = g a) :
    list.mapM f = list.mapM g := by
  induction list with
  | nil => rfl
  | cons a rest ih =>
      rw [List.mapM_cons, List.mapM_cons, same a List.mem_cons_self,
        ih fun b member => same b (List.mem_cons_of_mem _ member)]

/-- A traversal without failures is a map. -/
theorem mapM_eq_ok_map {f : α → Except ε β} {g : α → β} {list : List α}
    (each : ∀ a ∈ list, f a = .ok (g a)) : list.mapM f = .ok (list.map g) := by
  rw [mapM_congr each]
  exact List.mapM_pure

/-- Steps that agree on a list fold it alike. -/
theorem foldlM_congr {f g : σ → α → Except ε σ} {list : List α}
    (same : ∀ a ∈ list, ∀ state, f state a = g state a) (start : σ) :
    list.foldlM f start = list.foldlM g start := by
  induction list generalizing start with
  | nil => rfl
  | cons a rest ih =>
      rw [List.foldlM_cons, List.foldlM_cons, same a List.mem_cons_self]
      exact bind_congr (ih fun b member => same b (List.mem_cons_of_mem _ member))

/-- Converting what two steps answer is converting what the second answers. -/
theorem map_bind {outcome : Except ε α} {next : α → Except ε β} (g : β → γ) :
    (outcome >>= next).map g = outcome >>= fun a => (next a).map g := by
  cases outcome <;> rfl

/-- What a view of the state tells after every step, it tells after all of them. -/
theorem map_foldlM {τ : Type} {f : σ → α → Except ε σ} {g : τ → α → Except ε τ} {view : σ → τ}
    (each : ∀ state a, (f state a).map view = g (view state) a) (list : List α) (start : σ) :
    (list.foldlM f start).map view = list.foldlM g (view start) := by
  induction list generalizing start with
  | nil => rfl
  | cons a rest ih =>
      rw [List.foldlM_cons, List.foldlM_cons, ← each]
      cases f start a with
      | error e => rfl
      | ok state => exact ih state

/-- Values that are pushed one after the other are those of a traversal. -/
theorem foldlM_push {f : α → Except ε β} (list : List α) (start : Array β) :
    (list.foldlM (fun values a => f a >>= fun b => .ok (values.push b)) start) =
      (list.mapM f).map fun values => start ++ values.toArray := by
  induction list generalizing start with
  | nil => exact congrArg Except.ok (Array.append_empty).symm
  | cons a rest ih =>
      rw [List.foldlM_cons, List.mapM_cons]
      cases f a with
      | error e => rfl
      | ok b =>
          rw [ok_bind, ok_bind, ok_bind, ih (start.push b)]
          cases rest.mapM f with
          | error e => rfl
          | ok values => simp [Except.map, bind, Except.bind, pure, Except.pure]

/-- A traversal that hands a state on gives what it gives without one, if no step depends
on the state that it is handed. -/
theorem run'_mapM {f : α → StateT σ (Except ε) β} {g : α → Except ε β}
    (each : ∀ a state, (f a state).map Prod.fst = g a) (list : List α) (start : σ) :
    StateT.run' (list.mapM f) start = list.mapM g := by
  change (list.mapM f start).map Prod.fst = list.mapM g
  induction list generalizing start with
  | nil => rfl
  | cons a rest ih =>
      rw [List.mapM_cons, List.mapM_cons, ← each a start]
      change (f a start >>= fun first => rest.mapM f first.2 >>= fun later =>
        .ok (first.1 :: later.1, later.2)).map Prod.fst = _
      cases f a start with
      | error e => rfl
      | ok first =>
          change (rest.mapM f first.2 >>= _).map Prod.fst = rest.mapM g >>= _
          rw [← ih first.2]
          cases rest.mapM f first.2 <;> rfl

/-- A traversal succeeds with the values of its steps. -/
theorem mapM_eq_ok_iff {f : α → Except ε β} {list : List α} {values : List β} :
    list.mapM f = .ok values ↔ List.Forall₂ (fun a b => f a = .ok b) list values := by
  induction list generalizing values with
  | nil =>
      constructor
      · intro traversed
        cases traversed
        exact .nil
      · rintro ⟨⟩
        rfl
  | cons a rest ih =>
      rw [List.mapM_cons]
      constructor
      · intro traversed
        obtain ⟨b, headOk, traversed⟩ := bind_eq_ok_iff.mp traversed
        obtain ⟨others, restOk, traversed⟩ := bind_eq_ok_iff.mp traversed
        cases traversed
        exact .cons headOk (ih.mp restOk)
      · rintro (_ | ⟨headOk, restOk⟩)
        rw [headOk, ok_bind, ih.mpr restOk]
        rfl

/-- A traversal fails with the error of the first step that fails. -/
theorem mapM_eq_error_iff {f : α → Except ε β} {list : List α} {e : ε} :
    list.mapM f = .error e ↔ ∃ before a after, list = before ++ a :: after ∧ f a = .error e ∧
      ∀ b ∈ before, ∃ value, f b = .ok value := by
  induction list with
  | nil =>
      refine ⟨nofun, ?_⟩
      rintro ⟨before, a, after, split, -⟩
      simp at split
  | cons head rest ih =>
      rw [List.mapM_cons]
      cases first : f head with
      | error d =>
          constructor
          · intro failed
            cases failed
            exact ⟨[], head, rest, rfl, first, nofun⟩
          · rintro ⟨_ | ⟨other, before⟩, a, after, split, failed, succeeded⟩
            · cases split
              cases first.symm.trans failed
              rfl
            · cases split
              obtain ⟨value, found⟩ := succeeded head List.mem_cons_self
              cases first.symm.trans found
      | ok value =>
          have later : (Except.ok value >>= fun b => rest.mapM f >>= fun others =>
              (pure (b :: others) : Except ε (List β))) = .error e ↔ rest.mapM f = .error e := by
            cases rest.mapM f with
            | error d => exact ⟨fun failed => failed, fun failed => failed⟩
            | ok others => exact ⟨nofun, nofun⟩
          rw [later, ih]
          constructor
          · rintro ⟨before, a, after, rfl, failed, succeeded⟩
            exact ⟨head :: before, a, after, rfl, failed,
              List.forall_mem_cons.mpr ⟨⟨value, first⟩, succeeded⟩⟩
          · rintro ⟨_ | ⟨other, before⟩, a, after, split, failed, succeeded⟩
            · cases split
              cases first.symm.trans failed
            · cases split
              exact ⟨before, a, after, rfl, failed, (List.forall_mem_cons.mp succeeded).2⟩

/-- A traversal succeeds if every step does. -/
theorem exists_mapM_eq_ok {f : α → Except ε β} {list : List α}
    (each : ∀ a ∈ list, ∃ b, f a = .ok b) : ∃ values, list.mapM f = .ok values := by
  induction list with
  | nil => exact ⟨[], rfl⟩
  | cons head rest ih =>
      obtain ⟨first, headOk⟩ := each head List.mem_cons_self
      obtain ⟨others, restOk⟩ := ih fun a member => each a (List.mem_cons_of_mem _ member)
      exact ⟨first :: others, by rw [List.mapM_cons, headOk, restOk]; rfl⟩

/-- Every step of a traversal that succeeds has succeeded. -/
theorem ok_of_mapM_eq_ok {f : α → Except ε β} {list : List α} {values : List β}
    (traversed : list.mapM f = .ok values) {a : α} (member : a ∈ list) : ∃ b, f a = .ok b := by
  induction list generalizing values with
  | nil => cases member
  | cons head rest ih =>
      rw [List.mapM_cons] at traversed
      obtain ⟨first, headOk, traversed⟩ := bind_eq_ok_iff.mp traversed
      obtain ⟨others, restOk, -⟩ := bind_eq_ok_iff.mp traversed
      rcases List.mem_cons.mp member with rfl | member
      · exact ⟨first, headOk⟩
      · exact ih restOk member

/-- What a successful traversal yields comes from one of its steps. -/
theorem exists_of_mem_mapM {f : α → Except ε β} {list : List α} {values : List β}
    (traversed : list.mapM f = .ok values) {b : β} (member : b ∈ values) :
    ∃ a ∈ list, f a = .ok b := by
  have steps := mapM_eq_ok_iff.mp traversed
  induction steps with
  | nil => cases member
  | @cons head first rest others headOk restOk ih =>
      rcases List.mem_cons.mp member with rfl | member
      · exact ⟨head, List.mem_cons_self, headOk⟩
      · obtain ⟨a, later, found⟩ := ih (mapM_eq_ok_iff.mpr restOk) member
        exact ⟨a, List.mem_cons_of_mem _ later, found⟩

/-- Every step of a successful traversal contributes its value. -/
theorem eq_map_of_mapM_eq_ok {f : α → Except ε β} {g : α → β} {list : List α} {values : List β}
    (determined : ∀ a ∈ list, ∀ b, f a = .ok b → b = g a)
    (traversed : list.mapM f = .ok values) : values = list.map g := by
  have each : ∀ a ∈ list, f a = .ok (g a) := by
    intro a member
    obtain ⟨b, found⟩ := ok_of_mapM_eq_ok traversed member
    rw [found, determined a member b found]
  rw [mapM_eq_ok_map each] at traversed
  exact (Except.ok.inj traversed).symm

/-- A traversal of what a successful traversal found can start from the original
list. -/
theorem mapM_mapM_of_ok {f : α → Except δ β} {g : β → Except ε γ} {h : α → Except ε γ}
    {list : List α} {values : List β} (traversed : list.mapM f = .ok values)
    (same : ∀ a ∈ list, ∀ b, f a = .ok b → g b = h a) : values.mapM g = list.mapM h := by
  induction list generalizing values with
  | nil =>
      cases traversed
      rfl
  | cons head rest ih =>
      rw [List.mapM_cons] at traversed
      obtain ⟨first, headOk, traversed⟩ := bind_eq_ok_iff.mp traversed
      obtain ⟨others, restOk, traversed⟩ := bind_eq_ok_iff.mp traversed
      cases traversed
      rw [List.mapM_cons, List.mapM_cons, same head List.mem_cons_self first headOk,
        ih restOk fun a member => same a (List.mem_cons_of_mem _ member)]

/-- What a step yields is good, or the error it ends with is tolerated. -/
def Yields (outcome : Except ε α) (good : α → Prop) (tolerated : ε → Prop) : Prop :=
  match outcome with
  | .ok a => good a
  | .error e => tolerated e

/-- What is known of a result may be weakened. -/
theorem Yields.mono {outcome : Except ε α} {good weaker : α → Prop} {tolerated : ε → Prop}
    (yields : Yields outcome good tolerated) (weaken : ∀ a, good a → weaker a) :
    Yields outcome weaker tolerated := by
  cases outcome with
  | error e => exact yields
  | ok a => exact weaken a yields

/-- An outcome that tolerates no failure is a result. -/
theorem Yields.exists_ok {outcome : Except ε α} {good : α → Prop}
    (yields : Yields outcome good fun _ => False) : ∃ a, outcome = .ok a ∧ good a := by
  cases outcome with
  | error e => exact yields.elim
  | ok a => exact ⟨a, rfl, yields⟩

/-- A sequence of two steps yields what the second yields after the first. -/
theorem Yields.bind {outcome : Except ε α} {next : α → Except ε β} {middle : α → Prop}
    {good : β → Prop} {tolerated : ε → Prop} (first : Yields outcome middle tolerated)
    (second : ∀ a, outcome = .ok a → middle a → Yields (next a) good tolerated) :
    Yields (outcome >>= next) good tolerated := by
  cases outcome with
  | error e => exact first
  | ok a => exact second a rfl first

/-- A traversal yields what can be said of a successful one, when its steps
tolerate the same errors. -/
theorem yields_mapM {f : α → Except ε β} {list : List α} {good : List β → Prop}
    {tolerated : ε → Prop} (each : ∀ a ∈ list, Yields (f a) (fun _ => True) tolerated)
    (found : ∀ values, list.mapM f = .ok values → good values) :
    Yields (list.mapM f) good tolerated := by
  have ends : Yields (list.mapM f) (fun _ => True) tolerated := by
    clear found
    induction list with
    | nil => trivial
    | cons head rest ih =>
        rw [List.mapM_cons]
        refine (each head List.mem_cons_self).bind fun _ _ _ => ?_
        exact (ih fun a member => each a (List.mem_cons_of_mem _ member)).bind fun _ _ _ => trivial
  cases outcome : list.mapM f with
  | error e =>
      rw [outcome] at ends
      exact ends
  | ok values => exact found values outcome

/-- An invariant that may depend on the part of the list already traversed holds
of the whole list, when every step establishes it for a longer part or ends with
a tolerated error. -/
theorem yields_foldlM {step : σ → α → Except ε σ} {list : List α} {start : σ}
    {tolerated : ε → Prop} {invariant : List α → σ → Prop} (initially : invariant [] start)
    (preserved : ∀ before a after state, list = before ++ a :: after → invariant before state →
      Yields (step state a) (invariant (before ++ [a])) tolerated) :
    Yields (list.foldlM step start) (invariant list) tolerated := by
  suffices traverse : ∀ before after state, list = before ++ after → invariant before state →
      Yields (after.foldlM step state) (invariant list) tolerated from
    traverse [] list start rfl initially
  intro before after
  induction after generalizing before with
  | nil =>
      intro state split holds
      rw [List.append_nil] at split
      exact split ▸ holds
  | cons a after ih =>
      intro state split holds
      rw [List.foldlM_cons]
      exact (preserved before a after state split holds).bind fun next _ holds =>
        ih (before ++ [a]) next (by simp [split]) holds

/-- A traversal whose steps all succeed and keep an invariant succeeds and
establishes the invariant. -/
theorem exists_foldlM_eq_ok {step : σ → α → Except ε σ} {list : List α} {start : σ}
    {invariant : List α → σ → Prop} (initially : invariant [] start)
    (preserved : ∀ before a after state, list = before ++ a :: after → invariant before state →
      ∃ next, step state a = .ok next ∧ invariant (before ++ [a]) next) :
    ∃ final, list.foldlM step start = .ok final ∧ invariant list final := by
  have yields : Yields (list.foldlM step start) (invariant list) fun _ => False :=
    yields_foldlM initially fun before a after state split holds => by
      obtain ⟨next, stepped, kept⟩ := preserved before a after state split holds
      rw [stepped]
      exact kept
  exact yields.exists_ok

end Outcome

namespace Fault

variable {ε α : Type}

/-- Whether a fault is an error that the operation reports. -/
def IsReported (fault : Fault ε) : Prop := ∃ reported, fault = .error reported

/-- A violation is not reported to the caller as an error. -/
theorem not_isReported_violation (broken : Violation) :
    ¬ IsReported (violation broken : Fault ε) := nofun

/-- Reporting keeps results and adds none. -/
theorem report_eq_ok_iff {outcome : Except ε α} {a : α} :
    report outcome = .ok a ↔ outcome = .ok a := by
  cases outcome <;> simp [report, Except.mapError]

/-- Taking a failure for a breach of contract keeps results and adds none. -/
theorem contract_eq_ok_iff {outcome : Except Violation α} {a : α} :
    (contract outcome : Except (Fault ε) α) = .ok a ↔ outcome = .ok a := by
  cases outcome <;> simp [contract, Except.mapError]

/-- A step that may report an error breaks no contract. -/
theorem yields_report (outcome : Except ε α) :
    Outcome.Yields (report outcome) (fun a => outcome = .ok a) IsReported := by
  cases outcome with
  | error e => exact ⟨e, rfl⟩
  | ok a => exact rfl

end Fault

end MixedInteger
