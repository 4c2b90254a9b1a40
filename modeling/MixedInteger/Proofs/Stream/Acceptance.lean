import MixedInteger.Stream.Sink

/-! # What sinks accept

A write that fails leaves a strict first part of its bytes in the sink, and any
other write leaves them all. A sink accepts every byte when none of its attempts
fails or stalls. It may take the bytes in pieces of any size and be interrupted in
between.
-/

namespace MixedInteger.Sink

/-- All bytes are accepted, or there is a failure and some are not. -/
theorem attempt_cases (plan : List WriteOutcome) (bytes : Bytes) :
    (∃ rest, attempt plan bytes = (.ok (), bytes, rest)) ∨
      ∃ text front rest, attempt plan bytes = (.error text, front, rest) ∧
        front <+: bytes ∧ front ≠ bytes := by
  fun_induction attempt plan bytes with
  | case1 plan => exact Or.inl ⟨plan, rfl⟩
  | case2 bytes => exact Or.inl ⟨[], rfl⟩
  | case3 plan bytes nonempty ih => exact ih
  | case4 text plan bytes nonempty =>
      exact Or.inr ⟨text, [], plan, rfl, List.nil_prefix, fun empty => nonempty empty.symm⟩
  | case5 plan bytes nonempty =>
      exact Or.inr ⟨stalled, [], plan, rfl, List.nil_prefix, fun empty => nonempty empty.symm⟩
  | case6 limit plan bytes nonempty positive outcome accepted rest answer ih =>
      rw [answer] at ih
      obtain ⟨left, same⟩ | ⟨text, front, left, same, cut, strict⟩ := ih
      · cases same
        exact Or.inl ⟨rest, by rw [List.take_append_drop]⟩
      · cases same
        have inside : bytes.take limit ++ accepted <+: bytes.take limit ++ bytes.drop limit :=
          (List.prefix_append_right_inj _).mpr cut
        rw [List.take_append_drop] at inside
        refine Or.inr ⟨text, _, rest, rfl, inside, fun whole => strict ?_⟩
        rw [← List.append_cancel_left_eq, whole, List.take_append_drop]

/-- Bytes that are written arrive behind the earlier ones. A failure leaves out some of
the last bytes. -/
theorem writeAll_cases (sink : Sink) (bytes : Bytes) :
    (∃ plan, sink.writeAll bytes = (.ok (), ⟨plan, sink.received ++ bytes⟩)) ∨
      ∃ text front plan, sink.writeAll bytes = (.error text, ⟨plan, sink.received ++ front⟩) ∧
        front <+: bytes ∧ front ≠ bytes := by
  obtain ⟨plan, done⟩ | ⟨text, front, plan, failed, cut, strict⟩ := attempt_cases sink.plan bytes
  · exact Or.inl ⟨plan, by rw [writeAll, done]⟩
  · exact Or.inr ⟨text, front, plan, by rw [writeAll, failed], cut, strict⟩

theorem received_flush (sink : Sink) : sink.flush.2.received = sink.received := by
  unfold flush
  split <;> rfl

/-- Whether every attempt of a plan accepts some bytes or is repeated. -/
def Accepting (plan : List WriteOutcome) : Prop :=
  ∀ outcome ∈ plan, outcome ≠ .accept 0 ∧ ∀ text, outcome ≠ .fail text

theorem Accepting.tail {outcome : WriteOutcome} {plan : List WriteOutcome}
    (accepting : Accepting (outcome :: plan)) : Accepting plan :=
  fun later member => accepting later (List.mem_cons_of_mem outcome member)

/-- An accepting plan accepts all bytes and stays accepting. -/
theorem Accepting.attempt_eq {plan : List WriteOutcome} (accepting : Accepting plan)
    (bytes : Bytes) :
    ∃ rest, attempt plan bytes = (.ok (), bytes, rest) ∧ Accepting rest := by
  fun_induction attempt plan bytes with
  | case1 plan => exact ⟨plan, rfl, accepting⟩
  | case2 bytes => exact ⟨[], rfl, accepting⟩
  | case3 plan bytes nonempty ih => exact ih accepting.tail
  | case4 text plan bytes => exact absurd rfl ((accepting _ List.mem_cons_self).2 text)
  | case5 plan bytes => exact absurd rfl (accepting _ List.mem_cons_self).1
  | case6 limit plan bytes nonempty positive outcome accepted rest answer ih =>
      obtain ⟨left, same, kept⟩ := ih accepting.tail
      rw [answer] at same
      cases same
      exact ⟨rest, by rw [List.take_append_drop], kept⟩

/-- Bytes that are written to an accepting sink arrive behind the earlier ones. -/
theorem Accepting.writeAll_eq {sink : Sink} (accepting : Accepting sink.plan) (bytes : Bytes) :
    ∃ rest, sink.writeAll bytes = (.ok (), ⟨rest, sink.received ++ bytes⟩) ∧ Accepting rest := by
  obtain ⟨rest, accepted, kept⟩ := accepting.attempt_eq bytes
  exact ⟨rest, by rw [writeAll, accepted], kept⟩

end MixedInteger.Sink
