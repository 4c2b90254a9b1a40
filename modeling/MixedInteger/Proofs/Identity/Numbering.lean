import Mathlib.Algebra.Group.Nat.Defs
import Mathlib.Data.List.Nodup
import MixedInteger.Identity.UidSource

/-! # The numbering of identities

A source answers its requests with consecutive words, modulo `2 ^ 64`, and refuses those
that would be given the largest word. So the identities ascend as long as no request is
refused. The counter has wrapped around by the time a request is refused: the requests that
follow are granted from zero on, and two requests are given one identity exactly when a
multiple of `2 ^ 64` requests lies between them (`UidSource.requests_numbered`).
-/

namespace MixedInteger.UidSource

/-- The answer of a request and the identity that comes next after it. -/
abbrev Answer : Type := Except Violation Uid × UInt64

/-- What a source answers whose counter has come to a number. -/
def reply (number : Nat) : Answer :=
  (if number % 2 ^ 64 = 2 ^ 64 - 1 then .error .uidsExhausted else .ok ⟨UInt64.ofNat number⟩,
    UInt64.ofNat (number + 1))

/-- The words of the identities that are issued, in order. -/
def issued (answers : List Answer) : List UInt64 :=
  answers.filterMap fun answer => answer.1.toOption.map Uid.number

/-- A request is answered as its number asks for, counted modulo the word. -/
theorem issue_ofNat (number : Nat) :
    (issue ⟨UInt64.ofNat number⟩).1 = (reply number).1 := by
  have largest : UInt64.ofNat number = 18446744073709551615 ↔ number % 2 ^ 64 = 2 ^ 64 - 1 := by
    rw [← UInt64.toNat_inj, UInt64.toNat_ofNat']
    rfl
  simp only [issue, reply, largest]

/-- The counter goes up by one, modulo the word. -/
theorem advance_ofNat (number : Nat) :
    advance ⟨UInt64.ofNat number⟩ = ⟨UInt64.ofNat (number + 1)⟩ := by
  rw [advance, UInt64.ofNat_add]
  rfl

/-- Requests are answered one after the other from the number that comes first. -/
theorem requests_ofNat (first count : Nat) :
    requests ⟨UInt64.ofNat first⟩ count = (List.range' first count).map reply := by
  induction count generalizing first with
  | zero => rfl
  | succ count ih =>
      rw [requests, issue_ofNat, advance_ofNat, ih, List.range'_succ, List.map_cons]
      rfl

/-- The answers are those of successive numbers from the counter on. -/
theorem requests_eq (source : UidSource) (count : Nat) :
    source.requests count = (List.range' source.upcoming.toNat count).map reply := by
  have counted := requests_ofNat source.upcoming.toNat count
  rwa [UInt64.ofNat_toNat] at counted

/-- The answer of each request is that of its own number. -/
theorem getElem?_requests (source : UidSource) {count k : Nat} (asked : k < count) :
    (source.requests count)[k]? = some (reply (source.upcoming.toNat + k)) := by
  rw [requests_eq, List.getElem?_map, List.getElem?_range' asked, Nat.one_mul]
  rfl

/-- Only the largest word is refused. -/
theorem reply_refused_iff {number : Nat} :
    (reply number).1 = .error .uidsExhausted ↔ number % 2 ^ 64 = 2 ^ 64 - 1 := by
  by_cases last : number % 2 ^ 64 = 2 ^ 64 - 1
  · exact iff_of_true (if_pos last) last
  · have granted : (reply number).1 = .ok ⟨UInt64.ofNat number⟩ := if_neg last
    rw [granted]
    exact iff_of_false nofun last

/-- Every other word is granted as it is. -/
theorem reply_granted_iff {number : Nat} {uid : Uid} :
    (reply number).1 = .ok uid ↔
      number % 2 ^ 64 ≠ 2 ^ 64 - 1 ∧ uid = ⟨UInt64.ofNat number⟩ := by
  by_cases last : number % 2 ^ 64 = 2 ^ 64 - 1
  · rw [reply_refused_iff.mpr last]
    exact iff_of_false nofun fun granted => granted.1 last
  · have granted : (reply number).1 = .ok ⟨UInt64.ofNat number⟩ := if_neg last
    rw [granted, Except.ok.injEq, and_iff_right last, eq_comm]

/-- Behind the largest word the numbering starts again. -/
theorem reply_of_refused {number : Nat} (last : number % 2 ^ 64 = 2 ^ 64 - 1) :
    reply (number + 1) = (.ok ⟨0⟩, 1) := by
  have zero : UInt64.ofNat (number + 1) = 0 := by
    rw [← UInt64.toNat_inj, UInt64.toNat_ofNat', UInt64.toNat_zero]
    omega
  have granted : (reply (number + 1)).1 = .ok ⟨0⟩ :=
    reply_granted_iff.mpr ⟨by omega, by rw [zero]⟩
  refine Prod.ext granted ?_
  change UInt64.ofNat (number + 1 + 1) = 1
  rw [UInt64.ofNat_add, zero]
  rfl

/-- Every number but the largest words is issued. -/
theorem issued_map_reply (numbers : List Nat) :
    issued (numbers.map reply) =
      (numbers.filter (· % 2 ^ 64 ≠ 2 ^ 64 - 1)).map UInt64.ofNat := by
  induction numbers with
  | nil => rfl
  | cons number later ih =>
      by_cases last : number % 2 ^ 64 = 2 ^ 64 - 1
      · have refused := reply_refused_iff.mpr last
        rw [List.map_cons, issued, List.filterMap_cons_none (by rw [refused]; rfl),
          List.filter_cons_of_neg (by simpa using last)]
        exact ih
      · have granted := reply_granted_iff.mpr ⟨last, rfl⟩
        rw [List.map_cons, issued, List.filterMap_cons_some (by rw [granted]; rfl),
          List.filter_cons_of_pos (by simpa using last), List.map_cons]
        exact congrArg _ ih

/-- Requests in a row are answered from consecutive numbers. -/
theorem exists_range'_of_isInfix {source : UidSource} {count : Nat} {stretch : List Answer}
    (inside : stretch <:+: source.requests count) :
    ∃ first size, stretch = (List.range' first size).map reply := by
  obtain ⟨before, after, split⟩ := inside
  rw [requests_eq, List.append_assoc] at split
  obtain ⟨_, _, numbers, -, rest⟩ := List.map_eq_append_iff.mp split.symm
  obtain ⟨earlier, -, -, rfl⟩ := List.range'_eq_append_iff.mp numbers
  obtain ⟨_, _, numbers, rfl, -⟩ := List.map_eq_append_iff.mp rest
  obtain ⟨size, -, rfl, -⟩ := List.range'_eq_append_iff.mp numbers
  exact ⟨_, size, rfl⟩

/-- Words ascend with their numbers between two largest words. -/
theorem ofNat_lt_ofNat {low high : Nat} (less : low < high)
    (none : ∀ number, low ≤ number → number < high → number % 2 ^ 64 ≠ 2 ^ 64 - 1) :
    UInt64.ofNat low < UInt64.ofNat high := by
  rw [UInt64.lt_iff_toNat_lt, UInt64.toNat_ofNat', UInt64.toNat_ofNat']
  by_contra wrapped
  have last := none (low / 2 ^ 64 * 2 ^ 64 + (2 ^ 64 - 1)) (by omega) (by omega)
  omega

/-- Identities ascend along requests in a row of which none is refused. -/
theorem pairwise_issued {first size : Nat}
    (granted : ∀ answer ∈ (List.range' first size).map reply, answer.1 ≠ .error .uidsExhausted) :
    (issued ((List.range' first size).map reply)).Pairwise (· < ·) := by
  rw [issued_map_reply, List.pairwise_map]
  have ascending : ((List.range' first size).filter (· % 2 ^ 64 ≠ 2 ^ 64 - 1)).Pairwise (· < ·) :=
    List.Pairwise.filter _ List.pairwise_lt_range'
  refine ascending.imp_of_mem fun {low high} lowIn highIn less => ?_
  have lowIn := List.mem_range'_1.mp (List.mem_of_mem_filter lowIn)
  have highIn := List.mem_range'_1.mp (List.mem_of_mem_filter highIn)
  refine ofNat_lt_ofNat less fun number above below => reply_refused_iff.not.mp ?_
  exact granted _ (List.mem_map_of_mem (List.mem_range'_1.mpr (by omega)))

/-- Among at most `2 ^ 64` requests in a row no identity is issued twice. -/
theorem nodup_issued {first size : Nat} (few : size ≤ 2 ^ 64) :
    (issued ((List.range' first size).map reply)).Nodup := by
  rw [issued_map_reply]
  refine List.Nodup.map_on (fun low lowIn high highIn same => ?_)
    (List.Nodup.filter _ List.nodup_range')
  have lowIn := List.mem_range'_1.mp (List.mem_of_mem_filter lowIn)
  have highIn := List.mem_range'_1.mp (List.mem_of_mem_filter highIn)
  rw [← UInt64.toNat_inj, UInt64.toNat_ofNat', UInt64.toNat_ofNat'] at same
  omega

/-- **The numbering of identities.** Requests are answered with consecutive words from the one
that a source starts with, modulo `2 ^ 64`, and the largest word is refused instead of being
issued. So identities ascend strictly along requests in a row of which none is refused, and
among at most `2 ^ 64` requests in a row none is issued twice. A refusal is not the end: the
next request is granted, from zero on. Two requests that are granted are given the same
identity exactly when they are a multiple of `2 ^ 64` requests apart. -/
theorem requests_numbered (source : UidSource) (count : Nat) :
    (∀ k, k < count → (source.requests count)[k]? = some (reply (source.upcoming.toNat + k))) ∧
    (∀ stretch, stretch <:+: source.requests count →
      (∀ answer ∈ stretch, answer.1 ≠ .error .uidsExhausted) →
        (issued stretch).Pairwise (· < ·)) ∧
    (∀ stretch, stretch <:+: source.requests count → stretch.length ≤ 2 ^ 64 →
      (issued stretch).Nodup) ∧
    (∀ k, k + 1 < count →
      (source.requests count)[k]?.map Prod.fst = some (.error .uidsExhausted) →
        (source.requests count)[k + 1]? = some (.ok ⟨0⟩, 1)) ∧
    ∀ i j uid, i < count → j < count →
      (source.requests count)[i]?.map Prod.fst = some (.ok uid) →
        ((source.requests count)[j]?.map Prod.fst = some (.ok uid) ↔ i % 2 ^ 64 = j % 2 ^ 64) := by
  refine ⟨fun k asked => source.getElem?_requests asked, fun stretch inside granted => ?_,
    fun stretch inside few => ?_, fun k asked refused => ?_,
    fun i j uid iAsked jAsked granted => ?_⟩
  · obtain ⟨first, size, rfl⟩ := exists_range'_of_isInfix inside
    exact pairwise_issued granted
  · obtain ⟨first, size, rfl⟩ := exists_range'_of_isInfix inside
    rw [List.length_map, List.length_range'] at few
    exact nodup_issued few
  · rw [getElem?_requests source (Nat.lt_of_succ_lt asked), Option.map_some, Option.some.injEq,
      reply_refused_iff] at refused
    rw [getElem?_requests source asked, ← Nat.add_assoc, reply_of_refused refused]
  · rw [getElem?_requests source iAsked, Option.map_some, Option.some.injEq,
      reply_granted_iff] at granted
    obtain ⟨remaining, rfl⟩ := granted
    rw [getElem?_requests source jAsked, Option.map_some, Option.some.injEq, reply_granted_iff,
      Uid.mk.injEq, ← UInt64.toNat_inj, UInt64.toNat_ofNat', UInt64.toNat_ofNat']
    omega

/-- Behind a refusal the identities start from zero. -/
theorem requests_numbered_acrossRefusal :
    (requests ⟨18446744073709551614⟩ 4)[1]?.map Prod.fst = some (.error .uidsExhausted) ∧
      (requests ⟨18446744073709551614⟩ 4)[2]? = some (.ok ⟨0⟩, 1) ∧
      ((requests ⟨18446744073709551614⟩ 4).drop 2).map Prod.fst = [.ok ⟨0⟩, .ok ⟨1⟩] ∧
      (issued ((requests ⟨18446744073709551614⟩ 4).drop 2)).Pairwise (· < ·) := by
  obtain ⟨-, ascends, -, restarts, -⟩ := requests_numbered ⟨18446744073709551614⟩ 4
  have refused : (requests ⟨18446744073709551614⟩ 4)[1]?.map Prod.fst =
      some (.error .uidsExhausted) := by decide
  have granted : ((requests ⟨18446744073709551614⟩ 4).drop 2).map Prod.fst =
      [.ok ⟨0⟩, .ok ⟨1⟩] := by decide
  refine ⟨refused, restarts 1 (by decide) refused, granted,
    ascends _ (List.drop_suffix 2 _).isInfix fun answer member exhausted => ?_⟩
  have listed := List.mem_map_of_mem (f := Prod.fst) member
  rw [granted, exhausted] at listed
  exact absurd listed (by decide)

/-- Identities do not ascend across a refusal, requests behind it are granted, and in the
long run an identity is issued again. -/
theorem numbering_restarts :
    requests ⟨18446744073709551614⟩ 3 =
      [(.ok ⟨18446744073709551614⟩, 18446744073709551615), (.error .uidsExhausted, 0),
        (.ok ⟨0⟩, 1)] ∧
    ¬ (issued (requests ⟨18446744073709551614⟩ 3)).Pairwise (· < ·) ∧
    (requests ⟨0⟩ (2 ^ 64 + 1))[0]? = some (.ok ⟨0⟩, 1) ∧
    (requests ⟨0⟩ (2 ^ 64 + 1))[2 ^ 64]? = some (.ok ⟨0⟩, 1) := by
  have restarted : reply (2 ^ 64) = (.ok ⟨0⟩, 1) :=
    @reply_of_refused (2 ^ 64 - 1) (by decide)
  refine ⟨by decide, by decide, getElem?_requests ⟨0⟩ (by decide), ?_⟩
  rw [← restarted]
  exact getElem?_requests ⟨0⟩ (by decide)

end MixedInteger.UidSource
