import MixedInteger.Proofs.Telemetry.Outage
import MixedInteger.Proofs.Telemetry.Recovery

/-! # Reading after a failure

A frame that has been written in part takes the bytes behind it for its own. What
comes after it cannot be trusted: the reader may lose messages that were
acknowledged and find messages that were never sent
(`Writer.acknowledged_lost_by_retry`). What came before is safe, and as long as a sink
accepts nothing behind a part of a frame, the reader finds the acknowledged messages
and no others (`Writer.messages_after_failure`).
-/

namespace MixedInteger

/-- The messages among the items of a stream. -/
def Reader.messages (reader : Reader) : List Message := reader.items.filterMap Except.toOption

/-- A reader gets the messages at the front of a delivery, and then reads on as if the rest were all
there was. -/
theorem Reader.exists_messages_eq_append {source : Source} {messages : List Message}
    {tail : Bytes} (delivers : source.Delivers (messages.flatMap Message.frame ++ tail))
    (fits : ∀ message ∈ messages, message.encode.length < 2 ^ 64) :
    ∃ rest : Source, rest.Delivers tail ∧
      Reader.messages { source } = messages ++ Reader.messages { source := rest } := by
  rw [flatMap_frame] at delivers
  obtain ⟨rest, left, items⟩ := exists_items_eq_append delivers (List.forall_mem_map.mpr fits)
  refine ⟨rest, left, ?_⟩
  rw [map_decode_encode fits] at items
  rw [Reader.messages, items, List.filterMap_append, List.filterMap_map]
  exact congrArg (· ++ _) List.filterMap_some

/-- There is no message in the first bytes of a frame. -/
theorem Reader.messages_cut {source : Source} {body front : Bytes}
    (delivers : source.Delivers front) (fits : body.length < 2 ^ 64)
    (cut : front <+: frameOf body) (strict : front ≠ frameOf body) :
    Reader.messages { source } = [] := by
  rw [Reader.messages, items_cut delivers fits cut strict, remnant]
  split <;> rfl

namespace Writer

/-- Whether the sink has accepted a part of a frame and failed. -/
def Entry.isPartial : Entry → Bool
  | ⟨_, .error (.io _), _ :: _⟩ => true
  | _ => false

/-- Whether the sink has accepted nothing behind a part of a frame. -/
def Unbroken (log : List Entry) : Prop :=
  log.Pairwise fun entry later => entry.isPartial = true → later.accepted = []

instance (log : List Entry) : Decidable (Unbroken log) :=
  inferInstanceAs (Decidable (log.Pairwise _))

variable {options : TelemetryOptions} {log front back : List Entry} {entry : Entry}
  {source : Source}

theorem frame_ne_nil (message : Message) : message.frame ≠ [] := by
  rw [Message.frame, frameOf]
  exact List.append_ne_nil_of_left_ne_nil (Varint.encode_ne_nil _) _

/-- A call for which the sink has accepted nothing is not acknowledged. -/
theorem Leaves.acknowledged?_eq_none (leaves : Leaves options entry)
    (nothing : entry.accepted = []) : entry.acknowledged? options = none := by
  cases leaves with
  | flushed answer => rfl
  | approved timed => exact absurd nothing (frame_ne_nil _)
  | contradicted timed error => exact absurd nothing (frame_ne_nil _)
  | failed timed text cut strict => rfl

/-- Unless it is a part of a frame, what the sink has accepted is the frame of the
message that is acknowledged. -/
theorem Leaves.accepted_eq (leaves : Leaves options entry) (whole : entry.isPartial = false) :
    entry.accepted = (entry.acknowledged? options).toList.flatMap Message.frame := by
  cases leaves with
  | flushed answer => rfl
  | approved timed => exact (List.append_nil _).symm
  | contradicted timed error => exact (List.append_nil _).symm
  | @failed timed text part cut strict =>
      cases part with
      | nil => rfl
      | cons byte bytes => cases whole

/-- An entry that left part of a frame in the sink is a call that nothing acknowledged. -/
theorem Leaves.of_isPartial (leaves : Leaves options entry) (broken : entry.isPartial = true) :
    ∃ timed, entry.request = .call timed ∧ entry.acknowledged? options = none ∧
      entry.accepted <+: (options.message timed).frame ∧
      entry.accepted ≠ (options.message timed).frame := by
  cases leaves with
  | flushed answer => obtain (_ | _) | _ := answer <;> cases broken
  | approved timed => cases broken
  | contradicted timed error => cases broken
  | failed timed text cut strict => exact ⟨timed, rfl, rfl, cut, strict⟩

/-- What is acknowledged in two logs in a row is what is in the first, then what is in the
second. -/
theorem acknowledged_append (options : TelemetryOptions) (front back : List Entry) :
    acknowledged options (front ++ back) =
      acknowledged options front ++ acknowledged options back := List.flatMap_append

/-- Entries that acknowledge nothing add no message. -/
theorem acknowledged_eq_nil (nothing : ∀ entry ∈ log, entry.acknowledged? options = none) :
    acknowledged options log = [] := by
  refine List.flatMap_eq_nil_iff.mpr fun entry member => ?_
  rw [nothing entry member]
  rfl

/-- Every acknowledged message is that of a call in the log. -/
theorem exists_call_of_acknowledged {message : Message}
    (member : message ∈ acknowledged options log) :
    ∃ timed, .call timed ∈ log.map Entry.request ∧ message = options.message timed := by
  obtain ⟨entry, inLog, found⟩ := List.mem_flatMap.mp member
  rw [Option.mem_toList] at found
  obtain ⟨request, answer, accepted⟩ := entry
  have inRequests : request ∈ log.map Entry.request := List.mem_map_of_mem inLog
  cases request with
  | flush => cases found
  | call timed =>
      refine ⟨timed, inRequests, ?_⟩
      match answer, found with
      | .ok (), found | .error (.protocol _), found => exact (Option.some.inj found).symm

/-- The part of a log in which no frame is cut short gives the messages that are
acknowledged in it. -/
theorem exists_messages_eq_acknowledged_append
    (delivers : source.Delivers ((front ++ back).flatMap Entry.accepted))
    (leaves : ∀ entry ∈ front, Leaves options entry)
    (whole : ∀ entry ∈ front, entry.isPartial = false)
    (fits : ∀ message ∈ acknowledged options front, message.encode.length < 2 ^ 64) :
    ∃ rest : Source, rest.Delivers (back.flatMap Entry.accepted) ∧
      Reader.messages { source } =
        acknowledged options front ++ Reader.messages { source := rest } := by
  have frames : front.flatMap Entry.accepted =
      (acknowledged options front).flatMap Message.frame := by
    rw [acknowledged, List.flatMap_assoc]
    exact List.flatMap_congr fun entry member =>
      (leaves entry member).accepted_eq (whole entry member)
  rw [List.flatMap_append, frames] at delivers
  exact Reader.exists_messages_eq_append delivers fits

/-- The part of an unbroken log that starts with a part of a frame gives no messages, and
none are acknowledged in it. -/
theorem messages_of_isPartial
    (delivers : source.Delivers ((entry :: back).flatMap Entry.accepted))
    (leaves : ∀ later ∈ entry :: back, Leaves options later)
    (broken : entry.isPartial = true) (unbroken : Unbroken (entry :: back))
    (fits : ∀ timed, entry.request = .call timed →
      (options.message timed).encode.length < 2 ^ 64) :
    Reader.messages { source } = [] ∧ acknowledged options (entry :: back) = [] := by
  obtain ⟨first, others⟩ := List.forall_mem_cons.mp leaves
  obtain ⟨timed, called, unanswered, cut, strict⟩ := first.of_isPartial broken
  have nothing : ∀ later ∈ back, later.accepted = [] := fun later member =>
    (List.pairwise_cons.mp unbroken).1 later member broken
  constructor
  · rw [List.flatMap_cons, List.flatMap_eq_nil_iff.mpr nothing, List.append_nil] at delivers
    exact Reader.messages_cut delivers (fits timed called) cut strict
  · exact acknowledged_eq_nil (List.forall_mem_cons.mpr ⟨unanswered, fun later member =>
      (others later member).acknowledged?_eq_none (nothing later member)⟩)

/-- **Messages are safe until a frame is written in part.** From what the sink has
received, a reader decodes the messages that were acknowledged up to the first frame
that was cut short. If the sink accepts nothing behind such a frame, it decodes exactly
the messages of the calls that were answered with success or a protocol error, in
order. Every message has to fit a frame whose length is a 64-bit number. -/
theorem messages_after_failure {options : TelemetryOptions} (enabled : options.enabled = true)
    {plan : List WriteOutcome} {requests : List Request} {log : List Entry} {writer : Writer}
    (served : service { options, sink := { plan } } requests = (log, writer))
    (fits : ∀ timed, .call timed ∈ requests → (options.message timed).encode.length < 2 ^ 64)
    {source : Source} (delivers : source.Delivers writer.sink.received) :
    (∀ front back, log = front ++ back → (∀ entry ∈ front, entry.isPartial = false) →
      acknowledged options front <+: Reader.messages { source }) ∧
    (Unbroken log → Reader.messages { source } = acknowledged options log) := by
  let start : Writer := { options, sink := { plan } }
  have startEnabled : start.options.enabled = true := enabled
  obtain ⟨same, leaves, -, received, -, -⟩ := service_spec startEnabled requests
  rw [served] at same leaves received
  have received : writer.sink.received = log.flatMap Entry.accepted := received
  rw [received] at delivers
  rw [← same] at fits
  have fitting : ∀ message ∈ acknowledged options log, message.encode.length < 2 ^ 64 := by
    intro message member
    obtain ⟨timed, called, rfl⟩ := exists_call_of_acknowledged member
    exact fits timed called
  have found (front back : List Entry) (parts : log = front ++ back)
      (whole : ∀ entry ∈ front, entry.isPartial = false) :=
    exists_messages_eq_acknowledged_append (parts ▸ delivers)
      (fun entry member => leaves entry (parts ▸ List.mem_append_left back member)) whole
      fun message member => fitting message (by
        rw [parts, acknowledged_append]
        exact List.mem_append_left _ member)
  refine ⟨fun front back parts whole => ?_, fun unbroken => ?_⟩
  · obtain ⟨rest, -, messages⟩ := found front back parts whole
    exact ⟨_, messages.symm⟩
  · cases torn : log.find? Entry.isPartial with
    | none =>
        have whole : ∀ entry ∈ log, entry.isPartial = false := by
          simpa using List.find?_eq_none.mp torn
        obtain ⟨rest, left, messages⟩ := found log [] (List.append_nil log).symm whole
        have ended : Reader.messages { source := rest } = [] :=
          congrArg (List.filterMap _) (Reader.items_nil left)
        rw [messages, ended, List.append_nil]
    | some entry =>
        obtain ⟨broken, front, back, rfl, whole⟩ := List.find?_eq_some_iff_append.mp torn
        obtain ⟨rest, left, messages⟩ := found front (entry :: back) rfl (by simpa using whole)
        have behind (later : Entry) (member : later ∈ entry :: back) :
            later ∈ front ++ entry :: back := List.mem_append_right front member
        obtain ⟨silent, unanswered⟩ := messages_of_isPartial left
          (fun later member => leaves later (behind later member)) broken
          (List.pairwise_append.mp unbroken).2.1 fun timed called =>
            fits timed (called ▸ List.mem_map_of_mem (behind entry List.mem_cons_self))
        rw [messages, silent, acknowledged_append, unanswered]

/-- The settings of a writer whose frames are short. -/
def terse : TelemetryOptions := { name := "n", runId := "r" }

/-- A call whose frame has eighteen bytes. -/
def greeting : TimedCall := ⟨0, .text 1 "hello"⟩

/-- A sink that fails at once, accepts a frame, and fails again inside the next one. -/
def failingTwice : List WriteOutcome :=
  [.fail "disk full", .accept 18, .accept 13, .fail "disk full"]

/-- The frame that such a sink accepts whole is all that a reader gets. -/
theorem messages_after_failure_failingTwice :
    let (log, writer) := service { options := terse, sink := { plan := failingTwice } }
      [.call greeting, .call greeting, .call greeting]
    log.map Entry.answer = [.error (.io "disk full"), .ok (), .error (.io "disk full")] ∧
      Reader.messages { source := [.chunk writer.sink.received] } = [terse.message greeting] := by
  have fits (timed : TimedCall)
      (called : .call timed ∈ [.call greeting, .call greeting, Request.call greeting]) :
      (terse.message timed).encode.length < 2 ^ 64 := by
    have same : timed = greeting := by simpa using called
    subst same
    decide +kernel
  obtain ⟨-, unbroken⟩ := messages_after_failure (rfl : terse.enabled = true)
    (rfl : service { options := terse, sink := { plan := failingTwice } } _ = (_, _))
    fits (Source.Delivers.single _ (by decide +kernel))
  refine ⟨by decide +kernel, (unbroken (by decide +kernel)).trans ?_⟩
  decide +kernel

/-- A message that nobody has sent. Its content is the start of a frame of `greeting`. -/
def intruder : Message := ⟨"n", "r", 0, .text ⟨1, "\u0011\n\u0001n\u0012"⟩⟩

/-- What the sink has received when an attempt at `greeting` has failed after 13 bytes and
another one has succeeded. -/
def overrun : Bytes := (terse.message greeting).frame.take 13 ++ (terse.message greeting).frame

/-- The part of a frame swallows the start of the next one, and the rest of that one is no
message. -/
theorem items_overrun :
    Reader.items { source := [.chunk overrun] } =
      [.ok intruder, .error (.truncated .varint), .error (.truncated .frameBody)] := by
  have first : Reader.next { source := [.chunk overrun] } =
      (some (.ok intruder), { source := [.chunk (overrun.drop 18)] }) := by decide +kernel
  have second : Reader.next { source := [.chunk (overrun.drop 18)] } =
      (some (.error (.truncated .varint)), { source := [.chunk (overrun.drop 20)] }) := by
    decide +kernel
  have third : Reader.next { source := [.chunk (overrun.drop 20)] } =
      (some (.error (.truncated .frameBody)), { source := [], isDone := true }) := by
    decide +kernel
  rw [Reader.items_eq_cons first, Reader.items_eq_cons second, Reader.items_eq_cons third,
    Reader.items_eq_nil (Reader.next_of_isDone rfl)]

/-- The first attempt leaves a part of its frame behind. The second one is answered with
success, but its message cannot be read. -/
theorem acknowledged_lost_by_retry :
    let (log, writer) := service
      { options := terse, sink := { plan := [.accept 13, .fail "disk full"] } }
      [.call greeting, .call greeting]
    log.map Entry.answer = [.error (.io "disk full"), .ok ()] ∧
      acknowledged terse log = [terse.message greeting] ∧
      Reader.messages { source := [.chunk writer.sink.received] } = [intruder] ∧
      intruder ≠ terse.message greeting := by
  have received : (service
      { options := terse, sink := { plan := [.accept 13, .fail "disk full"] } }
      [.call greeting, .call greeting]).2.sink.received = overrun := by decide +kernel
  have messages : Reader.messages { source := [.chunk overrun] } = [intruder] := by
    rw [Reader.messages, items_overrun]
    rfl
  rw [← received] at messages
  exact ⟨by decide +kernel, by decide +kernel, messages, by decide +kernel⟩

end Writer

end MixedInteger
