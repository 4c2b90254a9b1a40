import MixedInteger.Proofs.Stream.Delivery
import MixedInteger.Proofs.Telemetry.RoundTrip
import MixedInteger.Telemetry.Reader

/-! # Recovering frames

A reader finds on a stream of frames what their bodies decode to, whether or not
they are messages. If the stream ends inside a frame, one error follows, and
nothing comes after it (`Reader.recovers_frames`).
-/

namespace MixedInteger

namespace Reader

/-- A reader that finds nothing next has no items. -/
theorem items_eq_nil {reader after : Reader} (read : reader.next = (none, after)) :
    reader.items = [] := by
  rw [items]
  split
  · rfl
  · rename_i found
    rw [read] at found
    cases found

/-- What a reader finds next is the first of its items. -/
theorem items_eq_cons {reader after : Reader} {item : Except WireError Message}
    (read : reader.next = (some item, after)) : reader.items = item :: after.items := by
  rw [items]
  split
  · rename_i found
    rw [read] at found
    cases found
  · rename_i found
    rw [read] at found
    cases found
    rfl

/-- A reader that is done stays as it is. -/
theorem next_of_isDone {reader : Reader} (done : reader.isDone = true) :
    reader.next = (none, reader) := by
  rw [next, if_pos done]

/-- A reader that has found the end of its stream is done. -/
theorem isDone_of_next_eq_none {reader after : Reader} (read : reader.next = (none, after)) :
    after.isDone = true := by
  unfold next at read
  split at read
  · rename_i done
    cases read
    exact done
  · split at read <;> cases read
    rfl

/-- The reader after a number of calls. -/
def after (reader : Reader) : Nat → Reader
  | 0 => reader
  | calls + 1 => reader.next.2.after calls

/-- The answer to a call, the first call being number zero. -/
def answer (reader : Reader) (call : Nat) : Option (Except WireError Message) :=
  (reader.after call).next.1

/-- The calls are answered with the items, and with nothing from then on. -/
theorem answer_eq_getElem? (reader : Reader) (call : Nat) :
    reader.answer call = reader.items[call]? := by
  induction call generalizing reader with
  | zero =>
      cases read : reader.next with
      | mk item behind =>
          cases item with
          | none => rw [answer, after, read, items_eq_nil read]; rfl
          | some item => rw [answer, after, read, items_eq_cons read]; rfl
  | succ call ih =>
      have shifted : reader.answer (call + 1) = reader.next.2.answer call := rfl
      rw [shifted, ih]
      cases read : reader.next with
      | mk item behind =>
          cases item with
          | none =>
              rw [items_eq_nil read, items_eq_nil (next_of_isDone (isDone_of_next_eq_none read))]
              rfl
          | some item => rw [items_eq_cons read]; rfl

/-- The items of a stream that starts with frames are what the bodies decode to, and
then those of a source that delivers the rest. -/
theorem exists_items_eq_append {source : Source} {bodies : List Bytes} {tail : Bytes}
    (delivers : source.Delivers (bodies.flatMap frameOf ++ tail))
    (fits : ∀ body ∈ bodies, body.length < 2 ^ 64) :
    ∃ rest : Source, rest.Delivers tail ∧
      Reader.items { source } = bodies.map Message.decode ++ Reader.items { source := rest } := by
  induction bodies generalizing source with
  | nil => exact ⟨source, delivers, rfl⟩
  | cons body bodies ih =>
      rw [List.flatMap_cons, List.append_assoc] at delivers
      obtain ⟨behind, frame, delivered⟩ :=
        delivers.readFrame_frameOf (fits body List.mem_cons_self)
      have first :
          Reader.next { source } = (some (Message.decode body), { source := behind }) := by
        simp only [next, frame, Bool.false_eq_true, ↓reduceIte]
      obtain ⟨rest, left, items⟩ :=
        ih delivered fun later member => fits later (List.mem_cons_of_mem body member)
      refine ⟨rest, left, ?_⟩
      rw [items_eq_cons first, List.map_cons, List.cons_append, items]

/-- The items of a stream of frames are what the bodies decode to, and then the items of the
tail. -/
theorem items_frames_append {source : Source} {bodies : List Bytes} {tail : Bytes}
    {last : List (Except WireError Message)}
    (delivers : source.Delivers (bodies.flatMap frameOf ++ tail))
    (fits : ∀ body ∈ bodies, body.length < 2 ^ 64)
    (ending : ∀ rest : Source, rest.Delivers tail → Reader.items { source := rest } = last) :
    Reader.items { source } = bodies.map Message.decode ++ last := by
  obtain ⟨rest, left, items⟩ := exists_items_eq_append delivers fits
  rw [items, ending rest left]

/-- An empty stream has no items. -/
theorem items_nil {source : Source} (delivers : source.Delivers []) :
    Reader.items { source } = [] := by
  obtain ⟨rest, ended⟩ := delivers.readFrame_nil
  have last : Reader.next { source } = (none, ⟨rest, true⟩) := by
    simp only [next, ended, Bool.false_eq_true, ↓reduceIte]
  exact items_eq_nil last

/-- The items of a stream of frames are what the bodies decode to, in order. -/
theorem items_frames {source : Source} {bodies : List Bytes}
    (delivers : source.Delivers (bodies.flatMap frameOf))
    (fits : ∀ body ∈ bodies, body.length < 2 ^ 64) :
    Reader.items { source } = bodies.map Message.decode := by
  rw [← List.append_nil (bodies.flatMap frameOf)] at delivers
  rw [items_frames_append delivers fits fun rest delivered => items_nil delivered,
    List.append_nil]

/-- The messages are what their encodings decode to. -/
theorem map_decode_encode {messages : List Message}
    (fits : ∀ message ∈ messages, message.encode.length < 2 ^ 64) :
    (messages.map Message.encode).map Message.decode = messages.map .ok := by
  rw [List.map_map]
  refine List.map_congr_left fun message member => ?_
  rw [Function.comp_apply, Message.decode, message.mergeFields_encode (fits message member)]
  rfl

/-- The frames of messages are those of their encodings. -/
theorem flatMap_frame (messages : List Message) :
    messages.flatMap Message.frame = (messages.map Message.encode).flatMap frameOf := by
  rw [List.flatMap_map]
  rfl

/-- The items of a stream of framed messages are the messages, in order. -/
theorem items_messages {source : Source} {messages : List Message}
    (delivers : source.Delivers (messages.flatMap Message.frame))
    (fits : ∀ message ∈ messages, message.encode.length < 2 ^ 64) :
    Reader.items { source } = messages.map .ok := by
  rw [flatMap_frame] at delivers
  rw [items_frames delivers (List.forall_mem_map.mpr fits), map_decode_encode fits]

/-- What a reader finds of a frame of which only some first bytes are there: an error
that says where the frame is cut short, but nothing if there are no such bytes. -/
def remnant (body front : Bytes) : List (Except WireError Message) :=
  if front.isEmpty then [] else [.error (.truncated (Source.brokenPart body front))]

/-- The items of a stream that consists of the first bytes of a frame. -/
theorem items_cut {source : Source} {body front : Bytes} (delivers : source.Delivers front)
    (fits : body.length < 2 ^ 64) (cut : front <+: frameOf body) (strict : front ≠ frameOf body) :
    Reader.items { source } = remnant body front := by
  cases front with
  | nil => exact items_nil delivers
  | cons byte bytes =>
      obtain ⟨rest, broken⟩ := delivers.readFrame_cut fits cut strict (List.cons_ne_nil _ _)
      have error : Reader.next { source } =
          (some (.error (.truncated (Source.brokenPart body (byte :: bytes)))), ⟨rest, true⟩) := by
        simp only [next, broken, Bool.false_eq_true, ↓reduceIte]
      rw [items_eq_cons error, items_eq_nil (next_of_isDone rfl)]
      rfl

/-- A cut through a stream of frames leaves a number of complete frames, and perhaps
the first bytes of the frame after them. -/
theorem exists_complete {bodies : List Bytes} {cut : Bytes}
    (isCut : cut <+: bodies.flatMap frameOf) :
    ∃ count ≤ bodies.length,
      (∀ later ≤ bodies.length, (bodies.take later).flatMap frameOf <+: cut ↔ later ≤ count) ∧
      (cut = (bodies.take count).flatMap frameOf ∨
        ∃ next ∈ bodies, ∃ front, front ≠ [] ∧ front <+: frameOf next ∧ front ≠ frameOf next ∧
          cut = (bodies.take count).flatMap frameOf ++ front) := by
  induction bodies generalizing cut with
  | nil =>
      refine ⟨0, Nat.le_refl 0, fun later none => ?_, Or.inl (List.prefix_nil.mp isCut)⟩
      rw [Nat.le_zero.mp none]
      exact iff_of_true (List.nil_prefix) (Nat.le_refl 0)
  | cons body bodies ih =>
      rw [List.flatMap_cons] at isCut
      by_cases whole : frameOf body <+: cut
      · obtain ⟨behind, rfl⟩ := whole
        obtain ⟨count, bound, complete, ends⟩ := ih ((List.prefix_append_right_inj _).mp isCut)
        refine ⟨count + 1, Nat.succ_le_succ bound, fun later inside => ?_, ?_⟩
        · cases later with
          | zero => exact iff_of_true List.nil_prefix (Nat.zero_le _)
          | succ later =>
              rw [List.take_succ_cons, List.flatMap_cons, List.prefix_append_right_inj,
                complete later (Nat.le_of_succ_le_succ inside), Nat.succ_le_succ_iff]
        · rw [List.take_succ_cons, List.flatMap_cons]
          rcases ends with rfl | ⟨next, member, front, started, broken, strict, rfl⟩
          · exact Or.inl rfl
          · exact Or.inr ⟨next, List.mem_cons_of_mem body member, front, started, broken, strict,
              (List.append_assoc ..).symm⟩
      · refine ⟨0, Nat.zero_le _, fun later _ => ?_, ?_⟩
        · cases later with
          | zero => exact iff_of_true List.nil_prefix (Nat.le_refl 0)
          | succ later =>
              rw [List.take_succ_cons, List.flatMap_cons]
              exact iff_of_false
                (fun complete => whole ((List.prefix_append _ _).trans complete))
                (Nat.not_succ_le_zero later)
        · have inFirst : cut <+: frameOf body :=
            (List.prefix_or_prefix_of_prefix isCut (List.prefix_append _ _)).resolve_right whole
          by_cases empty : cut = []
          · exact Or.inl empty
          · exact Or.inr ⟨body, List.mem_cons_self, cut, empty, inFirst,
              fun same => whole (same ▸ List.prefix_refl _), rfl⟩

/-- Reading what is left of a stream of frames. Complete frames give what their bodies
decode to, and the first bytes of one more frame give one error; every later call is
answered with nothing. If the bodies are messages, a cut at any byte leaves exactly
the messages whose frames are complete. Every body has to fit a frame whose length is
a 64-bit number. -/
theorem recovers_frames :
    (∀ (bodies : List Bytes) (body front : Bytes) (source : Source),
      (∀ complete ∈ bodies, complete.length < 2 ^ 64) → body.length < 2 ^ 64 →
      front <+: frameOf body → front ≠ frameOf body →
      source.Delivers (bodies.flatMap frameOf ++ front) →
      ∀ call, Reader.answer { source } call =
        (bodies.map Message.decode ++ remnant body front)[call]?) ∧
    ∀ (messages : List Message) (cut : Bytes) (source : Source),
      (∀ message ∈ messages, message.encode.length < 2 ^ 64) →
      cut <+: messages.flatMap Message.frame → source.Delivers cut →
      ∃ count ≤ messages.length,
        (∀ later ≤ messages.length,
          (messages.take later).flatMap Message.frame <+: cut ↔ later ≤ count) ∧
        ∃ broken : List (Except WireError Message),
          (cut = (messages.take count).flatMap Message.frame ∧ broken = [] ∨
            cut ≠ (messages.take count).flatMap Message.frame ∧
              ∃ part, broken = [.error (.truncated part)]) ∧
          ∀ call, Reader.answer { source } call =
            ((messages.take count).map .ok ++ broken)[call]? := by
  constructor
  · intro bodies body front source fits lastFits cut strict delivers call
    rw [answer_eq_getElem?, items_frames_append delivers fits fun rest delivered =>
      items_cut delivered lastFits cut strict]
  · intro messages cut source fits isCut delivers
    rw [flatMap_frame] at isCut
    obtain ⟨count, bound, complete, ends⟩ := exists_complete isCut
    rw [List.length_map] at bound complete
    have frames (later : Nat) : ((messages.map Message.encode).take later).flatMap frameOf =
        (messages.take later).flatMap Message.frame := by
      rw [flatMap_frame, List.map_take]
    have lengths : ∀ body ∈ messages.map Message.encode, body.length < 2 ^ 64 :=
      List.forall_mem_map.mpr fits
    have taken : ∀ message ∈ messages.take count, message.encode.length < 2 ^ 64 :=
      fun message member => fits message (List.mem_of_mem_take member)
    simp only [frames] at complete ends
    refine ⟨count, bound, complete, ?_⟩
    rcases ends with rfl | ⟨body, member, front, started, isFront, strict, rfl⟩
    · refine ⟨[], Or.inl ⟨rfl, rfl⟩, fun call => ?_⟩
      rw [answer_eq_getElem?, items_messages delivers taken, List.append_nil]
    · refine ⟨remnant body front, Or.inr ⟨?_, Source.brokenPart body front, ?_⟩, fun call => ?_⟩
      · exact fun same => started (List.append_right_eq_self.mp same)
      · exact if_neg (by simpa using started)
      · rw [flatMap_frame] at delivers
        rw [answer_eq_getElem?, items_frames_append delivers (List.forall_mem_map.mpr taken)
          fun rest delivered => items_cut delivered (lengths body member) isFront strict,
          map_decode_encode taken]

/-- Bodies that are no messages: one has no payload, and one ends inside a number. -/
def garbled : List Bytes := [[24, 7], [128]]

/-- A message whose frame is cut short below. -/
def closing : Message := ⟨"n", "r", 4, .pruneNode ⟨⟨[1, 2]⟩⟩⟩

/-- Garbled bodies are answered one by one, a cut frame is answered once, and the message before a
cut is read whole. -/
theorem recovers_frames_garbled :
    (List.range 4).map (Reader.answer
        { source := [.chunk (garbled.flatMap frameOf ++ closing.frame.take 5)] }) =
      [some (.error .missingPayload), some (.error (.truncated .varint)),
        some (.error (.truncated .frameBody)), none] ∧
    Reader.answer { source := [.chunk ([closing, closing].flatMap Message.frame).dropLast] } 0 =
      some (.ok closing) := by
  obtain ⟨ofBodies, ofMessages⟩ := recovers_frames
  constructor
  · have decoded : garbled.map Message.decode =
        [.error .missingPayload, .error (.truncated .varint)] := by decide +kernel
    have broken : remnant closing.encode (closing.frame.take 5) =
        [.error (.truncated .frameBody)] := by decide +kernel
    have answers := ofBodies garbled closing.encode (closing.frame.take 5) _ (by decide +kernel)
      (by decide +kernel) (List.take_prefix _ _) (by decide +kernel)
      (Source.Delivers.single _ (by decide +kernel))
    rw [decoded, broken] at answers
    rw [List.map_congr_left fun call _ => answers call]
    rfl
  · obtain ⟨count, -, complete, broken, -, answers⟩ :=
      ofMessages [closing, closing] _ _ (by decide +kernel) (List.dropLast_prefix _)
        (Source.Delivers.single _ (by decide +kernel))
    have first : 1 ≤ count := (complete 1 (by decide)).mp (by decide +kernel)
    obtain ⟨more, rfl⟩ := Nat.exists_eq_add_of_le' first
    rw [answers]
    rfl

end Reader

end MixedInteger
