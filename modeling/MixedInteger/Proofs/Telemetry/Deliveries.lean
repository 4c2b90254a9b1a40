import MixedInteger.Proofs.Telemetry.Recovery

/-! # Deliveries of the same bytes

Which items a reader finds depends on the bytes that its source carries and on
what ends them, but not on the pieces in which they come nor on interruptions. The
complete frames give what their bodies decode to. A failure behind them is one
last item, unless the reader gives up the stream before it meets the failure: ten
bytes in place of a length that are all marked as being followed by another are
an error of their own (`Reader.answers_carried`).
-/

namespace MixedInteger

namespace Reader

variable {source : Source} {bytes tail : Bytes} {bodies : List Bytes} {ending : Source.Ending}

/-- A source without a complete frame gives at most one error. -/
theorem items_of_noFrame (carries : source.Carries tail ending) (noFrame : NoFrame tail) :
    Reader.items { source } = (ending.fault? tail).toList.map .error := by
  obtain ⟨rest, found⟩ := carries.readFrame_of_noFrame noFrame
  cases fault : ending.fault? tail with
  | none =>
      have last : Reader.next { source } = (none, ⟨rest, true⟩) := by
        simp only [next, found, fault, Option.elim_none, Bool.false_eq_true, ↓reduceIte]
      exact items_eq_nil last
  | some error =>
      have last : Reader.next { source } = (some (.error error), ⟨rest, true⟩) := by
        simp only [next, found, fault, Option.elim_some, Bool.false_eq_true, ↓reduceIte]
      rw [items_eq_cons last, items_eq_nil (next_of_isDone rfl)]
      rfl

/-- The items of a source are what the bodies of its frames decode to, and perhaps one
error behind them. -/
theorem items_carried (carries : source.Carries bytes ending) (frames : Frames bytes bodies tail) :
    Reader.items { source } =
      bodies.map Message.decode ++ (ending.fault? tail).toList.map .error := by
  induction frames generalizing source with
  | rest noFrame => exact items_of_noFrame carries noFrame
  | @next frame body bytes tail bodies isFrame _ ih =>
      obtain ⟨rest, read, carried⟩ := carries.readFrame_of_isFrame isFrame
      have first : Reader.next { source } = (some (Message.decode body), { source := rest }) := by
        simp only [next, read, Bool.false_eq_true, ↓reduceIte]
      rw [items_eq_cons first, ih carried, List.map_cons, List.cons_append]

/-- Reading does not depend on how the bytes are delivered. Two sources that carry the
same bytes before the same ending give the same answer to every call. Any bytes consist
of the frames that are complete in them, in one way, and of the bytes behind these
frames. If the source fails behind the bytes, the calls are answered with what the
bodies of the complete frames decode to, then with one error, and with nothing from
then on. The error is the failure of the source, except where the bytes behind the
frames start with ten bytes that are no length. -/
theorem answers_carried (bytes : Bytes) :
    (∀ (first second : Source) (ending : Source.Ending),
      first.Carries bytes ending → second.Carries bytes ending →
      ∀ call, Reader.answer { source := first } call = Reader.answer { source := second } call) ∧
    (∃! parts : List Bytes × Bytes, Frames bytes parts.1 parts.2) ∧
    ∀ (source : Source) (text : String) (bodies : List Bytes) (tail : Bytes),
      source.Carries bytes (.failed text) → Frames bytes bodies tail →
      ∀ call, Reader.answer { source } call =
        (bodies.map Message.decode ++
          [.error (if Varint.Overlong tail then .varintOverflow else .io text)])[call]? := by
  refine ⟨fun first second ending firstCarries secondCarries call => ?_,
    Frames.existsUnique bytes, fun source text bodies tail carries frames call => ?_⟩
  · obtain ⟨bodies, tail, frames⟩ := Frames.exists_frames bytes
    rw [answer_eq_getElem?, answer_eq_getElem?, items_carried firstCarries frames,
      items_carried secondCarries frames]
  · have fault : (Source.Ending.failed text).fault? tail =
        some (if Varint.Overlong tail then .varintOverflow else .io text) := by
      rw [Source.Ending.fault?]
      split <;> rfl
    rw [answer_eq_getElem?, items_carried carries frames, fault]
    rfl

/-- A frame and the first byte of a length. -/
def brokenOff : Bytes := closing.frame ++ [128]

/-- A source that delivers all bytes in one piece and then fails. -/
def atOnce : Source := [.chunk brokenOff, .failed "disk full"]

/-- The same bytes in three pieces, with interruptions around them. What comes behind the
failure is never read. -/
def piecewise : Source :=
  [.interrupted, .chunk (brokenOff.take 1), .interrupted, .interrupted,
    .chunk ((brokenOff.drop 1).take 7), .chunk (brokenOff.drop 8), .interrupted,
    .failed "disk full", .chunk [1]]

theorem answers_carried_piecewise :
    (List.range 3).map (Reader.answer { source := atOnce }) =
        [some (.ok closing), some (.error (.io "disk full")), none] ∧
      ∀ call,
        Reader.answer { source := piecewise } call = Reader.answer { source := atOnce } call := by
  obtain ⟨same, -, answers⟩ := answers_carried brokenOff
  have carries : atOnce.Carries brokenOff (.failed "disk full") := by decide +kernel
  have piecewiseCarries : piecewise.Carries brokenOff (.failed "disk full") := by decide +kernel
  have frames : Frames brokenOff [closing.encode] [128] :=
    .next (isFrame_frameOf (by decide +kernel))
      (.rest (noFrame_iff.mpr (Or.inr (Or.inl (by decide +kernel)))))
  have decoded : [closing.encode].map Message.decode = [.ok closing] := by decide +kernel
  refine ⟨?_, same _ _ _ piecewiseCarries carries⟩
  rw [List.map_congr_left fun call _ => answers _ _ _ _ carries frames call, decoded]
  rfl

/-- Ten bytes that are all marked as being followed by another. -/
def overlongLength : Bytes := List.replicate 10 128

/-- A source that fails behind bytes that are no length. -/
def failingLate : Source := [.chunk overlongLength, .failed "disk full"]

/-- A failure need not be met: no frame is complete in the bytes before it, but the one
error is that the length is too long. -/
theorem failure_hidden_by_overlongLength :
    failingLate.Carries overlongLength (.failed "disk full") ∧
      Frames overlongLength [] overlongLength ∧
      Reader.answer { source := failingLate } 0 = some (.error .varintOverflow) ∧
      Reader.answer { source := failingLate } 0 ≠ some (.error (.io "disk full")) := by
  have answer : Reader.answer { source := failingLate } 0 = some (.error .varintOverflow) := rfl
  refine ⟨by decide +kernel, .rest (noFrame_iff.mpr (Or.inl (by decide +kernel))), answer, ?_⟩
  rw [answer]
  exact nofun

end Reader

end MixedInteger
