import MixedInteger.Proofs.Stream.Content

/-! # What a source delivers

A source delivers a sequence of bytes when its pieces, none of them empty, make
up the sequence before its end, however often reads are interrupted in between.
Frames and the end of the stream are found as if all bytes were there at once.
-/

namespace MixedInteger.Source

/-- Whether a source delivers exactly certain bytes before its end. -/
inductive Delivers : Source → Bytes → Prop where
  /-- A source without deliveries is at its end. -/
  | nil : Delivers [] []
  /-- One read finds the end of the stream. -/
  | ended (source : Source) : Delivers (.ended :: source) []
  /-- A piece comes before the bytes that follow it. -/
  | chunk (first : UInt8) (piece : Bytes) {source : Source} {bytes : Bytes}
      (rest : Delivers source bytes) :
      Delivers (.chunk (first :: piece) :: source) (first :: piece ++ bytes)
  /-- Nothing is lost by an interruption. -/
  | interrupted {source : Source} {bytes : Bytes} (rest : Delivers source bytes) :
      Delivers (.interrupted :: source) bytes

/-- The part of a frame that is cut short when only some first bytes of the frame are
there. -/
def brokenPart (body front : Bytes) : Part :=
  if front.length < (Varint.encode body.length).length then .frameLength else .frameBody

namespace Delivers

variable {source : Source} {bytes : Bytes}

theorem single (bytes : Bytes) (nonempty : bytes ≠ []) : Delivers [.chunk bytes] bytes := by
  obtain ⟨first, piece, rfl⟩ := List.exists_cons_of_ne_nil nonempty
  have delivers := chunk first piece nil
  rwa [List.append_nil] at delivers

/-- To deliver bytes is to carry them up to the end of the stream. -/
theorem carries (delivers : source.Delivers bytes) : source.Carries bytes .ended := by
  induction delivers with
  | nil => exact .nil
  | ended source => exact .ended source
  | chunk first piece _ ih => exact .chunk first piece ih
  | interrupted _ ih => exact .interrupted ih

theorem of_carries {ending : Ending} (carries : source.Carries bytes ending)
    (ended : ending = .ended) : source.Delivers bytes := by
  induction carries with
  | nil => exact nil
  | ended source => exact Delivers.ended source
  | failed text source => cases ended
  | chunk first piece _ ih => exact chunk first piece (ih ended)
  | interrupted _ ih => exact interrupted (ih ended)

/-- The frame at the front of the stream is found. -/
theorem readFrame_frameOf {body : Bytes} (delivers : source.Delivers (frameOf body ++ bytes))
    (fits : body.length < 2 ^ 64) :
    ∃ rest, readFrame source = (.ok (some body), rest) ∧ rest.Delivers bytes := by
  obtain ⟨rest, read, carried⟩ := delivers.carries.readFrame_of_isFrame (isFrame_frameOf fits)
  exact ⟨rest, read, of_carries carried rfl⟩

/-- A stream that ends inside a frame is cut short. -/
theorem readFrame_cut {body : Bytes} (delivers : source.Delivers bytes)
    (fits : body.length < 2 ^ 64) (cut : bytes <+: frameOf body) (strict : bytes ≠ frameOf body)
    (started : bytes ≠ []) :
    ∃ rest, readFrame source = (.error (.truncated (brokenPart body bytes)), rest) := by
  obtain ⟨rest, read⟩ :=
    delivers.carries.readFrame_of_noFrame ((isFrame_frameOf fits).noFrame_of_cut cut strict)
  have form := Varint.isForm_encode fits
  have notOverlong : ¬ Varint.Overlong bytes := fun overlong =>
    form.not_overlong (overlong.extend cut)
  have part : Varint.Unfinished bytes ↔ bytes.length < (Varint.encode body.length).length :=
    form.unfinished_iff cut
  refine ⟨rest, ?_⟩
  rw [read, Ending.fault?, if_neg notOverlong, brokenPart]
  simp only [started, part, ↓reduceIte, Option.elim_some]

theorem readFrame_nil (delivers : source.Delivers []) :
    ∃ rest, readFrame source = (.ok none, rest) :=
  delivers.carries.readFrame_of_noFrame noFrame_nil

end Delivers

end MixedInteger.Source
