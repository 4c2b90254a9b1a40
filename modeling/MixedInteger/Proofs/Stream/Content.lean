import MixedInteger.Proofs.Wire.Framing

/-! # What a source carries

A source carries a sequence of bytes up to its end or up to a failure when its
pieces, none of them empty, make up the sequence, however often reads are
interrupted in between. Reading depends on nothing else: every frame at the front
of the bytes is found, and what is found behind the last frame is determined by
the bytes that are left and by what ends them (`Carries.readFrame_of_noFrame`).
-/

namespace MixedInteger.Source

/-- What comes behind the bytes of a source. -/
inductive Ending where
  /-- The end of the stream. -/
  | ended
  /-- A read that fails. -/
  | failed (text : String)
  deriving DecidableEq, Repr

namespace Ending

variable {ε α : Type}

/-- The result of a read that runs into the ending: the failure, or what is made of the
end of the stream. -/
def meet (fault : String → ε) : Ending → (atEnd : Except ε α) → Except ε α
  | ended, atEnd => atEnd
  | failed text, _ => .error (fault text)

/-- The error, if there is one, that is found where the bytes that are left hold no
complete frame. A length that is too long is noticed before the ending is met, and the
end of the stream is no error between two frames. -/
def fault? (ending : Ending) (tail : Bytes) : Option WireError :=
  if Varint.Overlong tail then some .varintOverflow
  else
    match ending with
    | failed text => some (.io text)
    | ended =>
        if tail = [] then none
        else some (.truncated (if Varint.Unfinished tail then .frameLength else .frameBody))

end Ending

/-- Whether a source carries exactly certain bytes before an ending. -/
inductive Carries : Source → Bytes → Ending → Prop where
  /-- A source without deliveries is at its end. -/
  | nil : Carries [] [] .ended
  /-- One read finds the end of the stream, whatever comes behind it. -/
  | ended (source : Source) : Carries (.ended :: source) [] .ended
  /-- One read fails, whatever comes behind it. -/
  | failed (text : String) (source : Source) : Carries (.failed text :: source) [] (.failed text)
  /-- A piece comes before the bytes that follow it. -/
  | chunk (first : UInt8) (piece : Bytes) {source : Source} {bytes : Bytes} {ending : Ending}
      (rest : Carries source bytes ending) :
      Carries (.chunk (first :: piece) :: source) (first :: piece ++ bytes) ending
  /-- Nothing is lost by an interruption. -/
  | interrupted {source : Source} {bytes : Bytes} {ending : Ending}
      (rest : Carries source bytes ending) : Carries (.interrupted :: source) bytes ending

/-- The bytes and the ending that a source carries, if none of its pieces is empty. -/
def content? : Source → Option (Bytes × Ending)
  | [] => some ([], .ended)
  | .ended :: _ => some ([], .ended)
  | .failed text :: _ => some ([], .failed text)
  | .chunk [] :: _ => none
  | .chunk (first :: piece) :: source =>
      (content? source).map fun (bytes, ending) => (first :: piece ++ bytes, ending)
  | .interrupted :: source => content? source

theorem carries_iff {source : Source} {bytes : Bytes} {ending : Ending} :
    source.Carries bytes ending ↔ source.content? = some (bytes, ending) := by
  constructor
  · intro carries
    induction carries with
    | nil | ended | failed => rfl
    | chunk first piece _ ih => rw [content?, ih]; rfl
    | interrupted _ ih => rw [content?, ih]
  · intro found
    fun_induction content? source generalizing bytes with
    | case1 => cases found; exact .nil
    | case2 source => cases found; exact .ended source
    | case3 text source => cases found; exact .failed text source
    | case4 => cases found
    | case5 first piece source ih =>
        obtain ⟨⟨later, last⟩, carried, same⟩ := Option.map_eq_some_iff.mp found
        cases same
        exact .chunk first piece (ih carried)
    | case6 source ih => exact .interrupted (ih found)

instance (source : Source) (bytes : Bytes) (ending : Ending) :
    Decidable (source.Carries bytes ending) := decidable_of_iff _ carries_iff.symm

namespace Carries

variable {source : Source} {bytes : Bytes} {ending : Ending}

/-- A read of bytes that are there takes them off the source. -/
theorem readUpTo_eq (carries : source.Carries bytes ending) (count : Nat)
    (enough : count ≤ bytes.length) :
    ∃ rest, readUpTo count source = (.ok (bytes.take count), rest) ∧
      rest.Carries (bytes.drop count) ending := by
  induction carries generalizing count with
  | nil =>
      obtain rfl := Nat.le_zero.mp enough
      exact ⟨[], rfl, nil⟩
  | ended source =>
      obtain rfl := Nat.le_zero.mp enough
      exact ⟨_, rfl, ended source⟩
  | failed text source =>
      obtain rfl := Nat.le_zero.mp enough
      exact ⟨_, rfl, failed text source⟩
  | interrupted rest ih =>
      cases count with
      | zero => exact ⟨_, rfl, interrupted rest⟩
      | succ count =>
          rw [readUpTo]
          exact ih (count + 1) enough
  | @chunk first piece source bytes ending rest ih =>
      cases count with
      | zero => exact ⟨_, rfl, chunk first piece rest⟩
      | succ count =>
          rw [List.cons_append, List.take_succ_cons, List.drop_succ_cons, readUpTo]
          rw [List.cons_append, List.length_cons, List.length_append] at enough
          by_cases inside : count ≤ piece.length
          · -- the read ends inside the piece, whose rest is delivered by the next one
            rw [if_pos inside, List.take_append_of_le_length inside,
              List.drop_append_of_le_length inside]
            refine ⟨_, rfl, ?_⟩
            cases left : piece.drop count with
            | nil => exact rest
            | cons next later => exact chunk next later rest
          · obtain ⟨after, read, carried⟩ := ih (count - piece.length) (by omega)
            rw [if_neg inside, read]
            have beyond : piece.length ≤ count := by omega
            refine ⟨after, ?_, ?_⟩
            · rw [List.take_append, List.take_of_length_le beyond]
              rfl
            · rwa [List.drop_append, List.drop_of_length_le beyond, List.nil_append]

/-- A read of more bytes than are there runs into the ending. -/
theorem readUpTo_short (carries : source.Carries bytes ending) (count : Nat)
    (short : bytes.length < count) :
    ∃ rest, readUpTo count source = (ending.meet id (.ok bytes), rest) := by
  obtain ⟨count, rfl⟩ := Nat.exists_eq_add_of_lt (Nat.zero_lt_of_lt short)
  rw [Nat.zero_add] at short ⊢
  induction carries generalizing count with
  | nil => exact ⟨[], rfl⟩
  | ended source => exact ⟨source, rfl⟩
  | failed text source => exact ⟨source, rfl⟩
  | interrupted rest ih => exact ih count short
  | @chunk first piece source bytes ending rest ih =>
      rw [List.cons_append, List.length_cons, List.length_append] at short
      obtain ⟨after, read⟩ := ih (count - piece.length - 1) (by omega)
      rw [show count - piece.length - 1 + 1 = count - piece.length by omega] at read
      rw [readUpTo, if_neg (by omega), read]
      cases ending <;> exact ⟨after, rfl⟩

/-- A byte that is there is read. -/
theorem readByte_cons {byte : UInt8} (carries : source.Carries (byte :: bytes) ending) :
    ∃ rest, readByte source = (.ok (some byte), rest) ∧ rest.Carries bytes ending := by
  obtain ⟨rest, read, carried⟩ := carries.readUpTo_eq 1 (by simp)
  exact ⟨rest, by rw [readByte, read]; rfl, carried⟩

/-- Without a byte, the ending is found. -/
theorem readByte_nil (carries : source.Carries [] ending) :
    ∃ rest, readByte source = (ending.meet .io (.ok none), rest) := by
  obtain ⟨rest, read⟩ := carries.readUpTo_short 1 Nat.one_pos
  cases ending <;> exact ⟨rest, by rw [readByte, read]; rfl⟩

/-- Digits that a decoder finds in the bytes are found on the stream. -/
theorem readDigits_eq (carries : source.Carries bytes ending) (isFirst : Bool)
    {budget scale total number : Nat} {left : Bytes}
    (found : Decoder.readDigits budget scale total bytes = ⟨.ok number, left⟩) :
    ∃ rest, readDigits isFirst budget scale total source = (.ok (some number), rest) ∧
      rest.Carries left ending := by
  induction budget generalizing isFirst scale total source bytes with
  | zero => cases found
  | succ budget ih =>
      cases bytes with
      | nil => cases found
      | cons byte bytes =>
          obtain ⟨rest, read, carried⟩ := carries.readByte_cons
          rw [Decoder.readDigits] at found
          simp only [readDigits, read]
          split at found
          · rename_i continues
            rw [if_pos continues]
            exact ih carried false found
          · rename_i last
            rw [if_neg last]
            cases found
            exact ⟨rest, rfl, carried⟩

/-- Reading digits goes on behind bytes that are marked as being followed by another. -/
theorem readDigits_append {front : Bytes} (carries : source.Carries (front ++ bytes) ending)
    (marked : ∀ byte ∈ front, Varint.continues byte = true) (isFirst : Bool)
    (budget scale total : Nat) :
    ∃ rest scale' total', rest.Carries bytes ending ∧
      readDigits isFirst (front.length + budget) scale total source =
        readDigits (isFirst && front.isEmpty) budget scale' total' rest := by
  induction front generalizing isFirst scale total source with
  | nil => exact ⟨source, scale, total, carries, by simp⟩
  | cons byte front ih =>
      obtain ⟨continues, later⟩ := List.forall_mem_cons.mp marked
      obtain ⟨behind, read, carried⟩ := carries.readByte_cons
      obtain ⟨rest, scale', total', left, same⟩ := ih carried later false (scale * 128)
        (total + Varint.digit byte * scale)
      refine ⟨rest, scale', total', left, ?_⟩
      rw [List.length_cons, Nat.add_right_comm, readDigits, read]
      simp only [continues, ↓reduceIte, same, Bool.false_and, List.isEmpty_cons, Bool.and_false]

/-- A number at the front of the stream is found as a length. -/
theorem readLength_of_isForm {length : Bytes} {number : Nat}
    (carries : source.Carries (length ++ bytes) ending) (form : Varint.IsForm length number) :
    ∃ rest, readLength source = (.ok (some (UInt64.ofNat number)), rest) ∧
      rest.Carries bytes ending := by
  obtain ⟨rest, digits, carried⟩ :=
    carries.readDigits_eq true (Decoder.digits_reads form bytes)
  exact ⟨rest, by rw [readLength, digits]; rfl, carried⟩

/-- A length that goes on for too long is given up behind as many bytes as a reader accepts,
before the bytes end. -/
theorem readLength_of_overlong (carries : source.Carries bytes ending)
    (overlong : Varint.Overlong bytes) :
    ∃ rest, readLength source = (.error .varintOverflow, rest) ∧
      rest.Carries (bytes.drop Varint.maxLength) ending := by
  obtain ⟨enough, marked⟩ := overlong
  rw [← List.take_append_drop Varint.maxLength bytes] at carries
  obtain ⟨rest, scale, total, carried, same⟩ := carries.readDigits_append marked true 0 1 0
  rw [List.length_take_of_le enough, Nat.add_zero] at same
  exact ⟨rest, by rw [readLength, same]; rfl, carried⟩

/-- A length that breaks off meets the ending. Without any byte it is the end of the
stream, if it is not a failure. -/
theorem readLength_of_unfinished (carries : source.Carries bytes ending)
    (unfinished : Varint.Unfinished bytes) :
    ∃ rest, readLength source = (ending.meet .io
      (if bytes = [] then .ok none else .error (.truncated .frameLength)), rest) := by
  obtain ⟨few, marked⟩ := unfinished
  obtain ⟨budget, whole⟩ := Nat.exists_eq_add_of_lt few
  rw [← List.append_nil bytes] at carries
  obtain ⟨behind, scale, total, carried, same⟩ :=
    carries.readDigits_append marked true (budget + 1) 1 0
  obtain ⟨rest, read⟩ := carried.readByte_nil
  rw [← Nat.add_assoc, ← whole, readDigits, read] at same
  refine ⟨rest, ?_⟩
  rw [readLength, same]
  cases ending <;> cases bytes <;> rfl

/-- A body that is there is read. -/
theorem readBody_append {body : Bytes} {length : UInt64}
    (carries : source.Carries (body ++ bytes) ending) (counts : length.toNat = body.length) :
    ∃ rest, readBody length source = (.ok body, rest) ∧ rest.Carries bytes ending := by
  obtain ⟨rest, read, carried⟩ := carries.readUpTo_eq body.length (by simp)
  rw [List.take_left] at read
  rw [List.drop_left] at carried
  refine ⟨rest, ?_, carried⟩
  simp only [readBody, counts, read, Nat.lt_irrefl, ↓reduceIte]

/-- A body that breaks off meets the ending. -/
theorem readBody_short {length : UInt64} (carries : source.Carries bytes ending)
    (short : bytes.length < length.toNat) :
    ∃ rest, readBody length source = (ending.meet .io (.error (.truncated .frameBody)), rest) := by
  obtain ⟨rest, read⟩ := carries.readUpTo_short length.toNat short
  refine ⟨rest, ?_⟩
  rw [readBody, read]
  cases ending with
  | ended => simp only [Ending.meet, short, ↓reduceIte]
  | failed text => rfl

/-- The frame at the front of the stream is found. -/
theorem readFrame_of_isFrame {frame body : Bytes}
    (carries : source.Carries (frame ++ bytes) ending) (isFrame : IsFrame frame body) :
    ∃ rest, readFrame source = (.ok (some body), rest) ∧ rest.Carries bytes ending := by
  obtain ⟨form, counts⟩ := isFrame
  rw [List.append_assoc] at carries
  obtain ⟨behind, found, carried⟩ := carries.readLength_of_isForm form
  obtain ⟨rest, read, left⟩ := carried.readBody_append counts
  refine ⟨rest, ?_, left⟩
  simp only [readFrame, found, read]
  rfl

/-- Where no frame is complete, an error is found or the end of the stream. -/
theorem readFrame_of_noFrame (carries : source.Carries bytes ending) (noFrame : NoFrame bytes) :
    ∃ rest, readFrame source = ((ending.fault? bytes).elim (.ok none) .error, rest) := by
  rcases noFrame_iff.mp noFrame with
    overlong | unfinished | ⟨length, number, front, form, short, rfl⟩
  · obtain ⟨rest, found, -⟩ := carries.readLength_of_overlong overlong
    refine ⟨rest, ?_⟩
    unfold Ending.fault?
    rw [readFrame, found, if_pos overlong]
    rfl
  · obtain ⟨rest, found⟩ := carries.readLength_of_unfinished unfinished
    refine ⟨rest, ?_⟩
    unfold Ending.fault?
    rw [readFrame, found, if_neg unfinished.not_overlong, if_pos unfinished]
    cases ending <;> cases bytes <;> rfl
  · obtain ⟨behind, found, carried⟩ := carries.readLength_of_isForm form
    obtain ⟨rest, read⟩ := carried.readBody_short short
    have started := List.append_ne_nil_of_left_ne_nil form.spells.ne_nil front
    refine ⟨rest, ?_⟩
    unfold Ending.fault?
    rw [if_neg form.not_overlong, if_neg form.not_unfinished, if_neg started]
    simp only [readFrame, found, read]
    cases ending <;> rfl

end Carries

end MixedInteger.Source
