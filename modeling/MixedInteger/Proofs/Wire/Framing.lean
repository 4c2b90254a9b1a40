import MixedInteger.Proofs.Wire.Reading
import MixedInteger.Wire.Frame

/-! # Frames in a sequence of bytes

Any sequence of bytes starts with a number of complete frames, whatever the
bytes are, and goes on with bytes at whose front no frame is complete. Both are
determined by the sequence (`Frames.existsUnique`). What is left breaks off inside
a length or inside a body, or it starts with ten bytes that are no length
(`noFrame_iff`).
-/

namespace MixedInteger

namespace Varint

/-- Whether the first bytes are as many as a reader accepts for one number, and each of
them is marked as being followed by another. -/
def Overlong (bytes : Bytes) : Prop :=
  maxLength ≤ bytes.length ∧ ∀ byte ∈ bytes.take maxLength, continues byte = true

instance (bytes : Bytes) : Decidable (Overlong bytes) := inferInstanceAs (Decidable (_ ∧ _))

/-- Whether bytes are fewer than a reader accepts for one number, and each of them is
marked as being followed by another. -/
def Unfinished (bytes : Bytes) : Prop :=
  bytes.length < maxLength ∧ ∀ byte ∈ bytes, continues byte = true

instance (bytes : Bytes) : Decidable (Unfinished bytes) := inferInstanceAs (Decidable (_ ∧ _))

/-- Further bytes do not make an overlong number shorter. -/
theorem Overlong.extend {bytes whole : Bytes} (overlong : Overlong bytes)
    (start : bytes <+: whole) : Overlong whole := by
  obtain ⟨enough, marked⟩ := overlong
  obtain ⟨behind, rfl⟩ := start
  refine ⟨Nat.le_trans enough (List.prefix_append _ _).length_le, ?_⟩
  rwa [List.take_append_of_le_length enough]

/-- No bytes are both unfinished and overlong. -/
theorem Unfinished.not_overlong {bytes : Bytes} (unfinished : Unfinished bytes) :
    ¬ Overlong bytes := fun overlong => absurd unfinished.1 (Nat.not_lt.mpr overlong.1)

/-- The last byte of a number is not followed by another. -/
theorem Spells.exists_not_continues {bytes : Bytes} {number : Nat} (spells : Spells bytes number) :
    ∃ byte ∈ bytes, continues byte = false := by
  induction spells with
  | @last byte ends => exact ⟨byte, List.mem_singleton_self byte, ends⟩
  | next _ _ ih =>
      obtain ⟨byte, member, ends⟩ := ih
      exact ⟨byte, List.mem_cons_of_mem _ member, ends⟩

/-- Every byte before the last one is followed by another. -/
theorem Spells.continues_of_cut {bytes front : Bytes} {number : Nat}
    (spells : Spells bytes number) (cut : front <+: bytes) (strict : front.length < bytes.length) :
    ∀ byte ∈ front, continues byte = true := by
  induction spells generalizing front with
  | last _ =>
      rw [List.length_singleton, Nat.lt_one_iff, List.length_eq_zero_iff] at strict
      rw [strict]
      exact fun _ member => nomatch member
  | next goesOn _ ih =>
      cases front with
      | nil => exact fun _ member => nomatch member
      | cons byte front =>
          obtain ⟨rfl, later⟩ := List.cons_prefix_cons.mp cut
          exact List.forall_mem_cons.mpr ⟨goesOn, ih later (Nat.lt_of_succ_lt_succ strict)⟩

/-- A number is found among the first bytes unless all of them are marked as being
followed by another. -/
theorem exists_spells_or_continues (budget : Nat) (bytes : Bytes) :
    (∃ digits number rest, Spells digits number ∧ digits.length ≤ budget ∧
        bytes = digits ++ rest) ∨
      ∀ byte ∈ bytes.take budget, continues byte = true := by
  induction budget generalizing bytes with
  | zero => exact Or.inr fun _ member => nomatch member
  | succ budget ih =>
      cases bytes with
      | nil => exact Or.inr fun _ member => nomatch member
      | cons byte bytes =>
          cases marked : continues byte with
          | false =>
              exact Or.inl ⟨[byte], _, bytes, .last marked, Nat.succ_le_succ (Nat.zero_le _), rfl⟩
          | true =>
              rcases ih bytes with ⟨digits, number, rest, spells, short, rfl⟩ | later
              · exact Or.inl ⟨byte :: digits, _, rest, .next marked spells,
                  Nat.succ_le_succ short, rfl⟩
              · exact Or.inr (List.forall_mem_cons.mpr ⟨marked, later⟩)

/-- At the front of any bytes there is a number, or too many digits, or too few. -/
theorem exists_isForm_or (bytes : Bytes) :
    (∃ digits number rest, IsForm digits number ∧ bytes = digits ++ rest) ∨
      Overlong bytes ∨ Unfinished bytes := by
  rcases exists_spells_or_continues maxLength bytes with
    ⟨digits, number, rest, spells, short, split⟩ | marked
  · exact Or.inl ⟨digits, number, rest, ⟨spells, short⟩, split⟩
  · refine Or.inr ?_
    by_cases enough : maxLength ≤ bytes.length
    · exact Or.inl ⟨enough, marked⟩
    · have few := Nat.not_le.mp enough
      rw [List.take_of_length_le (Nat.le_of_lt few)] at marked
      exact Or.inr ⟨few, marked⟩

/-- The number at the front of certain bytes ends where it ends. -/
theorem IsForm.append_inj {digits digits' rest rest' : Bytes} {number number' : Nat}
    (form : IsForm digits number) (form' : IsForm digits' number')
    (same : digits ++ rest = digits' ++ rest') : number = number' ∧ rest = rest' := by
  have read := Decoder.digits_reads form rest
  rw [same, Decoder.digits_reads form' rest'] at read
  cases read
  exact ⟨rfl, rfl⟩

/-- Bytes that start with a number are not overlong. -/
theorem IsForm.not_overlong {digits rest : Bytes} {number : Nat} (form : IsForm digits number) :
    ¬ Overlong (digits ++ rest) := by
  rintro ⟨-, marked⟩
  obtain ⟨byte, member, ends⟩ := form.spells.exists_not_continues
  have first : byte ∈ (digits ++ rest).take maxLength := by
    rw [List.take_append, List.take_of_length_le form.short]
    exact List.mem_append_left _ member
  rw [marked byte first] at ends
  cases ends

/-- Bytes that start with a number are not unfinished. -/
theorem IsForm.not_unfinished {digits rest : Bytes} {number : Nat}
    (form : IsForm digits number) : ¬ Unfinished (digits ++ rest) := by
  rintro ⟨-, marked⟩
  obtain ⟨byte, member, ends⟩ := form.spells.exists_not_continues
  rw [marked byte (List.mem_append_left rest member)] at ends
  cases ends

/-- The first bytes of a number and of what follows it are an unfinished number when
they do not contain all of it. -/
theorem IsForm.unfinished_iff {digits rest front : Bytes} {number : Nat}
    (form : IsForm digits number) (start : front <+: digits ++ rest) :
    Unfinished front ↔ front.length < digits.length := by
  constructor
  · intro unfinished
    refine Nat.not_le.mp fun whole => ?_
    obtain ⟨behind, rfl⟩ :=
      List.prefix_of_prefix_length_le (List.prefix_append digits rest) start whole
    exact form.not_unfinished unfinished
  · intro inside
    have cut : front <+: digits :=
      List.prefix_of_prefix_length_le start (List.prefix_append digits rest) (Nat.le_of_lt inside)
    exact ⟨Nat.lt_of_lt_of_le inside form.short, form.spells.continues_of_cut cut inside⟩

end Varint

/-- Whether bytes are a frame with a certain body. Its length may be in any form, and
only the low 64 bits of the number count. -/
inductive IsFrame : (frame body : Bytes) → Prop
  | intro {length body : Bytes} {number : Nat} (form : Varint.IsForm length number)
      (counts : (UInt64.ofNat number).toNat = body.length) : IsFrame (length ++ body) body

theorem isFrame_frameOf {body : Bytes} (fits : body.length < 2 ^ 64) :
    IsFrame (frameOf body) body :=
  .intro (Varint.isForm_encode fits) (by rw [UInt64.toNat_ofNat', Nat.mod_eq_of_lt fits])

theorem IsFrame.ne_nil {frame body : Bytes} (isFrame : IsFrame frame body) : frame ≠ [] := by
  cases isFrame with
  | intro form _ => exact List.append_ne_nil_of_left_ne_nil form.spells.ne_nil _

/-- The frame at the front of certain bytes ends where it ends. -/
theorem IsFrame.append_inj {frame frame' body body' rest rest' : Bytes}
    (isFrame : IsFrame frame body) (isFrame' : IsFrame frame' body')
    (same : frame ++ rest = frame' ++ rest') : body = body' ∧ rest = rest' := by
  obtain ⟨form, counts⟩ := isFrame
  obtain ⟨form', counts'⟩ := isFrame'
  rw [List.append_assoc, List.append_assoc] at same
  obtain ⟨rfl, behind⟩ := form.append_inj form' same
  exact List.append_inj behind (counts.symm.trans counts')

/-- Whether no frame is complete at the front of certain bytes. -/
def NoFrame (bytes : Bytes) : Prop := ∀ frame body, IsFrame frame body → ¬ frame <+: bytes

/-- No frame is complete in a part of a frame. -/
theorem IsFrame.noFrame_of_cut {frame body front : Bytes} (isFrame : IsFrame frame body)
    (cut : front <+: frame) (strict : front ≠ frame) : NoFrame front := by
  obtain ⟨behind, rfl⟩ := cut
  rintro other _ isFrame' ⟨rest, rfl⟩
  have same : other ++ (rest ++ behind) = other ++ rest ++ behind ++ [] := by
    rw [List.append_nil, List.append_assoc]
  have nothing := (isFrame'.append_inj isFrame same).2
  rw [(List.append_eq_nil_iff.mp nothing).2, List.append_nil] at strict
  exact strict rfl

/-- No frame is complete at the front of bytes that start with ten bytes that are no
length, or that end inside a length or inside a body, and of no others. -/
theorem noFrame_iff {bytes : Bytes} :
    NoFrame bytes ↔ Varint.Overlong bytes ∨ Varint.Unfinished bytes ∨
      ∃ length number front, Varint.IsForm length number ∧
        front.length < (UInt64.ofNat number).toNat ∧ bytes = length ++ front := by
  constructor
  · intro noFrame
    rcases Varint.exists_isForm_or bytes with ⟨length, number, rest, form, rfl⟩ | marked
    · refine Or.inr (Or.inr ⟨length, number, rest, form, Nat.not_le.mp fun enough => ?_, rfl⟩)
      have counts : (UInt64.ofNat number).toNat =
          (rest.take (UInt64.ofNat number).toNat).length :=
        (List.length_take_of_le enough).symm
      exact noFrame _ _ (.intro form counts)
        ((List.prefix_append_right_inj _).mpr (List.take_prefix _ _))
    · exact marked.imp_right Or.inl
  · rintro broken _ body ⟨form, counts⟩ ⟨rest, rfl⟩
    rw [List.append_assoc] at broken
    rcases broken with overlong | unfinished | ⟨length, number, front, form', short, same⟩
    · exact form.not_overlong overlong
    · exact form.not_unfinished unfinished
    · obtain ⟨rfl, rfl⟩ := form.append_inj form' same
      rw [counts, List.length_append] at short
      omega

theorem noFrame_nil : NoFrame [] := fun _ _ isFrame start =>
  isFrame.ne_nil (List.prefix_nil.mp start)

/-- The bodies of the complete frames at the front of certain bytes, and the bytes that
follow these frames. -/
inductive Frames : Bytes → List Bytes → Bytes → Prop
  /-- Without a complete frame, all bytes are left. -/
  | rest {tail : Bytes} (noFrame : NoFrame tail) : Frames tail [] tail
  | next {frame body bytes tail : Bytes} {bodies : List Bytes} (isFrame : IsFrame frame body)
      (later : Frames bytes bodies tail) : Frames (frame ++ bytes) (body :: bodies) tail

namespace Frames

/-- All bytes have frames at their front, if only none, and a tail. -/
theorem exists_frames (bytes : Bytes) : ∃ bodies tail, Frames bytes bodies tail := by
  induction count : bytes.length using Nat.strongRecOn generalizing bytes with
  | ind size ih =>
      by_cases noFrame : NoFrame bytes
      · exact ⟨[], bytes, rest noFrame⟩
      · simp only [NoFrame, not_forall, not_not] at noFrame
        obtain ⟨frame, body, isFrame, behind, rfl⟩ := noFrame
        have shorter : behind.length < size := by
          have positive := List.length_pos_iff.mpr isFrame.ne_nil
          rw [← count, List.length_append]
          omega
        obtain ⟨bodies, tail, later⟩ := ih behind.length shorter behind rfl
        exact ⟨body :: bodies, tail, next isFrame later⟩

/-- Bytes have their frames and their tail in one way only. -/
theorem unique {bytes tail tail' : Bytes} {bodies bodies' : List Bytes}
    (frames : Frames bytes bodies tail) (frames' : Frames bytes bodies' tail') :
    bodies = bodies' ∧ tail = tail' := by
  induction frames generalizing bodies' with
  | rest noFrame =>
      cases frames' with
      | rest _ => exact ⟨rfl, rfl⟩
      | next isFrame _ => exact absurd (List.prefix_append _ _) (noFrame _ _ isFrame)
  | @next frame body bytes _ _ isFrame _ ih =>
      generalize same : frame ++ bytes = whole at frames'
      cases frames' with
      | rest noFrame =>
          exact absurd (same ▸ List.prefix_append _ _) (noFrame _ _ isFrame)
      | next isFrame' later' =>
          obtain ⟨rfl, rfl⟩ := isFrame.append_inj isFrame' same
          obtain ⟨rfl, rfl⟩ := ih later'
          exact ⟨rfl, rfl⟩

/-- Which frames are complete is determined by the bytes. -/
theorem existsUnique (bytes : Bytes) :
    ∃! parts : List Bytes × Bytes, Frames bytes parts.1 parts.2 := by
  obtain ⟨bodies, tail, frames⟩ := exists_frames bytes
  refine ⟨(bodies, tail), frames, fun parts frames' => ?_⟩
  obtain ⟨sameBodies, sameTail⟩ := frames'.unique frames
  exact Prod.ext sameBodies sameTail

end Frames

end MixedInteger
