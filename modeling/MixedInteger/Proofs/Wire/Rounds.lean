import MixedInteger.Proofs.Outcome
import MixedInteger.Proofs.Wire.Tracking

/-! # Loops that end and bodies that are not left

Each round of a loop over a buffer takes at least one byte off it, so a loop ends within one
round more than there are bytes (`decode_eq_ok`). A body that is read behind its length is a
buffer of its own: the verdict on it depends on nothing else, and the cursor of the outer
buffer ends right behind the body (`confined_within`).
-/

namespace MixedInteger

namespace Decoder

variable {M : Type} {input rest : Bytes}

/-- The numbers of a packed list, unless one of them is malformed. -/
def listed (input : Bytes) : Except WireError (List UInt64) :=
  (varints input).2.map fun _ => (varints input).1

/-- No bytes list no numbers. -/
theorem listed_nil : listed [] = .ok [] := by
  rw [listed, varints_nil]
  rfl

/-- Bytes list a number and what the bytes behind it list. -/
theorem listed_eq_bind (more : input ≠ []) {verdict : Except WireError UInt64}
    (found : varint.run input = ⟨verdict, rest⟩) :
    listed input = verdict >>= fun number => (listed rest).map (number :: ·) := by
  have numbers : varints input = match verdict with
      | .error fault => ([], .error fault)
      | .ok number => (number :: (varints rest).1, (varints rest).2) := by
    rw [varints, List.isEmpty_eq_false_iff.mpr more]
    simp only [Bool.false_eq_true, ↓reduceIte]
    split
    · rename_i failed
      rw [found] at failed
      cases failed
      rfl
    · rename_i taken
      rw [found] at taken
      cases taken
      rfl
  rw [listed, numbers]
  cases verdict with
  | error fault => rfl
  | ok number =>
      rw [listed, Outcome.ok_bind]
      cases (varints rest).2 <;> rfl

/-- An unpacked number is a list of one. -/
theorem run_repeated_varint (field : Nat) (input : Bytes) :
    (varint >>= fun number => pure [number]).run input = (repeated field .varint).run input := by
  change continueWith (varint.run input) _ = continueWith (continueWith (varint.run input) _) _
  obtain ⟨result, rest⟩ := varint.run input
  cases result <;> rfl

/-- A packed list is read behind its length. -/
theorem run_repeated_lengthDelimited (field : Nat) (input : Bytes) :
    (lengthDelimited field >>= fun body => ofExcept (listed body)).run input =
      (repeated field .lengthDelimited).run input := by
  change continueWith ((lengthDelimited field).run input) _ =
    continueWith (continueWith ((lengthDelimited field).run input) _) _
  obtain ⟨result, rest⟩ := (lengthDelimited field).run input
  cases result with
  | error fault => rfl
  | ok body =>
      change (ofExcept (listed body)).run rest =
        continueWith ((ofExcept (varints body).2).run rest) _
      rw [listed]
      cases (varints body).2 <;> rfl

variable (merge : Nat → WireType → Option (M → Decoder M))

/-- Merge the next field, if there is one. -/
def mergeField (message : M) : Decoder (Option M) := do
  match ← key with
  | none => return none
  | some (field, wireType) => do
      let next ← mergeOrSkip merge message field wireType
      return some next

/-- Once the key of a field is read, its value is merged or skipped. -/
theorem mergeField_run {message : M} {field : Nat} {wireType : WireType}
    (found : fieldKey.run input = ⟨.ok (field, wireType), rest⟩) :
    (mergeField merge message).run input =
      (mergeOrSkip merge message field wireType >>= fun next => pure (some next)).run rest :=
  bind_run (key_run_iff.mpr found)

/-- A field that was merged took at least one byte. -/
theorem mergeField_rest_length_lt {message next : M}
    (found : (mergeField merge message).run input = ⟨.ok (some next), rest⟩) :
    rest.length < input.length := by
  obtain ⟨taken, middle, keyFound, merged⟩ := bind_run_eq_ok_iff.mp found
  cases taken with
  | none => cases merged
  | some key =>
      exact Nat.lt_of_le_of_lt (suffix_of_run merged).length_le
        (fieldKey_rest_length_lt (key_run_iff.mp keyFound))

/-- Merging goes on after the next field, if there is one and it is accepted. -/
theorem mergeFields_eq_mergeField (message : M) (input : Bytes) :
    mergeFields merge message input =
      ((mergeField merge message).run input).result >>= fun next =>
        match next with
        | none => .ok message
        | some next => mergeFields merge next ((mergeField merge message).run input).rest := by
  cases input with
  | nil => exact mergeFields_nil message
  | cons byte input =>
      cases reading : fieldKey.run (byte :: input) with
      | mk result body =>
          cases result with
          | error fault =>
              have failed : (fieldKey >>= fun found => pure (some found)).run (byte :: input) =
                  ⟨.error fault, body⟩ := bind_run_error reading
              have stopped : (mergeField merge message).run (byte :: input) =
                  ⟨.error fault, body⟩ := bind_run_error failed
              rw [mergeFields_of_error (List.cons_ne_nil _ _) reading, stopped]
              rfl
          | ok found =>
              obtain ⟨field, wireType⟩ := found
              rw [mergeField_run merge reading]
              cases merged : (mergeOrSkip merge message field wireType).run body with
              | mk verdict rest =>
                  rw [mergeFields_eq_bind reading merged]
                  cases verdict with
                  | error fault =>
                      rw [bind_run_error merged]
                      rfl
                  | ok next =>
                      rw [bind_run merged]
                      rfl

end Decoder

namespace Walk

variable {α β M : Type} {cursor : Cursor}

/-- Whether a walk from a cursor ends, without a breach, with a verdict. -/
def Ends (walk : Walk α) (cursor : Cursor) (verdict : Except WireError α) : Prop :=
  ∃ after, walk.runOn cursor = .ok (verdict, after)

/-- A walk that ends from the start of a buffer runs to its verdict. -/
theorem Ends.run_eq_ok {walk : Walk α} {buffer : Bytes} {verdict : Except WireError α}
    (ends : walk.Ends (.start buffer) verdict) : walk.run buffer = .ok verdict := by
  obtain ⟨after, found⟩ := ends
  rw [run, found]
  rfl

/-- A verdict may be converted. -/
theorem Ends.map {walk : Walk α} {verdict : Except WireError α} (ends : walk.Ends cursor verdict)
    (f : α → β) : (walk >>= fun found => pure (f found)).Ends cursor (verdict.map f) := by
  obtain ⟨after, found⟩ := ends
  refine ⟨after, ?_⟩
  change continueWith (walk.runOn cursor) _ = _
  rw [found]
  cases verdict <;> rfl

/-- A walk ends behind one that tracks a decoder, if it ends in front of whatever the decoder
leaves. -/
theorem Tracks.ends_bind {first : Walk α} {decoder : Decoder α} {next : α → Walk β}
    (tracks : first.Tracks decoder) (verdict : α → Bytes → Except WireError β)
    (inside : cursor.Inside)
    (ends : ∀ value (after : Cursor), after.Inside →
      decoder.run cursor.unread = ⟨.ok value, after.unread⟩ →
        (next value).Ends after (verdict value after.unread)) :
    (first >>= next).Ends cursor ((decoder.run cursor.unread).result >>= fun value =>
      verdict value (decoder.run cursor.unread).rest) := by
  have walked := tracks cursor inside
  cases reading : decoder.run cursor.unread with
  | mk result rest =>
      rw [reading] at walked
      cases result with
      | error fault => exact ⟨cursor.before rest, congrArg (continueWith · next) walked⟩
      | ok value =>
          have unread := Cursor.unread_before (Decoder.suffix_of_run reading)
          have behind := ends value (cursor.before rest) Cursor.inside_before
          rw [unread] at behind
          obtain ⟨after, found⟩ := behind reading
          exact ⟨after, (bind_runOn walked).trans found⟩

/-- A list of numbers ends within one round more than there are bytes. -/
theorem numbers_ends {rounds : Nat} (inside : cursor.Inside)
    (enough : cursor.unread.length < rounds) :
    (numbers rounds).Ends cursor (Decoder.listed cursor.unread) := by
  induction rounds generalizing cursor with
  | zero => exact absurd enough (Nat.not_lt_zero _)
  | succ rounds ih =>
      by_cases more : cursor.unread = []
      · refine ⟨cursor, ?_⟩
        rw [numbers, bind_runOn isEmpty_runOn, more, Decoder.listed_nil]
        rfl
      · have others (number : UInt64) (after : Cursor) (behind : after.Inside)
            (reading : Decoder.varint.run cursor.unread = ⟨.ok number, after.unread⟩) :
            (numbers rounds >>= fun others => pure (number :: others)).Ends after
              ((Decoder.listed after.unread).map (number :: ·)) := by
          have shorter := Decoder.varint_rest_length_lt reading
          exact (ih behind (by omega)).map (number :: ·)
        obtain ⟨after, found⟩ := tracks_varint.ends_bind
          (fun number rest => (Decoder.listed rest).map (number :: ·)) inside others
        refine ⟨after, ?_⟩
        rw [numbers, bind_runOn isEmpty_runOn, List.isEmpty_eq_false_iff.mpr more,
          Decoder.listed_eq_bind more rfl]
        exact found

/-- The numbers of a packed body are walked to its end. -/
theorem run_numbers (body : Bytes) :
    (numbers (body.length + 1)).run body = .ok (Decoder.listed body) :=
  (numbers_ends (Nat.zero_le _) (Nat.lt_succ_self _)).run_eq_ok

/-- The walk over an occurrence of a repeated field tracks its decoder. -/
theorem tracks_repeated (field : Nat) (wireType : WireType) :
    (repeated field wireType).Tracks (Decoder.repeated field wireType) := by
  cases wireType with
  | varint =>
      exact (tracks_varint.map fun number => [number]).congr (Decoder.run_repeated_varint field)
  | lengthDelimited =>
      have listed := (tracks_lengthDelimited field).bind fun body => tracks_within (run_numbers body)
      exact listed.congr (Decoder.run_repeated_lengthDelimited field)
  | fixed64 => exact tracks_fail _
  | fixed32 => exact tracks_fail _

section Fields

/-- Whether a field is known both to a walk and to a decoder, and merged alike, or to
neither. -/
abbrev Alike : Option (M → Walk M) → Option (M → Decoder M) → Prop :=
  Option.Rel fun walk decoder => ∀ message, (walk message).Tracks (decoder message)

/-- Whether walks merge the same fields as decoders, each as its decoder does. -/
def Agrees (walks : Nat → WireType → Option (M → Walk M))
    (decoders : Nat → WireType → Option (M → Decoder M)) : Prop :=
  ∀ field wireType, Alike (walks field wireType) (decoders field wireType)

variable {walks : Nat → WireType → Option (M → Walk M)}
  {decoders : Nat → WireType → Option (M → Decoder M)} (agrees : Agrees walks decoders)

include agrees

/-- Merging a known field and skipping another one track the decoder. -/
theorem Agrees.mergeOrSkip (message : M) (field : Nat) (wireType : WireType) :
    (mergeOrSkip walks message field wireType).Tracks
      (Decoder.mergeOrSkip decoders message field wireType) := by
  have related := agrees field wireType
  rw [Walk.mergeOrSkip, Decoder.mergeOrSkip]
  revert related
  generalize walks field wireType = walk
  generalize decoders field wireType = decoder
  intro related
  cases related with
  | some tracks => exact tracks message
  | none => exact (tracks_skip field wireType).map fun _ => message

/-- Merging one field tracks the decoder. -/
theorem Agrees.mergeField (message : M) :
    (mergeField walks message).Tracks (Decoder.mergeField decoders message) := by
  refine tracks_key.bind fun found => ?_
  cases found with
  | none => exact tracks_pure none
  | some key => exact (agrees.mergeOrSkip message key.1 key.2).map some

/-- Merging ends within one round more than there are bytes. -/
theorem Agrees.mergeFields_ends {rounds : Nat} (message : M) (inside : cursor.Inside)
    (enough : cursor.unread.length < rounds) :
    (mergeFields walks rounds message).Ends cursor
      (Decoder.mergeFields decoders message cursor.unread) := by
  induction rounds generalizing cursor message with
  | zero => exact absurd enough (Nat.not_lt_zero _)
  | succ rounds ih =>
      rw [mergeFields, Decoder.mergeFields_eq_mergeField]
      refine (agrees.mergeField message).ends_bind (fun next rest =>
        match next with
        | none => .ok message
        | some next => Decoder.mergeFields decoders next rest) inside ?_
      intro next after behind reading
      cases next with
      | none => exact ⟨after, rfl⟩
      | some next =>
          have shorter := Decoder.mergeField_rest_length_lt decoders reading
          exact ih next behind (by omega)

/-- Decoding ends without a breach and gives what the decoders give. -/
theorem Agrees.decode_eq_ok (blank : M) (buffer : Bytes) :
    decode walks blank buffer = .ok (Decoder.mergeFields decoders blank buffer) :=
  (agrees.mergeFields_ends blank (Nat.zero_le _) (Nat.lt_succ_self _)).run_eq_ok

end Fields

/-- Whether a walk over one field keeps its buffer and stays inside, does not move the cursor
back, and moves it on by at least one byte if it finds something. -/
def Advances (walk : Walk (Option α)) : Prop :=
  ∀ cursor : Cursor, cursor.Inside → ∃ verdict after, walk.runOn cursor = .ok (verdict, after) ∧
    after.buffer = cursor.buffer ∧ after.Inside ∧ cursor.position ≤ after.position ∧
    ∀ found, verdict = .ok (some found) → cursor.position + 1 ≤ after.position

/-- Merging one field moves the cursor on. -/
theorem Agrees.mergeField_advances {walks : Nat → WireType → Option (M → Walk M)}
    {decoders : Nat → WireType → Option (M → Decoder M)} (agrees : Agrees walks decoders)
    (message : M) : (Walk.mergeField walks message).Advances := by
  intro cursor inside
  have walked := agrees.mergeField message cursor inside
  cases reading : (Decoder.mergeField decoders message).run cursor.unread with
  | mk verdict rest =>
      rw [reading] at walked
      have position := Cursor.position_before inside (Decoder.suffix_of_run reading)
      refine ⟨verdict, cursor.before rest, walked, rfl, Cursor.inside_before, by omega, ?_⟩
      rintro next rfl
      have shorter := Decoder.mergeField_rest_length_lt decoders reading
      omega

/-- Whether a walk reads the body of a length-delimited field and nothing else behind its
length: unless there is no such body, the verdict is that on the body alone, and the cursor
ends right behind the body. -/
def Confined (walk : Walk α) (field : Nat) (verdict : Bytes → Except WireError α) : Prop :=
  ∀ cursor : Cursor, cursor.Inside →
    (∃ fault after, (lengthDelimited field).runOn cursor = .ok (.error fault, after) ∧
      walk.runOn cursor = .ok (.error fault, after)) ∨
    ∃ length body rest, cursor.unread = length ++ body ++ rest ∧
      varint.runOn cursor = .ok (.ok (UInt64.ofNat body.length), cursor.move length.length) ∧
      body.length < 2 ^ 64 ∧
      walk.runOn cursor = .ok (verdict body, cursor.move (length.length + body.length))

/-- A nested walk stays in the record that holds it. -/
theorem confined_within (field : Nat) {walk : Bytes → Walk α}
    {verdict : Bytes → Except WireError α}
    (found : ∀ body, (walk body).run body = .ok (verdict body)) :
    (lengthDelimited field >>= fun body => within body (walk body)).Confined field verdict := by
  intro cursor inside
  have walked := tracks_lengthDelimited field cursor inside
  cases reading : (Decoder.lengthDelimited field).run cursor.unread with
  | mk result rest =>
      rw [reading] at walked
      cases result with
      | error fault =>
          exact .inl ⟨fault, cursor.before rest, walked,
            congrArg (continueWith · fun body => within body (walk body)) walked⟩
      | ok body =>
          obtain ⟨length, unread, bound, read⟩ := Decoder.exists_length_of_lengthDelimited reading
          have counted := tracks_varint cursor inside
          rw [read, Cursor.before_eq_move inside (unread.trans (List.append_assoc ..))] at counted
          refine .inr ⟨length, body, rest, unread, counted, bound, (bind_runOn walked).trans ?_⟩
          change ((walk body).run body).map _ = _
          rw [found, Cursor.before_eq_move inside unread, List.length_append]
          rfl

end Walk

end MixedInteger
