import Mathlib.Data.List.Forall2
import MixedInteger.Proofs.Outcome
import MixedInteger.Proofs.Text.Numeral
import MixedInteger.SearchTree.Coordinate
import MixedInteger.Telemetry.Writer

/-! # Coordinates as text

The text of a coordinate is made up of numerals with underscores between them, so the pieces
between the underscores give the coordinate back. A text is read piece by piece: it stands
for a coordinate exactly when it is empty or each of its pieces stands for a word, and what
is reported of any other text is what is wrong with its first bad piece
(`Coordinate.ofText_exact`).
-/

namespace MixedInteger

namespace Text

/-- The pieces of a text are those of the library's list function. -/
theorem pieces_eq_splitOn (separator : Char) (text : List Char) :
    pieces separator text = text.splitOn separator := by
  induction text with
  | nil => exact (List.splitOn_nil separator).symm
  | cons c rest ih =>
      rw [pieces, List.splitOn_cons_eq_if_modifyHead, ← ih]
      by_cases here : c = separator
      · rw [if_pos here, if_pos (beq_iff_eq.mpr here)]
      · rw [if_neg here, if_neg (beq_iff_eq.not.mpr here)]
        cases pieces_of : pieces separator rest with
        | nil => exact absurd (ih.symm.trans pieces_of) (List.splitOn_ne_nil _ _)
        | cons first others => rfl

/-- Pieces are read as the words they stand for. -/
theorem mapM_readWord_eq_ok_iff {pieces : List (List Char)} {words : List UInt32} :
    pieces.mapM readWord = .ok words ↔ List.Forall₂ Denotes pieces words := by
  rw [Outcome.mapM_eq_ok_iff]
  have same : (fun piece word => readWord piece = .ok word) = Denotes :=
    funext fun _ => funext fun _ => propext readWord_eq_ok_iff
  rw [same]

/-- The first piece that stands for no word is reported. -/
theorem mapM_readWord_eq_error_iff {pieces : List (List Char)} {error : WordError} :
    pieces.mapM readWord = .error error ↔ ∃ before piece after,
      pieces = before ++ piece :: after ∧ (∀ earlier ∈ before, ∃ word, Denotes earlier word) ∧
        (∀ word, ¬ Denotes piece word) ∧ Refused piece error := by
  rw [Outcome.mapM_eq_error_iff]
  constructor
  · rintro ⟨before, piece, after, split, failed, read⟩
    have refused : Refused piece error := readWord_eq_error_iff.mp failed
    exact ⟨before, piece, after, split, fun earlier member => (read earlier member).imp
      fun _ => readWord_eq_ok_iff.mp, fun _ => refused.not_denotes, refused⟩
  · rintro ⟨before, piece, after, split, denote, -, refused⟩
    exact ⟨before, piece, after, split, refused.readWord_eq, fun earlier member =>
      (denote earlier member).imp fun _ => Denotes.readWord_eq⟩

end Text

namespace Coordinate

open Text

theorem chars_eq_intercalate (coordinate : Coordinate) :
    coordinate.chars = ['_'].intercalate (coordinate.path.map writeWord) := rfl

/-- No underscore stands inside a numeral. -/
theorem underscore_not_mem_writeWord (word : UInt32) : '_' ∉ writeWord word := fun member =>
  nomatch (isNumeral_writeWord word).decimal '_' member

/-- The pieces of the text of a coordinate below the root are its written choices. -/
theorem splitOn_chars {coordinate : Coordinate} (below : coordinate.path ≠ []) :
    coordinate.chars.splitOn '_' = coordinate.path.map writeWord := by
  rw [chars_eq_intercalate]
  refine List.splitOn_intercalate '_' (List.forall_mem_map.mpr fun word _ => ?_) ?_
  · exact underscore_not_mem_writeWord word
  · exact fun none => below (List.map_eq_nil_iff.mp none)

theorem chars_ne_nil {coordinate : Coordinate} (below : coordinate.path ≠ []) :
    coordinate.chars ≠ [] := by
  intro empty
  have pieces := splitOn_chars below
  rw [empty, List.splitOn_nil] at pieces
  obtain ⟨word, -, blank⟩ := List.mem_map.mp (pieces ▸ List.mem_singleton_self [])
  exact (isNumeral_writeWord word).nonempty blank

/-- A text that is not empty is read piece by piece. -/
theorem ofChars_of_ne_nil {chars : List Char} (nonempty : chars ≠ []) :
    ofChars chars = (chars.splitOn '_').mapM readWord >>= fun path => .ok ⟨path⟩ := by
  rw [ofChars, if_neg (by simpa using nonempty), pieces_eq_splitOn]
  cases (chars.splitOn '_').mapM readWord <;> rfl

/-- A coordinate is read back from its text. -/
theorem ofText_text (coordinate : Coordinate) : ofText coordinate.text = .ok coordinate := by
  rw [ofText, text, String.toList_ofList]
  by_cases top : coordinate.path = []
  · obtain ⟨path⟩ := coordinate
    cases top
    rfl
  · have words : (coordinate.path.map writeWord).mapM readWord = .ok coordinate.path := by
      rw [Outcome.mapM_eq_ok_iff, List.forall₂_map_left_iff, List.forall₂_same]
      exact fun word _ => (denotes_writeWord word).readWord_eq
    rw [ofChars_of_ne_nil (chars_ne_nil top), splitOn_chars top, words]
    rfl

theorem ofText_empty : ofText "" = .ok root := rfl

/-- A text that is not empty stands for the path that its pieces spell. -/
theorem ofText_of_ne_empty {written : String} (nonempty : written ≠ "") :
    ofText written = (written.toList.splitOn '_').mapM readWord >>= fun path => .ok ⟨path⟩ :=
  ofChars_of_ne_nil (String.toList_eq_nil_iff.not.mpr nonempty)

/-- **The text of a coordinate is lossless, and its reader accepts its grammar.** Every
coordinate is read back from its text, so different coordinates have different texts, and the
group of an array that is stored for a node tells which node it is. A text stands for a
coordinate exactly when it is empty, which is the root, or each of its pieces between
underscores stands for a word: at least one decimal digit, perhaps behind a plus sign, with a
value that fits 32 bits. The words are the path, in order. Any other text is refused for what
is wrong with the first of its pieces that stands for no word. -/
theorem ofText_exact :
    (∀ coordinate : Coordinate, ofText coordinate.text = .ok coordinate) ∧
    Function.Injective text ∧
    (∀ (writer : Writer) (now : UInt64) (filename : String) (coordinate : Coordinate)
      (dataset : String) (sizes : List Int32), ∃ group,
        writer.nodeTensor now filename coordinate dataset sizes =
          writer.tensor now filename group dataset sizes ∧ ofText group = .ok coordinate) ∧
    (∀ (written : String) (coordinate : Coordinate), ofText written = .ok coordinate ↔
      written = "" ∧ coordinate = root ∨
        List.Forall₂ Denotes (written.toList.splitOn '_') coordinate.path) ∧
    ∀ (written : String) (error : WordError), ofText written = .error error ↔
      written ≠ "" ∧ ∃ before piece after,
        written.toList.splitOn '_' = before ++ piece :: after ∧
          (∀ earlier ∈ before, ∃ word, Denotes earlier word) ∧
          (∀ word, ¬ Denotes piece word) ∧ Refused piece error := by
  refine ⟨ofText_text, fun left right same => ?_,
    fun writer now filename coordinate dataset sizes =>
      ⟨coordinate.text, rfl, ofText_text coordinate⟩,
    fun written coordinate => ?_, fun written error => ?_⟩
  · have read := ofText_text left
    rw [same, ofText_text right] at read
    exact (Except.ok.inj read).symm
  · by_cases empty : written = ""
    · -- the only piece of the empty text is empty and stands for no word
      subst empty
      have blank : ¬ List.Forall₂ Denotes ("".toList.splitOn '_') coordinate.path :=
        mapM_readWord_eq_ok_iff.not.mp nofun
      rw [ofText_empty, Except.ok.injEq, or_iff_left blank, eq_comm]
      exact (and_iff_right rfl).symm
    · rw [ofText_of_ne_empty empty, ← mapM_readWord_eq_ok_iff, Outcome.bind_eq_ok_iff,
        or_iff_right fun top => empty top.1]
      obtain ⟨path⟩ := coordinate
      refine ⟨fun ⟨words, read, same⟩ => ?_, fun read => ⟨path, read, rfl⟩⟩
      cases same
      exact read
  · rw [← mapM_readWord_eq_error_iff]
    by_cases empty : written = ""
    · subst empty
      exact ⟨nofun, fun failed => absurd rfl failed.1⟩
    · rw [ofText_of_ne_empty empty, and_iff_right empty]
      cases (written.toList.splitOn '_').mapM readWord with
      | error other =>
          change Except.error other = .error error ↔ _
          rw [Except.error.injEq, Except.error.injEq]
      | ok path => exact ⟨nofun, nofun⟩

/-- Signs and leading zeros are accepted, and the first bad piece is the one that counts. -/
example : ofText "+0_01" = .ok ⟨[0, 1]⟩ ∧ ofText "7__x" = .error .empty := by decide

end Coordinate

end MixedInteger
