import MixedInteger.Text.Word
import Std.Data.ExtTreeMap

/-! # Coordinates in a search tree

A node of a search tree is named by the path of branch choices that leads to it
from the root. The root is the empty path, and the proper beginnings of a path
name the ancestors of its node. In text the choices are joined by underscores.
-/

namespace MixedInteger

/-- The path from the root of a search tree to a node. -/
structure Coordinate where
  path : List UInt32
  deriving DecidableEq, Repr

namespace Coordinate

/-- Coordinates are ordered as paths, an ancestor before its descendants. -/
instance : Ord Coordinate := ⟨compareOn path⟩

instance : Std.TransOrd Coordinate := inferInstanceAs (Std.TransCmp (compareOn path))

/-- Only a coordinate itself compares equal to it. -/
theorem compare_eq_eq_iff {left right : Coordinate} : compare left right = .eq ↔ left = right := by
  obtain ⟨path⟩ := left
  obtain ⟨otherPath⟩ := right
  change compare path otherPath = .eq ↔ _
  rw [Std.compare_eq_iff_eq, mk.injEq]

instance : Std.LawfulEqOrd Coordinate where
  compare_self := compare_eq_eq_iff.mpr rfl
  eq_of_compare := compare_eq_eq_iff.mp

/-- The coordinate of the root, which has no choices. -/
def root : Coordinate := ⟨[]⟩

def isRoot (coordinate : Coordinate) : Bool := coordinate.path.isEmpty

/-- The number of choices. -/
def depth (coordinate : Coordinate) : Nat := coordinate.path.length

/-- The coordinate one step above, which the root does not have. -/
def parent? (coordinate : Coordinate) : Option Coordinate :=
  if coordinate.isRoot then none else some ⟨coordinate.path.dropLast⟩

/-- The coordinate one choice further down. -/
def child (coordinate : Coordinate) (branch : UInt32) : Coordinate :=
  ⟨coordinate.path ++ [branch]⟩

/-- Whether the first coordinate names a node strictly above the second. -/
def isAncestorOf (above below : Coordinate) : Bool :=
  above.path.length < below.path.length && above.path.isPrefixOf below.path

/-- The choices in decimal digits, with underscores between them. -/
def chars (coordinate : Coordinate) : List Char :=
  ((coordinate.path.map Text.writeWord).intersperse ['_']).flatten

def text (coordinate : Coordinate) : String := String.ofList coordinate.chars

/-- The coordinate that characters denote. -/
def ofChars (chars : List Char) : Except Text.WordError Coordinate :=
  if chars.isEmpty then .ok root
  else Coordinate.mk <$> (Text.pieces '_' chars).mapM Text.readWord

/-- The coordinate that a text spells. -/
def ofText (text : String) : Except Text.WordError Coordinate := ofChars text.toList

end Coordinate

end MixedInteger
