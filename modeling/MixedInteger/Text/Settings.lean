import MixedInteger.Text.Json

/-! # Settings in JSON

A record of settings is read from a JSON text. An object gives settings by name:
unknown names are ignored, and a name that is given twice is refused. An array
gives settings by position. What is not given keeps its default, and a value of
another type is refused.
-/

namespace MixedInteger.Json

/-- A setting of a record: its name, and how a value for it is taken over. -/
structure Setting (S : Type) where
  name : String
  /-- The settings with the value taken over, if the value has the right type. -/
  assign : Value → S → Option S

/-- The truth value of a JSON value. -/
def Value.bool? : Value → Option Bool
  | .bool value => some value
  | _ => none

/-- The text of a JSON value. -/
def Value.text? : Value → Option String
  | .string points => textOf? points
  | _ => none

variable {S : Type}

/-- Take over the members of an object, given the names that have been met. -/
def assignMembers (settings : List (Setting S)) :
    (met : List String) → List (CodePoints × Value) → S → Option S
  | _, [], record => some record
  | met, (points, value) :: members, record => do
      let name ← textOf? points
      match settings.find? fun setting => setting.name == name with
      | none => assignMembers settings met members record
      | some setting =>
          if met.contains name then none
          else do
            let record ← setting.assign value record
            assignMembers settings (name :: met) members record

/-- Take over the entries of an array, at most one for each setting. -/
def assignEntries : List (Setting S) → List Value → S → Option S
  | _, [], record => some record
  | [], _ :: _, _ => none
  | setting :: settings, value :: values, record => do
      let record ← setting.assign value record
      assignEntries settings values record

/-- The record that a text denotes, starting from the defaults. -/
def readSettings (settings : List (Setting S)) (defaults : S) (text : String) : Option S :=
  match parse text with
  | some (.object members) => assignMembers settings [] members defaults
  | some (.array entries) => assignEntries settings entries defaults
  | _ => none

end MixedInteger.Json
