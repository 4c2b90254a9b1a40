import MixedInteger.Text.Settings

/-! # Telemetry options

The settings of a telemetry writer, and their JSON form.
-/

namespace MixedInteger

/-- The settings of a telemetry writer. -/
structure TelemetryOptions where
  name : String := "minlp"
  runId : String := ""
  /-- Whether anything is written at all. -/
  enabled : Bool := true
  /-- Whether announcements about the search tree are checked. -/
  validateProtocol : Bool := true
  deriving DecidableEq, Repr

namespace TelemetryOptions

/-- The settings that JSON may give. -/
def settings : List (Json.Setting TelemetryOptions) :=
  [⟨"name", fun value options => value.text?.map fun name => { options with name }⟩,
    ⟨"run_id", fun value options => value.text?.map fun runId => { options with runId }⟩,
    ⟨"enabled", fun value options => value.bool?.map fun enabled => { options with enabled }⟩,
    ⟨"validate_protocol", fun value options =>
      value.bool?.map fun validateProtocol => { options with validateProtocol }⟩]

/-- Options as JSON gives them, the defaults where it does not. -/
def ofJson? (text : String) : Option TelemetryOptions := Json.readSettings settings {} text

def toJson (options : TelemetryOptions) : String :=
  Json.writeObject
    [("name", Json.writeString options.name), ("run_id", Json.writeString options.runId),
      ("enabled", Json.writeBool options.enabled),
      ("validate_protocol", Json.writeBool options.validateProtocol)]

end TelemetryOptions

end MixedInteger
