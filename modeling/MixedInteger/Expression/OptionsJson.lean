import MixedInteger.Expression.Evaluation
import MixedInteger.Text.Settings

/-! # The JSON form of evaluation options -/

namespace MixedInteger.EvalOptions

/-- The settings by name, in the order of their positions. -/
def settings : List (Json.Setting EvalOptions) :=
  [⟨"check_finite", fun value options =>
    value.bool?.map fun checkFinite => { options with checkFinite }⟩]

/-- Options as JSON gives them, the defaults where it does not. -/
def ofJson? (text : String) : Option EvalOptions := Json.readSettings settings {} text

def toJson (options : EvalOptions) : String :=
  Json.writeObject [("check_finite", Json.writeBool options.checkFinite)]

end MixedInteger.EvalOptions
