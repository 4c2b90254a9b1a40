import MixedInteger.Decimal.NumberStyle
import MixedInteger.Model.Derivatives
import MixedInteger.Scalar.Binary64
import MixedInteger.Text.Quoted

/-! # Error texts

The texts in which the errors of models over binary64 numbers are reported.
-/

namespace MixedInteger

def EvalError.message : EvalError Float → String
  | unboundVariable id node =>
      s!"variable {id.text} has no value in the assignment (needed by node {node.text})"
  | nonFinite node operator value =>
      let text := NumberStyle.plain.text value.toBits
      s!"{operator} at node {node.text} produced a non-finite result ({text})"

def ReferenceError.message : ReferenceError → String
  | unset kind => s!"node is not attached to a {kind.name}"
  | freed kind slot => s!"{kind.name} {slot} has been freed"

/-- The text of a bound that may be absent. -/
def boundText : Option Float → String
  | some bound => "Some(" ++ NumberStyle.general.text bound.toBits ++ ")"
  | none => "None"

def ModelError.message : ModelError Float → String
  | reference error => error.message
  | duplicateName kind name => s!"a {kind.text} named {Text.quoted name} already exists"
  | foreignNode node => s!"node {node.text} does not belong to this problem's graph"
  | unknownVariable id => s!"unknown variable {id.text}"
  | unknownObjective position => s!"problem has no objective #{position}"
  | invalidBounds bounds =>
      s!"invalid bounds [{boundText bounds.lower}, {boundText bounds.upper}]"
  | eval error => error.message

end MixedInteger
