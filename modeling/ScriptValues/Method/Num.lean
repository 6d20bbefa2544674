/-
The methods of numbers.
-/
import ScriptValues.Method.Answer
import ScriptValues.Number.Format

namespace ScriptValues

/-- What a method of a number answers. Further arguments do not matter. -/
def NumMethod.answer (n : Num) : NumMethod → List Value → Except Fault Answer
  | .toStr, _ => .ok (.value (.str n.text))

end ScriptValues
