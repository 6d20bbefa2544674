/-
The call of a bound method. The target is read when the method is called, not when it was bound.
-/
import ScriptValues.Method.Arr
import ScriptValues.Method.Callback
import ScriptValues.Method.Num
import ScriptValues.Method.Str

namespace ScriptValues

/-- Runs a bound method. -/
def Bound.call (host : Host) : Bound → List Value → Act Value
  | .num n m, args => do
    let answer ← Task.ofExcept (m.answer n args)
    answer.commit
  | .str s m, args => do
    let answer ← Task.ofExcept (m.answer s args)
    answer.commit
  | .arr c m, args => do
    let s ← get
    let reply ← Task.ofExcept (m.reply s.heap c args)
    reply.commit c
  | .callback c m, args => Callback.run host c m args

end ScriptValues
