/-
What can go wrong when a property is read or a method called, and the messages for it. Every fault
ends the expression that raised it and can be caught by the script.
-/
import ScriptValues.Value.Basic

namespace ScriptValues

/-- Where a value of the wrong kind came from. -/
inductive Site
  /-- An argument, by its position from 0. -/
  | argument (position : Nat)
  /-- What a function called by the method returned. -/
  | result (method : CallbackMethod)
deriving DecidableEq, Inhabited

/-- What was asked for at a site. -/
inductive Expected
  | anything
  | kind (k : Kind)
deriving DecidableEq, Inhabited

/-- A failure that a script can catch. -/
inductive Fault
  /-- The value has no properties. -/
  | unsupportedType (kind : Kind) (name : String)
  /-- Values of this kind do not have this property. -/
  | unknownProperty (kind : Kind) (name : String)
  /-- A value of the wrong kind, or none where one is required. -/
  | argumentType (site : Site) (expected : Expected) (actual : Option Kind)
  /-- The method needs an element to begin with. -/
  | emptyArray (method : CallbackMethod)
  /-- Any other failure, with its text. -/
  | runtime (text : String)
deriving DecidableEq, Inhabited

def Site.describe : Site → String
  | .argument i => "argument #" ++ Nat.repr (i + 1)
  | .result m => "result of the " ++ m.name ++ " callback"

def Expected.name : Expected → String
  | .anything => "anything"
  | .kind k => k.name

namespace Fault

/-- The name of the kind of failure. -/
def tag : Fault → String
  | .unsupportedType _ _ => "UnsupportedType"
  | .unknownProperty _ _ => "UnknownProperty"
  | .argumentType _ _ _ => "ArgumentType"
  | .emptyArray _ => "EmptyArray"
  | .runtime _ => "Runtime"

/-- The message for a failure. -/
def message : Fault → String
  | .unsupportedType k name => "Cannot read prop of " ++ k.name ++ ". (reading " ++ name ++ ")"
  | .unknownProperty k name => "No such prop (" ++ name ++ ") in " ++ k.name ++ "."
  | .argumentType site expected actual =>
    "Expect " ++ expected.name ++ " for " ++ site.describe ++ ", but got " ++
      (actual.map Kind.name).getD "nothing" ++ "."
  | .emptyArray m => m.name ++ " of empty arr with no initial value"
  | .runtime text => "runtime error: " ++ text

end Fault

end ScriptValues
