/-
Loading the configuration from a file: what was found under the path, and what is reported when it
cannot be used.
-/
import ScriptValues.Config.Document

namespace ScriptValues

/-- What is found under a path. -/
inductive FileState
  | missing
  | directory
  | bytes (data : List UInt8)

/-- Why a file cannot be read. -/
inductive ReadFailure
  | notFound
  | isDirectory
  | notText
deriving DecidableEq, Inhabited

/-- Why there is no configuration. -/
inductive ConfigError
  | unreadable (path : String) (reason : ReadFailure)
  /-- The document is not well formed, or the table in it is not. -/
  | malformed
deriving DecidableEq, Inhabited

def ReadFailure.message : ReadFailure → String
  | .notFound => "No such file or directory (os error 2)"
  | .isDirectory => "Is a directory (os error 21)"
  | .notText => "stream did not contain valid UTF-8"

def ConfigError.message : ConfigError → String
  | .unreadable path reason => "cannot read '" ++ path ++ "': " ++ reason.message
  | .malformed => "invalid toml"

namespace Config

def parse (text : String) : Except ConfigError Config :=
  match ofDocument text with
  | some config => .ok config
  | none => .error .malformed

/-- The configuration in a file. -/
def load (path : String) : FileState → Except ConfigError Config
  | .missing => .error (.unreadable path .notFound)
  | .directory => .error (.unreadable path .isDirectory)
  | .bytes data =>
    match String.fromUTF8? ⟨data.toArray⟩ with
    | some text => parse text
    | none => .error (.unreadable path .notText)

end Config

end ScriptValues
