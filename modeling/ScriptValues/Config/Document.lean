/-
The configuration in a TOML document. It is the table `props` at the top level; everything else in the
document is left alone, and so are other keys of the table. Whatever is missing has its default.
-/
import ScriptValues.Config.Basic
import ScriptValues.Toml.Document

namespace ScriptValues

variable {μ : Type}

/-- A mode given by its name, or by a table with its name as the only key and nothing under it. -/
def modeOf (modes : Modes μ) : Toml.Value → Option μ
  | .string name => modes.ofName? name
  | .table [(name, .table [])] => modes.ofName? name
  | .table [(name, .array [])] => modes.ofName? name
  | _ => none

/-- A mode that may be missing. -/
def optionalMode (modes : Modes μ) (default : μ) : Option Toml.Value → Option μ
  | none => some default
  | some v => modeOf modes v

namespace Config

/-- The configuration from its two modes, where they are given. -/
def ofModes (map iteration : Option Toml.Value) : Option Config := do
  let map ← optionalMode MapMode.modes .concurrent map
  let iteration ← optionalMode IterationMode.modes .live iteration
  some ⟨map, iteration⟩

/-- The configuration that a value stands for: a table with the modes by name, or an array with the
modes by position. A date has no entries and gives the defaults. -/
def ofValue : Toml.Value → Option Config
  | .table entries => ofModes (entries.lookup "map") (entries.lookup "iteration")
  | .array items => ofModes items[0]? items[1]?
  | .dateTime _ => some {}
  | _ => none

/-- The configuration in a document, none if the document or the table is not well formed. -/
def ofDocument (text : String) : Option Config := do
  let entries ← Toml.readDocument text.toList
  match entries.lookup "props" with
  | none => some {}
  | some v => ofValue v

end Config

end ScriptValues
