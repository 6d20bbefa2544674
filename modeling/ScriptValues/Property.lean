/-
The properties of values. Numbers, strings, arrays and errors have a table each, in order of names; an
attribute is read at once, a method is bound to its target and called later. Other kinds have no
properties.
-/
import ScriptValues.Machine
import ScriptValues.Text.Indexed

namespace ScriptValues

/-- A property of targets of type `τ`. -/
inductive Property (τ : Type)
  | attribute (read : Heap → τ → Value)
  | method (bind : τ → Bound)

namespace Property

variable {τ : Type}

def isMethod : Property τ → Bool
  | .attribute _ => false
  | .method _ => true

/-- A table of properties by name. -/
abbrev Table (τ : Type) := List (String × Property τ)

/-- An error as a target: its name and what it carries. -/
abbrev ErrorParts := String × Option Value

def ofNum (m : NumMethod) : String × Property Num := (m.name, .method (Bound.num · m))

def ofStr (m : StrMethod) : String × Property String := (m.name, .method (Bound.str · m))

def ofArr (m : ArrMethod) : String × Property Cell := (m.name, .method (Bound.arr · m))

def ofCallback (m : CallbackMethod) : String × Property Cell :=
  (m.name, .method (Bound.callback · m))

/-- Properties of numbers. -/
def num : Table Num := [ofNum .toStr]

/-- Properties of strings. -/
def str : Table String :=
  [ofStr .charcodeAt, ofStr .codepointAt, ofStr .incl, ofStr .indexOf,
   ("len", .attribute fun _ s => .ofNat (Text.length s.toList)),
   ofStr .lower, ofStr .pick, ofStr .replace, ofStr .slice, ofStr .split, ofStr .toArr,
   ofStr .toCharArr, ofStr .toCharcodeArr, ofStr .toNum, ofStr .toUnicodeArr,
   ofStr .toUnicodeCodepointArr, ofStr .toUtf8ByteArr, ofStr .trim, ofStr .upper]

/-- Properties of arrays. -/
def arr : Table Cell :=
  [ofArr .concat, ofArr .copy, ofCallback .filter, ofCallback .find, ofArr .incl, ofArr .indexOf,
   ofArr .join, ("len", .attribute fun h c => .ofNat (h.contents c).size),
   ofCallback .map, ofArr .pop, ofArr .push, ofCallback .reduce, ofArr .reverse, ofArr .shift,
   ofArr .slice, ofCallback .sort, ofArr .unshift]

/-- Properties of errors. -/
def error : Table ErrorParts :=
  [("info", .attribute fun _ e => e.2.getD .null), ("name", .attribute fun _ e => .str e.1)]

/-- What a name means for a target. -/
def read (kind : Kind) (table : Table τ) (target : τ) (name : String) : Act Value := do
  match table.lookup name with
  | none => throw (.unknownProperty kind name)
  | some (.attribute read) =>
    let s ← get
    pure (read s.heap target)
  | some (.method bind) => Act.bindMethod (bind target)

end Property

/-- Looks up a property of a value. -/
def resolve (v : Value) (name : String) : Act Value := do
  Act.emit (.resolve v.kind name)
  match v with
  | .num n => Property.read .num Property.num n name
  | .str s => Property.read .str Property.str s name
  | .arr c => Property.read .arr Property.arr c name
  | .error e => Property.read .error Property.error (e, none) name
  | .errorWith e info => Property.read .error Property.error (e, some info) name
  | .null | .bool _ | .fn _ => throw (.unsupportedType v.kind name)

/-- The names of the properties of a kind and whether each is a method, in order of names. -/
def Kind.properties : Kind → List (String × Bool)
  | .num => Property.num.map fun p => (p.1, p.2.isMethod)
  | .str => Property.str.map fun p => (p.1, p.2.isMethod)
  | .arr => Property.arr.map fun p => (p.1, p.2.isMethod)
  | .error => Property.error.map fun p => (p.1, p.2.isMethod)
  | .null | .bool | .fn => []

/-- The names of the properties of a kind, in order. -/
def Kind.names (k : Kind) : List String := k.properties.map Prod.fst

/-- Whether a name is a method or an attribute of a kind; none if it is no property. -/
def Kind.isMethod (k : Kind) (name : String) : Option Bool := k.properties.lookup name

end ScriptValues
