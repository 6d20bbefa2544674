/-
How the statements of a TOML document make up its tables. A table is written in one place: under its
header, by dotted keys in the table above, or as a value. What may still be added to a table depends on
how it came about (`Origin`):

* one that was only implied, by the header of a table inside it, may get a header of its own;
* one made by dotted keys takes further dotted keys, and headers of tables inside it;
* one with a header takes no dotted keys from above;
* a value takes nothing.

A header in double brackets adds an element to an array of tables; paths through such an array lead into
its last element.
-/
import ScriptValues.Association
import ScriptValues.Toml.Value

namespace ScriptValues.Toml

/-- How a table came about. -/
inductive Origin
  /-- By the header of a table inside it. -/
  | implied
  /-- By a dotted key. -/
  | dotted
  /-- By a header of its own. -/
  | stated
deriving DecidableEq, Inhabited

/-- What a key holds while a document is read. -/
inductive Node
  | leaf (v : Value)
  | table (origin : Origin) (entries : List (String × Node))
  | tables (elements : List (List (String × Node)))
deriving Inhabited

/-- The entries of a table. -/
abbrev Entries := List (String × Node)

mutual

/-- The value that a node has become. -/
def Node.value : Node → Value
  | .leaf v => v
  | .table _ entries => .table (entryValues entries)
  | .tables elements => .array (elementValues elements)

def entryValues : List (String × Node) → List (String × Value)
  | [] => []
  | (key, node) :: rest => (key, node.value) :: entryValues rest

def elementValues : List (List (String × Node)) → List Value
  | [] => []
  | entries :: rest => .table (entryValues entries) :: elementValues rest

end

namespace Entries

/-- Changes the table at the end of a path, making the tables that are missing on the way; `dotted`
paths may not pass through tables that have a header. -/
def change (dotted : Bool) (f : Origin → Entries → Option Entries) :
    List String → Origin → Entries → Option Entries
  | [], origin, t => f origin t
  | key :: path, _, t =>
    match t.lookup key with
    | none => do
      let origin : Origin := if dotted then .dotted else .implied
      let sub ← change dotted f path origin []
      some (setKey key (.table origin sub) t)
    | some (.leaf _) => none
    | some (.table origin sub) =>
      if dotted && origin == .stated then none
      else do
        let sub ← change dotted f path origin sub
        some (setKey key (.table origin sub) t)
    | some (.tables elements) => do
      let last ← elements.getLast?
      let last ← change dotted f path .stated last
      some (setKey key (.tables (elements.dropLast ++ [last])) t)

/-- A new entry under a key with its path. The table that a dotted path leads to must itself be made of
dotted keys. -/
def add (path : List String) (key : String) (v : Value) : Entries → Option Entries :=
  change true
    (fun origin t =>
      if (origin == .dotted) == path.isEmpty then none
      else if (t.lookup key).isSome then none
      else some (t ++ [(key, .leaf v)]))
    path .stated

/-- A header: a new table, or one that was implied. -/
def openTable (path : List String) (key : String) : Entries → Option Entries :=
  change false
    (fun _ t =>
      match t.lookup key with
      | none => some (t ++ [(key, .table .stated [])])
      | some (.table .implied sub) => some (setKey key (.table .stated sub) t)
      | some _ => none)
    path .stated

/-- A header in double brackets: a new element of an array of tables. -/
def openElement (path : List String) (key : String) : Entries → Option Entries :=
  change false
    (fun _ t =>
      match t.lookup key with
      | none => some (t ++ [(key, .tables [[]])])
      | some (.tables elements) => some (setKey key (.tables (elements ++ [[]])) t)
      | some _ => none)
    path .stated

/-- A new entry in the table that a header names. -/
def addUnder (header path : List String) (key : String) (v : Value) : Entries → Option Entries :=
  change false (fun _ t => add path key v t) header .stated

end Entries

/-- A statement of a document; paths end with the key itself. -/
inductive Statement
  | table (path : List String)
  | element (path : List String)
  | entry (path : List String) (v : Value)

/-- The entries of a document, after the statements under the current header. -/
def assemble : List Statement → (header : List String) → Entries → Option Entries
  | [], _, t => some t
  | .table path :: rest, _, t => do
    let key ← path.getLast?
    let t ← t.openTable path.dropLast key
    assemble rest path t
  | .element path :: rest, _, t => do
    let key ← path.getLast?
    let t ← t.openElement path.dropLast key
    assemble rest path t
  | .entry path v :: rest, header, t => do
    let key ← path.getLast?
    let t ← t.addUnder header path.dropLast key v
    assemble rest header t

/-- The table that entries with dotted keys make, each with its value. -/
def inlineTable : List (List String × Value) → Entries → Option Entries
  | [], t => some t
  | (path, v) :: rest, t => do
    let key ← path.getLast?
    let t ← t.add path.dropLast key v
    inlineTable rest t

end ScriptValues.Toml
