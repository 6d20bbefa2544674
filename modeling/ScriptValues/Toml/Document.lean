/-
TOML documents, read from the front. A value may take several lines, so its end is known only once it is
read; each reader gives what it has read and the rest, or nothing if the text is not well formed. Arrays
and inline tables nest up to `nesting` levels, and a key has up to `nesting` parts.
-/
import ScriptValues.Toml.Numeral
import ScriptValues.Toml.Table
import ScriptValues.Toml.Text

namespace ScriptValues.Toml

/-- How deeply arrays and inline tables nest, and how many parts a key has, at most. -/
def nesting : Nat := 79

def blanks (cs : List Char) : List Char := cs.dropWhile isBlank

/-- The end of a line, after blanks and a comment. -/
def lineEnd (cs : List Char) : Option (List Char) :=
  let cs := blanks cs
  let cs := match cs with
    | '#' :: rest => rest.dropWhile isPlain
    | cs => cs
  match cs with
  | [] => some []
  | '\n' :: rest => some rest
  | '\r' :: '\n' :: rest => some rest
  | _ => none

/-- Skips blanks, line breaks and comments, each comment with the break that ends it. -/
def gap : (comment : Bool) → List Char → Option (List Char)
  | false, [] => some []
  | true, [] => none
  | _, '\n' :: rest => gap false rest
  | _, '\r' :: '\n' :: rest => gap false rest
  | true, c :: rest => if isPlain c then gap true rest else none
  | false, '#' :: rest => gap true rest
  | false, c :: rest => if isBlank c then gap false rest else some (c :: rest)

/-- A character of a key without quotes. -/
def isKeyChar (c : Char) : Bool := c.isAlphanum || c == '-' || c == '_'

/-- One part of a key: quoted on one line, or bare. -/
def keyPart : List Char → Option (String × List Char)
  | '"' :: rest => (basicText rest).map fun (cs, rest) => (.ofList cs, rest)
  | '\'' :: rest => (literalText rest).map fun (cs, rest) => (.ofList cs, rest)
  | cs =>
    let key := cs.takeWhile isKeyChar
    if key.isEmpty then none else some (.ofList key, cs.dropWhile isKeyChar)

/-- A key of at most `parts` parts with points in between, and the blanks around them. -/
def keyPath : (parts : Nat) → List Char → Option (List String × List Char)
  | 0, _ => none
  | parts + 1, cs => do
    let (key, cs) ← keyPart (blanks cs)
    match blanks cs with
    | '.' :: rest => do
      let (path, cs) ← keyPath parts rest
      some (key :: path, cs)
    | cs => some ([key], cs)

/-- A value that is neither a string nor made of other values. -/
def scalar (cs : List Char) : Option (Value × List Char) :=
  match cs with
  | 't' :: 'r' :: 'u' :: 'e' :: rest => some (.boolean true, rest)
  | 'f' :: 'a' :: 'l' :: 's' :: 'e' :: rest => some (.boolean false, rest)
  | cs =>
    match dateTime? cs with
    | some (d, rest) => some (.dateTime d, rest)
    | none =>
      match float? cs with
      | some (x, rest) => some (.float x, rest)
      | none => (integer? cs).map fun (i, rest) => (.integer i, rest)

mutual

/-- A value, with this many levels of nesting left. -/
def value : (fuel levels : Nat) → List Char → Option (Value × List Char)
  | 0, _, _ => none
  | fuel + 1, levels, cs =>
    match cs, levels with
    | '[' :: _, 0 => none
    | '\x7b' :: _, 0 => none
    | '[' :: rest, levels + 1 => do
      let cs ← gap false rest
      let (items, cs) ← arrayItems fuel levels cs
      some (.array items, cs)
    | '\x7b' :: rest, levels + 1 =>
      match blanks rest with
      | '\x7d' :: rest => some (.table [], rest)
      | cs => do
        let (pairs, cs) ← tablePairs fuel levels cs
        let entries ← inlineTable pairs []
        some (.table (entryValues entries), cs)
    | '"' :: _, _ => (string? cs).map fun (text, rest) => (.string (.ofList text), rest)
    | '\'' :: _, _ => (string? cs).map fun (text, rest) => (.string (.ofList text), rest)
    | cs, _ => scalar cs

/-- The items of an array up to its closing bracket; a comma may follow the last. -/
def arrayItems : (fuel levels : Nat) → List Char → Option (List Value × List Char)
  | 0, _, _ => none
  | _ + 1, _, ']' :: rest => some ([], rest)
  | fuel + 1, levels, cs => do
    let (v, cs) ← value fuel levels cs
    let cs ← gap false cs
    match cs with
    | ']' :: rest => some ([v], rest)
    | ',' :: rest => do
      let cs ← gap false rest
      let (vs, cs) ← arrayItems fuel levels cs
      some (v :: vs, cs)
    | _ => none

/-- The entries of an inline table up to its closing brace, at least one. -/
def tablePairs : (fuel levels : Nat) → List Char →
    Option (List (List String × Value) × List Char)
  | 0, _, _ => none
  | fuel + 1, levels, cs => do
    let (path, cs) ← keyPath nesting cs
    match cs with
    | '=' :: rest => do
      let (v, cs) ← value fuel levels (blanks rest)
      match blanks cs with
      | '\x7d' :: rest => some ([(path, v)], rest)
      | ',' :: rest => do
        let (pairs, cs) ← tablePairs fuel levels rest
        some ((path, v) :: pairs, cs)
      | _ => none
    | _ => none

end

/-- A value at the front of a text; every two steps of reading take a character. -/
def readValue (cs : List Char) : Option (Value × List Char) :=
  value (2 * cs.length + 2) nesting cs

/-- The statement at the front of a text that is not blank, up to the end of its line. -/
def statement (cs : List Char) : Option (Statement × List Char) :=
  match cs with
  | '[' :: '[' :: rest => do
    let (path, cs) ← keyPath nesting rest
    match cs with
    | ']' :: ']' :: rest => (lineEnd rest).map fun rest => (.element path, rest)
    | _ => none
  | '[' :: rest => do
    let (path, cs) ← keyPath nesting rest
    match cs with
    | ']' :: rest => (lineEnd rest).map fun rest => (.table path, rest)
    | _ => none
  | cs => do
    let (path, cs) ← keyPath nesting cs
    match cs with
    | '=' :: rest => do
      let (v, cs) ← readValue (blanks rest)
      (lineEnd cs).map fun rest => (.entry path v, rest)
    | _ => none

/-- The statements of a text; every statement, and every line without one, takes a character. -/
def statements : (fuel : Nat) → List Char → Option (List Statement)
  | 0, _ => none
  | fuel + 1, cs =>
    match blanks cs with
    | [] => some []
    | '\n' :: rest => statements fuel rest
    | '\r' :: '\n' :: rest => statements fuel rest
    | '#' :: rest => do
      let rest ← lineEnd ('#' :: rest)
      statements fuel rest
    | cs => do
      let (s, rest) ← statement cs
      let more ← statements fuel rest
      some (s :: more)

/-- The text without a byte order mark at its start. -/
def dropMark : List Char → List Char
  | '\uFEFF' :: rest => rest
  | cs => cs

/-- The entries of the top-level table of a document, none if it is not well formed. -/
def readDocument (cs : List Char) : Option (List (String × Value)) := do
  let cs := dropMark cs
  let lines ← statements (cs.length + 1) cs
  let entries ← assemble lines [] []
  some (entryValues entries)

end ScriptValues.Toml
