/-
Strings in TOML: between double quotes with escapes, or between single quotes as they stand; on one line
or, between three quotes, on several. Each reader begins after the opening quotes and gives the text and
what follows the closing ones. Control characters other than tab may not stand in a text.
-/

namespace ScriptValues.Toml

/-- A character that may stand in a string or a comment: no control but tab. -/
def isPlain (c : Char) : Bool := c == '\t' || (decide (0x20 ≤ c.toNat) && c.toNat != 0x7F)

def isBlank (c : Char) : Bool := c == ' ' || c == '\t'

/-- The value of a hexadecimal digit. -/
def hexDigit? (c : Char) : Option Nat :=
  if c.isDigit then some (c.toNat - '0'.toNat)
  else if 'a' ≤ c ∧ c ≤ 'f' then some (c.toNat - 'a'.toNat + 10)
  else if 'A' ≤ c ∧ c ≤ 'F' then some (c.toNat - 'A'.toNat + 10)
  else none

/-- The character with a code point in hexadecimal digits. Halves of pairs are no characters. -/
def codePoint? (digits : List Char) : Option Char := do
  let n ← digits.foldlM (fun n c => (hexDigit? c).map (16 * n + ·)) 0
  if n.isValidChar then some (Char.ofNat n) else none

/-- The character that a letter stands for after a backslash. -/
def escape? (c : Char) : Option Char :=
  if c = 'b' then some '\x08'
  else if c = 't' then some '\t'
  else if c = 'n' then some '\n'
  else if c = 'f' then some '\x0c'
  else if c = 'r' then some '\r'
  else if c = '"' then some '"'
  else if c = '\\' then some '\\'
  else none

/-- A character before a text that has been read. -/
def prepend (c : Char) : Option (List Char × List Char) → Option (List Char × List Char) :=
  Option.map fun (text, rest) => (c :: text, rest)

/-- A text on one line, up to a double quote. -/
def basicText : List Char → Option (List Char × List Char)
  | [] => none
  | '"' :: rest => some ([], rest)
  | '\\' :: 'u' :: a :: b :: c :: d :: rest => do
    let ch ← codePoint? [a, b, c, d]
    prepend ch (basicText rest)
  | '\\' :: 'U' :: a :: b :: c :: d :: e :: f :: g :: h :: rest => do
    let ch ← codePoint? [a, b, c, d, e, f, g, h]
    prepend ch (basicText rest)
  | '\\' :: c :: rest => do
    let ch ← escape? c
    prepend ch (basicText rest)
  | c :: rest => if isPlain c && c != '\\' then prepend c (basicText rest) else none

/-- A text on one line, up to a single quote. -/
def literalText : List Char → Option (List Char × List Char)
  | [] => none
  | '\'' :: rest => some ([], rest)
  | c :: rest => if isPlain c then prepend c (literalText rest) else none

/-- The end of a text on several lines, three quotes having been read: up to two more belong to the
text. -/
def closing (quote : Char) : List Char → List Char × List Char
  | a :: b :: rest =>
    if a = quote then if b = quote then ([quote, quote], rest) else ([quote], b :: rest)
    else ([], a :: b :: rest)
  | [a] => if a = quote then ([quote], []) else ([], [a])
  | [] => ([], [])

/-- The text without a line break at its start. -/
def dropLineBreak : List Char → List Char
  | '\n' :: rest => rest
  | '\r' :: '\n' :: rest => rest
  | cs => cs

/-- Whether white space is being skipped after a backslash at the end of a line. -/
inductive Folding
  | off
  /-- Before the end of the line: nothing but blanks may come. -/
  | line
  /-- On the lines after it: blanks and line breaks are skipped. -/
  | lines
deriving DecidableEq, Inhabited

/-- A text on several lines with escapes, up to three double quotes. -/
def multilineBasic : Folding → List Char → Option (List Char × List Char)
  | _, [] => none
  | folding, '\r' :: '\n' :: rest =>
    if folding = .off then prepend '\n' (multilineBasic .off rest) else multilineBasic .lines rest
  | .line, c :: rest =>
    if isBlank c then multilineBasic .line rest
    else if c = '\n' then multilineBasic .lines rest
    else none
  | .lines, ' ' :: rest => multilineBasic .lines rest
  | .lines, '\t' :: rest => multilineBasic .lines rest
  | .lines, '\n' :: rest => multilineBasic .lines rest
  | _, '"' :: '"' :: '"' :: rest => some (closing '"' rest)
  | _, '\\' :: 'u' :: a :: b :: c :: d :: rest => do
    let ch ← codePoint? [a, b, c, d]
    prepend ch (multilineBasic .off rest)
  | _, '\\' :: 'U' :: a :: b :: c :: d :: e :: f :: g :: h :: rest => do
    let ch ← codePoint? [a, b, c, d, e, f, g, h]
    prepend ch (multilineBasic .off rest)
  | _, '\\' :: c :: rest =>
    if isBlank c then multilineBasic .line rest
    else if c = '\n' then multilineBasic .lines rest
    else if c = '\r' then
      match rest with
      | '\n' :: rest => multilineBasic .lines rest
      | _ => none
    else do
      let ch ← escape? c
      prepend ch (multilineBasic .off rest)
  | _, '\n' :: rest => prepend '\n' (multilineBasic .off rest)
  | _, c :: rest => if isPlain c && c != '\\' then prepend c (multilineBasic .off rest) else none

/-- A text on several lines as it stands, up to three single quotes. -/
def multilineLiteral : List Char → Option (List Char × List Char)
  | [] => none
  | '\'' :: '\'' :: '\'' :: rest => some (closing '\'' rest)
  | '\r' :: '\n' :: rest => prepend '\n' (multilineLiteral rest)
  | '\n' :: rest => prepend '\n' (multilineLiteral rest)
  | c :: rest => if isPlain c then prepend c (multilineLiteral rest) else none

/-- A string of any of the four forms. -/
def string? : List Char → Option (List Char × List Char)
  | '"' :: '"' :: '"' :: rest => multilineBasic .off (dropLineBreak rest)
  | '"' :: rest => basicText rest
  | '\'' :: '\'' :: '\'' :: rest => multilineLiteral (dropLineBreak rest)
  | '\'' :: rest => literalText rest
  | _ => none

end ScriptValues.Toml
