/-
Dates and times in TOML. Every field has a fixed number of digits and a range of its own; a day must
exist in its month. Seconds are required, a fraction of them is kept to nine places. Each reader takes
the text from the front and gives the rest.
-/

namespace ScriptValues.Toml

structure Date where
  year : Nat
  month : Nat
  day : Nat
deriving DecidableEq, Inhabited

structure Time where
  hour : Nat
  minute : Nat
  second : Nat
  nanosecond : Nat
deriving DecidableEq, Inhabited

/-- The distance of a local time from universal time. -/
inductive Offset
  | utc
  | minutes (m : Int)
deriving DecidableEq, Inhabited

/-- A date, a time, or both; with both, an offset may follow. -/
structure DateTime where
  date : Option Date
  time : Option Time
  offset : Option Offset
deriving DecidableEq, Inhabited

/-- The value of a digit. -/
def digit? (c : Char) : Option Nat :=
  if c.isDigit then some (c.toNat - '0'.toNat) else none

/-- The value of digits that stand for a number together. -/
def digitsValue? (cs : List Char) : Option Nat :=
  cs.foldlM (fun n c => (digit? c).map (10 * n + ·)) 0

/-- The value of digits, if it lies in a range. -/
def field? (cs : List Char) (low high : Nat) : Option Nat := do
  let n ← digitsValue? cs
  if low ≤ n ∧ n ≤ high then some n else none

def isLeapYear (year : Nat) : Bool :=
  year % 4 == 0 && (year % 100 != 0 || year % 400 == 0)

def daysInMonth (year month : Nat) : Nat :=
  if month = 2 then (if isLeapYear year then 29 else 28)
  else if month = 4 ∨ month = 6 ∨ month = 9 ∨ month = 11 then 30
  else 31

def date? : List Char → Option (Date × List Char)
  | a :: b :: c :: d :: '-' :: e :: f :: '-' :: g :: h :: rest => do
    let year ← field? [a, b, c, d] 0 9999
    let month ← field? [e, f] 1 12
    let day ← field? [g, h] 1 (daysInMonth year month)
    some (⟨year, month, day⟩, rest)
  | _ => none

/-- Nanoseconds after a point: the first nine digits, as if zeros followed. -/
def nanoseconds (digits : List Char) : Nat :=
  (digitsValue? ((digits ++ List.replicate 9 '0').take 9)).getD 0

/-- The fraction of a second, none written being zero. -/
def fraction : List Char → Nat × List Char
  | '.' :: rest =>
    let digits := rest.takeWhile Char.isDigit
    if digits.isEmpty then (0, '.' :: rest) else (nanoseconds digits, rest.dropWhile Char.isDigit)
  | rest => (0, rest)

/-- A time of day; a minute may have a leap second. -/
def time? : List Char → Option (Time × List Char)
  | a :: b :: ':' :: c :: d :: ':' :: e :: f :: rest => do
    let hour ← field? [a, b] 0 23
    let minute ← field? [c, d] 0 59
    let second ← field? [e, f] 0 60
    let (nanosecond, rest) := fraction rest
    some (⟨hour, minute, second, nanosecond⟩, rest)
  | _ => none

def offset? : List Char → Option (Offset × List Char)
  | 'Z' :: rest => some (.utc, rest)
  | 'z' :: rest => some (.utc, rest)
  | sign :: a :: b :: ':' :: c :: d :: rest => do
    let hour ← field? [a, b] 0 23
    let minute ← field? [c, d] 0 59
    let total : Int := 60 * hour + minute
    if sign = '+' then some (.minutes total, rest)
    else if sign = '-' then some (.minutes (-total), rest)
    else none
  | _ => none

/-- A time after a date, and its offset. -/
def timeOfDate? (separated : List Char) : Option (Time × Option Offset × List Char) := do
  let (time, rest) ← time? separated
  match offset? rest with
  | some (offset, rest) => some (time, some offset, rest)
  | none => some (time, none, rest)

/-- A date, with a time if one follows a `T` or a space; or a time alone. -/
def dateTime? (cs : List Char) : Option (DateTime × List Char) :=
  match date? cs with
  | some (date, rest) =>
    let time :=
      match rest with
      | c :: after => if c = 'T' ∨ c = 't' ∨ c = ' ' then timeOfDate? after else none
      | [] => none
    match time with
    | some (time, offset, rest) => some (⟨some date, some time, offset⟩, rest)
    | none => some (⟨some date, none, none⟩, rest)
  | none => do
    let (time, rest) ← time? cs
    some (⟨none, some time, none⟩, rest)

end ScriptValues.Toml
