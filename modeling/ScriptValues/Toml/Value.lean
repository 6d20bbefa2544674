/-
TOML values. Tables keep their entries in the order in which they were written, and two values are equal only if
these agree.
-/
import ScriptValues.Number.Basic
import ScriptValues.Toml.DateTime

namespace ScriptValues.Toml

inductive Value
  | string (s : String)
  | integer (i : Int)
  | float (x : Num)
  | boolean (b : Bool)
  | dateTime (d : DateTime)
  | array (items : List Value)
  | table (entries : List (String × Value))
deriving Inhabited

-- Equality is written out, as no instance is derived for a type with lists of itself in it.
mutual

/-- Whether two values are equal. -/
def Value.same : Value → Value → Bool
  | .string s, .string t => s == t
  | .integer i, .integer j => i == j
  | .float x, .float y => x == y
  | .boolean b, .boolean c => b == c
  | .dateTime d, .dateTime e => d == e
  | .array vs, .array ws => sameItems vs ws
  | .table vs, .table ws => sameEntries vs ws
  | _, _ => false

def sameItems : List Value → List Value → Bool
  | [], [] => true
  | v :: vs, w :: ws => v.same w && sameItems vs ws
  | _, _ => false

def sameEntries : List (String × Value) → List (String × Value) → Bool
  | [], [] => true
  | (key, v) :: vs, (key', w) :: ws => key == key' && v.same w && sameEntries vs ws
  | _, _ => false

end

mutual

theorem Value.same_iff (v w : Value) : v.same w = true ↔ v = w := by
  cases v with
  | array vs => cases w <;> simp [Value.same, sameItems_iff vs]
  | table vs => cases w <;> simp [Value.same, sameEntries_iff vs]
  | _ => cases w <;> simp [Value.same]

theorem sameItems_iff (vs ws : List Value) : sameItems vs ws = true ↔ vs = ws := by
  cases vs with
  | nil => cases ws <;> simp [sameItems]
  | cons v vs => cases ws <;> simp [sameItems, Value.same_iff v, sameItems_iff vs]

theorem sameEntries_iff (vs ws : List (String × Value)) : sameEntries vs ws = true ↔ vs = ws := by
  cases vs with
  | nil => cases ws <;> simp [sameEntries]
  | cons entry vs => cases ws <;> simp [sameEntries, Prod.ext_iff, Value.same_iff entry.2, sameEntries_iff vs]

end

instance : DecidableEq Value := fun v w => decidable_of_iff _ (v.same_iff w)

end ScriptValues.Toml
