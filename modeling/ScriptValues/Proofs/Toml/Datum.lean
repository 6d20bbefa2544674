/-
What a value says, apart from how it is written: a table is a mapping of keys. Two values are equal as data if they
have the same `datum`. A table with distinct keys whose mapping holds one key only is written as that one entry
(`eq_singleton_of_datum`).
-/
import ScriptValues.Proofs.Toml.Distinct

namespace ScriptValues.Toml

/-- A value with its tables as mappings. -/
inductive Datum
  | string (s : String)
  | integer (i : Int)
  | float (x : Num)
  | boolean (b : Bool)
  | dateTime (d : DateTime)
  | array (items : List Datum)
  | table (entries : String → Option Datum)

mutual

def Value.datum : Value → Datum
  | .string s => .string s
  | .integer i => .integer i
  | .float x => .float x
  | .boolean b => .boolean b
  | .dateTime d => .dateTime d
  | .array items => .array (itemsDatum items)
  | .table entries => .table (entriesDatum entries)

def itemsDatum : List Value → List Datum
  | [] => []
  | v :: rest => v.datum :: itemsDatum rest

def entriesDatum : List (String × Value) → String → Option Datum
  | [], _ => none
  | (k, v) :: rest, key => if key == k then some v.datum else entriesDatum rest key

end

theorem itemsDatum_eq_map (items : List Value) : itemsDatum items = items.map Value.datum := by
  induction items with
  | nil => rw [itemsDatum, List.map_nil]
  | cons v rest ih => rw [itemsDatum, List.map_cons, ih]

theorem entriesDatum_eq_lookup (entries : List (String × Value)) (key : String) :
    entriesDatum entries key = (entries.lookup key).map Value.datum := by
  induction entries with
  | nil => rw [entriesDatum, List.lookup_nil, Option.map_none]
  | cons p rest ih =>
    obtain ⟨k, v⟩ := p
    rw [entriesDatum, List.lookup_cons]
    split
    · next h => rw [h, Option.map_some]
    · next h => rw [Bool.eq_false_iff.2 h, ih]

/-! ## Reading a datum back -/

theorem eq_string_of_datum {v : Value} {s : String} (h : v.datum = .string s) : v = .string s := by
  cases v <;> simp only [Value.datum, reduceCtorEq, Datum.string.injEq] at h
  rw [h]

theorem eq_array_of_datum {v : Value} {items : List Datum} (h : v.datum = .array items) :
    ∃ vs, v = .array vs ∧ vs.map Value.datum = items := by
  cases v <;> simp only [Value.datum, reduceCtorEq, Datum.array.injEq] at h
  next vs => exact ⟨vs, rfl, itemsDatum_eq_map vs ▸ h⟩

theorem eq_table_of_datum {v : Value} {entries : String → Option Datum} (h : v.datum = .table entries) :
    ∃ l, v = .table l ∧ ∀ key, (l.lookup key).map Value.datum = entries key := by
  cases v <;> simp only [Value.datum, reduceCtorEq, Datum.table.injEq] at h
  next l => exact ⟨l, rfl, fun key => by rw [← entriesDatum_eq_lookup, h]⟩

/-- The mapping without keys. -/
def Datum.empty : Datum := .table fun _ => none

/-- The mapping of one key. -/
def Datum.single (name : String) (d : Datum) : Datum := .table fun key => if key == name then some d else none

theorem eq_nil_of_lookup {α : Type} {l : List (String × α)} (h : ∀ key, l.lookup key = none) : l = [] := by
  cases l with
  | nil => rfl
  | cons p rest =>
    have hp := List.lookup_eq_none_iff.1 (h p.1) p List.mem_cons_self
    simp at hp

/-- A list with distinct keys in which one key only is found. -/
theorem eq_singleton_of_lookup {α : Type} {P : α → Prop} {l : List (String × α)} {name : String} (hl : Keyed P l)
    (h : ∀ key, (l.lookup key).isSome ↔ key = name) : ∃ a, l = [(name, a)] := by
  have hname : ∀ p ∈ l, p.1 = name := by
    intro p hp
    rw [← h, Option.isSome_iff_ne_none]
    intro hnone
    have hne := List.lookup_eq_none_iff.1 hnone p hp
    simp at hne
  cases l with
  | nil =>
    have hsome := (h name).2 rfl
    cases hsome
  | cons p rest =>
    cases rest with
    | nil => exact ⟨p.2, by rw [← hname p List.mem_cons_self]⟩
    | cons q rest =>
      -- the second entry would have the key of the first
      have hp := hname p List.mem_cons_self
      have hq := hname q (List.mem_cons_of_mem p List.mem_cons_self)
      have hkeys := hl.keys
      rw [List.map_cons, List.map_cons, hp, hq] at hkeys
      exact absurd List.mem_cons_self (List.nodup_cons.1 hkeys).1

theorem datum_eq_empty_iff {v : Value} : v.datum = .empty ↔ v = .table [] := by
  constructor
  · intro h
    obtain ⟨l, rfl, hl⟩ := eq_table_of_datum h
    rw [eq_nil_of_lookup fun key => Option.map_eq_none_iff.1 (hl key)]
  · rintro rfl
    rw [Value.datum, Datum.empty]
    exact congrArg Datum.table (funext fun key => by rw [entriesDatum])

theorem datum_eq_noItems_iff {v : Value} : v.datum = .array [] ↔ v = .array [] := by
  constructor
  · intro h
    obtain ⟨vs, rfl, hvs⟩ := eq_array_of_datum h
    rw [List.map_eq_nil_iff.1 hvs]
  · rintro rfl
    rw [Value.datum, itemsDatum]

theorem datum_singleton (name : String) (v : Value) : (Value.table [(name, v)]).datum = .single name v.datum := by
  rw [Value.datum, Datum.single]
  exact congrArg Datum.table (funext fun key => by rw [entriesDatum, entriesDatum])

theorem datum_eq_single_iff {v : Value} {name : String} {d : Datum} (hv : v.Distinct) :
    v.datum = .single name d ↔ ∃ w : Value, w.datum = d ∧ v = .table [(name, w)] := by
  constructor
  · intro h
    obtain ⟨l, rfl, hl⟩ := eq_table_of_datum h
    have hfound : ∀ key, (l.lookup key).isSome ↔ key = name := by
      intro key
      rw [← Option.isSome_map (f := Value.datum), hl]
      simp
    obtain ⟨w, rfl⟩ := eq_singleton_of_lookup (Value.distinct_table_iff.1 hv) hfound
    have hw := hl name
    simp only [List.lookup_cons, BEq.rfl, Option.map_some, if_true, Option.some.injEq] at hw
    exact ⟨w, hw, rfl⟩
  · rintro ⟨w, rfl, rfl⟩
    exact datum_singleton name w

end ScriptValues.Toml
