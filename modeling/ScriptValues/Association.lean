/-
Association lists with one value for each key.

* `lookup_setKey_self`, `lookup_setKey_other`: setting a key changes what is found there and nothing
  else.
* `mem_of_lookup`, `lookup_eq_none_iff_not_mem_keys`: what is found is there, and what is not found is no key.
* `lookup_map_values`: what is found when every value is replaced.
-/

namespace ScriptValues

variable {α : Type}

/-- The list with the value at a key replaced, or added at the end. -/
def setKey (key : String) (a : α) : List (String × α) → List (String × α)
  | [] => [(key, a)]
  | (k, b) :: rest => if k = key then (key, a) :: rest else (k, b) :: setKey key a rest

theorem lookup_setKey_self (key : String) (a : α) (l : List (String × α)) :
    (setKey key a l).lookup key = some a := by
  induction l with
  | nil => simp [setKey]
  | cons p l ih =>
    obtain ⟨k, b⟩ := p
    by_cases h : k = key
    · simp [setKey, h]
    · have : (key == k) = false := by simpa using Ne.symm h
      simp [setKey, h, List.lookup_cons, this, ih]

theorem lookup_setKey_other {key other : String} (h : other ≠ key) (a : α)
    (l : List (String × α)) : (setKey key a l).lookup other = l.lookup other := by
  have ho : (other == key) = false := by simpa using h
  induction l with
  | nil => simp [setKey, List.lookup_cons, ho]
  | cons p l ih =>
    obtain ⟨k, b⟩ := p
    by_cases hk : k = key
    · subst hk; simp [setKey, List.lookup_cons, ho]
    · simp only [setKey, hk, if_false, List.lookup_cons]
      split <;> simp_all

theorem mem_of_lookup {key : String} {a : α} {l : List (String × α)} (h : l.lookup key = some a) : (key, a) ∈ l := by
  obtain ⟨front, back, rfl, -⟩ := List.lookup_eq_some_iff.1 h
  exact List.mem_append_right _ List.mem_cons_self

theorem lookup_eq_none_iff_not_mem_keys {key : String} {l : List (String × α)} :
    l.lookup key = none ↔ key ∉ l.map Prod.fst := by
  rw [List.lookup_eq_none_iff]
  constructor
  · intro hne hmem
    obtain ⟨p, hp, rfl⟩ := List.mem_map.1 hmem
    exact absurd (hne p hp) (by simp)
  · intro hmem p hp
    rw [bne_iff_ne]
    rintro rfl
    exact hmem (List.mem_map_of_mem hp)

theorem lookup_map_values {β : Type} (f : α → β) (l : List (String × α)) (key : String) :
    (l.map fun p => (p.1, f p.2)).lookup key = (l.lookup key).map f := by
  induction l with
  | nil => rfl
  | cons p rest ih =>
    rw [List.map_cons, List.lookup_cons, List.lookup_cons, ih]
    cases key == p.1 <;> rfl

end ScriptValues
