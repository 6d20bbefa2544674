/-
A text with the offsets of its clusters. The offsets are found once, and all that is asked of a text in clusters is
read by them: how many there are, all of them, the one at a position, what stands between two positions, and the first
position where another text stands. Every step is a checked one.

No step is ever refused. The offsets are in order and end with the length of the text (`between_ofChars`); a position
beyond it is not read; in a search, a text that is longer is not looked for, and no position is tried that does not
leave room for it (`indexOf_ofChars`). So each answer has a value, which is that of the list of clusters
(`length_eq`, `parts_eq`, `cluster?_eq`, `slice_eq`, `indexOf_eq`).
-/
import ScriptValues.Checked
import ScriptValues.Text.Grapheme

namespace ScriptValues.Text

/-- Where each part begins, the first one at `start`, and where the last one ends. -/
def offsets (start : Nat) : List (List Char) → List Nat
  | [] => [start]
  | part :: parts => start :: offsets (start + part.length) parts

/-- A text with the offset of every cluster, counted in characters, and after these its own length. -/
structure Indexed where
  chars : Array Char
  bounds : Array Nat

namespace Indexed

def ofChars (cs : List Char) : Indexed := ⟨cs.toArray, (offsets 0 (Text.clusters cs)).toArray⟩

/-- The number of clusters. -/
def length (text : Indexed) : Checked Nat := .minus text.bounds.size 1

/-- What stands between the offsets at two positions. -/
def between (text : Indexed) (start stop : Nat) : Checked (List Char) := do
  let first ← .item text.bounds start
  let last ← .item text.bounds stop
  .cut text.chars first last

/-- The cluster at a position. -/
def cluster? (text : Indexed) (i : Nat) : Checked (Option (List Char)) := do
  let length ← text.length
  if length ≤ i then return none
  let part ← text.between i (i + 1)
  return some part

/-- The text of the clusters from `start` up to but not including `stop`. The end counts as its last position if it
lies beyond it, and nothing stands between two positions that are not in order. -/
def slice (text : Indexed) (start stop : Nat) : Checked (List Char) := do
  let length ← text.length
  let stop := min stop length
  if stop ≤ start then return []
  text.between start stop

/-- All clusters. -/
def clusters (text : Indexed) : Checked (List (List Char)) :=
  (text.bounds.toList.zip text.bounds.toList.tail).mapM fun q => .cut text.chars q.1 q.2

/-- The first position from `start` on where the clusters of `needle` stand. A text without characters is found where
the search begins, at the end at the latest. -/
def indexOf (text needle : Indexed) (start : Nat) : Checked (Option Nat) := do
  let length ← text.length
  if needle.chars.isEmpty then return some (min start length)
  if length ≤ start then return none
  let pin ← needle.clusters
  if length < pin.length then return none
  let last ← .minus length pin.length
  (List.range' start (last + 1 - start)).findM? fun i =>
    pin.zipIdx.allM fun q => do
      let part ← text.cluster? (i + q.2)
      return part == some q.1

end Indexed

/-! ## No step is refused -/

theorem length_offsets (start : Nat) (parts : List (List Char)) :
    (offsets start parts).length = parts.length + 1 := by
  induction parts generalizing start with
  | nil => rfl
  | cons part parts ih => rw [offsets, List.length_cons, ih, List.length_cons]

theorem getElem?_offsets {start i : Nat} {parts : List (List Char)} (hi : i ≤ parts.length) :
    (offsets start parts)[i]? = some (start + (parts.take i).flatten.length) := by
  induction parts generalizing start i with
  | nil =>
    obtain rfl : i = 0 := Nat.le_zero.1 hi
    rfl
  | cons part parts ih =>
    cases i with
    | zero => rfl
    | succ i =>
      rw [offsets, List.getElem?_cons_succ, ih (Nat.le_of_succ_le_succ hi), List.take_succ_cons, List.flatten_cons,
        List.length_append, Nat.add_assoc]

/-- Cut at their offsets a text gives its parts. -/
theorem mapM_cut_offsets (before : List Char) (parts : List (List Char)) :
    (((offsets before.length parts).zip (offsets before.length parts).tail).mapM fun q =>
      Checked.cut (before ++ parts.flatten).toArray q.1 q.2) = .ok parts := by
  induction parts generalizing before with
  | nil => rfl
  | cons part parts ih =>
    have hrest := ih (before ++ part)
    -- There is an offset after the first one in any case: where the part ends.
    have hoffsets : ∃ more, offsets (before.length + part.length) parts =
        (before.length + part.length) :: more := by
      cases parts <;> exact ⟨_, rfl⟩
    obtain ⟨more, hmore⟩ := hoffsets
    have hcut := Checked.cut_append before part parts.flatten
    rw [List.length_append, List.append_assoc, hmore, List.tail_cons] at hrest
    rw [List.append_assoc] at hcut
    rw [offsets, List.tail_cons, hmore, List.zip_cons_cons, List.mapM_cons, List.flatten_cons, hcut, hrest]
    rfl

namespace Indexed

variable (cs : List Char)

theorem length_ofChars : (ofChars cs).length = .ok (Text.clusters cs).length := by
  have hsize : (ofChars cs).bounds.size = (Text.clusters cs).length + 1 := length_offsets 0 _
  rw [length, hsize, Checked.minus_of_le (Nat.le_add_left _ _), Nat.add_sub_cancel]

/-- The text between two offsets is that of the clusters between the positions. -/
theorem between_ofChars {start stop : Nat} (hle : start ≤ stop) (hstop : stop ≤ (Text.clusters cs).length) :
    (ofChars cs).between start stop = .ok (((Text.clusters cs).take stop).drop start).flatten := by
  have hitem : ∀ i ≤ (Text.clusters cs).length,
      Checked.item (ofChars cs).bounds i = .ok ((Text.clusters cs).take i).flatten.length := by
    intro i hi
    refine Checked.item_of_getElem? ?_
    rw [ofChars, List.getElem?_toArray, getElem?_offsets hi, Nat.zero_add]
  have htake : ((Text.clusters cs).take stop).flatten =
      ((Text.clusters cs).take start).flatten ++ (((Text.clusters cs).take stop).drop start).flatten := by
    have hsplit := List.take_append_drop start ((Text.clusters cs).take stop)
    rw [List.take_take, Nat.min_eq_left hle] at hsplit
    rw [← List.flatten_append, hsplit]
  have hcs : ((Text.clusters cs).take stop).flatten ++ ((Text.clusters cs).drop stop).flatten = cs := by
    rw [← List.flatten_append, List.take_append_drop, flatten_clusters]
  have hcut := Checked.cut_append ((Text.clusters cs).take start).flatten
    (((Text.clusters cs).take stop).drop start).flatten ((Text.clusters cs).drop stop).flatten
  rw [← List.length_append, ← htake, hcs] at hcut
  simp only [between, hitem start (Nat.le_trans hle hstop), hitem stop hstop, Checked.ok_bind]
  exact hcut

theorem cluster?_ofChars (i : Nat) : (ofChars cs).cluster? i = .ok (Text.clusters cs)[i]? := by
  unfold cluster?
  simp only [length_ofChars, Checked.ok_bind]
  split
  · next hend =>
    rw [List.getElem?_eq_none_iff.2 hend]
    rfl
  · next hin =>
    have hlt : i < (Text.clusters cs).length := Nat.lt_of_not_le hin
    have hpart : ((Text.clusters cs).take (i + 1)).drop i = [(Text.clusters cs)[i]] := by
      rw [List.drop_take, List.drop_eq_getElem_cons hlt, Nat.add_sub_cancel_left, List.take_succ_cons, List.take_zero]
    rw [between_ofChars cs (Nat.le_succ i) hlt, hpart, List.flatten_singleton, List.getElem?_eq_getElem hlt]
    rfl

theorem slice_ofChars (start stop : Nat) :
    (ofChars cs).slice start stop = .ok (((Text.clusters cs).take stop).drop start).flatten := by
  have htake : (Text.clusters cs).take (min stop (Text.clusters cs).length) = (Text.clusters cs).take stop := by
    rw [← List.take_take, List.take_length]
  unfold slice
  simp only [length_ofChars, Checked.ok_bind]
  split
  · next hle =>
    rw [← htake, List.drop_eq_nil_of_le (Nat.le_trans (List.length_take_le _ _) hle)]
    rfl
  · next hlt =>
    rw [between_ofChars cs (Nat.le_of_not_le hlt) (Nat.min_le_right _ _), htake]

theorem clusters_ofChars : (ofChars cs).clusters = .ok (Text.clusters cs) := by
  have hcuts := mapM_cut_offsets [] (Text.clusters cs)
  rwa [List.nil_append, flatten_clusters] at hcuts

theorem indexOf_ofChars (needle : List Char) (start : Nat) :
    (ofChars cs).indexOf (ofChars needle) start = .ok (
      if needle.isEmpty then some (min start (Text.clusters cs).length)
      else if (Text.clusters cs).length ≤ start ∨ (Text.clusters cs).length < (Text.clusters needle).length then none
      else (List.range' start ((Text.clusters cs).length - (Text.clusters needle).length + 1 - start)).find? fun i =>
        (Text.clusters needle).zipIdx.all fun q => (Text.clusters cs)[i + q.2]? == some q.1) := by
  have htry : ∀ i, ((Text.clusters needle).zipIdx.allM fun q => do
      let part ← (ofChars cs).cluster? (i + q.2)
      return part == some q.1) =
      pure ((Text.clusters needle).zipIdx.all fun q => (Text.clusters cs)[i + q.2]? == some q.1) := by
    intro i
    rw [← List.allM_pure]
    refine congrArg (fun p => List.allM p _) (funext fun q => ?_)
    rw [cluster?_ofChars, Checked.ok_bind]
  have hempty : (ofChars needle).chars.isEmpty = needle.isEmpty := List.isEmpty_toArray needle
  unfold indexOf
  simp only [length_ofChars, clusters_ofChars, Checked.ok_bind, htry, List.findM?_pure, hempty]
  by_cases hnone : needle.isEmpty = true
  · rw [if_pos hnone, if_pos hnone]
    rfl
  rw [if_neg hnone, if_neg hnone]
  by_cases hend : (Text.clusters cs).length ≤ start
  · rw [if_pos hend, if_pos (.inl hend)]
    rfl
  rw [if_neg hend]
  by_cases hlong : (Text.clusters cs).length < (Text.clusters needle).length
  · exact (if_pos hlong).trans (congrArg Except.ok (if_pos (.inr hlong)).symm)
  · have hlast : Checked.minus (Text.clusters cs).length (Text.clusters needle).length =
        .ok ((Text.clusters cs).length - (Text.clusters needle).length) := Checked.minus_of_le (Nat.le_of_not_lt hlong)
    rw [if_neg (not_or.2 ⟨hend, hlong⟩), hlast]
    exact if_neg hlong

end Indexed

/-! ## The parts of a text -/

/-- The number of clusters. -/
def length (cs : List Char) : Nat := (Indexed.ofChars cs).length.value ⟨_, Indexed.length_ofChars cs⟩

theorem length_eq (cs : List Char) : length cs = (clusters cs).length :=
  Checked.value_of_eq (Indexed.length_ofChars cs)

/-- The clusters. -/
def parts (cs : List Char) : List (List Char) := (Indexed.ofChars cs).clusters.value ⟨_, Indexed.clusters_ofChars cs⟩

theorem parts_eq (cs : List Char) : parts cs = clusters cs := Checked.value_of_eq (Indexed.clusters_ofChars cs)

/-- The cluster at a position. -/
def cluster? (cs : List Char) (i : Nat) : Option (List Char) :=
  ((Indexed.ofChars cs).cluster? i).value ⟨_, Indexed.cluster?_ofChars cs i⟩

theorem cluster?_eq (cs : List Char) (i : Nat) : cluster? cs i = (clusters cs)[i]? :=
  Checked.value_of_eq (Indexed.cluster?_ofChars cs i)

/-- The text of the clusters from `start` up to but not including `stop`. -/
def slice (cs : List Char) (start stop : Nat) : List Char :=
  ((Indexed.ofChars cs).slice start stop).value ⟨_, Indexed.slice_ofChars cs start stop⟩

theorem slice_eq (cs : List Char) (start stop : Nat) :
    slice cs start stop = (((clusters cs).take stop).drop start).flatten :=
  Checked.value_of_eq (Indexed.slice_ofChars cs start stop)

/-- The first position from `start` on where the clusters of `needle` stand. -/
def indexOf (cs needle : List Char) (start : Nat) : Option Nat :=
  ((Indexed.ofChars cs).indexOf (Indexed.ofChars needle) start).value ⟨_, Indexed.indexOf_ofChars cs needle start⟩

theorem indexOf_eq (cs needle : List Char) (start : Nat) : indexOf cs needle start =
    if needle.isEmpty then some (min start (clusters cs).length)
    else if (clusters cs).length ≤ start ∨ (clusters cs).length < (clusters needle).length then none
    else (List.range' start ((clusters cs).length - (clusters needle).length + 1 - start)).find? fun i =>
      (clusters needle).zipIdx.all fun q => (clusters cs)[i + q.2]? == some q.1 :=
  Checked.value_of_eq (Indexed.indexOf_ofChars cs needle start)

theorem indexed_indexOf (cs needle : List Char) (start : Nat) :
    (Indexed.ofChars cs).indexOf (Indexed.ofChars needle) start = .ok (indexOf cs needle start) :=
  Checked.eq_ok_value _

end ScriptValues.Text
