/-
Arrays of plain data are told apart by their text. Plain data are null, truth values, numbers, texts, and
arrays of them, without cycles (`IsData`); two of them are the same when their shapes and their leaves are,
NaN being NaN (`SameData`).

The text of a datum shows by its first character which kind it is of (`IsData.itemText_head`). It also shows
where it ends, once a comma or a bracket follows: texts inside arrays are quoted, and no other leaf has such a
character (`IsData.readable`). So arrays that are shown in full are shown alike just if they are
the same data (`display_eq_iff_sameData`).
-/
import ScriptValues.Proofs.Heap.Bisimulation
import ScriptValues.Proofs.Heap.EqualText
import ScriptValues.Proofs.Text.Quoting

namespace ScriptValues.Heap

open Text (BeginsWith append_inj_of_delimited quote_append_inj)

/-- Plain data, in which at most so many arrays nest: the array itself, an array in it, and so on. -/
inductive IsData (h : Heap) : (levels : Nat) → Value → Prop
  | null {levels} : IsData h levels .null
  | bool {levels} (b) : IsData h levels (.bool b)
  | num {levels} (n) : IsData h levels (.num n)
  | str {levels} (s) : IsData h levels (.str s)
  | arr {levels a} : (∀ v ∈ (h.contents a).toList, IsData h levels v) → IsData h (levels + 1) (.arr a)

/-- Data of the same shape with the same leaves, each read in a heap of its own. -/
inductive SameData (h h' : Heap) : Value → Value → Prop
  | null : SameData h h' .null .null
  | bool (b) : SameData h h' (.bool b) (.bool b)
  | num {x y} : x.eq y = true → SameData h h' (.num x) (.num y)
  | nan {x y} : x.isNaN = true → y.isNaN = true → SameData h h' (.num x) (.num y)
  | str (s) : SameData h h' (.str s) (.str s)
  | arr {a b} : (h.contents a).size = (h'.contents b).size →
      (∀ (i : Nat) v w, (h.contents a)[i]? = some v → (h'.contents b)[i]? = some w → SameData h h' v w) →
      SameData h h' (.arr a) (.arr b)

variable {h h' : Heap} {levels : Nat} {v w : Value} {rest rest' : List Char}

/-- The same data have the same text. -/
theorem SameData.itemText_eq (hvw : SameData h h' v w) (levels : Nat) :
    h.itemText levels v = h'.itemText levels w := by
  induction hvw generalizing levels with
  | null | bool b | str s => rfl
  | num heq => exact NumberFormat.render_eq_iff.2 (.inl heq)
  | nan hx hy => exact NumberFormat.render_eq_iff.2 (.inr ⟨hx, hy⟩)
  | arr hsize _ ih =>
    cases levels with
    | zero => rfl
    | succ levels =>
      exact cellText_congr (forall₂_contents_iff.2 ⟨hsize, fun i v w hv hw => ih i v w hv hw levels⟩)

/-! ## First characters -/

/-- The kind of data whose texts begin with the character. -/
def kindAt (c : Char) : Option Kind :=
  if c.isDigit ∨ c ∈ ['-', 'N', 'I'] then some .num
  else if c = 'n' then some .null
  else if c = 't' ∨ c = 'f' then some .bool
  else if c = '"' then some .str
  else if c = '[' then some .arr
  else none

theorem cellText_head (levels : Nat) (a : Cell) : ∃ cs, h.cellText levels a = '[' :: cs := by
  cases levels with
  | zero => exact ⟨_, rfl⟩
  | succ levels => exact ⟨_, rfl⟩

theorem IsData.itemText_head (hv : h.IsData levels v) (levels' : Nat) :
    ∃ c cs, h.itemText levels' v = c :: cs ∧ kindAt c = some v.kind := by
  cases hv with
  | null => exact ⟨'n', _, rfl, by decide⟩
  | bool b => cases b <;> exact ⟨_, _, rfl, by decide⟩
  | num n =>
    obtain ⟨c, cs, htext, hc⟩ := NumberFormat.head_render n
    exact ⟨c, cs, htext, if_pos hc⟩
  | str s => exact ⟨'"', _, rfl, rfl⟩
  | @arr _ a _ =>
    obtain ⟨cs, htext⟩ := h.cellText_head levels' a
    exact ⟨'[', cs, htext, rfl⟩

theorem IsData.kind_eq {levels' : Nat} (hv : h.IsData levels v) (hw : h'.IsData levels' w)
    (htext : h.itemText levels v ++ rest = h'.itemText levels' w ++ rest') : v.kind = w.kind := by
  obtain ⟨c, cs, hvtext, hc⟩ := hv.itemText_head levels
  obtain ⟨d, ds, hwtext, hd⟩ := hw.itemText_head levels'
  rw [hvtext, hwtext, List.cons_append, List.cons_append, List.cons.injEq] at htext
  rw [htext.1, hd, Option.some.injEq] at hc
  exact hc.symm

/-! ## Elements in order -/

/-- What follows an element of an array: the elements after it, and the closing bracket. -/
def following : List (List Char) → List Char
  | [] => [']']
  | text :: texts => ',' :: ' ' :: (text ++ following texts)

theorem intercalate_cons (text : List Char) (texts : List (List Char)) :
    List.intercalate [',', ' '] (text :: texts) ++ [']'] = text ++ following texts := by
  induction texts generalizing text with
  | nil => simp [following]
  | cons next texts ih =>
    rw [List.intercalate_cons_of_ne_nil (List.cons_ne_nil _ _), List.append_assoc, ih]
    simp [following]

/-- What may follow a datum in an array. -/
abbrev ends : List Char := [',', ']']

theorem beginsWith_following (texts : List (List Char)) (rest : List Char) :
    BeginsWith ends (following texts ++ rest) := by
  cases texts with
  | nil => simp [following, BeginsWith]
  | cons text texts => simp [following, BeginsWith]

/-- The datum is known by its text, and it is known where the text ends. -/
def Readable (h h' : Heap) (levels : Nat) (v : Value) : Prop :=
  ∀ w rest rest', h'.IsData levels w → BeginsWith ends rest → BeginsWith ends rest' →
    h.itemText levels v ++ rest = h'.itemText levels w ++ rest' → SameData h h' v w ∧ rest = rest'

theorem following_append_inj {vs ws : List Value} (hvs : ∀ v ∈ vs, Readable h h' levels v)
    (hws : ∀ w ∈ ws, h'.IsData levels w)
    (htext : following (vs.map (h.itemText levels)) ++ rest =
      following (ws.map (h'.itemText levels)) ++ rest') :
    List.Forall₂ (SameData h h') vs ws ∧ rest = rest' := by
  induction vs generalizing ws with
  | nil =>
    cases ws with
    | nil => exact ⟨.nil, by simpa [following] using htext⟩
    | cons w ws => simp [following] at htext
  | cons v vs ih =>
    cases ws with
    | nil => simp [following] at htext
    | cons w ws =>
      rw [List.forall_mem_cons] at hvs hws
      simp only [List.map_cons, following, List.cons_append, List.append_assoc, List.cons.injEq,
        true_and] at htext
      obtain ⟨hvw, htexts⟩ := hvs.1 w _ _ hws.1 (beginsWith_following _ _) (beginsWith_following _ _) htext
      obtain ⟨hall, hrest⟩ := ih hvs.2 hws.2 htexts
      exact ⟨.cons hvw hall, hrest⟩

/-- No datum has a text that begins with the closing bracket: an array that is closed at once is empty. -/
theorem eq_nil_of_closed {vs : List Value} (hvs : ∀ v ∈ vs, h.IsData levels v)
    (hclosed : List.intercalate [',', ' '] (vs.map (h.itemText levels)) ++ [']'] ++ rest = ']' :: rest') :
    vs = [] := by
  cases vs with
  | nil => rfl
  | cons v vs =>
    obtain ⟨c, cs, htext, hc⟩ := (hvs v List.mem_cons_self).itemText_head levels
    rw [List.map_cons, intercalate_cons, htext, List.cons_append, List.cons_append, List.cons.injEq] at hclosed
    rw [hclosed.1] at hc
    exact absurd hc (by simp [kindAt])

theorem elements_append_inj {vs ws : List Value} (hread : ∀ v ∈ vs, Readable h h' levels v)
    (hvs : ∀ v ∈ vs, h.IsData levels v) (hws : ∀ w ∈ ws, h'.IsData levels w)
    (htext : List.intercalate [',', ' '] (vs.map (h.itemText levels)) ++ [']'] ++ rest =
      List.intercalate [',', ' '] (ws.map (h'.itemText levels)) ++ [']'] ++ rest') :
    List.Forall₂ (SameData h h') vs ws ∧ rest = rest' := by
  cases vs with
  | nil =>
    obtain rfl := eq_nil_of_closed hws htext.symm
    exact ⟨.nil, List.append_cancel_left htext⟩
  | cons v vs =>
    cases ws with
    | nil => cases eq_nil_of_closed hvs htext
    | cons w ws =>
      rw [List.forall_mem_cons] at hread hws
      rw [List.map_cons, List.map_cons, intercalate_cons, intercalate_cons, List.append_assoc,
        List.append_assoc] at htext
      obtain ⟨hvw, htexts⟩ := hread.1 w _ _ hws.1 (beginsWith_following _ _) (beginsWith_following _ _) htext
      obtain ⟨hall, hrest⟩ := following_append_inj hread.2 hws.2 htexts
      exact ⟨.cons hvw hall, hrest⟩

/-! ## The text of data -/

theorem num_text_append_inj {x y : Num} (hrest : BeginsWith ends rest) (hrest' : BeginsWith ends rest')
    (htext : NumberFormat.plain.render x ++ rest = NumberFormat.plain.render y ++ rest') :
    SameData h h' (.num x) (.num y) ∧ rest = rest' := by
  have hends : ∀ x, ∀ c ∈ NumberFormat.plain.render x, c ∉ ends := by
    intro x c hc hmem
    have hsign := NumberFormat.isNumberChar_of_mem_render x c hc
    rw [List.mem_pair] at hmem
    rcases hmem with rfl | rfl <;> revert hsign <;> simp [NumberFormat.IsNumberChar]
  obtain ⟨hsame, hrest⟩ := append_inj_of_delimited (hends x) (hends y) hrest hrest' htext
  refine ⟨?_, hrest⟩
  rcases NumberFormat.render_eq_iff.1 hsame with heq | ⟨hx, hy⟩
  · exact .num heq
  · exact .nan hx hy

/-- Each datum is known by its text, whatever may follow it in an array. -/
theorem IsData.readable (hv : h.IsData levels v) : Readable h h' levels v := by
  -- The first character settles the kind, so the other value is always of the same case.
  induction hv with
  | null =>
    intro w rest rest' hw hrest hrest' htext
    have hkind := IsData.null.kind_eq hw htext
    cases hw <;> cases hkind
    exact ⟨.null, List.append_cancel_left htext⟩
  | bool b =>
    intro w rest rest' hw hrest hrest' htext
    have hkind := (IsData.bool b).kind_eq hw htext
    cases hw with
    | bool c =>
      obtain rfl : b = c := by
        cases b <;> cases c <;> first | rfl | exact absurd (List.cons.inj htext).1 (by decide)
      exact ⟨.bool b, List.append_cancel_left htext⟩
    | _ => cases hkind
  | num x =>
    intro w rest rest' hw hrest hrest' htext
    have hkind := (IsData.num x).kind_eq hw htext
    cases hw <;> cases hkind
    exact num_text_append_inj hrest hrest' htext
  | str s =>
    intro w rest rest' hw hrest hrest' htext
    have hkind := (IsData.str s).kind_eq hw htext
    cases hw <;> cases hkind
    obtain ⟨hsame, hrest⟩ := quote_append_inj htext
    exact ⟨String.toList_inj.1 hsame ▸ .str s, hrest⟩
  | arr hall ih =>
    intro w rest rest' hw hrest hrest' htext
    have hkind := (IsData.arr hall).kind_eq hw htext
    cases hw with
    | arr hall' =>
      obtain ⟨hsame, hrest⟩ := elements_append_inj ih hall hall' (List.cons.inj htext).2
      obtain ⟨hsize, helements⟩ := forall₂_contents_iff.1 hsame
      exact ⟨.arr hsize helements, hrest⟩
    | _ => cases hkind

/-- The same data are told by one text. -/
theorem IsData.sameData_of_text (hv : h.IsData levels v) (hw : h'.IsData levels w)
    (htext : h.itemText levels v = h'.itemText levels w) : SameData h h' v w :=
  (hv.readable w [] [] hw nofun nofun (congrArg (· ++ []) htext)).1

theorem display_arr_eq_iff {a b : Cell} :
    h.display (.arr a) = h'.display (.arr b) ↔
      h.itemText displayLevels (.arr a) = h'.itemText displayLevels (.arr b) :=
  String.ofList_inj

/-- **Arrays of plain data that are shown in full are shown alike just if they are the same data.** -/
theorem display_eq_iff_sameData {a b : Cell} (ha : h.IsData displayLevels (.arr a))
    (hb : h'.IsData displayLevels (.arr b)) :
    h.display (.arr a) = h'.display (.arr b) ↔ SameData h h' (.arr a) (.arr b) := by
  rw [display_arr_eq_iff]
  exact ⟨ha.sameData_of_text hb, fun hsame => hsame.itemText_eq displayLevels⟩

/-- Texts of quotes and commas, NaN and an array without elements, in cells of different order. -/
theorem display_eq_iff_sameData_quoted :
    let h : Heap := ⟨#[#[.str "\", \"", .arr ⟨1⟩], #[.num .nan, .arr ⟨2⟩], #[]]⟩
    let h' : Heap := ⟨#[#[], #[.num .nan, .arr ⟨0⟩], #[.str "\", \"", .arr ⟨1⟩]]⟩
    h.IsData displayLevels (.arr ⟨0⟩) ∧ h'.IsData displayLevels (.arr ⟨2⟩) ∧
      SameData h h' (.arr ⟨0⟩) (.arr ⟨2⟩) := by
  intro h h'
  have hempty : ∀ {levels}, h.IsData (levels + 1) (.arr ⟨2⟩) := .arr (by simp [h, contents])
  have hempty' : ∀ {levels}, h'.IsData (levels + 1) (.arr ⟨0⟩) := .arr (by simp [h', contents])
  have hpair : ∀ {levels}, h.IsData (levels + 2) (.arr ⟨1⟩) := .arr (by simp [h, contents, hempty, IsData.num])
  have hpair' : ∀ {levels}, h'.IsData (levels + 2) (.arr ⟨1⟩) :=
    .arr (by simp [h', contents, hempty', IsData.num])
  have ha : h.IsData displayLevels (.arr ⟨0⟩) := .arr (by simp [h, contents, hpair, IsData.str])
  have hb : h'.IsData displayLevels (.arr ⟨2⟩) := .arr (by simp [h', contents, hpair', IsData.str])
  exact ⟨ha, hb, (display_eq_iff_sameData ha hb).1 (by decide +kernel)⟩

/-! ## Data without NaN -/

/-- NaN is found in the value, at whatever depth of arrays. -/
inductive HoldsNaN (h : Heap) : Value → Prop
  | num {x} : x.isNaN = true → HoldsNaN h (.num x)
  | arr {a v} : v ∈ (h.contents a).toList → HoldsNaN h v → HoldsNaN h (.arr a)

theorem bisimilar_of_related {a b : Cell}
    (hall : List.Forall₂ (Value.Related h.Bisimilar) (h.contents a).toList (h.contents b).toList) :
    h.Bisimilar a b := by
  intro depth
  cases depth with
  | zero => trivial
  | succ depth => exact .inr (hall.imp fun _ _ hvw => hvw.mono fun _ _ hab => hab depth)

/-- The same data are equal values, but for NaN. -/
theorem SameData.eq (hvw : SameData h h v w) (hnan : ¬ h.HoldsNaN v) : h.eq v w = true := by
  rw [eq_iff_related]
  induction hvw with
  | null => exact .null
  | bool b => exact .bool b
  | num heq =>
    simp only [Num.eq, Bool.and_eq_true, Bool.not_eq_true', beq_iff_eq] at heq
    exact .num heq.1.1 heq.1.2 heq.2
  | nan hx _ => exact absurd (.num hx) hnan
  | str s => exact .str s
  | arr hsize _ ih =>
    refine .arr (bisimilar_of_related (forall₂_contents_iff.2 ⟨hsize, fun i v w hv hw => ?_⟩))
    exact ih i v w hv hw fun hheld => hnan (.arr (Array.mem_toList_iff.2 (Array.mem_of_getElem? hv)) hheld)

theorem IsData.sameData_self (hv : h.IsData levels v) : SameData h h v v := by
  induction hv with
  | null => exact .null
  | bool b => exact .bool b
  | num x =>
    cases hnan : x.isNaN with
    | true => exact .nan hnan hnan
    | false => exact .num (by simp [Num.eq, hnan])
  | str s => exact .str s
  | arr _ ih =>
    refine .arr rfl fun i v w hv hw => ?_
    obtain rfl : v = w := Option.some.inj (hv.symm.trans hw)
    exact ih v (Array.mem_toList_iff.2 (Array.mem_of_getElem? hv))

/-- Equal data are the same data. -/
theorem IsData.sameData_of_eq (hv : h.IsData levels v) (heq : h.eq v w = true) : SameData h h v w := by
  rw [eq_iff_related] at heq
  induction hv generalizing w with
  | null => cases heq; exact .null
  | bool b => cases heq; exact .bool b
  | num x =>
    cases heq with
    | num hx hy heq => exact .num (by simp [Num.eq, hx, hy, heq])
  | str s => cases heq; exact .str s
  | @arr levels a hall ih =>
    cases heq with
    | arr hab =>
      rcases h.bisimulation_alikeTo a _ hab with rfl | hrelated
      · exact (IsData.arr hall).sameData_self
      · obtain ⟨hsize, helements⟩ := forall₂_contents_iff.1 hrelated
        refine .arr hsize fun i v w hv hw => ?_
        exact ih v (Array.mem_toList_iff.2 (Array.mem_of_getElem? hv)) (helements i v w hv hw)

/-- **Where there is no NaN, arrays of plain data that are shown in full are shown alike just if they are
equal.** -/
theorem display_eq_iff_eq {a b : Cell} (ha : h.IsData displayLevels (.arr a))
    (hb : h.IsData displayLevels (.arr b)) (hnan : ¬ h.HoldsNaN (.arr a)) :
    h.display (.arr a) = h.display (.arr b) ↔ h.eq (.arr a) (.arr b) = true := by
  rw [display_arr_eq_iff]
  constructor
  · exact fun htext => (ha.sameData_of_text hb htext).eq hnan
  · exact fun heq => (ha.sameData_of_eq heq).itemText_eq displayLevels

end ScriptValues.Heap
