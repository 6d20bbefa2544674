/-
What structural equality decides. Values are related by a relation of cells (`Value.Related`) as far as
anything but the contents of cells can tell; the relation is a bisimulation if related cells hold related
elements. Two values are equal if some bisimulation relates them, so cells are told apart only by a
difference that some way through both of them comes to (`related_of_compares`, `Bisimulation.compares_true`).

The comparison forgets the pairs of a path on its way out, and takes a pair that it meets again on the path
for equal. That is sound because cells that agree down to every depth are bisimilar (`AlikeTo`,
`bisimulation_alikeTo`): where a pair is taken for equal, the depth that is left is less than where the pair
was met first.
-/
import Mathlib.Data.List.Forall2
import ScriptValues.Proofs.Heap.Comparison

namespace ScriptValues

/-- The values are alike, cells being related by `R`: numbers are equal as numbers, so that NaN is not alike
to itself, texts as texts, and functions are one and the same. -/
inductive Value.Related (R : Cell → Cell → Prop) : Value → Value → Prop
  | null : Related R .null .null
  | bool (b) : Related R (.bool b) (.bool b)
  | num {x y} : x.isNaN = false → y.isNaN = false → x.scaled = y.scaled → Related R (.num x) (.num y)
  | str (s) : Related R (.str s) (.str s)
  | arr {a b} : R a b → Related R (.arr a) (.arr b)
  | fn {f g} : f.same g = true → Related R (.fn f) (.fn g)
  | error (name) : Related R (.error name) (.error name)
  | errorWith (name) {v w} : Related R v w → Related R (.errorWith name v) (.errorWith name w)

/-- Two cells of the relation are one and the same, or have as many elements each, related in order. -/
def Heap.Bisimulation (h : Heap) (R : Cell → Cell → Prop) : Prop :=
  ∀ a b, R a b → a = b ∨ List.Forall₂ (Value.Related R) (h.contents a).toList (h.contents b).toList

namespace Value.Related

variable {R S : Cell → Cell → Prop} {v w : Value}

theorem mono (hRS : ∀ a b, R a b → S a b) (hvw : Related R v w) : Related S v w := by
  induction hvw with
  | null => exact .null
  | bool b => exact .bool b
  | num hx hy heq => exact .num hx hy heq
  | str s => exact .str s
  | arr hab => exact .arr (hRS _ _ hab)
  | fn hfg => exact .fn hfg
  | error name => exact .error name
  | errorWith name _ ih => exact .errorWith name ih

/-- Values alike under each of many relations are alike under all of them at once. -/
theorem forall_of {ι : Type} [Inhabited ι] {R : ι → Cell → Cell → Prop}
    (hvw : ∀ i, Related (R i) v w) : Related (fun a b => ∀ i, R i a b) v w := by
  have hone := hvw default
  induction hone with
  | null => exact .null
  | bool b => exact .bool b
  | num hx hy heq => exact .num hx hy heq
  | str s => exact .str s
  | arr _ =>
    refine .arr fun i => ?_
    cases hvw i with
    | arr hab => exact hab
  | fn hfg => exact .fn hfg
  | error name => exact .error name
  | errorWith name _ ih =>
    refine .errorWith name (ih fun i => ?_)
    cases hvw i with
    | errorWith _ hinfo => exact hinfo

/-- Values that nothing has to be looked into for are alike when they compare equal. -/
theorem iff_of_plain (hplain : v.Plain w) (cells : Cell → Cell → Bool) :
    Related R v w ↔ v.eqWith cells w = true := by
  constructor
  · intro hvw
    cases hvw with
    | num hx hy heq => simp [eqWith, Num.eq, hx, hy, heq]
    | arr _ => exact absurd hplain id
    | fn hfg => exact hfg
    | errorWith _ _ => exact absurd hplain id
    | _ => simp [eqWith]
  · intro heq
    cases v <;> cases w <;>
      simp only [eqWith, beq_iff_eq, Bool.false_eq_true, Num.eq, Bool.and_eq_true,
        Bool.not_eq_true'] at heq
    case null.null => exact .null
    case bool.bool => exact heq ▸ .bool _
    case num.num => exact .num heq.1.1 heq.1.2 heq.2
    case str.str => exact heq ▸ .str _
    case arr.arr => exact absurd hplain id
    case fn.fn => exact .fn heq
    case error.error => exact heq ▸ .error _
    case errorWith.errorWith => exact absurd hplain id

end Value.Related

namespace Heap

variable {h : Heap} {R : Cell → Cell → Prop}

/-- The elements of two cells, of one heap or of two, are alike one by one. -/
theorem forall₂_contents_iff {h' : Heap} {P : Value → Value → Prop} {a b : Cell} :
    List.Forall₂ P (h.contents a).toList (h'.contents b).toList ↔
      (h.contents a).size = (h'.contents b).size ∧
        ∀ (i : Nat) v w, (h.contents a)[i]? = some v → (h'.contents b)[i]? = some w → P v w := by
  rw [List.forall₂_iff_get]
  simp only [Array.length_toList, List.get_eq_getElem, Array.getElem_toList]
  refine and_congr_right fun hsize => ⟨fun hall i v w hv hw => ?_, fun hall i hi hi' => ?_⟩
  · obtain ⟨hi, rfl⟩ := Array.getElem?_eq_some_iff.1 hv
    obtain ⟨hi', rfl⟩ := Array.getElem?_eq_some_iff.1 hw
    exact hall i hi hi'
  · exact hall i _ _ (Array.getElem?_eq_getElem hi) (Array.getElem?_eq_getElem hi')

/-! ## Alike down to a depth -/

/-- No difference is found by following at most so many arrays. -/
def AlikeTo (h : Heap) : (depth : Nat) → Cell → Cell → Prop
  | 0, _, _ => True
  | depth + 1, a, b =>
    a = b ∨ List.Forall₂ (Value.Related (AlikeTo h depth)) (h.contents a).toList (h.contents b).toList

theorem AlikeTo.refl (depth : Nat) (a : Cell) : h.AlikeTo depth a a := by
  cases depth with
  | zero => trivial
  | succ depth => exact .inl rfl

theorem AlikeTo.of_succ {depth : Nat} {a b : Cell} (hab : h.AlikeTo (depth + 1) a b) :
    h.AlikeTo depth a b := by
  induction depth generalizing a b with
  | zero => trivial
  | succ depth ih =>
    rcases hab with rfl | hall
    · exact .inl rfl
    · exact .inr (hall.imp fun _ _ hvw => hvw.mono fun _ _ => ih)

/-- Cells that agree down to every depth are bisimilar. -/
theorem bisimulation_alikeTo (h : Heap) : h.Bisimulation fun a b => ∀ depth, h.AlikeTo depth a b := by
  intro a b hab
  by_cases hne : a = b
  · exact .inl hne
  · have hall := fun depth => forall₂_contents_iff.1 ((hab (depth + 1)).resolve_left hne)
    refine .inr (forall₂_contents_iff.2 ⟨(hall 0).1, fun i v w hv hw => ?_⟩)
    exact .forall_of fun depth => (hall depth).2 i v w hv hw

/-- Values that compare equal agree down to every depth down to which the pairs of the path do. -/
theorem related_alikeTo_of_compares {depth : Nat} {path : List (Cell × Cell)} {v w : Value}
    (hc : h.Compares path v w true) (hpath : ∀ p ∈ path, h.AlikeTo depth p.1 p.2) :
    Value.Related (h.AlikeTo depth) v w := by
  induction depth generalizing path v w with
  | zero =>
    generalize hanswer : true = answer at hc
    induction hc with
    | plain hplain => exact (Value.Related.iff_of_plain hplain _).2 hanswer.symm
    | info _ ih => exact .errorWith _ (ih hpath hanswer)
    | same | met _ | alike _ _ _ _ => exact .arr trivial
    | name _ | size _ _ _ | unlike _ _ _ _ _ _ _ _ => cases hanswer
  | succ depth ihdepth =>
    generalize hanswer : true = answer at hc
    induction hc with
    | plain hplain => exact (Value.Related.iff_of_plain hplain _).2 hanswer.symm
    | info _ ih => exact .errorWith _ (ih hpath hanswer)
    | same => exact .arr (.refl _ _)
    | met hmem => exact .arr (hpath _ hmem)
    | @alike path a b hne hnot hsize hall _ =>
      have hpath' : ∀ p ∈ path, h.AlikeTo depth p.1 p.2 := fun p hp => (hpath p hp).of_succ
      -- The pair itself agrees down to the depth that is left for its elements.
      have hab : h.AlikeTo depth a b := by
        cases ihdepth (.alike hne hnot hsize hall) hpath' with
        | arr hab => exact hab
      refine .arr (.inr (forall₂_contents_iff.2 ⟨hsize, fun i v w hv hw => ?_⟩))
      exact ihdepth (hall i v w hv hw) (List.forall_mem_cons.2 ⟨hab, hpath'⟩)
    | name _ | size _ _ _ | unlike _ _ _ _ _ _ _ _ => cases hanswer

/-! ## Bisimulations and comparisons -/

/-- Values that compare equal are related by a bisimulation. -/
theorem related_of_compares {v w : Value} (hc : h.Compares [] v w true) :
    Value.Related (fun a b => ∀ depth, h.AlikeTo depth a b) v w :=
  .forall_of fun _ => related_alikeTo_of_compares hc (by simp)

/-- Values related by a bisimulation compare equal, on every path. -/
theorem Bisimulation.compares_true (hR : h.Bisimulation R) {path : List (Cell × Cell)} {v w : Value}
    {answer : Bool} (hvw : Value.Related R v w) (hc : h.Compares path v w answer) : answer = true := by
  induction hc with
  | plain hplain => exact (Value.Related.iff_of_plain hplain _).1 hvw
  | name hname =>
    cases hvw with
    | errorWith _ _ => exact absurd rfl hname
  | info _ ih =>
    cases hvw with
    | errorWith _ hinfo => exact ih hinfo
  | same | met _ | alike _ _ _ _ => rfl
  | size hne _ hsize =>
    cases hvw with
    | arr hab =>
      have hall := (hR _ _ hab).resolve_left hne
      exact absurd (forall₂_contents_iff.1 hall).1 hsize
  | unlike i hne _ _ _ hv hw _ _ ih =>
    cases hvw with
    | arr hab =>
      have hall := (hR _ _ hab).resolve_left hne
      exact ih ((forall₂_contents_iff.1 hall).2 i _ _ hv hw)

/-- Values are equal if and only if a bisimulation relates them. -/
theorem eq_true_iff {v w : Value} :
    h.eq v w = true ↔ ∃ R, h.Bisimulation R ∧ Value.Related R v w := by
  constructor
  · intro heq
    exact ⟨_, h.bisimulation_alikeTo, related_of_compares (compares_iff.2 heq.symm)⟩
  · rintro ⟨R, hR, hvw⟩
    exact hR.compares_true hvw (h.compares_eq v w)

/-- **Structural equality decides bisimilarity**, whatever the heap: arrays may be shared and may contain
themselves and each other, through errors too. The comparison of two values comes to an end with one answer,
and the answer is yes if and only if some bisimulation relates the values. -/
theorem eq_decides_bisimilarity (h : Heap) (v w : Value) :
    (∀ answer, h.Compares [] v w answer ↔ answer = h.eq v w) ∧
      (h.eq v w = true ↔ ∃ R, h.Bisimulation R ∧ Value.Related R v w) :=
  ⟨fun _ => compares_iff, eq_true_iff⟩

/-- Two rings, of one array and of two, are equal, also when seen through an error; a ring that holds another
text is not. -/
example :
    let h : Heap := ⟨#[#[.str "x", .arr ⟨0⟩], #[.str "x", .errorWith "e" (.arr ⟨2⟩)],
      #[.str "x", .arr ⟨0⟩], #[.str "y", .arr ⟨3⟩], #[.str "x", .errorWith "e" (.arr ⟨0⟩)]]⟩
    h.eq (.arr ⟨1⟩) (.arr ⟨4⟩) = true ∧ h.eq (.arr ⟨0⟩) (.arr ⟨3⟩) = false := by
  decide +kernel

end Heap

end ScriptValues
