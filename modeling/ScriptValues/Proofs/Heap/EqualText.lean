/-
Equal values have the same text. Equality follows arrays until no way through both of them can come to a
difference; a text follows them down to its last level. What agrees down to a level is shown alike down to it
(`cellText_eq_of_alikeTo`), so it does not matter that the cycles of equal arrays may close at different
places, nor that the one is itself and holds NaN, or that zero may have a sign.

Functions are equal when they are one and the same, and what is shown of one is its name. It is given with the
identity: `Named` says of a value and of a heap that each native function in it has the name that goes with
its number. So it is whatever a script does (`Machine.Accounted.named`, `Script.outcomes_accounted`).
-/
import ScriptValues.Heap.Display
import ScriptValues.Proofs.Heap.Equivalence
import ScriptValues.Proofs.Number.Text

namespace ScriptValues

/-! ## Names of functions -/

/-- The function, if it is a native one, has the name that goes with its number. -/
def Fn.Named (names : Nat → String) : Fn → Prop
  | .native id bound => bound.name = names id
  | .script _ => True

/-- The value has functions of such names only. -/
def Value.Named (names : Nat → String) : Value → Prop
  | .fn f => f.Named names
  | .errorWith _ info => info.Named names
  | _ => True

/-- The arrays of the heap hold functions of such names only. -/
def Heap.Named (names : Nat → String) (h : Heap) : Prop :=
  ∀ a, ∀ v ∈ (h.contents a).toList, v.Named names

theorem Fn.name_eq_of_same {names : Nat → String} {f g : Fn} (hf : f.Named names) (hg : g.Named names)
    (hsame : f.same g = true) : f.name = g.name := by
  cases f with
  | native id b =>
    cases g with
    | native id' b' =>
      obtain rfl : id = id' := eq_of_beq hsame
      exact Eq.trans hf (Eq.symm hg)
    | script id' => cases hsame
  | script id =>
    cases g with
    | native id' b' => cases hsame
    | script id' => rfl

/-- Alike values have the same text if related cells have. -/
theorem Value.Related.textWith_eq {names : Nat → String} {R : Cell → Cell → Prop} {cells : Cell → List Char}
    {v w : Value} (hR : ∀ a b, R a b → cells a = cells b) (hv : v.Named names) (hw : w.Named names)
    (hvw : Related R v w) (quoted : Bool) : v.textWith cells quoted = w.textWith cells quoted := by
  cases hvw with
  | null | bool b | str s | error name | errorWith name _ => rfl
  | num hx hy heq => exact NumberFormat.render_eq_iff.2 (.inl (by simp [Num.eq, hx, hy, heq]))
  | arr hab => exact hR _ _ hab
  | fn hfg => exact congrArg (fun name => '@' :: name.toList) (Fn.name_eq_of_same hv hw hfg)

namespace Heap

/-- The text of a value inside an array, with this many levels left. -/
def itemText (h : Heap) (levels : Nat) : Value → List Char := Value.textWith (h.cellText levels) true

/-- Cells whose elements have the same texts have the same text. -/
theorem cellText_congr {h h' : Heap} {levels : Nat} {a b : Cell}
    (hall : List.Forall₂ (fun v w => h.itemText levels v = h'.itemText levels w)
      (h.contents a).toList (h'.contents b).toList) :
    h.cellText (levels + 1) a = h'.cellText (levels + 1) b := by
  have htexts : (h.contents a).toList.map (h.itemText levels) =
      (h'.contents b).toList.map (h'.itemText levels) := by
    rwa [← List.forall₂_eq_eq_eq, List.forall₂_map_left_iff, List.forall₂_map_right_iff]
  rw [cellText, cellText]
  exact congrArg (fun texts => '[' :: (List.intercalate [',', ' '] texts ++ [']'])) htexts

variable {names : Nat → String} {h : Heap}

/-- Cells that agree down to a level are shown alike down to it. -/
theorem cellText_eq_of_alikeTo (hnamed : h.Named names) {levels : Nat} {a b : Cell}
    (hab : h.AlikeTo levels a b) : h.cellText levels a = h.cellText levels b := by
  induction levels generalizing a b with
  | zero => rfl
  | succ levels ih =>
    rcases hab with rfl | hall
    · rfl
    obtain ⟨hsize, helements⟩ := forall₂_contents_iff.1 hall
    refine cellText_congr (forall₂_contents_iff.2 ⟨hsize, fun i v w hv hw => ?_⟩)
    have hv' := hnamed a v (Array.mem_toList_iff.2 (Array.mem_of_getElem? hv))
    have hw' := hnamed b w (Array.mem_toList_iff.2 (Array.mem_of_getElem? hw))
    exact (helements i v w hv hw).textWith_eq (fun _ _ hab => ih hab) hv' hw' true

theorem display_eq_of_related {v w : Value} (hnamed : h.Named names) (hv : v.Named names) (hw : w.Named names)
    (hvw : Value.Related h.Bisimilar v w) : h.display v = h.display w := by
  have hcells : ∀ a b, h.Bisimilar a b → h.cellText displayLevels a = h.cellText displayLevels b :=
    fun a b hab => cellText_eq_of_alikeTo hnamed (hab displayLevels)
  exact congrArg String.ofList (hvw.textWith_eq hcells hv hw false)

/-- **Equal values are shown alike**, in whatever cycles and at whatever depth. -/
theorem display_eq_of_eq {v w : Value} (hnamed : h.Named names) (hv : v.Named names) (hw : w.Named names)
    (heq : h.eq v w = true) : h.display v = h.display w :=
  display_eq_of_related hnamed hv hw (eq_iff_related.1 heq)

/-- A ring of one array and a ring of two, with zeros of either sign, a function and shared NaN. -/
theorem display_eq_of_eq_rings :
    let f : Value := .fn (.native 0 (.arr ⟨3⟩ .push))
    let h : Heap := ⟨#[#[.num (.zero false), f, .arr ⟨3⟩, .arr ⟨0⟩], #[.num (.zero true), f, .arr ⟨3⟩, .arr ⟨2⟩],
      #[.num (.zero false), f, .arr ⟨3⟩, .arr ⟨1⟩], #[.num .nan]]⟩
    let names : Nat → String := fun _ => "push"
    h.Named names ∧ h.eq (.arr ⟨0⟩) (.arr ⟨1⟩) = true ∧ h.display (.arr ⟨0⟩) = h.display (.arr ⟨1⟩) := by
  intro f h names
  have hnamed : h.Named names := by
    rintro ⟨id⟩ v hv
    match id with
    | 0 | 1 | 2 | 3 => simp [h, contents, f] at hv; rcases hv with rfl | rfl | rfl | rfl <;> trivial
    | id + 4 => simp [h, contents] at hv
  have heq : h.eq (.arr ⟨0⟩) (.arr ⟨1⟩) = true := by decide +kernel
  exact ⟨hnamed, heq, display_eq_of_eq hnamed trivial trivial heq⟩

end Heap

end ScriptValues
