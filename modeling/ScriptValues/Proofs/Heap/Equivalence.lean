/-
How far structural equality is an equivalence. Cells are bisimilar when no path through both comes to a
difference (`Bisimilar`), and values are equal when bisimilar cells make them alike (`eq_iff_related`).
Bisimilar cells can be exchanged and chained, whatever cycles each of them closes (`Bisimilar.symm`,
`Bisimilar.trans`); so equality is symmetric and transitive.

It is not reflexive, but for NaN alone: the number, and an error that carries it, are unlike themselves
(`Value.EndsInNaN`), while an array is itself whatever it holds.
-/
import ScriptValues.Proofs.Heap.Bisimulation

namespace ScriptValues

/-! ## Alike values -/

theorem Fn.same_comm (f g : Fn) : f.same g = g.same f := by
  cases f <;> cases g <;> first | rfl | exact BEq.comm

theorem Fn.same_trans {f g k : Fn} (hfg : f.same g = true) (hgk : g.same k = true) : f.same k = true := by
  cases f <;> cases g <;> cases k <;> simp_all [Fn.same]

namespace Value

/-- The value is NaN, or an error that carries it, at whatever depth of errors. -/
def EndsInNaN : Value → Prop
  | .num n => n.isNaN = true
  | .errorWith _ info => info.EndsInNaN
  | _ => False

theorem eqWith_self {cells : Cell → Cell → Bool} (hcells : ∀ a, cells a a = true) (v : Value) :
    v.eqWith cells v = false ↔ v.EndsInNaN := by
  induction v with
  | num n => simp [eqWith, EndsInNaN, Num.eq]
  | arr a => simp [eqWith, EndsInNaN, hcells]
  | fn f => cases f <;> simp [eqWith, EndsInNaN, Fn.same]
  | errorWith name info ih => simpa [eqWith, EndsInNaN] using ih
  | null | bool b | str s | error name => simp [eqWith, EndsInNaN]

namespace Related

variable {R : Cell → Cell → Prop} {u v w : Value}

theorem symm (hR : ∀ a b, R a b → R b a) (hvw : Related R v w) : Related R w v := by
  induction hvw with
  | null => exact .null
  | bool b => exact .bool b
  | num hx hy heq => exact .num hy hx heq.symm
  | str s => exact .str s
  | arr hab => exact .arr (hR _ _ hab)
  | @fn f g hfg => exact .fn (f.same_comm g ▸ hfg)
  | error name => exact .error name
  | errorWith name _ ih => exact .errorWith name ih

theorem trans (hR : ∀ a b c, R a b → R b c → R a c) (huv : Related R u v) (hvw : Related R v w) :
    Related R u w := by
  induction huv generalizing w with
  | null => exact hvw
  | bool b => exact hvw
  | num hx _ heq =>
    cases hvw with
    | num _ hz heq' => exact .num hx hz (heq.trans heq')
  | str s => exact hvw
  | arr hab =>
    cases hvw with
    | arr hbc => exact .arr (hR _ _ _ hab hbc)
  | fn hfg =>
    cases hvw with
    | fn hgk => exact .fn (Fn.same_trans hfg hgk)
  | error name => exact hvw
  | errorWith name _ ih =>
    cases hvw with
    | errorWith _ hinfo => exact .errorWith name (ih hinfo)

end Related

end Value

namespace Heap

variable {h : Heap} {a b c : Cell}

/-! ## Bisimilar cells -/

theorem AlikeTo.symm {depth : Nat} (hab : h.AlikeTo depth a b) : h.AlikeTo depth b a := by
  induction depth generalizing a b with
  | zero => trivial
  | succ depth ih =>
    rcases hab with rfl | hall
    · exact .refl _ _
    · exact .inr (List.Forall₂.flip (hall.imp fun _ _ hvw => hvw.symm fun _ _ => ih))

theorem AlikeTo.trans {depth : Nat} (hab : h.AlikeTo depth a b) (hbc : h.AlikeTo depth b c) :
    h.AlikeTo depth a c := by
  induction depth generalizing a b c with
  | zero => trivial
  | succ depth ih =>
    rcases hab with rfl | hab
    · exact hbc
    rcases hbc with rfl | hbc
    · exact .inr hab
    rw [forall₂_contents_iff] at hab hbc
    refine .inr (forall₂_contents_iff.2 ⟨hab.1.trans hbc.1, fun i u w hu hw => ?_⟩)
    obtain ⟨v, hv⟩ : ∃ v, (h.contents b)[i]? = some v := by
      have hi := (Array.getElem?_eq_some_iff.1 hu).1
      exact ⟨_, Array.getElem?_eq_getElem (hab.1 ▸ hi)⟩
    exact (hab.2 i u v hu hv).trans (fun _ _ _ => ih) (hbc.2 i v w hv hw)

/-- No path through both cells comes to a difference. -/
def Bisimilar (h : Heap) (a b : Cell) : Prop := ∀ depth, h.AlikeTo depth a b

theorem Bisimilar.symm (hab : h.Bisimilar a b) : h.Bisimilar b a := fun depth => (hab depth).symm

theorem Bisimilar.trans (hab : h.Bisimilar a b) (hbc : h.Bisimilar b c) : h.Bisimilar a c :=
  fun depth => (hab depth).trans (hbc depth)

theorem eq_iff_related {v w : Value} : h.eq v w = true ↔ Value.Related h.Bisimilar v w :=
  ⟨fun heq => related_of_compares (compares_iff.2 heq.symm),
    fun hvw => eq_true_iff.2 ⟨_, h.bisimulation_alikeTo, hvw⟩⟩

/-! ## Equal values -/

theorem eq_comm (h : Heap) (v w : Value) : h.eq v w = h.eq w v := by
  have hsymm : ∀ {v w}, h.eq v w = true → h.eq w v = true := fun heq =>
    eq_iff_related.2 ((eq_iff_related.1 heq).symm fun _ _ => .symm)
  exact Bool.eq_iff_iff.2 ⟨hsymm, hsymm⟩

theorem eq_trans {u v w : Value} (huv : h.eq u v = true) (hvw : h.eq v w = true) : h.eq u w = true :=
  eq_iff_related.2 ((eq_iff_related.1 huv).trans (fun _ _ _ => .trans) (eq_iff_related.1 hvw))

theorem eqCells_self (fuel : Nat) (path : List (Cell × Cell)) (a : Cell) :
    h.eqCells fuel path a a = true := by
  cases fuel <;> simp [eqCells]

/-- **Structural equality is an equivalence but for NaN**, whatever the heap: it is symmetric and
transitive, and a value differs from itself just if it is NaN or an error that carries NaN, through however
many errors. -/
theorem eq_equivalence (h : Heap) :
    (∀ v w, h.eq v w = h.eq w v) ∧
      (∀ u v w, h.eq u v = true → h.eq v w = true → h.eq u w = true) ∧
      ∀ v : Value, h.eq v v = false ↔ v.EndsInNaN :=
  ⟨h.eq_comm, fun _ _ _ => eq_trans, Value.eqWith_self (eqCells_self _ _)⟩

/-- Rings of one, two and three arrays, each holding NaN in an array of their own besides. -/
theorem eq_equivalence_rings :
    let shared : Value := .arr ⟨6⟩
    let h : Heap := ⟨#[#[shared, .arr ⟨0⟩], #[shared, .arr ⟨2⟩], #[shared, .arr ⟨1⟩],
      #[shared, .arr ⟨4⟩], #[shared, .arr ⟨5⟩], #[shared, .arr ⟨3⟩], #[.num .nan]]⟩
    h.eq (.arr ⟨1⟩) (.arr ⟨0⟩) = true ∧ h.eq (.arr ⟨0⟩) (.arr ⟨4⟩) = true ∧
      h.eq (.arr ⟨1⟩) (.arr ⟨4⟩) = true := by
  intro shared h
  have h10 : h.eq (.arr ⟨1⟩) (.arr ⟨0⟩) = true := by decide +kernel
  have h04 : h.eq (.arr ⟨0⟩) (.arr ⟨4⟩) = true := by decide +kernel
  exact ⟨h10, h04, (eq_equivalence h).2.1 _ _ _ h10 h04⟩

end Heap

end ScriptValues
