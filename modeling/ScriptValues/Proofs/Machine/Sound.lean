/-
Tasks that hold known values only. `Turn.Sound post i u` says of a turn that began when just what `i` lists
had been made: it leaves the machine accounted for, with more made perhaps, and so does every later turn, from
whatever machine that is accounted for it goes on; and if the task is done, `post` holds of its result.

A value is known for good (`Value.Known.mono`), so a task may keep it over its pauses. Sound tasks may follow
each other (`bind`) and be gathered (`Conducts.sound`).
-/
import ScriptValues.Proofs.Machine.Inventory
import ScriptValues.Proofs.Task.Conduct

namespace ScriptValues

variable {α β : Type}

/-- Each turn leaves the machine accounted for, and the end is one of `post`. -/
inductive Turn.Sound (post : Inventory → α → Prop) : Inventory → Turn Machine Fault α → Prop
  | done {i j s a} : i.Grows j → s.Accounted j → post j a → Sound post i (.done s a)
  | failed {i j s e} : i.Grows j → s.Accounted j → Sound post i (.failed s e)
  | paused {i j s rest} : i.Grows j → s.Accounted j →
      (∀ k s', j.Grows k → s'.Accounted k → Sound post k (rest s')) → Sound post i (.paused s rest)
  | exhausted {i} : Sound post i .exhausted

/-- The task is sound from whatever machine it begins, once all that `i` lists has been made. -/
def Task.Sound (i : Inventory) (post : Inventory → α → Prop) (t : Act α) : Prop :=
  ∀ j s, i.Grows j → s.Accounted j → (t s).Sound post j

variable {i j : Inventory}

namespace Turn.Sound

variable {post : Inventory → α → Prop} {post' : Inventory → β → Prop} {u : Turn Machine Fault α}

/-- What is sound when more has been made was sound before. -/
theorem before (hij : i.Grows j) (hu : Sound post j u) : Sound post i u := by
  cases hu with
  | done hgrows hs hpost => exact .done (hij.trans hgrows) hs hpost
  | failed hgrows hs => exact .failed (hij.trans hgrows) hs
  | paused hgrows hs hrest => exact .paused (hij.trans hgrows) hs hrest
  | exhausted => exact .exhausted

theorem bind {f : α → Act β} (hu : Sound post i u)
    (hf : ∀ a j s, i.Grows j → s.Accounted j → post j a → Sound post' j (f a s)) :
    Sound post' i (u.bind f) := by
  induction hu with
  | done hgrows hs hpost => exact (hf _ _ _ hgrows hs hpost).before hgrows
  | failed hgrows hs => exact .failed hgrows hs
  | paused hgrows hs _ ih =>
    refine .paused hgrows hs fun k s' hk hs' => ih k s' hk hs' fun a l s hl => ?_
    exact hf a l s ((hgrows.trans hk).trans hl)
  | exhausted => exact .exhausted

theorem handle {f : Fault → Act α} (hu : Sound post i u)
    (hf : ∀ e j s, i.Grows j → s.Accounted j → Sound post j (f e s)) : Sound post i (u.handle f) := by
  induction hu with
  | done hgrows hs hpost => exact .done hgrows hs hpost
  | failed hgrows hs => exact (hf _ _ _ hgrows hs).before hgrows
  | paused hgrows hs _ ih =>
    refine .paused hgrows hs fun k s' hk hs' => ih k s' hk hs' fun e l s hl => ?_
    exact hf e l s ((hgrows.trans hk).trans hl)
  | exhausted => exact .exhausted

/-- The end of a turn that is alone with its machine. -/
theorem finish (hu : Sound post i u) :
    match u.finish with
    | .done s a => ∃ j, i.Grows j ∧ s.Accounted j ∧ post j a
    | .failed s _ => ∃ j, i.Grows j ∧ s.Accounted j
    | .exhausted => True := by
  induction hu with
  | @done i j s a hgrows hs hpost => exact ⟨j, hgrows, hs, hpost⟩
  | @failed i j s e hgrows hs => exact ⟨j, hgrows, hs⟩
  | @paused i j s rest hgrows hs _ ih =>
    have hend := ih j s (.refl j) hs
    rw [Turn.finish]
    generalize (rest s).finish = o at hend ⊢
    cases o with
    | done s' a =>
      obtain ⟨k, hjk, hs', hpost⟩ := hend
      exact ⟨k, hgrows.trans hjk, hs', hpost⟩
    | failed s' e =>
      obtain ⟨k, hjk, hs'⟩ := hend
      exact ⟨k, hgrows.trans hjk, hs'⟩
    | exhausted => trivial
  | exhausted => trivial

end Turn.Sound

namespace Task.Sound

variable {post : Inventory → α → Prop} {post' : Inventory → β → Prop} {t : Act α}

theorem later (hij : i.Grows j) (ht : t.Sound i post) : t.Sound j post :=
  fun k s hk hs => ht k s (hij.trans hk) hs

theorem bind {f : α → Act β} (ht : t.Sound i post)
    (hf : ∀ a j, i.Grows j → post j a → (f a).Sound j post') : (t >>= f).Sound i post' := by
  intro j s hij hs
  refine (ht j s hij hs).bind fun a k s' hk hs' ha => ?_
  exact hf a k (hij.trans hk) ha k s' (.refl k) hs'

theorem rescue {f : Fault → Act α} (ht : t.Sound i post)
    (hf : ∀ e j, i.Grows j → (f e).Sound j post) : (tryCatch t f).Sound i post := by
  intro j s hij hs
  refine (ht j s hij hs).handle fun e k s' hk hs' => ?_
  exact hf e k (hij.trans hk) k s' (.refl k) hs'

theorem pure {a : α} (ha : ∀ j, i.Grows j → post j a) : (pure a : Act α).Sound i post :=
  fun j _ hij hs => .done (.refl j) hs (ha j hij)

theorem throw (e : Fault) : (throw e : Act α).Sound i post := fun j _ _ hs => .failed (.refl j) hs

theorem exhausted : (Task.exhausted : Act α).Sound i post := fun _ _ _ _ => .exhausted

theorem ofExcept {r : Except Fault α} (hr : ∀ a, r = .ok a → ∀ j, i.Grows j → post j a) :
    (Task.ofExcept r : Act α).Sound i post := by
  cases r with
  | ok a => exact pure (hr a rfl)
  | error e => exact throw e

/-- A result that refers to nothing. -/
theorem result (r : Except Fault α) : (Task.ofExcept r : Act α).Sound i fun _ _ => True :=
  ofExcept fun _ _ _ _ => trivial

/-- A change of the machine at once. -/
theorem modifyGet {f : Machine → α × Machine}
    (hf : ∀ j s, i.Grows j → s.Accounted j → ∃ k, j.Grows k ∧ (f s).2.Accounted k ∧ post k (f s).1) :
    (modifyGet f : Act α).Sound i post := by
  intro j s hij hs
  obtain ⟨k, hjk, hs', ha⟩ := hf j s hij hs
  exact .done hjk hs' ha

/-- A change of the records alone. -/
theorem beside {f : Machine → α × Machine}
    (hf : ∀ s, (f s).2.heap = s.heap ∧ (f s).2.natives = s.natives ∧ (f s).2.bodies = s.bodies ∧
      (f s).2.globals = s.globals) : (MonadState.modifyGet f : Act α).Sound i fun _ _ => True := by
  refine modifyGet fun j s _ hs => ⟨j, .refl j, ?_, trivial⟩
  obtain ⟨hheap, hnatives, hbodies, hglobals⟩ := hf s
  exact hs.beside hheap hnatives hbodies hglobals

theorem get : (get : Act Machine).Sound i fun j s => s.Accounted j :=
  fun j _ _ hs => .done (.refl j) hs hs

theorem pause (n : Nat) : (Task.pause n : Act Unit).Sound i fun _ _ => True := by
  induction n generalizing i with
  | zero => exact pure fun _ _ => trivial
  | succ n ih => exact fun j s _ hs => .paused (.refl j) hs fun k s' _ hs' => ih k s' (.refl k) hs'

end Task.Sound

/-! ## What changes the machine -/

namespace Act

theorem alloc_sound {items : Array Value} (hitems : AllKnown i items.toList) :
    (Act.alloc items).Sound i Value.Known := by
  refine .modifyGet fun j s hij hs => ?_
  exact hs.alloc (hitems.mono hij)

theorem bindMethod_sound {b : Bound} (hb : b.Known i) : (Act.bindMethod b).Sound i Value.Known := by
  refine .modifyGet fun j s hij hs => ?_
  exact hs.bindMethod (hb.mono hij)

theorem makeFunction_sound (body : List Expr) : (Act.makeFunction body).Sound i Value.Known :=
  .modifyGet fun _ _ _ hs => hs.makeFunction body

theorem emit_sound (e : Event) : (Act.emit e).Sound i fun _ _ => True :=
  .beside fun _ => ⟨rfl, rfl, rfl, rfl⟩

theorem countCall_sound : Act.countCall.Sound i fun _ _ => True :=
  .beside fun _ => ⟨rfl, rfl, rfl, rfl⟩

theorem contents_sound (c : Cell) : (Act.contents c).Sound i fun j items => AllKnown j items.toList := by
  refine .bind .get fun s j _ hs => .pure fun k hjk => ?_
  exact (hs.contents c).mono hjk

theorem write_sound (c : Cell) {items : Array Value} (hitems : AllKnown i items.toList) :
    (Act.write c items).Sound i fun _ _ => True := by
  refine .modifyGet fun j s hij hs => ⟨j, .refl j, ?_, trivial⟩
  exact hs.write (hitems.mono hij) c

end Act

/-! ## Gatherings -/

namespace Task

/-- The member, if it is still to run, is sound, and its result, if it has one, is of `post`. -/
def Member.Sound (i : Inventory) (post : Inventory → α → Prop) : Member Machine Fault α → Prop
  | .running t => t.Sound i post
  | .settled (.ok a) => post i a
  | .settled (.error _) => True

variable {post : Inventory → α → Prop}

theorem Member.Sound.later (hmono : ∀ i j a, i.Grows j → post i a → post j a) (hij : i.Grows j)
    {m : Member Machine Fault α} (hm : m.Sound i post) : m.Sound j post := by
  match m with
  | .running t => exact Task.Sound.later hij hm
  | .settled (.ok a) => exact hmono _ _ _ hij hm
  | .settled (.error e) => trivial

theorem Member.Sound.turn {m m' : Member Machine Fault α} {s s' : Machine} (hs : s.Accounted i)
    (hm : m.Sound i post) (hturn : m.turn s = some (m', s')) :
    ∃ j, i.Grows j ∧ s'.Accounted j ∧ m'.Sound j post := by
  match m with
  | .settled r => cases hturn
  | .running t =>
    have hsound := hm i s (.refl i) hs
    rw [Member.turn] at hturn
    generalize t s = u at hsound hturn
    cases hsound with
    | done hgrows hs' hpost => cases hturn; exact ⟨_, hgrows, hs', hpost⟩
    | failed hgrows hs' => cases hturn; exact ⟨_, hgrows, hs', trivial⟩
    | paused hgrows hs' hrest => cases hturn; exact ⟨_, hgrows, hs', hrest⟩
    | exhausted => cases hturn

/-- **A gathering is sound if its members are**, and its results are those of its members. -/
theorem Conducts.sound (hmono : ∀ i j a, i.Grows j → post i a → post j a)
    {fails : List (Member Machine Fault α) → Fault → Prop} {values : β → List α} {members begun}
    {s : Machine} {u : Turn Machine Fault β} (hu : Conducts fails values members begun s u)
    (hs : s.Accounted i) (hmembers : ∀ m ∈ members, m.Sound i post) :
    u.Sound (fun j b => ∀ a ∈ values b, post j a) i := by
  induction hu generalizing i with
  | @turn front others m m' begun s s₁ u hbegun hturn _ ih =>
    have hm := hmembers m (List.mem_append_right _ List.mem_cons_self)
    obtain ⟨j, hij, hs₁, hm'⟩ := hm.turn hs hturn
    refine .before hij (ih hs₁ fun x hx => ?_)
    -- The others have stood by while the member had its turn.
    have hother : x ∈ front ++ m :: others → x.Sound j post :=
      fun hx => (hmembers x hx).later hmono hij
    rcases List.mem_append.1 hx with hx | hx
    · exact hother (List.mem_append_left _ hx)
    · rcases List.mem_cons.1 hx with rfl | hx
      · exact hm'
      · exact hother (List.mem_append_right _ (List.mem_cons_of_mem _ hx))
  | exhausted => exact .exhausted
  | paused _ ih =>
    exact .paused (.refl i) hs fun k s' hk hs' => ih s' hs' fun m hm => (hmembers m hm).later hmono hk
  | done hall =>
    refine .done (.refl i) hs fun a ha => ?_
    exact hmembers (Member.returned a) (hall ▸ List.mem_map_of_mem ha)
  | failed _ => exact .failed (.refl i) hs

end Task

end ScriptValues
