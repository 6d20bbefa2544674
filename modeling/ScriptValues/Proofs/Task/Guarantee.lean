/-
What a task does to the state, turn by turn. `Turn.Conforms rely guar post s u` says of a turn that began in
the state `s`: it leads from there to a state related by `guar`, and so does every later turn from where it
begins, as long as the others lead from each state that is left at a pause to one related by `rely`; and if
the task is done, `post` holds.

What one task guarantees the others may rely on (`Compatible`): then tasks that conform do so one after the
other (`bind`, `handle`) and under any conductor (`Conducts.conforms`), so also side by side.
-/
import ScriptValues.Proofs.Task.Conduct

namespace ScriptValues

variable {σ ε α β : Type} {rely guar : σ → σ → Prop}

/-- Each turn is within `guar` as long as the others are within `rely`, and the end is one of `post`. -/
inductive Turn.Conforms (rely guar : σ → σ → Prop) (post : σ → α → Prop) : (s : σ) → Turn σ ε α → Prop
  | done {s s' a} : guar s s' → post s' a → Conforms rely guar post s (.done s' a)
  | failed {s s' e} : guar s s' → Conforms rely guar post s (.failed s' e)
  | paused {s s' rest} : guar s s' → (∀ s₁, rely s' s₁ → Conforms rely guar post s₁ (rest s₁)) →
      Conforms rely guar post s (.paused s' rest)
  | exhausted {s} : Conforms rely guar post s .exhausted

/-- Relations by which tasks can live side by side. -/
structure Compatible (rely guar : σ → σ → Prop) : Prop where
  refl : ∀ s, guar s s
  trans : ∀ {s s₁ s₂}, guar s s₁ → guar s₁ s₂ → guar s s₂
  relied : ∀ {s s₁}, guar s s₁ → rely s s₁
  rely_trans : ∀ {s s₁ s₂}, rely s s₁ → rely s₁ s₂ → rely s s₂

/-- A preorder that each task keeps by itself, whatever the others do. -/
theorem Compatible.alone {guar : σ → σ → Prop} (refl : ∀ s, guar s s)
    (trans : ∀ {s s₁ s₂}, guar s s₁ → guar s₁ s₂ → guar s s₂) : Compatible (fun _ _ => True) guar :=
  ⟨refl, trans, fun _ => trivial, fun _ _ => trivial⟩

/-- A preorder that each task keeps as long as the others do. -/
theorem Compatible.shared {guar : σ → σ → Prop} (refl : ∀ s, guar s s)
    (trans : ∀ {s s₁ s₂}, guar s s₁ → guar s₁ s₂ → guar s s₂) : Compatible guar guar :=
  ⟨refl, trans, id, trans⟩

namespace Turn.Conforms

variable {post : σ → α → Prop}

/-- What conforms from a later state of the turn conforms from an earlier one. -/
theorem after (h : Compatible rely guar) {s s₁ : σ} {u : Turn σ ε α} (hs : guar s s₁)
    (hu : Conforms rely guar post s₁ u) : Conforms rely guar post s u := by
  cases hu with
  | done hg hp => exact .done (h.trans hs hg) hp
  | failed hg => exact .failed (h.trans hs hg)
  | paused hg hrest => exact .paused (h.trans hs hg) hrest
  | exhausted => exact .exhausted

theorem imp {post' : σ → α → Prop} {s : σ} {u : Turn σ ε α} (hu : Conforms rely guar post s u)
    (himp : ∀ s a, post s a → post' s a) : Conforms rely guar post' s u := by
  induction hu with
  | done hg hp => exact .done hg (himp _ _ hp)
  | failed hg => exact .failed hg
  | paused hg _ ih => exact .paused hg ih
  | exhausted => exact .exhausted

theorem bind (h : Compatible rely guar) {post' : σ → β → Prop} {s : σ} {u : Turn σ ε α}
    {f : α → Task σ ε β} (hu : Conforms rely guar post s u)
    (hf : ∀ a s, post s a → Conforms rely guar post' s (f a s)) :
    Conforms rely guar post' s (u.bind f) := by
  induction hu with
  | done hg hp => exact after h hg (hf _ _ hp)
  | failed hg => exact .failed hg
  | paused hg _ ih => exact .paused hg ih
  | exhausted => exact .exhausted

theorem handle (h : Compatible rely guar) {s : σ} {u : Turn σ ε α} {f : ε → Task σ ε α}
    (hu : Conforms rely guar post s u) (hf : ∀ e s, Conforms rely guar post s (f e s)) :
    Conforms rely guar post s (u.handle f) := by
  induction hu with
  | done hg hp => exact .done hg hp
  | failed hg => exact after h hg (hf _ _)
  | paused hg _ ih => exact .paused hg ih
  | exhausted => exact .exhausted

/-- Where tasks keep what the others do, the end is related to the beginning. -/
theorem since {rel : σ → σ → Prop} (h : Compatible rel rel) {s₀ s : σ} {u : Turn σ ε α} (hs : rel s₀ s)
    (hu : Conforms rel rel post s u) : Conforms rel rel (fun s' a => rel s₀ s' ∧ post s' a) s u := by
  induction hu with
  | done hg hp => exact .done hg ⟨h.trans hs hg, hp⟩
  | failed hg => exact .failed hg
  | paused hg _ ih => exact .paused hg fun s₁ hs₁ => ih s₁ hs₁ (h.trans (h.trans hs hg) hs₁)
  | exhausted => exact .exhausted

end Turn.Conforms

namespace Task

/-- The task is within `guar` from wherever it begins, as long as the others are within `rely`. -/
def Keeps (rely guar : σ → σ → Prop) (t : Task σ ε α) : Prop :=
  ∀ s, (t s).Conforms rely guar (fun _ _ => True) s

theorem Keeps.bind (h : Compatible rely guar) {t : Task σ ε α} {f : α → Task σ ε β}
    (ht : t.Keeps rely guar) (hf : ∀ a, (f a).Keeps rely guar) : (t >>= f).Keeps rely guar :=
  fun s => (ht s).bind h fun a s₁ _ => hf a s₁

/-- What follows a task that keeps what the others do begins related to where the task began. -/
theorem Keeps.bind_since {rel : σ → σ → Prop} (h : Compatible rel rel) {post : σ → β → Prop}
    {t : Task σ ε α} {f : α → Task σ ε β} (ht : t.Keeps rel rel) (s : σ)
    (hf : ∀ a s₁, rel s s₁ → (f a s₁).Conforms rel rel post s₁) :
    ((t >>= f) s).Conforms rel rel post s :=
  ((ht s).since h (h.refl s)).bind h fun a s₁ hs => hf a s₁ hs.1

theorem keeps_pause (h : Compatible rely guar) (n : Nat) : (pause n : Task σ ε Unit).Keeps rely guar := by
  induction n with
  | zero => exact fun s => .done (h.refl s) trivial
  | succ n ih => exact fun s => .paused (h.refl s) fun s₁ _ => ih s₁

/-! ## Under a conductor -/

/-- The member, if it is still to run, conforms from each state that it may be let run in. -/
def Member.Conforms (rely guar : σ → σ → Prop) (s : σ) : Member σ ε α → Prop
  | .running t => ∀ s₁, rely s s₁ → (t s₁).Conforms rely guar (fun _ _ => True) s₁
  | .settled _ => True

theorem Member.Conforms.later (h : Compatible rely guar) {s s₁ : σ} {m : Member σ ε α} (hs : rely s s₁)
    (hm : m.Conforms rely guar s) : m.Conforms rely guar s₁ := by
  cases m with
  | running t => exact fun s₂ hs₂ => hm s₂ (h.rely_trans hs hs₂)
  | settled r => trivial

theorem Member.Conforms.turn (h : Compatible rely guar) {s s₁ : σ} {m m' : Member σ ε α}
    (hm : m.Conforms rely guar s) (hturn : m.turn s = some (m', s₁)) :
    guar s s₁ ∧ m'.Conforms rely guar s₁ := by
  cases m with
  | settled r => cases hturn
  | running t =>
    have hconforms := hm s (h.relied (h.refl s))
    rw [Member.turn] at hturn
    generalize t s = u at hconforms hturn
    cases hconforms with
    | done hg _ => cases hturn; exact ⟨hg, trivial⟩
    | failed hg => cases hturn; exact ⟨hg, trivial⟩
    | paused hg hrest => cases hturn; exact ⟨hg, hrest⟩
    | exhausted => cases hturn

/-- **A conductor conforms if its members do**: it changes nothing itself. -/
theorem Conducts.conforms (h : Compatible rely guar) {fails : List (Member σ ε α) → ε → Prop}
    {values : β → List α} {members begun s} {u : Turn σ ε β} (hu : Conducts fails values members begun s u)
    (hmembers : ∀ m ∈ members, m.Conforms rely guar s) :
    u.Conforms rely guar (fun _ _ => True) s := by
  induction hu with
  | @turn front others m m' begun s s₁ u hbegun hturn _ ih =>
    have hm := hmembers m (List.mem_append_right _ List.mem_cons_self)
    obtain ⟨hg, hm'⟩ := hm.turn h hturn
    refine .after h hg (ih fun x hx => ?_)
    -- The others have stood by while the member had its turn.
    have hother : x ∈ front ++ m :: others → x.Conforms rely guar s₁ :=
      fun hx => (hmembers x hx).later h (h.relied hg)
    rcases List.mem_append.1 hx with hx | hx
    · exact hother (List.mem_append_left _ hx)
    · rcases List.mem_cons.1 hx with rfl | hx
      · exact hm'
      · exact hother (List.mem_append_right _ (List.mem_cons_of_mem _ hx))
  | exhausted => exact .exhausted
  | @paused members begun s rest _ ih =>
    exact .paused (h.refl s) fun s₁ hs₁ => ih s₁ fun m hm => (hmembers m hm).later h hs₁
  | done _ => exact .done (h.refl _) trivial
  | failed _ => exact .failed (h.refl _)

end Task

end ScriptValues
