/-
Tasks that end alike when they run alone (`EndsAlike`), however often each of them pauses on the way. With
nobody else to take a turn a pause is nothing, so what is built from such tasks one after the other ends
alike as well. Side by side this is not so: there a pause decides who goes next.
-/
import ScriptValues.Proofs.Congruence

namespace ScriptValues

variable {σ ε α β : Type} {same : σ → σ → Prop}

namespace Turn

theorem finish_handle (t : Turn σ ε α) (f : ε → Task σ ε α) :
    (t.handle f).finish =
      match t.finish with
      | .done s a => .done s a
      | .failed s e => (f e s).finish
      | .exhausted => .exhausted := by
  induction t with
  | done s a => rfl
  | failed s e => rfl
  | paused s rest ih => simp only [handle, finish, ih]
  | exhausted => rfl

/-- Tasks in step end alike if none is cut off. -/
theorem Follows.finish_alike {u u' : Turn σ ε α} (h : Follows False same u u') :
    u.finish.Alike same u'.finish := by
  induction h with
  | done hs => exact .done hs
  | failed hs => exact .failed hs
  | paused hs _ ih => exact ih _ _ hs
  | exhausted => exact .exhausted
  | cut hcut => exact hcut.elim

end Turn

namespace Task

theorem finish_pause (n : Nat) (s : σ) : (pause n s : Turn σ ε Unit).finish = .done s () := by
  induction n with
  | zero => rfl
  | succ n ih => exact ih

/-- The tasks end alike, each running alone, from states that are the same. -/
def EndsAlike (same : σ → σ → Prop) (t t' : Task σ ε α) : Prop :=
  ∀ s s', same s s' → (t.run s).Alike same (t'.run s')

theorem Follows.endsAlike {t t' : Task σ ε α} (h : t.Follows False same t') : t.EndsAlike same t' :=
  fun s s' hs => (h s s' hs).finish_alike

theorem EndsAlike.bind {t t' : Task σ ε α} {f f' : α → Task σ ε β} (ht : t.EndsAlike same t')
    (hf : ∀ a, (f a).EndsAlike same (f' a)) : (t >>= f).EndsAlike same (t' >>= f') := by
  intro s s' hs
  have halike := ht s s' hs
  change ((t s).bind f).finish.Alike same ((t' s').bind f').finish
  rw [Turn.finish_bind, Turn.finish_bind]
  rw [run, run] at halike
  generalize (t s).finish = o at halike
  generalize (t' s').finish = o' at halike
  cases halike with
  | done hs₁ => exact hf _ _ _ hs₁
  | failed hs₁ => exact .failed hs₁
  | exhausted => exact .exhausted

theorem EndsAlike.rescue {t t' : Task σ ε α} {f f' : ε → Task σ ε α} (ht : t.EndsAlike same t')
    (hf : ∀ e, (f e).EndsAlike same (f' e)) : (tryCatch t f).EndsAlike same (tryCatch t' f') := by
  intro s s' hs
  have halike := ht s s' hs
  change ((t s).handle f).finish.Alike same ((t' s').handle f').finish
  rw [Turn.finish_handle, Turn.finish_handle]
  rw [run, run] at halike
  generalize (t s).finish = o at halike
  generalize (t' s').finish = o' at halike
  cases halike with
  | done hs₁ => exact .done hs₁
  | failed hs₁ => exact hf _ _ _ hs₁
  | exhausted => exact .exhausted

end Task

/-- Ending alike alone is kept by whatever is built from tasks one after the other. -/
theorem Machine.Likeness.endsAlike_congruence {same : Machine → Machine → Prop}
    (h : Machine.Likeness same) : WritingCongruence fun {α} (t t' : Act α) => t.EndsAlike same t' :=
  have hstep : WritingCongruence fun {α} (t t' : Act α) => t.Follows False same t' := h.congruence
  { onCore := fun f hspares hf => (hstep.onCore f hspares hf).endsAlike
    resolved := fun kind name => (hstep.resolved kind name).endsAlike
    countCall := hstep.countCall.endsAlike
    write := fun c items => (hstep.write c items).endsAlike
    emit := fun e => (hstep.emit e).endsAlike
    throw := fun e => (hstep.throw e).endsAlike
    exhausted := hstep.exhausted.endsAlike
    bind := fun ht hf => ht.bind hf
    rescue := fun ht hf => ht.rescue hf }

end ScriptValues
