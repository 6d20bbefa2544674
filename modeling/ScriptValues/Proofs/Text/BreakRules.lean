/-
The rules for extended grapheme clusters as they are written down, and that `clusters` follows them.

`Joins before c` says that no boundary stands between a text and the next character. Some rules look back as
far as the text goes: over the marks since a consonant or a pictograph, or over a run of regional indicators.
A `Context` remembers all they need (`continues_iff`), and forgets nothing they need when a cluster ends
(`start_eq_push`). So `clusters` cuts a text exactly where the rules do (`clusters_isClustering`).
-/
import Mathlib.Data.List.DropRight
import ScriptValues.Text.Grapheme

namespace ScriptValues.Text

open BreakClass

/-! ## The rules -/

/-- Characters between a pictograph and a joiner. -/
def BreakClass.isExtend (c : BreakClass) : Prop := c ∈ [extending, linker, nonJoiner]

/-- Characters between the consonants of a conjunct. -/
def BreakClass.isConjunctMark (c : BreakClass) : Prop := c ∈ [extending, linker, joiner]

/-- Characters that continue whatever they follow. -/
def BreakClass.isMark (c : BreakClass) : Prop := c ∈ [extending, linker, nonJoiner, joiner, spacingMark]

/-- The text ends in a base and any number of marks. -/
def Trails (base : BreakClass) (mark : BreakClass → Prop) (before : List BreakClass) : Prop :=
  ∃ front marks, before = front ++ base :: marks ∧ ∀ m ∈ marks, mark m

/-- The text ends in a consonant and marks of a conjunct, with a linker among them. -/
def EndsLinked (before : List BreakClass) : Prop :=
  ∃ front marks, before = front ++ consonant :: marks ∧ (∀ m ∈ marks, m.isConjunctMark) ∧ linker ∈ marks

/-- The text ends in a pictograph, extending characters and a joiner. -/
def EndsJoined (before : List BreakClass) : Prop :=
  ∃ front, before = front ++ [joiner] ∧ Trails pictograph isExtend front

/-- The text ends in an odd number of regional indicators. -/
def EndsInOddRegional (before : List BreakClass) : Prop := (before.rtakeWhile (· == regional)).length % 2 = 1

/-- The character continues the text before it, of which `last` is the last character. -/
inductive Extends (before : List BreakClass) (last : BreakClass) : BreakClass → Prop
  | leading {c} : last = leadingJamo → c ∈ [leadingJamo, vowelJamo, openSyllable, closedSyllable] →
      Extends before last c
  | vowel {c} : last ∈ [openSyllable, vowelJamo] → c ∈ [vowelJamo, trailingJamo] → Extends before last c
  | trailing : last ∈ [closedSyllable, trailingJamo] → Extends before last trailingJamo
  | mark {c} : c.isMark → Extends before last c
  | prepended {c} : last = prepending → Extends before last c
  | conjunct : EndsLinked before → Extends before last consonant
  | sequence : EndsJoined before → Extends before last pictograph
  | flag : EndsInOddRegional before → Extends before last regional

/-- No boundary stands between a text and the next character. -/
inductive Joins (before : List BreakClass) : BreakClass → Prop
  | lineEnd : before.getLast? = some carriageReturn → Joins before lineFeed
  | extended {last c} : before.getLast? = some last → Context.isolated last = false →
      Context.isolated c = false → Extends before last c → Joins before c

/-- The parts are the extended grapheme clusters of a text: it is cut where the rules want a boundary, and
nowhere else. -/
structure IsClustering (cs : List Char) (parts : List (List Char)) : Prop where
  flatten : parts.flatten = cs
  ne_nil : ∀ g ∈ parts, g ≠ []
  cut_iff : ∀ front c back, cs = front ++ c :: back → front ≠ [] →
    ((∃ k, (parts.take k).flatten = front) ↔ ¬ Joins (front.map breakClass) (breakClass c))

/-! ## Marks -/

theorem BreakClass.isExtend.isMark {c : BreakClass} (h : c.isExtend) : c.isMark := by
  simp only [isExtend, BreakClass.isMark, List.mem_cons, List.not_mem_nil, or_false] at h ⊢
  tauto

theorem BreakClass.isConjunctMark.isMark {c : BreakClass} (h : c.isConjunctMark) : c.isMark := by
  simp only [isConjunctMark, BreakClass.isMark, List.mem_cons, List.not_mem_nil, or_false] at h ⊢
  tauto

theorem BreakClass.isMark.not_isolated {c : BreakClass} (h : c.isMark) : Context.isolated c = false := by
  simp only [isMark, List.mem_cons, List.not_mem_nil, or_false] at h
  rcases h with rfl | rfl | rfl | rfl | rfl <;> rfl

/-! ## One more character -/

section

variable {before : List BreakClass} {c : BreakClass}

theorem snoc_inj {front marks : List BreakClass} {base m : BreakClass}
    (h : before ++ [c] = front ++ base :: (marks ++ [m])) : before = front ++ base :: marks ∧ c = m := by
  rw [← List.cons_append, ← List.append_assoc] at h
  obtain ⟨hbefore, hc⟩ := List.append_inj' h rfl
  exact ⟨hbefore, List.singleton_inj.1 hc⟩

theorem trails_snoc {base : BreakClass} {mark : BreakClass → Prop} :
    Trails base mark (before ++ [c]) ↔ c = base ∨ (mark c ∧ Trails base mark before) := by
  constructor
  · rintro ⟨front, marks, heq, hmarks⟩
    rcases List.eq_nil_or_concat' marks with rfl | ⟨marks, m, rfl⟩
    · exact .inl (List.singleton_inj.1 (List.append_inj_right' heq rfl))
    · obtain ⟨rfl, rfl⟩ := snoc_inj heq
      rw [List.forall_mem_append, List.forall_mem_singleton] at hmarks
      exact .inr ⟨hmarks.2, front, marks, rfl, hmarks.1⟩
  · rintro (rfl | ⟨hc, front, marks, rfl, hmarks⟩)
    · exact ⟨before, [], rfl, nofun⟩
    · refine ⟨front, marks ++ [c], by simp, ?_⟩
      rw [List.forall_mem_append, List.forall_mem_singleton]
      exact ⟨hmarks, hc⟩

theorem endsLinked_snoc : EndsLinked (before ++ [c]) ↔
    c.isConjunctMark ∧ (EndsLinked before ∨ (c = linker ∧ Trails consonant isConjunctMark before)) := by
  constructor
  · rintro ⟨front, marks, heq, hmarks, hlinker⟩
    rcases List.eq_nil_or_concat' marks with rfl | ⟨marks, m, rfl⟩
    · cases hlinker
    · obtain ⟨rfl, rfl⟩ := snoc_inj heq
      rw [List.forall_mem_append, List.forall_mem_singleton] at hmarks
      refine ⟨hmarks.2, ?_⟩
      rcases List.mem_append.1 hlinker with hlinker | hlinker
      · exact .inl ⟨front, marks, rfl, hmarks.1, hlinker⟩
      · exact .inr ⟨(List.mem_singleton.1 hlinker).symm, front, marks, rfl, hmarks.1⟩
  · rintro ⟨hc, h⟩
    -- Either way the mark is one more, and a linker is among them.
    rcases h with ⟨front, marks, rfl, hmarks, hlinker⟩ | ⟨rfl, front, marks, rfl, hmarks⟩
    · refine ⟨front, marks ++ [c], by simp, ?_, List.mem_append_left _ hlinker⟩
      rw [List.forall_mem_append, List.forall_mem_singleton]
      exact ⟨hmarks, hc⟩
    · refine ⟨front, marks ++ [linker], by simp, ?_, by simp⟩
      rw [List.forall_mem_append, List.forall_mem_singleton]
      exact ⟨hmarks, hc⟩

theorem endsJoined_snoc : EndsJoined (before ++ [c]) ↔ c = joiner ∧ Trails pictograph isExtend before := by
  constructor
  · rintro ⟨front, heq, hfront⟩
    obtain ⟨rfl, hc⟩ := List.append_inj' heq rfl
    exact ⟨List.singleton_inj.1 hc, hfront⟩
  · rintro ⟨rfl, hfront⟩
    exact ⟨before, rfl, hfront⟩

theorem endsInOddRegional_snoc :
    EndsInOddRegional (before ++ [c]) ↔ c = regional ∧ ¬ EndsInOddRegional before := by
  unfold EndsInOddRegional
  rw [List.rtakeWhile_concat]
  by_cases hc : c = regional
  · simp only [hc, beq_self_eq_true, ↓reduceIte, List.length_append, List.length_singleton, true_and]
    omega
  · simp [hc]

end

/-! ## What a context remembers -/

namespace Context

/-- The context before the text. -/
def origin : Context := ⟨.other, false, .none, .none⟩

theorem start_eq_push_origin (c : BreakClass) : start c = origin.push c := by
  cases c <;> rfl

theorem nextSequence_eq_pictograph_iff (s : Sequence) (c : BreakClass) :
    nextSequence s c = .pictograph ↔ c = pictograph ∨ (c.isExtend ∧ s = .pictograph) := by
  cases c <;> cases s <;> simp [nextSequence, isExtend]

theorem nextSequence_eq_joined_iff (s : Sequence) (c : BreakClass) :
    nextSequence s c = .joined ↔ c = joiner ∧ s = .pictograph := by
  cases c <;> cases s <;> simp [nextSequence]

theorem nextConjunct_ne_none_iff (s : Conjunct) (c : BreakClass) :
    nextConjunct s c ≠ .none ↔ c = consonant ∨ (c.isConjunctMark ∧ s ≠ .none) := by
  cases c <;> cases s <;> simp [nextConjunct, isConjunctMark]

theorem nextConjunct_eq_linked_iff (s : Conjunct) (c : BreakClass) :
    nextConjunct s c = .linked ↔ c.isConjunctMark ∧ (s = .linked ∨ (c = linker ∧ s ≠ .none)) := by
  cases c <;> cases s <;> simp [nextConjunct, isConjunctMark]

/-- A context describes the text that it has read, from the beginning of the text. -/
structure Describes (x : Context) (before : List BreakClass) : Prop where
  last : ∀ last, before.getLast? = some last → x.last = last
  flag : x.oddRegional = true ↔ EndsInOddRegional before
  pictograph : x.sequence = .pictograph ↔ Trails pictograph isExtend before
  joined : x.sequence = .joined ↔ EndsJoined before
  consonant : x.conjunct ≠ .none ↔ Trails consonant isConjunctMark before
  linked : x.conjunct = .linked ↔ EndsLinked before

theorem origin_describes : origin.Describes [] where
  last _ hlast := nomatch hlast
  flag := by simp [origin, EndsInOddRegional]
  pictograph := by simp [origin, Trails]
  joined := by simp [origin, EndsJoined]
  consonant := by simp [origin, Trails]
  linked := by simp [origin, EndsLinked]

theorem Describes.push {x : Context} {before : List BreakClass} (h : x.Describes before) (c : BreakClass) :
    (x.push c).Describes (before ++ [c]) where
  last last hlast := by
    rw [List.getLast?_concat] at hlast
    exact Option.some.inj hlast
  flag := by
    rw [endsInOddRegional_snoc, ← h.flag, Context.push]
    simp
  pictograph := by rw [trails_snoc, ← h.pictograph, Context.push, nextSequence_eq_pictograph_iff]
  joined := by rw [endsJoined_snoc, ← h.pictograph, Context.push, nextSequence_eq_joined_iff]
  consonant := by rw [trails_snoc, ← h.consonant, Context.push, nextConjunct_ne_none_iff]
  linked := by rw [endsLinked_snoc, ← h.consonant, ← h.linked, Context.push, nextConjunct_eq_linked_iff]

theorem start_describes (c : BreakClass) : (start c).Describes [c] := by
  rw [start_eq_push_origin]
  exact origin_describes.push c

/-! ## What a context decides -/

theorem last_of_endsJoined {before : List BreakClass} {last : BreakClass}
    (hlast : before.getLast? = some last) (h : EndsJoined before) : last = joiner := by
  obtain ⟨front, rfl, -⟩ := h
  rw [List.getLast?_concat] at hlast
  exact (Option.some.inj hlast).symm

theorem last_of_endsInOddRegional {before : List BreakClass} {last : BreakClass}
    (hlast : before.getLast? = some last) (h : EndsInOddRegional before) : last = regional := by
  obtain ⟨front, rfl⟩ := List.getLast?_eq_some_iff.1 hlast
  exact (endsInOddRegional_snoc.1 h).1

section

variable {x : Context} {before : List BreakClass} {last c : BreakClass}

theorem Describes.joins_of_continues (h : x.Describes before) (hlast : before.getLast? = some last)
    (hcontinues : x.continues c = true) : Joins before c := by
  unfold continues at hcontinues
  rw [h.last last hlast] at hcontinues
  split at hcontinues
  · next hends =>
    obtain ⟨rfl, rfl⟩ := hends
    exact .lineEnd hlast
  · split at hcontinues
    · cases hcontinues
    · next hisolated =>
      rw [Bool.or_eq_true, not_or] at hisolated
      refine .extended hlast (Bool.eq_false_iff.2 hisolated.1) (Bool.eq_false_iff.2 hisolated.2) ?_
      split at hcontinues
      case h_1 | h_2 | h_3 | h_4 => exact .leading rfl (by decide)
      case h_5 | h_6 | h_7 | h_8 => exact .vowel (by decide) (by decide)
      case h_9 | h_10 => exact .trailing (by decide)
      case h_11 | h_12 | h_13 | h_14 | h_15 => exact .mark (by simp [isMark])
      case h_16 => exact .prepended rfl
      case h_17 => exact .conjunct (h.linked.1 (beq_iff_eq.1 hcontinues))
      case h_18 => exact .sequence (h.joined.1 (beq_iff_eq.1 hcontinues))
      case h_19 => exact .flag (h.flag.1 hcontinues)
      case h_20 => cases hcontinues

theorem Describes.continues_of_extends (h : x.Describes before) (hlast : before.getLast? = some last)
    (hlone : isolated last = false) (hlone' : isolated c = false) (hextends : Extends before last c) :
    x.continues c = true := by
  have hends : ¬ (x.last = carriageReturn ∧ c = lineFeed) := by
    rintro ⟨-, rfl⟩
    cases hlone'
  unfold continues
  rw [if_neg hends, h.last last hlast, hlone, hlone', if_neg (by decide)]
  cases hextends with
  | leading hleading hc =>
    subst hleading
    simp only [List.mem_cons, List.not_mem_nil, or_false] at hc
    rcases hc with rfl | rfl | rfl | rfl <;> rfl
  | vowel hvowel hc =>
    simp only [List.mem_cons, List.not_mem_nil, or_false] at hvowel hc
    rcases hvowel with rfl | rfl <;> rcases hc with rfl | rfl <;> rfl
  | trailing hsyllable =>
    simp only [List.mem_cons, List.not_mem_nil, or_false] at hsyllable
    rcases hsyllable with rfl | rfl <;> rfl
  | mark hc =>
    simp only [isMark, List.mem_cons, List.not_mem_nil, or_false] at hc
    rcases hc with rfl | rfl | rfl | rfl | rfl <;> cases last <;> rfl
  | prepended hprepending =>
    subst hprepending
    cases c <;> rfl
  | conjunct hlinked =>
    have hconjunct : (x.conjunct == .linked) = true := beq_iff_eq.2 (h.linked.2 hlinked)
    cases last <;> first | rfl | exact hconjunct
  | sequence hjoined =>
    obtain rfl := last_of_endsJoined hlast hjoined
    exact beq_iff_eq.2 (h.joined.2 hjoined)
  | flag hodd =>
    obtain rfl := last_of_endsInOddRegional hlast hodd
    exact h.flag.2 hodd

/-- **A context knows what the rules want.** -/
theorem Describes.continues_iff (h : x.Describes before) (hbefore : before ≠ []) (c : BreakClass) :
    x.continues c = true ↔ Joins before c := by
  have hlast := List.getLast?_eq_some_getLast hbefore
  refine ⟨h.joins_of_continues hlast, fun hjoins => ?_⟩
  cases hjoins with
  | lineEnd hcr =>
    have hx : x.last = carriageReturn := h.last _ hcr
    simp [continues, hx]
  | extended hlast' hlone hlone' hextends => exact h.continues_of_extends hlast' hlone hlone' hextends

end

/-- What stands alone is no base, nor a mark after one. -/
theorem not_isolated_of_trails {before : List BreakClass} {last base : BreakClass} {mark : BreakClass → Prop}
    (hlast : before.getLast? = some last) (h : Trails base mark before) (hbase : isolated base = false)
    (hmarks : ∀ m, mark m → m.isMark) : isolated last = false := by
  obtain ⟨front, rfl⟩ := List.getLast?_eq_some_iff.1 hlast
  rcases trails_snoc.1 h with rfl | ⟨hmark, -⟩
  · exact hbase
  · exact (hmarks last hmark).not_isolated

/-- **Where a cluster ends nothing is forgotten** that the rules still need: beginning afresh is going on. -/
theorem Describes.start_eq_push {x : Context} {before : List BreakClass} (h : x.Describes before)
    (hbefore : before ≠ []) {c : BreakClass} (hc : ¬ Joins before c) : start c = x.push c := by
  have hlast := List.getLast?_eq_some_getLast hbefore
  generalize before.getLast hbefore = last at hlast
  -- A mark begins a cluster only after a character that stands alone, which ends all that it could continue.
  have hmark : c.isMark → x.sequence ≠ .pictograph ∧ x.conjunct = .none := by
    intro hmark
    have hlone : isolated last ≠ false := fun hlone =>
      hc (.extended hlast hlone hmark.not_isolated (.mark hmark))
    refine ⟨fun hsequence => hlone ?_, Classical.not_not.1 fun hconjunct => hlone ?_⟩
    · exact not_isolated_of_trails hlast (h.pictograph.1 hsequence) rfl fun _ hm => hm.isMark
    · exact not_isolated_of_trails hlast (h.consonant.1 hconjunct) rfl fun _ hm => hm.isMark
  have hflag : c = regional → x.oddRegional = false := by
    rintro rfl
    refine Bool.eq_false_iff.2 fun hodd => ?_
    have hodd := h.flag.1 hodd
    obtain rfl := last_of_endsInOddRegional hlast hodd
    exact hc (.extended hlast rfl rfl (.flag hodd))
  cases c
  case extending | linker | nonJoiner | joiner =>
    obtain ⟨hsequence, hconjunct⟩ := hmark (by simp [isMark])
    simp [start, Context.push, nextSequence, nextConjunct, hsequence, hconjunct]
  case regional => simp [start, Context.push, nextSequence, nextConjunct, hflag]
  all_goals rfl

end Context

/-! ## The clusters -/

theorem clustersFrom_of_continues {x : Context} {c : Char} (h : x.continues (breakClass c) = true)
    (cs : List Char) : clustersFrom x (c :: cs) =
      (c :: (clustersFrom (x.push (breakClass c)) cs).1, (clustersFrom (x.push (breakClass c)) cs).2) := by
  rw [clustersFrom, if_pos h]

theorem clustersFrom_of_not_continues {x : Context} {c : Char} (h : x.continues (breakClass c) = false)
    (cs : List Char) : clustersFrom x (c :: cs) =
      ([], (c :: (clustersFrom (.start (breakClass c)) cs).1) ::
        (clustersFrom (.start (breakClass c)) cs).2) := by
  rw [clustersFrom, if_neg (Bool.eq_false_iff.1 h)]

theorem clusters_cons (c : Char) (cs : List Char) :
    clusters (c :: cs) =
      (c :: (clustersFrom (.start (breakClass c)) cs).1) :: (clustersFrom (.start (breakClass c)) cs).2 := rfl

/-- What follows the first character of a cut follows the same text after it. -/
theorem exists_take_cons_iff (c : Char) (rest : List Char) (after : List (List Char)) (front : List Char) :
    (∃ k, (((c :: rest) :: after).take k).flatten = c :: front) ↔
      ∃ k, rest ++ (after.take k).flatten = front := by
  constructor
  · rintro ⟨k, hk⟩
    cases k with
    | zero => cases hk
    | succ k => exact ⟨k, by simpa using hk⟩
  · rintro ⟨k, rfl⟩
    exact ⟨k + 1, rfl⟩

/-- In the middle of a text the clusters end where the rules want a boundary. -/
theorem clustersFrom_cut_iff {x : Context} {before : List Char} (h : x.Describes (before.map breakClass))
    (hbefore : before ≠ []) {cs front back : List Char} {c : Char} (hcs : cs = front ++ c :: back) :
    (∃ k, (clustersFrom x cs).1 ++ ((clustersFrom x cs).2.take k).flatten = front) ↔
      ¬ Joins ((before ++ front).map breakClass) (breakClass c) := by
  induction cs generalizing x before front with
  | nil => simp at hcs
  | cons d cs ih =>
    have hclasses : before.map breakClass ≠ [] := by simpa using hbefore
    have hpush : (x.push (breakClass d)).Describes ((before ++ [d]).map breakClass) := by
      rw [List.map_append]
      exact h.push (breakClass d)
    have hiff := h.continues_iff hclasses (breakClass d)
    by_cases hjoins : Joins (before.map breakClass) (breakClass d)
    · rw [clustersFrom_of_continues (hiff.2 hjoins)]
      cases front with
      | nil =>
        obtain ⟨rfl, -⟩ := List.cons.inj hcs
        simpa using hjoins
      | cons e front =>
        obtain ⟨rfl, htail⟩ := List.cons.inj hcs
        have hrest := ih hpush (by simp) htail
        rw [List.append_assoc, List.singleton_append] at hrest
        simpa using hrest
    · rw [clustersFrom_of_not_continues (Bool.eq_false_iff.2 (mt hiff.1 hjoins)),
        h.start_eq_push hclasses hjoins]
      cases front with
      | nil =>
        obtain ⟨rfl, -⟩ := List.cons.inj hcs
        rw [List.append_nil]
        exact iff_of_true ⟨0, rfl⟩ hjoins
      | cons e front =>
        obtain ⟨rfl, htail⟩ := List.cons.inj hcs
        have hrest := ih hpush (by simp) htail
        rw [List.append_assoc, List.singleton_append] at hrest
        simp only [List.nil_append, exists_take_cons_iff]
        exact hrest

/-- **`clusters` follows the rules.** -/
theorem clusters_isClustering (cs : List Char) : IsClustering cs (clusters cs) where
  flatten := flatten_clusters cs
  ne_nil _ hg := ne_nil_of_mem_clusters hg
  cut_iff front c back hcs hfront := by
    obtain ⟨d, front, rfl⟩ := List.exists_cons_of_ne_nil hfront
    subst hcs
    have hstart : (Context.start (breakClass d)).Describes ([d].map breakClass) :=
      Context.start_describes (breakClass d)
    have hrest := clustersFrom_cut_iff hstart (by simp) (rfl : front ++ c :: back = _)
    rw [List.cons_append, clusters_cons, exists_take_cons_iff]
    exact hrest

end ScriptValues.Text
