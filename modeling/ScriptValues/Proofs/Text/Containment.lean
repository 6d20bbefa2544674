/-
Whether one text is part of another, told from their arrays of numbers. A code that is self-synchronising has for
each character a word of which only the first unit can begin a word, and no word is the beginning of another one. Then
a text stands among the units of another one only where it stands in that text itself (`SelfSync.cut`): a match cannot
begin or end within the word of a character.

Code points, UTF-16 and UTF-8 are such codes, so the three arrays and the search for characters agree on what contains
what (`containment_alike`).
-/
import ScriptValues.Proofs.Text.Views

namespace ScriptValues

namespace Text

/-! ## Occurrences -/

section

variable {α : Type} [BEq α] [LawfulBEq α] {needle cs : List α}

theorem occurs_iff : occurs needle cs = true ↔ needle <:+: cs := by
  induction cs with
  | nil => rw [occurs, List.isEmpty_iff, List.infix_nil]
  | cons c cs ih => rw [occurs, Bool.or_eq_true, List.isPrefixOf_iff_prefix, ih, List.infix_cons_iff]

end

/-! ## Self-synchronising codes -/

/-- A code for characters by words of units. Only the first unit of a word is one that `leads`, and no word is the
beginning of another. -/
structure SelfSync {α : Type} (leads : α → Prop) (word : Char → List α) : Prop where
  word_eq : ∀ c, ∃ u us, word c = u :: us ∧ leads u ∧ ∀ v ∈ us, ¬ leads v
  eq_of_prefix : ∀ {c d}, word c <+: word d → c = d

namespace SelfSync

variable {α β : Type} {leads : α → Prop} {word : Char → List α}

/-- The units may be written as anything from which they can be read back. -/
theorem map (h : SelfSync leads word) {f : α → β} {g : β → Option α}
    (hread : ∀ c, ∀ u ∈ word c, g (f u) = some u) :
    SelfSync (fun v => ∃ u, g v = some u ∧ leads u) fun c => (word c).map f where
  word_eq c := by
    obtain ⟨u, us, hword, hlead, hrest⟩ := h.word_eq c
    have hunits : ∀ w ∈ u :: us, g (f w) = some w := hword ▸ hread c
    refine ⟨f u, us.map f, by rw [hword, List.map_cons], ⟨u, hunits u List.mem_cons_self, hlead⟩, fun v hv => ?_⟩
    obtain ⟨w, hw, rfl⟩ := List.mem_map.1 hv
    rintro ⟨w', hw', hlead'⟩
    rw [hunits w (List.mem_cons_of_mem _ hw)] at hw'
    cases hw'
    exact hrest w hw hlead'
  eq_of_prefix {c d} hprefix := by
    have hback : ∀ c, ((word c).map f).filterMap g = word c := by
      intro c
      have hsome : (word c).filterMap (g ∘ f) = (word c).filterMap some := List.filterMap_congr (hread c)
      rw [List.filterMap_map, hsome, List.filterMap_some]
    have hwords := hprefix.filterMap g
    rw [hback, hback] at hwords
    exact h.eq_of_prefix hwords

/-- Two texts whose units begin alike begin with the same text. -/
theorem exists_append (h : SelfSync leads word) {t cs : List Char} {post : List α}
    (heq : t.flatMap word ++ post = cs.flatMap word) : ∃ rest, cs = t ++ rest ∧ post = rest.flatMap word := by
  induction t generalizing cs with
  | nil => exact ⟨cs, rfl, heq⟩
  | cons c t ih =>
    cases cs with
    | nil =>
      obtain ⟨u, us, hword, -⟩ := h.word_eq c
      simp [hword] at heq
    | cons d cs =>
      rw [List.flatMap_cons, List.flatMap_cons, List.append_assoc] at heq
      have hsame : c = d := by
        have hc : word c <+: word d ++ cs.flatMap word := heq ▸ List.prefix_append _ _
        rcases List.prefix_or_prefix_of_prefix hc (List.prefix_append _ _) with hle | hle
        · exact h.eq_of_prefix hle
        · exact (h.eq_of_prefix hle).symm
      subst hsame
      obtain ⟨rest, rfl, hpost⟩ := ih (List.append_cancel_left heq)
      exact ⟨rest, rfl, hpost⟩

/-- Where a unit stands that leads, a character begins. -/
theorem exists_before (h : SelfSync leads word) {cs : List Char} {pre post : List α} {u : α} (hu : leads u)
    (heq : pre ++ u :: post = cs.flatMap word) :
    ∃ before rest, cs = before ++ rest ∧ pre = before.flatMap word ∧ u :: post = rest.flatMap word := by
  induction cs generalizing pre with
  | nil => simp at heq
  | cons c cs ih =>
    cases pre with
    | nil => exact ⟨[], c :: cs, rfl, rfl, heq⟩
    | cons p pre =>
      obtain ⟨v, vs, hword, -, hrest⟩ := h.word_eq c
      rw [List.flatMap_cons, hword, List.cons_append, List.cons_append, List.cons.injEq] at heq
      obtain ⟨rfl, heq⟩ := heq
      -- The unit is after the word: within it there is none that leads.
      have hafter : ∃ pre', pre = vs ++ pre' ∧ pre' ++ u :: post = cs.flatMap word := by
        rcases List.append_eq_append_iff.1 heq with ⟨inner, hvs, hcons⟩ | ⟨pre', hpre, hcs⟩
        · cases inner with
          | nil => exact ⟨[], by simpa using hvs.symm, hcons⟩
          | cons w inner =>
            rw [List.cons_append, List.cons.injEq] at hcons
            obtain ⟨rfl, -⟩ := hcons
            exact absurd hu (hrest u (by simp [hvs]))
        · exact ⟨pre', hpre, hcs.symm⟩
      obtain ⟨pre', rfl, heq'⟩ := hafter
      obtain ⟨before, rest, rfl, rfl, hpost⟩ := ih heq'
      exact ⟨c :: before, rest, rfl, by simp [hword], hpost⟩

/-- **A match is cut out between characters.** -/
theorem cut (h : SelfSync leads word) {t cs : List Char} {pre post : List α} (ht : t ≠ [])
    (heq : pre ++ t.flatMap word ++ post = cs.flatMap word) :
    ∃ before after, cs = before ++ t ++ after ∧ pre = before.flatMap word ∧ post = after.flatMap word := by
  obtain ⟨c, t', rfl⟩ := List.exists_cons_of_ne_nil ht
  obtain ⟨u, us, hword, hu, -⟩ := h.word_eq c
  have hunits : (c :: t').flatMap word ++ post = u :: (us ++ t'.flatMap word ++ post) := by simp [hword]
  rw [List.append_assoc, hunits] at heq
  obtain ⟨before, rest, rfl, hpre, hrest⟩ := h.exists_before hu heq
  obtain ⟨after, rfl, hpost⟩ := h.exists_append (hunits.trans hrest)
  exact ⟨before, after, by simp, hpre, hpost⟩

theorem infix_iff (h : SelfSync leads word) {t cs : List Char} :
    t.flatMap word <:+: cs.flatMap word ↔ t <:+: cs := by
  constructor
  · rintro ⟨pre, post, heq⟩
    by_cases ht : t = []
    · exact ht ▸ List.nil_infix
    · obtain ⟨before, after, rfl, -⟩ := h.cut ht heq
      exact ⟨before, after, rfl⟩
  · rintro ⟨before, after, rfl⟩
    exact ⟨before.flatMap word, after.flatMap word, by simp⟩

end SelfSync

/-! ## The three codes -/

theorem codePoints_selfSync : SelfSync (fun _ => True) fun c => [c.toNat] where
  word_eq c := ⟨c.toNat, [], rfl, trivial, by simp⟩
  eq_of_prefix hprefix := by
    simpa [Char.toNat_inj] using hprefix

theorem units_selfSync : SelfSync (isLowHalf · = false) charUnits where
  word_eq c := by
    have hvalid := valid_toNat c
    obtain ⟨-, hlow⟩ := not_half_toNat c
    unfold charUnits
    split
    · exact ⟨_, [], rfl, hlow, by simp⟩
    · obtain ⟨hhigh, hlow, -⟩ := joinHalves_split (n := c.toNat) (by omega) (by omega)
      refine ⟨_, _, rfl, ?_, ?_⟩
      · rw [Bool.eq_false_iff, ne_eq, isLowHalf_iff]
        rw [isHighHalf_iff] at hhigh
        omega
      · intro v hv
        rw [List.mem_singleton.1 hv, hlow]
        exact Bool.noConfusion
  eq_of_prefix {c d} hprefix := by
    obtain ⟨rest, heq⟩ := hprefix
    have hd := decodeUnits_charUnits_append d []
    rw [List.append_nil, ← heq, decodeUnits_charUnits_append, decodeUnits, Option.map_some,
      Option.map_eq_some_iff] at hd
    obtain ⟨cs, -, hcs⟩ := hd
    exact (List.cons.inj hcs).1

theorem utf8_selfSync : SelfSync UInt8.IsUTF8FirstByte String.utf8EncodeChar where
  word_eq c := by
    have hfirst : ∀ (i : Nat) (hi : i < (String.utf8EncodeChar c).length),
        (String.utf8EncodeChar c)[i].IsUTF8FirstByte ↔ i = 0 :=
      fun _ _ => UInt8.isUTF8FirstByte_getElem_utf8EncodeChar
    obtain ⟨u, us, hword⟩ := List.exists_cons_of_ne_nil (String.utf8EncodeChar_ne_nil (c := c))
    simp only [hword] at hfirst
    refine ⟨u, us, hword, (hfirst 0 (Nat.zero_lt_succ _)).2 rfl, fun v hv => ?_⟩
    obtain ⟨i, hi, rfl⟩ := List.getElem_of_mem hv
    have hlater := hfirst (i + 1) (Nat.succ_lt_succ hi)
    rw [List.getElem_cons_succ] at hlater
    rw [hlater]
    exact Nat.succ_ne_zero i
  eq_of_prefix {c d} hprefix := by
    obtain ⟨rest, heq⟩ := hprefix
    have hc := ByteArray.utf8DecodeChar?_utf8EncodeChar_append (b := rest.toByteArray) (c := c)
    have hd := ByteArray.utf8DecodeChar?_utf8EncodeChar_append (b := [].toByteArray) (c := d)
    rw [← List.toByteArray_append] at hc hd
    rw [heq] at hc
    rw [List.append_nil, hc] at hd
    exact Option.some.inj hd

theorem bytes_selfSync :
    SelfSync (fun n => ∃ b, some (UInt8.ofNat n) = some b ∧ b.IsUTF8FirstByte)
      fun c => (String.utf8EncodeChar c).map UInt8.toNat :=
  utf8_selfSync.map fun _ _ _ => congrArg some UInt8.ofNat_toNat

end Text

/-! ## Arrays of numbers -/

theorem StrMethod.answer_incl (s t : String) :
    StrMethod.answer s .incl [.str t] = .ok (.value (.bool (Text.occurs t.toList s.toList))) := rfl

/-- By the arrays that a method makes of them `s` contains `t` just if it does so to a script, and where the array of
`t` stands in that of `s`, what is before and after it are the arrays of the texts there. This is not said of an empty
`t`, whose array has no units: it lies between any two of them and covers none. -/
def ContainsBy (m : StrMethod) (s t : String) : Prop :=
  ∃ whole part : List Value, StrMethod.answer s m [] = .ok (.fresh whole) ∧
    StrMethod.answer t m [] = .ok (.fresh part) ∧
    (StrMethod.answer s .incl [.str t] = .ok (.value (.bool true)) ↔ part <:+: whole) ∧
    ∀ pre post, pre ++ part ++ post = whole → t ≠ "" →
      ∃ before after, s = before ++ t ++ after ∧ StrMethod.answer before m [] = .ok (.fresh pre) ∧
        StrMethod.answer after m [] = .ok (.fresh post)

theorem containsBy {leads : Nat → Prop} {word : Char → List Nat} (h : Text.SelfSync leads word)
    (hsmall : ∀ c, ∀ u ∈ word c, u ≤ 2 ^ 53) {m : StrMethod}
    (hanswer : ∀ s : String, StrMethod.answer s m [] = .ok (.nats (s.toList.flatMap word))) (s t : String) :
    ContainsBy m s t := by
  have hvalues := h.map (f := Value.ofNat) fun c u hu => Value.nat?_ofNat (hsmall c u hu)
  have harray : ∀ s : String, StrMethod.answer s m [] =
      .ok (.fresh (s.toList.flatMap fun c => (word c).map Value.ofNat)) := by
    intro s
    rw [hanswer, Answer.nats, List.map_flatMap]
  refine ⟨_, _, harray s, harray t, ?_, fun pre post heq ht => ?_⟩
  · rw [StrMethod.answer_incl, hvalues.infix_iff, ← Text.occurs_iff]
    simp
  · have hchars : t.toList ≠ [] := by simpa using ht
    obtain ⟨before, after, hs, rfl, rfl⟩ := hvalues.cut hchars heq
    refine ⟨.ofList before, .ofList after, ?_, ?_, ?_⟩
    · rw [← String.toList_inj]
      simpa using hs
    · rw [harray, String.toList_ofList]
    · rw [harray, String.toList_ofList]

/-- **Whether one text contains another is the same in every view of them**: by code points, by UTF-16 units and by
UTF-8 bytes. No match begins or ends within the units of a character. -/
theorem containment_alike (s t : String) :
    ContainsBy .toUnicodeCodepointArr s t ∧ ContainsBy .toCharcodeArr s t ∧ ContainsBy .toUtf8ByteArr s t := by
  refine ⟨containsBy Text.codePoints_selfSync (fun c u hu => ?_) (fun s => ?_) s t,
    containsBy Text.units_selfSync (fun c u hu => ?_) (fun _ => rfl) s t,
    containsBy Text.bytes_selfSync (fun c u hu => ?_) (fun s => ?_) s t⟩
  · rw [List.mem_singleton.1 hu]
    exact Text.toNat_le c
  · rw [← List.map_eq_flatMap]
    rfl
  · have hlt := Text.lt_of_mem_units (List.mem_flatMap_of_mem (List.mem_singleton_self c) hu)
    omega
  · obtain ⟨b, -, rfl⟩ := List.mem_map.1 hu
    have hlt := b.toNat_lt
    omega
  · rw [← List.map_flatMap]
    rfl

end ScriptValues
