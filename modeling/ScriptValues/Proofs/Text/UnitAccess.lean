/-
Code units by position. A text is read unit by unit at any position that a number may give, one that is not whole, is
negative, far outside or no number at all. What is found are the units that the text shows as an array, and where a
character begins, the character (`codePointAt_start`). A script that reads on from there, past both halves of a pair,
comes by all characters of the text and by nothing else (`readsOn_iff`).
-/
import ScriptValues.Proofs.Number.Counting
import ScriptValues.Proofs.Text.Views

namespace ScriptValues

/-! ## Units and characters by position -/

namespace Text

variable {cs before after : List Char} {c : Char} {k : Nat}

/-- A character of the text begins at a code unit. -/
def BeginsAt (c : Char) (k : Nat) (cs : List Char) : Prop :=
  ∃ before after, cs = before ++ c :: after ∧ (units before).length = k

theorem units_append (before after : List Char) : units (before ++ after) = units before ++ units after :=
  List.flatMap_append

theorem length_charUnits (c : Char) : (charUnits c).length = if 0xFFFF < c.toNat then 2 else 1 := by
  rw [charUnits]
  split
  · rw [if_neg (by omega)]
    rfl
  · rw [if_pos (by omega)]
    rfl

theorem codePointAt_of_le (h : (units cs).length ≤ k) : codePointAt cs k = none := by
  rw [codePointAt, List.drop_eq_nil_of_le h]

/-- The first code unit of a character and the one after it make the character. -/
theorem codePointAt_start (before after : List Char) (c : Char) :
    codePointAt (before ++ c :: after) (units before).length = some c.toNat := by
  rw [codePointAt, units_append, List.drop_left, units_cons, charUnits]
  split_ifs with hsmall
  · have hhigh := (not_half_toNat c).1
    cases units after with
    | nil => rfl
    | cons v vs => simp [hhigh]
  · have hvalid := valid_toNat c
    obtain ⟨hhigh, hlow, hjoin⟩ := joinHalves_split (n := c.toNat) (by omega) (by omega)
    simp [hhigh, hlow, hjoin]

/-- A code unit that is no high half stands for itself. -/
theorem codePointAt_of_not_high {u : Nat} (hu : (units cs)[k]? = some u) (hhigh : isHighHalf u = false) :
    codePointAt cs k = some u := by
  obtain ⟨hlt, rfl⟩ := List.getElem?_eq_some_iff.1 hu
  rw [codePointAt, List.drop_eq_getElem_cons hlt]
  cases (units cs).drop (k + 1) with
  | nil => rfl
  | cons v vs => simp [hhigh]

/-- After the first code unit of a pair the low half follows. -/
theorem exists_low_half (hc : 0x10000 ≤ c.toNat) (h : BeginsAt c k cs) :
    ∃ u, (units cs)[k + 1]? = some u ∧ isLowHalf u = true := by
  obtain ⟨before, after, rfl, rfl⟩ := h
  have hvalid := valid_toNat c
  obtain ⟨-, hlow, -⟩ := joinHalves_split hc (by omega)
  refine ⟨_, ?_, hlow⟩
  rw [units_append, units_cons, charUnits, if_neg (by omega), List.getElem?_append_right (Nat.le_succ _)]
  simp

theorem codePointAt_second (hc : 0x10000 ≤ c.toNat) (h : BeginsAt c k cs) :
    ∃ u, (units cs)[k + 1]? = some u ∧ codePointAt cs (k + 1) = some u := by
  obtain ⟨u, hu, hlow⟩ := exists_low_half hc h
  have hhigh : isHighHalf u = false := by
    rw [isLowHalf_iff] at hlow
    rw [Bool.eq_false_iff, Ne, isHighHalf_iff]
    omega
  exact ⟨u, hu, codePointAt_of_not_high hu hhigh⟩

theorem BeginsAt.lt (h : BeginsAt c k cs) : k + (charUnits c).length ≤ (units cs).length := by
  obtain ⟨before, after, rfl, rfl⟩ := h
  rw [units_append, units_cons, List.length_append, List.length_append]
  omega

end Text

/-! ## What a script finds -/

theorem StrMethod.answer_charcodeAt (s : String) (i : Num) : StrMethod.answer s .charcodeAt [.num i] =
    .ok (.value ((i.startIndex.bind (Text.unitAt s.toList)).elim .null .ofNat)) := rfl

theorem StrMethod.answer_codepointAt (s : String) (i : Num) : StrMethod.answer s .codepointAt [.num i] =
    .ok (.value ((i.startIndex.bind (Text.codePointAt s.toList)).elim .null .ofNat)) := rfl

/-- A position outside finds nothing. -/
theorem Num.bind_startIndex_eq_none {i : Num} {find : Nat → Option Nat} {length : Nat} (hlength : length < 2 ^ 63 - 1)
    (hfind : ∀ k, length ≤ k → find k = none) (hi : ∀ k < length, i.part ≠ k) : i.startIndex.bind find = none := by
  cases hstart : i.startIndex with
  | none => rfl
  | some k =>
    refine hfind k (Nat.le_of_not_lt fun hk => hi k hk ?_)
    exact (startIndex_eq_some_iff (by omega)).1 hstart

/-- What is found at a position that a number gives, `units` being the units of the text as it shows them. -/
structure IsReadAt (s : String) (units : List Value) (i : Num) : Prop where
  unit : ∀ (k : Nat) (u : Value), i.part = k → units[k]? = some u →
    StrMethod.answer s .charcodeAt [.num i] = .ok (.value u)
  outside : (∀ k < units.length, i.part ≠ k) →
    StrMethod.answer s .charcodeAt [.num i] = .ok (.value .null) ∧
    StrMethod.answer s .codepointAt [.num i] = .ok (.value .null)
  first : ∀ (c : Char) (k : Nat), Text.BeginsAt c k s.toList → i.part = k →
    StrMethod.answer s .codepointAt [.num i] = .ok (.value (.ofNat c.toNat))
  second : ∀ (c : Char) (k : Nat), Text.BeginsAt c k s.toList → 0x10000 ≤ c.toNat → i.part = (k + 1 : Nat) →
    ∃ u, units[k + 1]? = some u ∧ StrMethod.answer s .codepointAt [.num i] = .ok (.value u)

section

variable {s : String} (hs : (Text.units s.toList).length < 2 ^ 53)

include hs

theorem isReadAt (i : Num) : IsReadAt s ((Text.units s.toList).map .ofNat) i where
  unit k u hi hu := by
    obtain ⟨n, hn, rfl⟩ := Option.map_eq_some_iff.1 (List.getElem?_map ▸ hu)
    have hk := (List.getElem?_eq_some_iff.1 hn).1
    rw [StrMethod.answer_charcodeAt, (Num.startIndex_eq_some_iff (by omega)).2 hi, Option.bind_some, Text.unitAt, hn]
    rfl
  outside hi := by
    rw [List.length_map] at hi
    have hunit : i.startIndex.bind (Text.unitAt s.toList) = none :=
      Num.bind_startIndex_eq_none (by omega) (fun _ hk => List.getElem?_eq_none hk) hi
    have hpoint : i.startIndex.bind (Text.codePointAt s.toList) = none :=
      Num.bind_startIndex_eq_none (by omega) (fun _ hk => Text.codePointAt_of_le hk) hi
    rw [StrMethod.answer_charcodeAt, StrMethod.answer_codepointAt, hunit, hpoint]
    exact ⟨rfl, rfl⟩
  first c k hc hi := by
    have hk := hc.lt
    obtain ⟨before, after, hcs, rfl⟩ := hc
    rw [StrMethod.answer_codepointAt, (Num.startIndex_eq_some_iff (by omega)).2 hi, Option.bind_some, hcs,
      Text.codePointAt_start]
    rfl
  second c k hc hpair hi := by
    obtain ⟨u, hu, hread⟩ := Text.codePointAt_second hpair hc
    have hk := (List.getElem?_eq_some_iff.1 hu).1
    refine ⟨.ofNat u, by rw [List.getElem?_map, hu]; rfl, ?_⟩
    rw [StrMethod.answer_codepointAt, (Num.startIndex_eq_some_iff (by omega)).2 hi, Option.bind_some, hread]
    rfl

end

/-! ## Reading on -/

/-- A script reads a text from a position on, one code point after the other, until there is none: after one beyond
U+FFFF it goes on two units further, and else one. -/
inductive ReadsOn (s : String) : Num → List Value → Prop
  | stop {i} : StrMethod.answer s .codepointAt [.num i] = .ok (.value .null) → ReadsOn s i []
  | next {i n found} : StrMethod.answer s .codepointAt [.num i] = .ok (.value (.num n)) →
      ReadsOn s (i.add (.ofNat (if Num.lt (.ofNat 0xFFFF) n then 2 else 1))) found → ReadsOn s i (.num n :: found)

section

variable {s : String} {i n : Num} {found : List Value}

theorem readsOn_of_null (h : StrMethod.answer s .codepointAt [.num i] = .ok (.value .null)) :
    ReadsOn s i found ↔ found = [] := by
  constructor
  · intro hreads
    cases hreads with
    | stop _ => rfl
    | next hnext _ => cases h.symm.trans hnext
  · rintro rfl
    exact .stop h

theorem readsOn_of_num (h : StrMethod.answer s .codepointAt [.num i] = .ok (.value (.num n))) :
    ReadsOn s i found ↔ ∃ rest, ReadsOn s (i.add (.ofNat (if Num.lt (.ofNat 0xFFFF) n then 2 else 1))) rest ∧
      found = .num n :: rest := by
  constructor
  · intro hreads
    cases hreads with
    | stop hstop => cases h.symm.trans hstop
    | next hnext hon =>
      cases h.symm.trans hnext
      exact ⟨_, hon, rfl⟩
  · rintro ⟨rest, hon, rfl⟩
    exact .next h hon

end

section

variable {s : String} (hs : (Text.units s.toList).length < 2 ^ 53)

include hs

theorem answer_codepointAt_end :
    StrMethod.answer s .codepointAt [.num (.ofNat (Text.units s.toList).length)] = .ok (.value .null) := by
  refine ((isReadAt hs _).outside fun k hk heq => ?_).2
  rw [Num.part_ofNat hs.le] at heq
  rw [List.length_map] at hk
  have hend : ((Text.units s.toList).length : Int) = k := WithBotTop.coe_injective heq
  omega

variable {before after : List Char} {c : Char}

theorem answer_codepointAt_start (hsplit : s.toList = before ++ c :: after) :
    StrMethod.answer s .codepointAt [.num (.ofNat (Text.units before).length)] = .ok (.value (.ofNat c.toNat)) := by
  have hbegins : Text.BeginsAt c (Text.units before).length s.toList := ⟨before, after, hsplit, rfl⟩
  have hlt := hbegins.lt
  exact (isReadAt hs _).first c _ hbegins (Num.part_ofNat (by omega))

/-- From the first unit of a character a script goes on to the first unit of the next. -/
theorem next_start (hsplit : s.toList = before ++ c :: after) :
    (Num.ofNat (Text.units before).length).add
      (.ofNat (if Num.lt (.ofNat 0xFFFF) (.ofNat c.toNat) then 2 else 1)) = .ofNat (Text.units (before ++ [c])).length := by
  have hbegins : Text.BeginsAt c (Text.units before).length s.toList := ⟨before, after, hsplit, rfl⟩
  have hlt := hbegins.lt
  rw [Num.ofNat_lt_ofNat (by decide) (Text.toNat_le c)]
  simp only [decide_eq_true_eq, ← Text.length_charUnits]
  rw [Num.ofNat_add_ofNat (by omega), Text.units_append, List.length_append, Text.units_cons, List.length_append]
  rfl

/-- From where a character begins, what is read on are the characters from there on. -/
theorem readsOn_iff (hsplit : s.toList = before ++ after) (found : List Value) :
    ReadsOn s (.ofNat (Text.units before).length) found ↔ found = after.map fun c => .ofNat c.toNat := by
  induction after generalizing before found with
  | nil =>
    have hend := answer_codepointAt_end hs
    rw [hsplit, List.append_nil] at hend
    exact readsOn_of_null hend
  | cons c after ih =>
    have hrest := @ih (before ++ [c]) (by rw [hsplit, List.append_assoc]; rfl)
    rw [← next_start hs hsplit] at hrest
    refine (readsOn_of_num (answer_codepointAt_start hs hsplit)).trans ?_
    simp only [hrest, exists_eq_left, List.map_cons]
    rfl

end

/-- **Code units are read by position as they stand in the array of them, and characters where they begin**; and a
script that reads on from the start comes by just the characters of the text. -/
theorem units_read_by_position (s : String) (hs : (Text.units s.toList).length < 2 ^ 53) :
    ∃ units points : List Value,
      StrMethod.answer s .toCharcodeArr [] = .ok (.fresh units) ∧
      StrMethod.answer s .toUnicodeCodepointArr [] = .ok (.fresh points) ∧
      (∀ i : Num, IsReadAt s units i) ∧
      ∀ found, ReadsOn s (.ofNat 0) found ↔ found = points := by
  refine ⟨_, _, rfl, rfl, isReadAt hs, fun found => ?_⟩
  rw [List.map_map]
  exact readsOn_iff hs (List.nil_append s.toList).symm found

/-- A pair at the end of a text is read once, and where its second half is, that. -/
theorem units_read_by_position_pair :
    let s := "a😀"
    (Text.units s.toList).length < 2 ^ 53 ∧ (∀ found, ReadsOn s (.ofNat 0) found ↔ found = [.ofNat 97, .ofNat 0x1F600]) ∧
      StrMethod.answer s .codepointAt [.num (.ofNat 2)] = .ok (.value (.ofNat 0xDE00)) := by
  intro s
  have hs : (Text.units s.toList).length < 2 ^ 53 := by decide
  obtain ⟨units, points, hunits, hpoints, hread, hreads⟩ := units_read_by_position s hs
  obtain rfl := Answer.fresh.inj (Except.ok.inj hunits)
  obtain rfl := Answer.fresh.inj (Except.ok.inj hpoints)
  have hbegins : Text.BeginsAt '😀' 1 s.toList := ⟨['a'], [], by decide, by decide⟩
  obtain ⟨u, hu, hsecond⟩ := (hread (.ofNat 2)).second _ _ hbegins (by decide) (Num.part_ofNat (by decide))
  have hlow : ((Text.units s.toList).map Value.ofNat)[1 + 1]? = some (.ofNat 0xDE00) := by decide +kernel
  obtain rfl : u = .ofNat 0xDE00 := Option.some.inj (hu.symm.trans hlow)
  have hchars : s.toList.map Char.toNat = [97, 0x1F600] := by decide
  rw [hchars] at hreads
  exact ⟨hs, hreads, hsecond⟩

end ScriptValues
