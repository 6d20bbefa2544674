/-
What a text shows of itself as an array: its characters, their numbers, its UTF-8 bytes, its UTF-16 code
units, and a character for each unit. Each of the first four decodes back to the text, the numbers being read
as numbers of a script are (`views_decode`); of half a pair the last shows only that it is one.

Bytes are decoded by `ByteArray.utf8Decode?`. Units are decoded by `decodeUnits`, which takes no half without
the other and so accepts just what texts encode to (`decodeUnits_eq_some_iff`).
-/
import Mathlib.Data.List.Forall2
import ScriptValues.Method.Str
import ScriptValues.Proofs.Number.Exact

namespace ScriptValues

namespace Text

/-! ## UTF-16 -/

/-- The text that the code units encode, if they do: every half has the other beside it. -/
def decodeUnits : List Nat → Option (List Char)
  | [] => some []
  | u :: us =>
    if isHighHalf u then
      match us with
      | [] => none
      | v :: us => if isLowHalf v then (decodeUnits us).map (Char.ofNat (joinHalves u v) :: ·) else none
    else if isLowHalf u || decide (0x10000 ≤ u) then none
    else (decodeUnits us).map (Char.ofNat u :: ·)

theorem units_cons (c : Char) (cs : List Char) : units (c :: cs) = charUnits c ++ units cs := rfl

theorem isHighHalf_iff {u : Nat} : isHighHalf u = true ↔ 0xD800 ≤ u ∧ u < 0xDC00 := by
  simp [isHighHalf]

theorem isLowHalf_iff {u : Nat} : isLowHalf u = true ↔ 0xDC00 ≤ u ∧ u < 0xE000 := by
  simp [isLowHalf]

section

variable {u v : Nat}

theorem decodeUnits_of_single (hhigh : isHighHalf u = false) (hlow : isLowHalf u = false) (hu : u < 0x10000)
    (us : List Nat) : decodeUnits (u :: us) = (decodeUnits us).map (Char.ofNat u :: ·) := by
  have hle : decide (0x10000 ≤ u) = false := decide_eq_false (by omega)
  rw [decodeUnits.eq_def]
  simp only [hhigh, hlow, hle, Bool.false_eq_true, Bool.or_self, ↓reduceIte]

theorem decodeUnits_of_pair (hhigh : isHighHalf u = true) (hlow : isLowHalf v = true) (us : List Nat) :
    decodeUnits (u :: v :: us) = (decodeUnits us).map (Char.ofNat (joinHalves u v) :: ·) := by
  rw [decodeUnits.eq_def]
  simp only [hhigh, hlow, ↓reduceIte]

end

/-- The code points that characters have. -/
theorem valid_toNat (c : Char) : c.toNat < 0xD800 ∨ 0xDFFF < c.toNat ∧ c.toNat < 0x110000 := c.valid

/-- A character is no half of a pair. -/
theorem not_half_toNat (c : Char) : isHighHalf c.toNat = false ∧ isLowHalf c.toNat = false := by
  have hvalid := valid_toNat c
  simp only [Bool.eq_false_iff, ne_eq, isHighHalf_iff, isLowHalf_iff]
  omega

/-- The two halves of a character hold ten bits each of what is above the first `2^16` code points. -/
theorem joinHalves_split {n : Nat} (hle : 0x10000 ≤ n) (hlt : n < 0x110000) :
    isHighHalf (0xD800 + (n - 0x10000) / 0x400) = true ∧ isLowHalf (0xDC00 + (n - 0x10000) % 0x400) = true ∧
      joinHalves (0xD800 + (n - 0x10000) / 0x400) (0xDC00 + (n - 0x10000) % 0x400) = n := by
  refine ⟨isHighHalf_iff.2 (by omega), isLowHalf_iff.2 (by omega), ?_⟩
  unfold joinHalves
  omega

theorem decodeUnits_charUnits_append (c : Char) (us : List Nat) :
    decodeUnits (charUnits c ++ us) = (decodeUnits us).map (c :: ·) := by
  have hvalid := valid_toNat c
  by_cases hsmall : c.toNat < 0x10000
  · obtain ⟨hhigh, hlow⟩ := not_half_toNat c
    rw [charUnits, if_pos hsmall, List.singleton_append, decodeUnits_of_single hhigh hlow hsmall,
      Char.ofNat_toNat]
  · obtain ⟨hhigh, hlow, hjoin⟩ := joinHalves_split (n := c.toNat) (by omega) (by omega)
    rw [charUnits, if_neg hsmall, List.cons_append, List.singleton_append, decodeUnits_of_pair hhigh hlow,
      hjoin, Char.ofNat_toNat]

theorem decodeUnits_units (cs : List Char) : decodeUnits (units cs) = some cs := by
  induction cs with
  | nil => rfl
  | cons c cs ih =>
    rw [units_cons, decodeUnits_charUnits_append, ih, Option.map_some]

theorem toNat_ofNat {n : Nat} (h : n.isValidChar) : (Char.ofNat n).toNat = n := by
  rw [Char.ofNat, dif_pos h]
  rfl

theorem charUnits_of_single {u : Nat} (hhigh : isHighHalf u = false) (hlow : isLowHalf u = false)
    (hu : u < 0x10000) : charUnits (Char.ofNat u) = [u] := by
  have hvalid : u.isValidChar := by
    simp only [Bool.eq_false_iff, ne_eq, isHighHalf_iff, isLowHalf_iff] at hhigh hlow
    rw [Nat.isValidChar]
    omega
  rw [charUnits, toNat_ofNat hvalid, if_pos hu]

theorem charUnits_of_pair {u v : Nat} (hhigh : isHighHalf u = true) (hlow : isLowHalf v = true) :
    charUnits (Char.ofNat (joinHalves u v)) = [u, v] := by
  rw [isHighHalf_iff] at hhigh
  rw [isLowHalf_iff] at hlow
  have hvalid : (joinHalves u v).isValidChar := by
    unfold Nat.isValidChar joinHalves
    omega
  have hlarge : ¬ joinHalves u v < 0x10000 := by
    unfold joinHalves
    omega
  have hu : 0xD800 + (joinHalves u v - 0x10000) / 0x400 = u := by
    unfold joinHalves
    omega
  have hv : 0xDC00 + (joinHalves u v - 0x10000) % 0x400 = v := by
    unfold joinHalves
    omega
  rw [charUnits, toNat_ofNat hvalid, if_neg hlarge, hu, hv]

/-- **Units decode to a text just if it encodes to them.** -/
theorem decodeUnits_eq_some_iff {us : List Nat} {cs : List Char} :
    decodeUnits us = some cs ↔ us = units cs := by
  refine ⟨fun h => ?_, fun h => h ▸ decodeUnits_units cs⟩
  induction us using decodeUnits.induct generalizing cs with
  | case1 =>
    cases h
    rfl
  | case2 u hhigh => simp [decodeUnits, hhigh] at h
  | case3 u hhigh v us hlow ih =>
    rw [decodeUnits_of_pair hhigh hlow, Option.map_eq_some_iff] at h
    obtain ⟨cs, hcs, rfl⟩ := h
    rw [units_cons, charUnits_of_pair hhigh hlow, ← ih hcs]
    rfl
  | case4 u hhigh v us hlow => simp [decodeUnits, hhigh, hlow] at h
  | case5 u us hhigh hbad =>
    rw [decodeUnits.eq_def] at h
    simp only [hhigh, hbad, ↓reduceIte] at h
    cases h
  | case6 u us hhigh hgood ih =>
    rw [Bool.or_eq_true, not_or, decide_eq_true_eq, Nat.not_le] at hgood
    have hhigh := Bool.eq_false_iff.2 hhigh
    have hlow := Bool.eq_false_iff.2 hgood.1
    rw [decodeUnits_of_single hhigh hlow hgood.2, Option.map_eq_some_iff] at h
    obtain ⟨cs, hcs, rfl⟩ := h
    rw [units_cons, charUnits_of_single hhigh hlow hgood.2, ← ih hcs]
    rfl

/-! ## UTF-8 -/

/-- The text that the bytes encode, if they do. -/
def decodeBytes (bytes : List Nat) : Option (List Char) :=
  if bytes.all (· < 256) then (bytes.map UInt8.ofNat).toByteArray.utf8Decode?.map Array.toList else none

theorem decodeBytes_encode (cs : List Char) :
    decodeBytes ((cs.flatMap String.utf8EncodeChar).map UInt8.toNat) = some cs := by
  have hall : ((cs.flatMap String.utf8EncodeChar).map UInt8.toNat).all (· < 256) = true := by
    rw [List.all_eq_true]
    intro n hn
    obtain ⟨b, -, rfl⟩ := List.mem_map.1 hn
    exact decide_eq_true b.toNat_lt
  have hbytes : ((cs.flatMap String.utf8EncodeChar).map UInt8.toNat).map UInt8.ofNat =
      cs.flatMap String.utf8EncodeChar := by
    rw [List.map_map]
    exact List.map_id'' (fun b => UInt8.ofNat_toNat) _
  have hdecode : (cs.flatMap String.utf8EncodeChar).toByteArray.utf8Decode? = some cs.toArray :=
    List.utf8Decode?_utf8Encode
  rw [decodeBytes, if_pos hall, hbytes, hdecode, Option.map_some]

end Text

/-! ## Arrays read back -/

/-- The natural number that a value is. -/
def Value.nat? (v : Value) : Option Nat := (v.num?.bind Num.integer?).bind Int.toNat?

theorem Value.nat?_ofNat {n : Nat} (hn : n ≤ 2 ^ 53) : (Value.ofNat n).nat? = some n := by
  have hnum : (Value.ofNat n).num? = some (.ofNat n) := rfl
  rw [nat?, hnum, Option.bind_some, Num.integer?_ofNat hn]
  rfl

theorem mapM_map_eq_some {α β γ : Type} {f : β → Option γ} {g : α → β} {h : α → γ} {as : List α}
    (hread : ∀ a ∈ as, f (g a) = some (h a)) : (as.map g).mapM f = some (as.map h) := by
  induction as with
  | nil => rfl
  | cons a as ih =>
    have hrest := ih fun b hb => hread b (List.mem_cons_of_mem _ hb)
    rw [List.map_cons, List.mapM_cons, hread a List.mem_cons_self, hrest]
    rfl

theorem join_singletons (cs : List Char) :
    String.join ((cs.map ([·])).map String.ofList) = String.ofList cs := by
  induction cs with
  | nil => rfl
  | cons c cs ih =>
    rw [List.map_cons, List.map_cons, String.join_cons, ih, ← String.ofList_append]
    rfl

/-- Small natural numbers are read back from their array. -/
theorem mapM_nat?_ofNat {ns : List Nat} (h : ∀ n ∈ ns, n ≤ 2 ^ 53) :
    (ns.map Value.ofNat).mapM Value.nat? = some ns := by
  have hread : ∀ n ∈ ns, (Value.ofNat n).nat? = some (id n) := fun n hn => Value.nat?_ofNat (h n hn)
  rw [mapM_map_eq_some hread, List.map_id]

namespace Text

theorem toNat_le (c : Char) : c.toNat ≤ 2 ^ 53 := by
  have hvalid := valid_toNat c
  omega

theorem lt_of_mem_units {cs : List Char} {u : Nat} (h : u ∈ units cs) : u < 0x10000 := by
  obtain ⟨c, -, hu⟩ := List.mem_flatMap.1 h
  have hvalid := valid_toNat c
  unfold charUnits at hu
  split at hu
  · next hsmall => rwa [List.mem_singleton.1 hu]
  · simp only [List.mem_cons, List.not_mem_nil, or_false] at hu
    omega

end Text

/-- A text of one character beside the number of that. -/
def IsCharOf (text number : Value) : Prop :=
  ∃ c : Char, text = .str (.ofList [c]) ∧ number.nat? = some c.toNat

/-- A text of one character beside a code unit: the character that the unit is, U+FFFD for half a pair. -/
def StandsFor (text unit : Value) : Prop :=
  ∃ u, unit.nat? = some u ∧
    if Text.isHighHalf u || Text.isLowHalf u then text = .str "\uFFFD"
    else ∃ c : Char, c.toNat = u ∧ text = .str (.ofList [c])

theorem isCharOf (c : Char) : IsCharOf (.ofChars [c]) (.ofNat c.toNat) :=
  ⟨c, rfl, Value.nat?_ofNat (Text.toNat_le c)⟩

theorem standsFor {u : Nat} (hu : u < 0x10000) : StandsFor (.ofChars [Text.unitChar u]) (.ofNat u) := by
  refine ⟨u, Value.nat?_ofNat (by omega), ?_⟩
  rw [Text.unitChar]
  split
  · rfl
  · next hhalf =>
    rw [Bool.or_eq_true, not_or] at hhalf
    have hvalid : u.isValidChar := by
      simp only [Text.isHighHalf_iff, Text.isLowHalf_iff] at hhalf
      unfold Nat.isValidChar
      omega
    exact ⟨Char.ofNat u, Text.toNat_ofNat hvalid, rfl⟩

/-- **What a text shows of itself decodes back to it.** Its characters make it up and stand beside their
numbers; its bytes are its UTF-8 and its units its UTF-16; and to each unit there is a character, U+FFFD
just for half a pair. -/
theorem views_decode (s : String) (args : List Value) :
    ∃ texts codePoints bytes units chars : List Value,
      StrMethod.answer s .toUnicodeArr args = .ok (.fresh texts) ∧
      StrMethod.answer s .toUnicodeCodepointArr args = .ok (.fresh codePoints) ∧
      StrMethod.answer s .toUtf8ByteArr args = .ok (.fresh bytes) ∧
      StrMethod.answer s .toCharcodeArr args = .ok (.fresh units) ∧
      StrMethod.answer s .toCharArr args = .ok (.fresh chars) ∧
      (texts.mapM Value.str?).map String.join = some s ∧
      List.Forall₂ IsCharOf texts codePoints ∧
      (bytes.mapM Value.nat?).bind Text.decodeBytes = some s.toList ∧
      (units.mapM Value.nat?).bind Text.decodeUnits = some s.toList ∧
      List.Forall₂ StandsFor chars units := by
  refine ⟨_, _, _, _, _, rfl, rfl, rfl, rfl, rfl, ?_, ?_, ?_, ?_, ?_⟩
  · have hread : ∀ p ∈ s.toList.map ([·]), (Value.ofChars p).str? = some (String.ofList p) :=
      fun _ _ => rfl
    rw [mapM_map_eq_some hread, Option.map_some, join_singletons, String.ofList_toList]
  · rw [List.forall₂_map_left_iff, List.forall₂_map_left_iff, List.forall₂_map_right_iff,
      List.forall₂_map_right_iff]
    exact List.forall₂_same.2 fun c _ => isCharOf c
  · rw [mapM_nat?_ofNat, Option.bind_some, Text.decodeBytes_encode]
    intro n hn
    obtain ⟨b, -, rfl⟩ := List.mem_map.1 hn
    have hb := b.toNat_lt
    omega
  · rw [mapM_nat?_ofNat fun u hu => ?_, Option.bind_some, Text.decodeUnits_units]
    have hu := Text.lt_of_mem_units hu
    omega
  · rw [List.forall₂_map_left_iff, List.forall₂_map_left_iff, List.forall₂_map_right_iff]
    exact List.forall₂_same.2 fun u hu => standsFor (Text.lt_of_mem_units hu)

end ScriptValues
