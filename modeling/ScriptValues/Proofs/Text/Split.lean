/-
The pieces of a text between the places of a separator. They are the leftmost ones: what stands before the first
place of the separator, and so on in the rest after it (`pieces_of_endsFirst`). Only one decomposition is of this kind
(`leftmost_iff`), and it has one piece more than a search from the left finds places of the separator
(`Leftmost.occurrences`).

A script that splits a text and joins the array again gets the text back (`split_leftmost`).
-/
import Mathlib.Order.Bounds.Basic
import ScriptValues.Method.Call
import ScriptValues.Proofs.Text.Containment

namespace ScriptValues

namespace Text

variable {α : Type} {sep piece cs rest : List α}

/-! ## Decompositions -/

/-- Put behind the piece, the separator stands at its very end and not before. -/
def EndsFirst (sep piece : List α) : Prop := IsLeast {i | sep <+: (piece ++ sep).drop i} piece.length

/-- The pieces of a sequence up to the first place of the separator each, and the last one, which has none. -/
structure Leftmost (sep cs : List α) (front : List (List α)) (last : List α) : Prop where
  joined : sep.intercalate (front ++ [last]) = cs
  first : ∀ piece ∈ front, EndsFirst sep piece
  rest : ¬ sep <:+: last

/-- The places where a search from the left finds the separator, from a position on. It goes on behind each place
that it finds. -/
inductive Occurrences (sep cs : List α) : Nat → List Nat → Prop
  | none {start : Nat} : (∀ i, start ≤ i → ¬ sep <+: cs.drop i) → Occurrences sep cs start []
  | next {start i : Nat} {places : List Nat} : IsLeast {i | start ≤ i ∧ sep <+: cs.drop i} i →
      Occurrences sep cs (i + sep.length) places → Occurrences sep cs start (i :: places)

theorem Occurrences.unique {start : Nat} {places places' : List Nat} (h : Occurrences sep cs start places)
    (h' : Occurrences sep cs start places') : places = places' := by
  induction h generalizing places' with
  | none hnone =>
    cases h' with
    | none _ => rfl
    | next hleast _ => exact absurd hleast.1.2 (hnone _ hleast.1.1)
  | next hleast _ ih =>
    cases h' with
    | none hnone => exact absurd hleast.1.2 (hnone _ hleast.1.1)
    | next hleast' hplaces =>
      obtain rfl := hleast.unique hleast'
      rw [ih hplaces]

/-! ## The first place -/

theorem endsFirst_iff : EndsFirst sep piece ↔ ∀ i < piece.length, ¬ sep <+: (piece ++ sep).drop i := by
  have hstands : sep <+: (piece ++ sep).drop piece.length := by simp
  constructor
  · intro h i hi hprefix
    exact Nat.not_le_of_lt hi (h.2 hprefix)
  · intro h
    exact ⟨hstands, fun i hprefix => Nat.le_of_not_lt fun hi => h i hi hprefix⟩

theorem endsFirst_nil : EndsFirst sep [] := endsFirst_iff.2 fun _ hi => absurd hi (Nat.not_lt_zero _)

theorem endsFirst_cons_iff {c : α} :
    EndsFirst sep (c :: piece) ↔ ¬ sep <+: c :: (piece ++ sep) ∧ EndsFirst sep piece := by
  rw [endsFirst_iff, endsFirst_iff]
  constructor
  · intro h
    exact ⟨h 0 (Nat.zero_lt_succ _), fun i hi => h (i + 1) (Nat.succ_lt_succ hi)⟩
  · rintro ⟨hzero, hlater⟩ i hi
    cases i with
    | zero => exact hzero
    | succ i => exact hlater i (Nat.lt_of_succ_lt_succ hi)

/-- What follows the separator does not make it stand earlier. -/
theorem prefix_append_iff (h : sep.length ≤ cs.length) : sep <+: cs ++ rest ↔ sep <+: cs :=
  ⟨fun hprefix => List.prefix_of_prefix_length_le hprefix (List.prefix_append _ _) h,
    fun hprefix => hprefix.trans (List.prefix_append _ _)⟩

theorem not_prefix_of_endsFirst {c : α} (h : EndsFirst sep (c :: piece)) (rest : List α) :
    ¬ sep <+: c :: (piece ++ sep ++ rest) := by
  have hlength : sep.length ≤ (c :: (piece ++ sep)).length := by simp; omega
  rw [← List.cons_append, prefix_append_iff hlength]
  exact (endsFirst_cons_iff.1 h).1

/-- Where a separator is found at all, there is a piece before its first place. -/
theorem exists_endsFirst (h : sep <:+: cs) : ∃ piece rest, EndsFirst sep piece ∧ cs = piece ++ sep ++ rest := by
  induction cs with
  | nil =>
    obtain rfl := List.infix_nil.1 h
    exact ⟨[], [], endsFirst_nil, rfl⟩
  | cons c cs ih =>
    by_cases hprefix : sep <+: c :: cs
    · obtain ⟨rest, hrest⟩ := hprefix
      exact ⟨[], rest, endsFirst_nil, hrest.symm⟩
    · obtain ⟨piece, rest, hfirst, rfl⟩ := ih ((List.infix_cons_iff.1 h).resolve_left hprefix)
      refine ⟨c :: piece, rest, endsFirst_cons_iff.2 ⟨fun hpiece => hprefix ?_, hfirst⟩, rfl⟩
      exact hpiece.trans (List.prefix_append (c :: (piece ++ sep)) rest)

/-! ## The leftmost decomposition -/

theorem leftmost_of_not_infix (h : ¬ sep <:+: cs) : Leftmost sep cs [] cs :=
  ⟨List.intercalate_singleton, by simp, h⟩

theorem Leftmost.cons {front : List (List α)} {last : List α} (hfirst : EndsFirst sep piece)
    (h : Leftmost sep rest front last) : Leftmost sep (piece ++ sep ++ rest) (piece :: front) last := by
  refine ⟨?_, List.forall_mem_cons.2 ⟨hfirst, h.first⟩, h.rest⟩
  rw [List.cons_append, List.intercalate_cons_of_ne_nil (by simp), h.joined]

theorem Leftmost.cons_inv {front : List (List α)} {last : List α} (h : Leftmost sep cs (piece :: front) last) :
    EndsFirst sep piece ∧ ∃ rest, cs = piece ++ sep ++ rest ∧ Leftmost sep rest front last := by
  have hjoined := h.joined
  rw [List.cons_append, List.intercalate_cons_of_ne_nil (by simp)] at hjoined
  obtain ⟨hfirst, hfront⟩ := List.forall_mem_cons.1 h.first
  exact ⟨hfirst, _, hjoined.symm, rfl, hfront, h.rest⟩

theorem exists_leftmost (hsep : sep ≠ []) (cs : List α) : ∃ front last, Leftmost sep cs front last := by
  by_cases hinfix : sep <:+: cs
  · obtain ⟨piece, rest, hfirst, rfl⟩ := exists_endsFirst hinfix
    -- The rest is shorter by the separator.
    have hpos := List.length_pos_iff.2 hsep
    obtain ⟨front, last, h⟩ := exists_leftmost hsep rest
    exact ⟨piece :: front, last, h.cons hfirst⟩
  · exact ⟨[], cs, leftmost_of_not_infix hinfix⟩
termination_by cs.length
decreasing_by
  subst_vars
  simp only [List.length_append]
  omega

/-- The separator stands in a sequence just if there are two pieces or more. -/
theorem Leftmost.infix_iff {front : List (List α)} {last : List α} (h : Leftmost sep cs front last) :
    sep <:+: cs ↔ 1 ≤ front.length := by
  cases front with
  | nil =>
    have hlast : cs = last := h.joined.symm.trans List.intercalate_singleton
    simpa [hlast] using h.rest
  | cons piece front =>
    obtain ⟨-, rest, rfl, -⟩ := h.cons_inv
    simp

/-- **A search from the left finds the separator once before each piece but the first.** -/
theorem Leftmost.occurrences {front : List (List α)} {last : List α}
    (h : Leftmost sep cs front last) (before : List α) :
    ∃ places, Occurrences sep (before ++ cs) before.length places ∧ places.length = front.length := by
  have hdrop : ∀ i, (before ++ cs).drop (before.length + i) = cs.drop i := fun i => List.drop_length_add_append i
  induction front generalizing cs before with
  | nil =>
    have hlast : cs = last := h.joined.symm.trans List.intercalate_singleton
    refine ⟨[], .none fun i hi hprefix => h.rest ?_, rfl⟩
    obtain ⟨j, rfl⟩ := Nat.exists_eq_add_of_le hi
    rw [hdrop, hlast] at hprefix
    exact hprefix.isInfix.trans (List.drop_suffix _ _).isInfix
  | cons piece front ih =>
    obtain ⟨hfirst, rest, rfl, hrest⟩ := h.cons_inv
    obtain ⟨places, hplaces, hlength⟩ := ih hrest (before ++ (piece ++ sep)) fun i => List.drop_length_add_append i
    refine ⟨(before.length + piece.length) :: places, .next ⟨⟨Nat.le_add_right _ _, ?_⟩, ?_⟩ ?_, ?_⟩
    · rw [hdrop]
      simp
    · rintro i ⟨hi, hprefix⟩
      obtain ⟨j, rfl⟩ := Nat.exists_eq_add_of_le hi
      rw [hdrop] at hprefix
      refine Nat.add_le_add_left (Nat.le_of_not_lt fun hj => endsFirst_iff.1 hfirst j hj ?_) _
      have hroom : sep.length ≤ ((piece ++ sep).drop j).length := by simp; omega
      rwa [List.drop_append_of_le_length (by simp; omega), prefix_append_iff hroom] at hprefix
    · rw [List.append_assoc] at hplaces
      simpa [Nat.add_assoc] using hplaces
    · simp [hlength]

/-! ## The scan -/

section

variable [BEq α]

theorem piecesFrom_eq (sep : List α) (skip : Nat) (cs : List α) :
    piecesFrom sep skip cs = piecesFrom sep 0 (cs.drop skip) := by
  induction cs generalizing skip with
  | nil => cases skip <;> rfl
  | cons c cs ih =>
    cases skip with
    | zero => rfl
    | succ skip => exact ih skip

variable [LawfulBEq α]

theorem pieces_append (hsep : sep ≠ []) (rest : List α) : pieces sep (sep ++ rest) = [] :: pieces sep rest := by
  obtain ⟨c, cs, rfl⟩ := List.exists_cons_of_ne_nil hsep
  have hprefix : (c :: cs).isPrefixOf (c :: (cs ++ rest)) = true :=
    List.isPrefixOf_iff_prefix.2 (List.prefix_append (c :: cs) rest)
  rw [pieces, List.cons_append, piecesFrom, if_pos hprefix, piecesFrom_eq]
  simp [pieces]

theorem pieces_cons {c : α} (h : ¬ sep <+: c :: cs) :
    pieces sep (c :: cs) = (c :: (piecesFrom sep 0 cs).1) :: (piecesFrom sep 0 cs).2 := by
  rw [← List.isPrefixOf_iff_prefix] at h
  rw [pieces, piecesFrom, if_neg h]

theorem pieces_of_not_infix (h : ¬ sep <:+: cs) : pieces sep cs = [cs] := by
  induction cs with
  | nil => rfl
  | cons c cs ih =>
    rw [List.infix_cons_iff, not_or] at h
    have hrest : (piecesFrom sep 0 cs).1 :: (piecesFrom sep 0 cs).2 = [cs] := ih h.2
    rw [List.cons.injEq] at hrest
    rw [pieces_cons h.1, hrest.1, hrest.2]

/-- **The scan cuts at the first place of the separator.** -/
theorem pieces_of_endsFirst (hsep : sep ≠ []) (h : EndsFirst sep piece) (rest : List α) :
    pieces sep (piece ++ sep ++ rest) = piece :: pieces sep rest := by
  induction piece with
  | nil => exact pieces_append hsep rest
  | cons c piece ih =>
    have hscan : (piecesFrom sep 0 (piece ++ sep ++ rest)).1 :: (piecesFrom sep 0 (piece ++ sep ++ rest)).2 =
        piece :: pieces sep rest := ih (endsFirst_cons_iff.1 h).2
    rw [List.cons.injEq] at hscan
    rw [List.cons_append, List.cons_append, pieces_cons (not_prefix_of_endsFirst h rest), hscan.1, hscan.2]

theorem Leftmost.pieces_eq (hsep : sep ≠ []) {front : List (List α)} {last : List α}
    (h : Leftmost sep cs front last) : pieces sep cs = front ++ [last] := by
  induction front generalizing cs with
  | nil =>
    have hlast : cs = last := h.joined.symm.trans List.intercalate_singleton
    rw [hlast, pieces_of_not_infix h.rest, List.nil_append]
  | cons piece front ih =>
    obtain ⟨hfirst, rest, rfl, hrest⟩ := h.cons_inv
    rw [pieces_of_endsFirst hsep hfirst, ih hrest, List.cons_append]

/-- **The pieces are the one leftmost decomposition.** -/
theorem leftmost_iff (hsep : sep ≠ []) {front : List (List α)} {last : List α} :
    Leftmost sep cs front last ↔ pieces sep cs = front ++ [last] := by
  refine ⟨fun h => h.pieces_eq hsep, fun h => ?_⟩
  obtain ⟨front', last', h'⟩ := exists_leftmost hsep cs
  obtain ⟨rfl, hlast⟩ := List.append_inj' (h.symm.trans (h'.pieces_eq hsep)) rfl
  rwa [List.singleton_inj.1 hlast]

theorem intercalate_pieces (hsep : sep ≠ []) (cs : List α) : sep.intercalate (pieces sep cs) = cs := by
  obtain ⟨front, last, h⟩ := exists_leftmost hsep cs
  rw [h.pieces_eq hsep, h.joined]

end

/-- Joined with nothing, parts stand one behind the other. -/
theorem intercalate_empty (parts : List (List Char)) : List.intercalate [] parts = parts.flatten := by
  induction parts with
  | nil => rfl
  | cons part parts ih => cases parts <;> simp_all

end Text

/-! ## Scripts -/

/-- A script that calls a method of `s` gets an array of texts, and joined with `sep` they are `text`. The join changes
nothing. -/
def JoinsTo (s : String) (m : StrMethod) (args : List Value) (sep text : String) : Prop :=
  ∀ (host : Host) (k : Machine), ∃ k' c, (Bound.str s m).call host args k = .done k' (.arr c) ∧
    (Bound.arr c .join).call host [.str sep] k' = .done k' (.str text)

theorem ArrMethod.reply_join {h : Heap} {c : Cell} {parts : List (List Char)}
    (hc : h.contents c = (parts.map Value.ofChars).toArray) (sep : String) :
    ArrMethod.reply h c .join [.str sep] = .ok (.ofValue (.ofChars (sep.toList.intercalate parts))) := by
  have htexts : (parts.map Value.ofChars).map (fun v => v.str?.getD "") = parts.map String.ofList := by
    rw [List.map_map]
    rfl
  have htext : sep.intercalate (parts.map String.ofList) = String.ofList (sep.toList.intercalate parts) := by
    rw [← String.toList_inj, String.toList_intercalate, String.toList_ofList, List.map_map]
    exact congrArg _ (List.map_id'' (fun _ => String.toList_ofList) parts)
  rw [Value.ofChars, ← htext, ← htexts]
  simp only [reply, hc]
  rfl

/-- An array of texts that a method makes is joined as a list of texts is. -/
theorem joinsTo_of_texts {s : String} {m : StrMethod} {args : List Value} {parts : List (List Char)}
    (h : StrMethod.answer s m args = .ok (.texts parts)) (sep : String) :
    JoinsTo s m args sep (.ofList (sep.toList.intercalate parts)) := by
  intro host k
  refine ⟨{ k with heap := k.heap.alloc (parts.map Value.ofChars).toArray }, k.heap.next, ?_, ?_⟩
  · simp only [Bound.call, h]
    rfl
  · have hreply := ArrMethod.reply_join (k.heap.contents_alloc_self (parts.map Value.ofChars).toArray) sep
    change (Task.ofExcept (ArrMethod.reply (k.heap.alloc (parts.map Value.ofChars).toArray) k.heap.next .join
      [.str sep]) >>= fun reply => reply.commit k.heap.next) _ = _
    rw [hreply]
    rfl

theorem StrMethod.answer_split (s : String) {p : String} (hp : p ≠ "") :
    StrMethod.answer s .split [.str p] = .ok (.texts (Text.pieces p.toList s.toList)) := by
  have hempty : p.isEmpty = false := by simpa using hp
  have hanswer : StrMethod.answer s .split [.str p] = (if p.isEmpty then pure (.texts (Text.parts s.toList))
    else pure (.texts (Text.pieces p.toList s.toList))) := rfl
  rw [hanswer, if_neg (Bool.eq_false_iff.1 hempty)]
  rfl

/-- The texts, the last of them apart, go up to the first place of `p` each, and together they make up `s`. -/
def IsLeftmostSplit (s p : String) (parts : List String) : Prop :=
  ∃ front last, parts = front ++ [last] ∧ Text.Leftmost p.toList s.toList (front.map String.toList) last.toList

theorem isLeftmostSplit_iff {s p : String} (hp : p ≠ "") {parts : List String} :
    IsLeftmostSplit s p parts ↔ parts = (Text.pieces p.toList s.toList).map String.ofList := by
  have hsep : p.toList ≠ [] := by simpa using hp
  have hback : ∀ parts : List (List Char), (parts.map String.ofList).map String.toList = parts := by
    intro parts
    rw [List.map_map]
    exact List.map_id'' (fun _ => String.toList_ofList) parts
  simp only [IsLeftmostSplit, Text.leftmost_iff hsep]
  constructor
  · rintro ⟨front, last, rfl, h⟩
    rw [h, List.map_append, List.map_map]
    simp
  · rintro rfl
    obtain ⟨front, last, h⟩ : ∃ front last, Text.pieces p.toList s.toList = front ++ [last] :=
      (List.eq_nil_or_concat' _).resolve_left (List.cons_ne_nil _ _)
    refine ⟨front.map .ofList, .ofList last, ?_, ?_⟩
    · rw [h, List.map_append, List.map_singleton]
    · rw [hback, String.toList_ofList, h]

/-- **A split text is joined again, and its pieces are the leftmost ones.** No other texts are cut out of it as they
are, and there is one more of them than a search from the left finds places of the separator. An empty separator cuts
between clusters. -/
theorem split_leftmost (s p : String) :
    ∃ parts : List String, StrMethod.answer s .split [.str p] = .ok (.fresh (parts.map .str)) ∧
      JoinsTo s .split [.str p] p s ∧
      if p = "" then parts = (Text.clusters s.toList).map String.ofList
      else (∀ qs, IsLeftmostSplit s p qs ↔ qs = parts) ∧
        ∃ places, (∀ is, Text.Occurrences p.toList s.toList 0 is ↔ is = places) ∧
          parts.length = places.length + 1 ∧
          StrMethod.answer s .incl [.str p] = .ok (.value (.bool (decide (1 ≤ places.length)))) := by
  have hvalues : ∀ parts : List (List Char), Answer.texts parts = .fresh ((parts.map String.ofList).map .str) := by
    intro parts
    rw [Answer.texts, List.map_map]
    rfl
  by_cases hp : p = ""
  · subst hp
    have hanswer : StrMethod.answer s .split [.str ""] = .ok (.texts (Text.clusters s.toList)) := by
      rw [← Text.parts_eq]
      rfl
    refine ⟨_, hanswer.trans (congrArg _ (hvalues _)), ?_, by rw [if_pos rfl]⟩
    have hjoins := joinsTo_of_texts hanswer ""
    have hflatten : "".toList.intercalate (Text.clusters s.toList) = s.toList := by
      rw [String.toList_empty, Text.intercalate_empty, Text.flatten_clusters]
    rwa [hflatten, String.ofList_toList] at hjoins
  · have hsep : p.toList ≠ [] := by simpa using hp
    have hanswer := StrMethod.answer_split s hp
    obtain ⟨front, last, hleftmost⟩ := Text.exists_leftmost hsep s.toList
    obtain ⟨places, hplaces, hlength⟩ := hleftmost.occurrences []
    refine ⟨_, hanswer.trans (congrArg _ (hvalues _)), ?_, ?_⟩
    · have hjoins := joinsTo_of_texts hanswer p
      rwa [Text.intercalate_pieces hsep, String.ofList_toList] at hjoins
    · rw [if_neg hp]
      refine ⟨fun qs => isLeftmostSplit_iff hp, places, fun is => ⟨fun h => h.unique hplaces, ?_⟩, ?_, ?_⟩
      · rintro rfl
        exact hplaces
      · simp [hleftmost.pieces_eq hsep, hlength]
      · have hincl : Text.occurs p.toList s.toList = decide (1 ≤ front.length) := by
          rw [Bool.eq_iff_iff, Text.occurs_iff, hleftmost.infix_iff, decide_eq_true_iff]
        rw [StrMethod.answer_incl, hincl, hlength]

end ScriptValues
