/-
Searching in sequences: whether one occurs in another, the pieces between its occurrences, and the
sequence with every occurrence replaced. Occurrences are taken from the left and do not overlap. After
one is found, the rest of its elements are passed over by a count.
-/

namespace ScriptValues.Text

variable {α : Type} [BEq α]

/-- `needle` occurs in the sequence. -/
def occurs (needle : List α) : List α → Bool
  | [] => needle.isEmpty
  | c :: cs => needle.isPrefixOf (c :: cs) || occurs needle cs

/-- The first piece of the sequence and the pieces after it, once `skip` elements are passed over. -/
def piecesFrom (sep : List α) : (skip : Nat) → List α → List α × List (List α)
  | _, [] => ([], [])
  | skip + 1, _ :: cs => piecesFrom sep skip cs
  | 0, c :: cs =>
    if sep.isPrefixOf (c :: cs) then
      let (piece, after) := piecesFrom sep (sep.length - 1) cs
      ([], piece :: after)
    else
      let (piece, after) := piecesFrom sep 0 cs
      (c :: piece, after)

/-- The pieces between the occurrences of `sep`, which is not empty. -/
def pieces (sep cs : List α) : List (List α) :=
  let (piece, after) := piecesFrom sep 0 cs
  piece :: after

/-- The sequence with every occurrence of `old` replaced, once `skip` elements are passed over. -/
def replaceFrom (old new : List α) : (skip : Nat) → List α → List α
  | _, [] => []
  | skip + 1, _ :: cs => replaceFrom old new skip cs
  | 0, c :: cs =>
    if old.isPrefixOf (c :: cs) then new ++ replaceFrom old new (old.length - 1) cs
    else c :: replaceFrom old new 0 cs

/-- `new` between every two neighbours. -/
def insertBetween (new : List α) : List α → List α
  | [] => []
  | [c] => [c]
  | c :: cs => c :: (new ++ insertBetween new cs)

/-- The sequence with every occurrence of `old` replaced; an empty `old` occurs between every two
neighbours, but not at the ends. -/
def replace (old new cs : List α) : List α :=
  if old.isEmpty then insertBetween new cs else replaceFrom old new 0 cs

end ScriptValues.Text
