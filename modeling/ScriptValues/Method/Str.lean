/-
The methods of strings. Lengths and positions count grapheme clusters, which are read by their offsets, except in the
four methods on code units and in the three views by code point and byte. A method reads its arguments from the left
before it does anything else; further arguments do not matter.
-/
import ScriptValues.Argument
import ScriptValues.Method.Answer
import ScriptValues.Number.Index
import ScriptValues.Text.Case
import ScriptValues.Text.Indexed
import ScriptValues.Text.Numeral
import ScriptValues.Text.Search
import ScriptValues.Text.Unit

namespace ScriptValues

/-- Where a search begins: a negative number counts from the end, but not past the start. -/
def searchStart (length : Nat) (n : Num) : Nat :=
  let i := n.toIndex
  if i < 0 then (length + i).toNat else i.toNat

/-- What a method of a string answers. -/
def StrMethod.answer (text : String) (method : StrMethod) (args : List Value) :
    Except Fault Answer := do
  let cs := text.toList
  match method with
  | .toNum => pure (.value ((Text.leadingInteger cs).elim .null .num))
  | .toArr => pure (.texts (Text.parts cs))
  | .toUnicodeArr => pure (.texts (cs.map ([·])))
  | .toUnicodeCodepointArr => pure (.nats (cs.map Char.toNat))
  | .toCharArr => pure (.texts ((Text.units cs).map fun u => [Text.unitChar u]))
  | .toCharcodeArr => pure (.nats (Text.units cs))
  | .toUtf8ByteArr => pure (.nats ((cs.flatMap String.utf8EncodeChar).map UInt8.toNat))
  | .replace =>
    let old ← Argument.read .str args 0
    let new ← Argument.read .str args 1
    pure (.ofChars (Text.replace old.toList new.toList cs))
  | .indexOf =>
    let needle ← Argument.read .str args 0
    let start ← Argument.read? .num args 1
    let start := start.elim 0 (searchStart (Text.length cs))
    pure (.value (.num ((Text.indexOf cs needle.toList start).elim (.ofInt (-1)) .ofNat)))
  | .incl =>
    let needle ← Argument.read .str args 0
    pure (.value (.bool (Text.occurs needle.toList cs)))
  | .trim => pure (.ofChars (Text.trim cs))
  | .upper => pure (.ofChars (Text.upper cs))
  | .lower => pure (.ofChars (Text.lower cs))
  | .split =>
    let sep ← Argument.read? .str args 0
    match sep with
    | some sep =>
      if sep.isEmpty then pure (.texts (Text.parts cs))
      else pure (.texts (Text.pieces sep.toList cs))
    | none => pure (.texts (Text.parts cs))
  | .slice =>
    let start ← Argument.read .num args 0
    let stop ← Argument.read .num args 1
    pure (.ofChars (Text.slice cs start.clampIndex stop.clampIndex))
  | .pick =>
    let i ← Argument.read .num args 0
    pure (.value ((i.exactIndex.bind (Text.cluster? cs)).elim .null .ofChars))
  | .charcodeAt =>
    let i ← Argument.read .num args 0
    pure (.value ((i.startIndex.bind (Text.unitAt cs)).elim .null .ofNat))
  | .codepointAt =>
    let i ← Argument.read .num args 0
    pure (.value ((i.startIndex.bind (Text.codePointAt cs)).elim .null .ofNat))

end ScriptValues
