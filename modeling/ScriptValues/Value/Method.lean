/-
The methods of script values, one type for each kind of target, and the names scripts call them by.
The methods of arrays that call back into the script are a type of their own: they are the only ones
that can suspend, and the only ones that run under the configuration.
-/

namespace ScriptValues

/-- Methods of numbers. -/
inductive NumMethod
  | toStr
deriving DecidableEq, Inhabited

/-- Methods of strings. -/
inductive StrMethod
  | toNum | toArr | toUnicodeArr | toUnicodeCodepointArr | toCharArr | toCharcodeArr | toUtf8ByteArr
  | replace | indexOf | incl | trim | upper | lower | split | slice | pick | charcodeAt | codepointAt
deriving DecidableEq, Inhabited

/-- Methods of arrays that finish without calling back. -/
inductive ArrMethod
  | push | unshift | pop | shift | concat | slice | join | incl | indexOf | reverse | copy
deriving DecidableEq, Inhabited

/-- Methods of arrays that call a function for their elements. -/
inductive CallbackMethod
  | map | filter | reduce | find | sort
deriving DecidableEq, Inhabited

def NumMethod.name : NumMethod → String
  | .toStr => "to_str"

def StrMethod.name : StrMethod → String
  | .toNum => "to_num"
  | .toArr => "to_arr"
  | .toUnicodeArr => "to_unicode_arr"
  | .toUnicodeCodepointArr => "to_unicode_codepoint_arr"
  | .toCharArr => "to_char_arr"
  | .toCharcodeArr => "to_charcode_arr"
  | .toUtf8ByteArr => "to_utf8_byte_arr"
  | .replace => "replace"
  | .indexOf => "index_of"
  | .incl => "incl"
  | .trim => "trim"
  | .upper => "upper"
  | .lower => "lower"
  | .split => "split"
  | .slice => "slice"
  | .pick => "pick"
  | .charcodeAt => "charcode_at"
  | .codepointAt => "codepoint_at"

def ArrMethod.name : ArrMethod → String
  | .push => "push"
  | .unshift => "unshift"
  | .pop => "pop"
  | .shift => "shift"
  | .concat => "concat"
  | .slice => "slice"
  | .join => "join"
  | .incl => "incl"
  | .indexOf => "index_of"
  | .reverse => "reverse"
  | .copy => "copy"

def CallbackMethod.name : CallbackMethod → String
  | .map => "map"
  | .filter => "filter"
  | .reduce => "reduce"
  | .find => "find"
  | .sort => "sort"

end ScriptValues
