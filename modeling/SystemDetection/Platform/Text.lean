import Mathlib.Data.List.Basic
import SystemDetection.Platform.Unicode

namespace systemdetection

/-- `{value:0width$X}`: upper-case hexadecimal, padded with zeros on the left. -/
def upper_hex (width value : Nat) : String :=
  String.ofList (((Nat.toDigits 16 value).map Char.toUpper).leftpad width '0')

/-- One character of `{text:?}`. -/
def debug_char (character : Char) : String :=
  if character = '\"' then "\\\""
  else if character = '\\' then "\\\\"
  else if character = '\t' then "\\t"
  else if character = '\r' then "\\r"
  else if character = '\n' then "\\n"
  else if character.toNat = 0 then "\\0"
  else if is_escaped character then
    "\\u\x7b" ++ String.ofList (Nat.toDigits 16 character.toNat) ++ "\x7d"
  else String.ofList [character]

/-- `{text:?}`: the text in double quotes, escaped. -/
def debug_str (text : String) : String :=
  "\"" ++ String.join (text.toList.map debug_char) ++ "\""

example : debug_str "é\u00a0" = "\"é\\u\x7ba0\x7d\"" := by decide +kernel

end systemdetection
