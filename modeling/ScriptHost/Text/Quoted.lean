import ScriptHost.Text.Hex
import ScriptHost.Text.Printable
/-!
# Quoted text

Messages show a text between quotation marks.  The mark and the backslash are written behind a
backslash, the four common control characters have letters, and every other character that cannot be
seen is written by its number.
-/

set_option autoImplicit false

namespace ScriptHost.Text

/-- A character as it is shown in quotes. -/
def quotedChar (c : Char) : String :=
  if c = '"' then "\\\""
  else if c = '\\' then "\\\\"
  else if c = '\n' then "\\n"
  else if c = '\r' then "\\r"
  else if c = '\t' then "\\t"
  else if c.toNat = 0 then "\\0"
  else if isShown c then c.toString
  else "\\u\x7b" ++ hexNumber c.toNat ++ "\x7d"

/-- A text as it is shown in quotes. -/
def quoted (s : String) : String :=
  "\"" ++ s.toList.foldr (fun c rest => quotedChar c ++ rest) "\""

end ScriptHost.Text
