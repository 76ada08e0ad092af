import LiveDex.Text.Numeral
import LiveDex.Text.Unprintable

/-!
Texts in double quotes, as descriptions show them. A backslash or a double quote takes a
backslash, the usual controls have their letters, and every other character that would not
print by itself is given by its code point.
-/
namespace LiveDex.Text

def quotedChar (c : Char) : String :=
  if c = Char.ofNat 0 then "\\0"
  else if c = '\t' then "\\t"
  else if c = '\n' then "\\n"
  else if c = '\r' then "\\r"
  else if c = '"' then "\\\""
  else if c = '\\' then "\\\\"
  else if isUnprintable c then "\\u\x7b" ++ hex 1 c.toNat ++ "\x7d"
  else c.toString

def quoted (s : String) : String :=
  "\"" ++ String.join (s.toList.map quotedChar) ++ "\""

end LiveDex.Text
