/-
# Quoted texts

The form in which texts are shown inside messages: between double quotes, with
escapes for the quote, the backslash and whatever cannot be printed.
-/

import ChatHall.Text.Printable

namespace ChatHall.Text

def quotedChar (c : Char) : String :=
  if c == '"' then "\\\""
  else if c == '\\' then "\\\\"
  else if c == '\t' then "\\t"
  else if c == '\n' then "\\n"
  else if c == '\r' then "\\r"
  else if c.toNat == 0 then "\\0"
  else if (0x20 ≤ c.toNat && c.toNat ≤ 0x7E) || Printable.isPrintable c then c.toString
  else "\\u\x7b" ++ String.ofList (Nat.toDigits 16 c.toNat) ++ "\x7d"

/-- The text between double quotes. -/
def quoted (s : String) : String :=
  "\"" ++ s.foldl (fun shown c => shown ++ quotedChar c) "" ++ "\""

end ChatHall.Text
