import ContentReplica.Text.Hidden

/-!
# Quoted texts in messages

`quoted s` is a text between double quotes in which a reader can tell every character: quotes and
backslashes carry a backslash, the common controls are written by a letter, and other characters
that do not show by their code point.
-/

namespace ContentReplica.Text

/-- A code point in braces, in lower-case hexadecimal. -/
def codePoint (c : Char) : List Char :=
  ['\\', 'u', '\x7b'] ++ Nat.toDigits 16 c.toNat ++ ['\x7d']

/-- A character as it stands inside a quoted text. -/
def quotedChar (c : Char) : List Char :=
  if c = '"' then ['\\', '"']
  else if c = '\\' then ['\\', '\\']
  else if c = '\n' then ['\\', 'n']
  else if c = '\r' then ['\\', 'r']
  else if c = '\t' then ['\\', 't']
  else if c.toNat = 0 then ['\\', '0']
  else if isHidden c then codePoint c
  else [c]

/-- A text between double quotes. -/
def quoted (s : String) : String :=
  "\"" ++ String.ofList (s.toList.flatMap quotedChar) ++ "\""

end ContentReplica.Text
