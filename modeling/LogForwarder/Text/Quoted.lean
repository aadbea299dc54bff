import LogForwarder.Text.Printable

/-!
# Quoted texts

A text as messages show it: in quotes, with a backslash before quotes and backslashes, short
escapes for the common control characters, and the number of every other character that has no
printed form.
-/

namespace LogForwarder.Text

/-- A character as messages show it. -/
def shown (c : Char) : List Char :=
  if c = '\x00' then ['\\', '0']
  else if c = '\t' then ['\\', 't']
  else if c = '\r' then ['\\', 'r']
  else if c = '\n' then ['\\', 'n']
  else if c = '"' ∨ c = '\\' then ['\\', c]
  else if isPrintable c then [c]
  else ['\\', 'u', '\x7b'] ++ Nat.toDigits 16 c.toNat ++ ['\x7d']

/-- A text in quotes, as messages show it. -/
def quoted (s : String) : String :=
  String.ofList ('"' :: s.toList.flatMap shown ++ ['"'])

end LogForwarder.Text
