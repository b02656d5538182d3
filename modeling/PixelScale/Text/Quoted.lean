import PixelScale.Text.Hidden

/-!
# Quoted texts in messages

A message that shows a text puts it between double quotes. Quotes and backslashes get a backslash,
the usual line and tabulator characters their short names, and any other character that could not
be seen its code point.

* `Text.quoted`: a text as a message shows it.
-/

namespace PixelScale.Text

/-- A natural number in base sixteen. -/
def ofNatHex (n : Nat) : Text := Nat.toDigits 16 n

/-- A character between quotes. -/
def shown (c : Char) : Text :=
  if c = '"' then ['\\', '"']
  else if c = '\\' then ['\\', '\\']
  else if c = '\n' then ['\\', 'n']
  else if c = '\r' then ['\\', 'r']
  else if c = '\t' then ['\\', 't']
  else if c.toNat = 0 then ['\\', '0']
  else if isHidden c then '\\' :: 'u' :: '{' :: ofNatHex c.toNat ++ ['}']
  else [c]

/-- A text as a message shows it. -/
def quoted (t : Text) : Text := '"' :: t.flatMap shown ++ ['"']

end PixelScale.Text
