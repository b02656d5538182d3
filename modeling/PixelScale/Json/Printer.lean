import PixelScale.Json.Value
import PixelScale.Number.Layout

/-!
# Writing JSON

A value is written on one line without blanks, or on several lines with two blanks of indentation
for every level. In strings only quotes, backslashes and control characters are escaped, so a
written value never holds a line end of its own on one line.

* `Json.print`: the form on one line.
* `Json.printLines`: the form on several lines.
-/

namespace PixelScale.Json

/-- A hexadecimal digit. -/
def hexDigit (n : Nat) : Char := Nat.digitChar n

/-- A character inside a string. -/
def escape (c : Char) : Text :=
  if c = '"' then ['\\', '"']
  else if c = '\\' then ['\\', '\\']
  else if c = '\n' then ['\\', 'n']
  else if c = '\t' then ['\\', 't']
  else if c = '\r' then ['\\', 'r']
  else if c = '\x08' then ['\\', 'b']
  else if c = '\x0c' then ['\\', 'f']
  else if c.toNat < 0x20 then ['\\', 'u', '0', '0', hexDigit (c.toNat / 16), hexDigit (c.toNat % 16)]
  else [c]

def printString (t : Text) : Text := '"' :: t.flatMap escape ++ ['"']

def printWhole (n : Int) : Text := if n < 0 then '-' :: Text.ofNat n.natAbs else Text.ofNat n.natAbs

mutual

/-- A value on one line. -/
def print : Json → Text
  | null => "null".toList
  | bool b => (if b then "true" else "false").toList
  | whole n => printWhole n
  | real x => Layout.inRecord.write x
  | string t => printString t
  | array items => '[' :: printItems true items ++ [']']
  | object fields => '{' :: printFields true fields ++ ['}']

/-- Items with commas between them; `first` holds in front of the first one. -/
def printItems (first : Bool) : List Json → Text
  | [] => []
  | v :: vs => (if first then [] else [',']) ++ print v ++ printItems false vs

def printFields (first : Bool) : List (Text × Json) → Text
  | [] => []
  | (name, v) :: fs =>
    (if first then [] else [',']) ++ printString name ++ ':' :: print v ++ printFields false fs

end

def newLine (depth : Nat) : Text := '\n' :: List.replicate (2 * depth) ' '

mutual

/-- A value on several lines, inside of `depth` others. -/
def printLines (depth : Nat) : Json → Text
  | array [] => "[]".toList
  | object [] => "\x7b\x7d".toList
  | array (v :: vs) =>
    '[' :: newLine (depth + 1) ++ printLines (depth + 1) v ++ printItemLines (depth + 1) vs ++
      newLine depth ++ [']']
  | object ((name, v) :: fs) =>
    '{' :: newLine (depth + 1) ++ printString name ++ ": ".toList ++ printLines (depth + 1) v ++
      printFieldLines (depth + 1) fs ++ newLine depth ++ ['}']
  | v => print v

/-- The items behind the first one. -/
def printItemLines (depth : Nat) : List Json → Text
  | [] => []
  | v :: vs => ',' :: newLine depth ++ printLines depth v ++ printItemLines depth vs

def printFieldLines (depth : Nat) : List (Text × Json) → Text
  | [] => []
  | (name, v) :: fs =>
    ',' :: newLine depth ++ printString name ++ ": ".toList ++ printLines depth v ++
      printFieldLines depth fs

end

end PixelScale.Json
