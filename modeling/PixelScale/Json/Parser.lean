import PixelScale.Json.Value
import PixelScale.Number.Double
import PixelScale.Number.Numeral

/-!
# Reading JSON

Arrays and objects nest at most 127 deep. A whole number is read as such if it fits into 64 bits,
and minus zero is a double. A double is read in two steps, each of which rounds: the digits that
fit into 64 bits become a double, and this is multiplied or divided by a power of ten. A number
beyond the range of doubles is an error.

* `Json.read?`: the value that a text writes, with the fields of objects as they were written.
* `Json.parse?`: the same with ordered fields.
-/

namespace PixelScale.Json

open Text

/-- A text without the blanks at its start. -/
def skipBlanks (t : Text) : Text := t.dropWhile fun c => c == ' ' || c == '\n' || c == '\t' || c == '\r'

/-! ## Numbers -/

/-- Adds digits to a number as long as it stays below `2 ^ 64`; also the digits that do not fit. -/
def addDigits (n : Nat) : Text → Nat × Text
  | [] => (n, [])
  | c :: t =>
    let m := n * 10 + (c.toNat - '0'.toNat)
    if m < Nat.pow 2 64 then addDigits m t else (n, c :: t)

/-- A double times a power of ten, rounded. A power below the smallest one in the table is divided
out in steps; after three of them only zero is left. -/
def scale? (x : Float) : Nat → Int → Option Float
  | 0, _ => some x
  | fuel + 1, exponent =>
    if exponent.natAbs ≤ 308 then
      if 0 ≤ exponent then
        let y := x * Double.powerOfTen exponent.natAbs
        if y.isFinite then some y else none
      else some (x / Double.powerOfTen exponent.natAbs)
    else if x == 0 then some x
    else if 0 ≤ exponent then none
    else scale? (x / Double.powerOfTen 308) fuel (exponent + 308)

/-- The double for digits and an exponent. -/
def ofParts? (negative : Bool) (digits : Nat) (exponent : Int) : Option Json :=
  (scale? (UInt64.ofNat digits).toFloat 5 exponent).map fun x => real (if negative then -x else x)

/-- The exponent of a number, behind its `e`. -/
def withExponent? (negative : Bool) (n : Nat) (exponent : Int) (t : Text) :
    Option (Json × Text) :=
  let (below, t) := Numeral.spanSign t
  let (digits, rest) := Numeral.spanDigits t
  if digits.isEmpty then none
  else
    let e := Numeral.natValue digits
    if e < Nat.pow 2 31 then
      (ofParts? negative n (if below then exponent - e else exponent + e)).map (·, rest)
    else if n ≠ 0 && !below then none
    else some (real (if negative then -0.0 else 0.0), rest)

/-- What may follow the whole digits of a number: a fraction, an exponent, both or neither. `n` is
made of the digits that fit, `more` are the others. -/
def withFraction? (negative : Bool) (n : Nat) (more : Text) (t : Text) : Option (Json × Text) :=
  match t with
  | '.' :: t =>
    let (digits, rest) := Numeral.spanDigits t
    let (m, unused) := addDigits n digits
    let exponent : Int := (more.length : Int) - (digits.length - unused.length : Int)
    if digits.isEmpty then none
    else
      match rest with
      | 'e' :: rest | 'E' :: rest => withExponent? negative m exponent rest
      | _ => (ofParts? negative m exponent).map (·, rest)
  | 'e' :: t | 'E' :: t => withExponent? negative n more.length t
  | _ =>
    if !more.isEmpty then (ofParts? negative n more.length).map (·, t)
    else if !negative then some (whole n, t)
    else if n = 0 || Nat.pow 2 63 < n then (ofParts? negative n 0).map (·, t)
    else some (whole (-n), t)

/-- A number behind its sign. A zero is not followed by a digit. -/
def number? (negative : Bool) (t : Text) : Option (Json × Text) :=
  let (digits, rest) := Numeral.spanDigits t
  if digits.isEmpty || (digits.head? = some '0' && 1 < digits.length) then none
  else
    let (n, more) := addDigits 0 digits
    withFraction? negative n more rest

/-! ## Strings -/

/-- The number that four hexadecimal digits write. -/
def hex4? : Text → Option (Nat × Text)
  | a :: b :: c :: d :: t => (toNat? 16 [a, b, c, d]).map (·, t)
  | _ => none

/-- The character of an escape in front of a text, behind `\u`. Two surrogates make one character;
one alone makes none. -/
def unicode? (t : Text) : Option (Char × Text) := do
  let (n, t) ← hex4? t
  if 0xD800 ≤ n && n < 0xDC00 then
    match t with
    | '\\' :: 'u' :: t =>
      let (m, t) ← hex4? t
      if 0xDC00 ≤ m && m < 0xE000 then
        return (Char.ofNat (0x10000 + (n - 0xD800) * 0x400 + (m - 0xDC00)), t)
      else none
    | _ => none
  else if 0xDC00 ≤ n && n < 0xE000 then none
  else return (Char.ofNat n, t)

/-- The character of a short escape. -/
def shortEscape? : Char → Option Char
  | '"' => some '"'
  | '\\' => some '\\'
  | '/' => some '/'
  | 'b' => some '\x08'
  | 'f' => some '\x0c'
  | 'n' => some '\n'
  | 'r' => some '\r'
  | 't' => some '\t'
  | _ => none

/-- The contents of a string up to its closing quote. The first argument bounds the number of
characters. -/
def stringBody? : Nat → Text → Option (Text × Text)
  | 0, _ => none
  | _ + 1, [] => none
  | fuel + 1, c :: t =>
    if c = '"' then some ([], t)
    else if c = '\\' then
      match t with
      | 'u' :: t => do
        let (c, t) ← unicode? t
        let (s, t) ← stringBody? fuel t
        return (c :: s, t)
      | e :: t => do
        let c ← shortEscape? e
        let (s, t) ← stringBody? fuel t
        return (c :: s, t)
      | [] => none
    else if c.toNat < 0x20 then none
    else (stringBody? fuel t).map fun (s, t) => (c :: s, t)

/-! ## Values -/

mutual

/-- A value at the start of a text, inside of which `depth - 1` levels may be opened. The first
argument bounds the length of the text. -/
def value? : Nat → Nat → Text → Option (Json × Text)
  | 0, _, _ => none
  | fuel + 1, depth, t =>
    match skipBlanks t with
    | 'n' :: 'u' :: 'l' :: 'l' :: t => some (null, t)
    | 't' :: 'r' :: 'u' :: 'e' :: t => some (bool true, t)
    | 'f' :: 'a' :: 'l' :: 's' :: 'e' :: t => some (bool false, t)
    | '-' :: t => number? true t
    | '"' :: t => (stringBody? (t.length + 1) t).map fun (s, t) => (string s, t)
    | '[' :: t =>
      if depth ≤ 1 then none
      else
        match skipBlanks t with
        | ']' :: t => some (array [], t)
        | t => (items? fuel (depth - 1) t).map fun (vs, t) => (array vs, t)
    | '{' :: t =>
      if depth ≤ 1 then none
      else
        match skipBlanks t with
        | '}' :: t => some (object [], t)
        | t => (fields? fuel (depth - 1) t).map fun (fs, t) => (object fs, t)
    | t => number? false t

/-- The items of an array up to its closing bracket. -/
def items? : Nat → Nat → Text → Option (List Json × Text)
  | 0, _, _ => none
  | fuel + 1, depth, t => do
    let (v, t) ← value? fuel depth t
    match skipBlanks t with
    | ',' :: t =>
      let (vs, t) ← items? fuel depth t
      return (v :: vs, t)
    | ']' :: t => return ([v], t)
    | _ => none

/-- The fields of an object up to its closing brace. -/
def fields? : Nat → Nat → Text → Option (List (Text × Json) × Text)
  | 0, _, _ => none
  | fuel + 1, depth, t => do
    let '"' :: t := skipBlanks t | none
    let (name, t) ← stringBody? (t.length + 1) t
    let ':' :: t := skipBlanks t | none
    let (v, t) ← value? fuel depth t
    match skipBlanks t with
    | ',' :: t =>
      let (fs, t) ← fields? fuel depth t
      return ((name, v) :: fs, t)
    | '}' :: t => return ([(name, v)], t)
    | _ => none

end

/-- How many levels a text may open, and one more. -/
def maxDepth : Nat := 128

/-- The value that a text writes, with the fields of objects in their order and all of them. Every
step of the reader takes a character, or is followed by one that does. -/
def read? (t : Text) : Option Json :=
  match value? (2 * t.length + 2) maxDepth t with
  | some (v, rest) => if (skipBlanks rest).isEmpty then some v else none
  | none => none

/-- The value that a text writes. -/
def parse? (t : Text) : Option Json := (read? t).map ordered

end PixelScale.Json
