import PixelScale.Number.Numeral
import PixelScale.Toml.Moment
import PixelScale.Toml.Table

/-!
# Reading TOML

A document is read line by line: keys with values, and headers. Arrays may go over several lines,
tables in braces may not. Whole numbers fit into 64 bits, and a moment becomes an object with one
field that holds its text.

* `Toml.read?`: the table that a document writes, as JSON.
-/

namespace PixelScale.Toml

open Text

/-! ## Blanks, comments and line ends -/

def isSpace (c : Char) : Bool := c == ' ' || c == '\t'

def skipSpace (t : Text) : Text := t.dropWhile isSpace

/-- Whether a character may stand in a comment. -/
def isPrintable (c : Char) : Bool := c == '\t' || (0x20 ≤ c.toNat && c.toNat ≠ 0x7F)

/-- A text without the comment at its start, if there is one. -/
def skipComment : Text → Text
  | '#' :: t => t.dropWhile isPrintable
  | t => t

/-- What follows a line end. -/
def newLine? : Text → Option Text
  | '\n' :: t => some t
  | '\r' :: '\n' :: t => some t
  | _ => none

/-- What follows the end of a line, which may have a comment. The last line need not end. -/
def lineEnd? (t : Text) : Option Text :=
  match skipComment (skipSpace t) with
  | [] => some []
  | t => newLine? t

/-- A text without the blanks, comments and line ends at its start. The first argument bounds the
number of steps. -/
def skipLines : Nat → Text → Text
  | 0, t => t
  | fuel + 1, t =>
    match skipComment (skipSpace t) with
    | '\n' :: t => skipLines fuel t
    | '\r' :: '\n' :: t => skipLines fuel t
    | t => t

/-! ## Strings -/

/-- The character with the code point that digits write. -/
def codePoint? (digits : Text) : Option Char := do
  let n ← toNat? 16 digits
  if n < 0xD800 ∨ (0xE000 ≤ n ∧ n < 0x110000) then return Char.ofNat n else none

/-- The character of an escape, behind its backslash. -/
def escape? : Text → Option (Char × Text)
  | 'b' :: t => some ('\x08', t)
  | 't' :: t => some ('\t', t)
  | 'n' :: t => some ('\n', t)
  | 'f' :: t => some ('\x0c', t)
  | 'r' :: t => some ('\r', t)
  | '"' :: t => some ('"', t)
  | '\\' :: t => some ('\\', t)
  | 'u' :: t =>
    if 4 ≤ t.length then (codePoint? (t.take 4)).map (·, t.drop 4) else none
  | 'U' :: t =>
    if 8 ≤ t.length then (codePoint? (t.take 8)).map (·, t.drop 8) else none
  | _ => none

/-- The contents of a string on one line up to its closing quote. The first argument bounds the
number of characters. -/
def lineString? (quote : Char) : Nat → Text → Option (Text × Text)
  | 0, _ => none
  | _ + 1, [] => none
  | fuel + 1, c :: t =>
    if c = quote then some ([], t)
    else if c = '\\' ∧ quote = '"' then do
      let (c, t) ← escape? t
      let (s, t) ← lineString? quote fuel t
      return (c :: s, t)
    else if isPrintable c then (lineString? quote fuel t).map fun (s, t) => (c :: s, t)
    else none

/-- A text without the blanks and line ends at its start. -/
def skipBlankLines : Text → Text
  | '\r' :: '\n' :: t => skipBlankLines t
  | c :: t => if isSpace c || c == '\n' then skipBlankLines t else c :: t
  | [] => []

/-- What follows a backslash that hides a line end with all blanks and line ends behind it. -/
def hiddenLines? (t : Text) : Option Text := (newLine? (skipSpace t)).map skipBlankLines

/-- The contents of a string on several lines up to its three closing quotes, in front of which two
more may stand. The first argument bounds the number of characters. -/
def linesString? (quote : Char) : Nat → Text → Option (Text × Text)
  | 0, _ => none
  | _ + 1, [] => none
  | fuel + 1, c :: t =>
    if c = quote then
      let quotes := (c :: t).takeWhile (· == quote)
      if quotes.length < 3 then (linesString? quote fuel t).map fun (s, t) => (c :: s, t)
      else
        let inside := min (quotes.length - 3) 2
        some (List.replicate inside quote, (c :: t).drop (inside + 3))
    else if c = '\\' ∧ quote = '"' then
      match hiddenLines? t with
      | some t => linesString? quote fuel t
      | none => do
        let (c, t) ← escape? t
        let (s, t) ← linesString? quote fuel t
        return (c :: s, t)
    else if isPrintable c then (linesString? quote fuel t).map fun (s, t) => (c :: s, t)
    else
      match newLine? (c :: t) with
      | some t => (linesString? quote fuel t).map fun (s, t) => ('\n' :: s, t)
      | none => none

/-- A string in quotes, of any of the four kinds. A line end behind three quotes is no part of it. -/
def string? (t : Text) : Option (Text × Text) :=
  match t with
  | '"' :: '"' :: '"' :: t => linesString? '"' (t.length + 1) ((newLine? t).getD t)
  | '\'' :: '\'' :: '\'' :: t => linesString? '\'' (t.length + 1) ((newLine? t).getD t)
  | '"' :: t => lineString? '"' (t.length + 1) t
  | '\'' :: t => lineString? '\'' (t.length + 1) t
  | _ => none

/-! ## Keys -/

def isBare (c : Char) : Bool := c.isAlphanum || c == '-' || c == '_'

/-- One part of a key. -/
def simpleKey? (t : Text) : Option (Text × Text) :=
  match t with
  | '"' :: t => lineString? '"' (t.length + 1) t
  | '\'' :: t => lineString? '\'' (t.length + 1) t
  | t =>
    let name := t.takeWhile isBare
    if name.isEmpty then none else some (name, t.dropWhile isBare)

/-- How deep keys and values nest, and one more. -/
def depthLimit : Nat := 80

/-- A key, with the tables that it goes through in front of its last part. -/
def dotted? : Nat → Text → Option (Keys × Text × Text)
  | 0, _ => none
  | fuel + 1, t => do
    let (name, t) ← simpleKey? (skipSpace t)
    match skipSpace t with
    | '.' :: t =>
      let (path, key, t) ← dotted? fuel t
      return (name :: path, key, t)
    | t => return ([], name, t)

/-- A key whose parts are fewer than the limit. -/
def key? (t : Text) : Option (Keys × Text × Text) := dotted? (depthLimit - 1) t

/-! ## Numbers -/

/-- Digits of a class with single underscores between them, and what follows. The underscores are
left out. -/
def spanDigits (p : Char → Bool) : Text → Text × Text
  | [] => ([], [])
  | c :: t =>
    if p c then
      match t with
      | '_' :: d :: r =>
        if p d then
          let (s, t) := spanDigits p (d :: r)
          (c :: s, t)
        else ([c], t)
      | t =>
        let (s, t) := spanDigits p t
        (c :: s, t)
    else ([], c :: t)

def spanSign : Text → Text × Text
  | '+' :: t => (['+'], t)
  | '-' :: t => (['-'], t)
  | t => ([], t)

/-- Decimal digits that do not start with a zero, or a single zero. -/
def spanWhole (t : Text) : Text × Text :=
  match t with
  | '0' :: t => (['0'], t)
  | t => spanDigits Char.isDigit t

/-- An exponent at the start of a text, if there is one. -/
def exponent? : Text → Option (Text × Text)
  | e :: t =>
    if e = 'e' || e = 'E' then
      let (sign, t) := spanSign t
      let (digits, t) := spanDigits Char.isDigit t
      if digits.isEmpty then none else some (e :: sign ++ digits, t)
    else none
  | [] => none

/-- What makes a number a double, behind its whole part. -/
def fraction? (t : Text) : Option (Text × Text) :=
  match t with
  | '.' :: t =>
    let (digits, t) := spanDigits Char.isDigit t
    if digits.isEmpty then none
    else
      match exponent? t with
      | some (e, t) => some ('.' :: digits ++ e, t)
      | none => some ('.' :: digits, t)
  | t => exponent? t

/-- A whole number in another base, behind the mark of the base. -/
def based? (base : Nat) (t : Text) : Option (Json × Text) := do
  let (digits, t) := spanDigits (fun c => (hexValue? c).any (· < base)) t
  return (← Json.bounded? false (← toNat? base digits), t)

/-- A double; one beyond the greatest double is none, one below the least is infinite. -/
def double? (t : Text) : Option Json := do
  let x ← Numeral.toFloat? t
  if x == 1.0 / 0.0 then none else return .real x

/-- A decimal number, or one of the two names. -/
def decimal? (t : Text) : Option (Json × Text) :=
  let (sign, t) := spanSign t
  match t with
  | 'i' :: 'n' :: 'f' :: t =>
    some (.real (if sign == ['-'] then -(1.0 / 0.0) else 1.0 / 0.0), t)
  | 'n' :: 'a' :: 'n' :: t => some (.real (0.0 / 0.0), t)
  | t => do
    let (digits, t) := spanWhole t
    match fraction? t with
    | some (fraction, t) =>
      if digits.isEmpty then none else return (← double? (sign ++ digits ++ fraction), t)
    | none => return (← Json.bounded? (sign == ['-']) (← toNat? 10 digits), t)

/-- A moment as JSON. -/
def ofMoment (m : Moment) : Json :=
  .object [("$__toml_private_datetime".toList, .string m.write)]

/-- A number or a moment. -/
def number? (t : Text) : Option (Json × Text) :=
  match Moment.read? t with
  | some (m, t) => some (ofMoment m, t)
  | none =>
    match t with
    | '0' :: 'x' :: t => based? 16 t
    | '0' :: 'o' :: t => based? 8 t
    | '0' :: 'b' :: t => based? 2 t
    | t => decimal? t

/-! ## Values -/

mutual

/-- A value at the start of a text, which may open fewer than `depth` levels. The first argument
bounds the length of the text. -/
def value? : Nat → Nat → Text → Option (Json × Text)
  | 0, _, _ => none
  | fuel + 1, depth, t =>
    match t with
    | 't' :: 'r' :: 'u' :: 'e' :: t => some (.bool true, t)
    | 'f' :: 'a' :: 'l' :: 's' :: 'e' :: t => some (.bool false, t)
    | '"' :: _ | '\'' :: _ => (string? t).map fun (s, t) => (.string s, t)
    | '[' :: t =>
      if depth ≤ 1 then none
      else (items? fuel (depth - 1) t).map fun (vs, t) => (.array vs, t)
    | '{' :: t =>
      if depth ≤ 1 then none
      else
        match skipSpace t with
        | '}' :: t => some (.object [], t)
        | t => (pairs? fuel (depth - 1) [] t).map fun (u, t) => (u.toJson, t)
    | t => number? t

/-- The items of an array up to its closing bracket. -/
def items? : Nat → Nat → Text → Option (List Json × Text)
  | 0, _, _ => none
  | fuel + 1, depth, t =>
    match skipLines (t.length + 1) t with
    | ']' :: t => some ([], t)
    | t => do
      let (v, t) ← value? fuel depth t
      match skipLines (t.length + 1) t with
      | ',' :: t =>
        let (vs, t) ← items? fuel depth t
        return (v :: vs, t)
      | ']' :: t => return ([v], t)
      | _ => none

/-- The entries of a table in braces up to its closing brace, added to those in front. -/
def pairs? : Nat → Nat → Table → Text → Option (Table × Text)
  | 0, _, _, _ => none
  | fuel + 1, depth, u, t => do
    let (path, key, t) ← key? t
    let '=' :: t := t | none
    let (v, t) ← value? fuel depth (skipSpace t)
    let u ← u.insert? path key v
    match skipSpace t with
    | ',' :: t => pairs? fuel depth u t
    | '}' :: t => return (u, t)
    | _ => none

end

/-! ## Documents -/

/-- What is read of a document: its table, and the keys of the header in force. -/
structure State where
  table : Table
  header : Keys

/-- The effect of a header. -/
def State.open? (s : State) (next : Bool) (path : Keys) (key : Text) : Option State := do
  let table ← if next then s.table.openNext? path key else s.table.open? path key
  return ⟨table, path ++ [key]⟩

/-- The effect of the line at the start of a text, and what follows it. -/
def line? (s : State) (t : Text) : Option (State × Text) :=
  match skipSpace t with
  | [] => some (s, [])
  | '#' :: t => do return (s, ← lineEnd? ('#' :: t))
  | '\n' :: t => some (s, t)
  | '\r' :: '\n' :: t => some (s, t)
  | '[' :: '[' :: t => do
    let (path, key, t) ← key? t
    let ']' :: ']' :: t := t | none
    return (← s.open? true path key, ← lineEnd? t)
  | '[' :: t => do
    let (path, key, t) ← key? t
    let ']' :: t := t | none
    return (← s.open? false path key, ← lineEnd? t)
  | t => do
    let (path, key, t) ← key? t
    let '=' :: t := t | none
    let (v, t) ← value? (2 * t.length + 2) depthLimit (skipSpace t)
    return (⟨← s.table.change? (Table.insert? path key v) s.header, s.header⟩, ← lineEnd? t)

/-- The table that the lines of a text build up. The first argument bounds their number. -/
def lines? : Nat → State → Text → Option Table
  | _, s, [] => some s.table
  | 0, _, _ => none
  | fuel + 1, s, t => do
    let (s, t) ← line? s t
    lines? fuel s t

/-- The table that a document writes. A byte order mark in front of it is skipped. -/
def read? (t : Text) : Option Json :=
  let t := match t with
    | '\uFEFF' :: t => t
    | t => t
  (lines? (t.length + 1) ⟨[], []⟩ t).map Table.toJson

end PixelScale.Toml
