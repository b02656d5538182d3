import PixelScale.Json.Parser
import PixelScale.Number.Numeral
import PixelScale.Text.Blank
import PixelScale.Unicode.Property

/-!
# Reading JSON5

JSON5 is JSON with comments, commas behind the last item, names as keys, single quotes, and more
forms of numbers. A number without a point and without an exponent is whole and must fit into 64
bits with its sign; a hexadecimal number has no sign and must fit into 32 bits.

* `Json5.read?`: the value that a text writes.
-/

namespace PixelScale.Json5

open Text Unicode

/-! ## Blanks and comments -/

def isLineEnd (c : Char) : Bool := c == '\n' || c == '\r' || c == '\u2028' || c == '\u2029'

/-- White space in JSON5: that of Unicode but the next-line character, and the byte order mark. -/
def isSpace (c : Char) : Bool := (isBlank c && c != '\u0085') || c == '\uFEFF'

/-- What follows the end of a comment between stars. -/
def behindComment? : Text → Option Text
  | '*' :: '/' :: t => some t
  | _ :: t => behindComment? t
  | [] => none

theorem length_behindComment? {t r : Text} (h : behindComment? t = some r) :
    r.length < t.length := by
  fun_induction behindComment? t with
  | case1 t => cases h; simp only [List.length_cons]; omega
  | case2 c t _ ih => exact Nat.lt_succ_of_lt (ih h)
  | case3 => cases h

/-- A text without the blanks and comments at its start. An unclosed comment is none. -/
def skipSpace (t : Text) : Text :=
  match t with
  | '/' :: '*' :: r =>
    match h : behindComment? r with
    | some s =>
      have : s.length < r.length := length_behindComment? h
      skipSpace s
    | none => t
  | '/' :: '/' :: r =>
    have := (List.dropWhile_sublist (fun c => !isLineEnd c) (l := r)).length_le
    skipSpace (r.dropWhile fun c => !isLineEnd c)
  | c :: r => if isSpace c then skipSpace r else t
  | [] => []
termination_by t.length
decreasing_by all_goals simp only [List.length_cons]; omega

/-! ## Strings and names -/

/-- The character of an escape of a single character other than a digit, `x` and `u`. -/
def shortEscape (c : Char) : Char :=
  match c with
  | 'b' => '\x08'
  | 'f' => '\x0c'
  | 'n' => '\n'
  | 'r' => '\r'
  | 't' => '\t'
  | 'v' => '\x0b'
  | c => c

/-- The text of an escape behind its backslash, which is empty for an escaped line end. -/
def escape? : Text → Option (Text × Text)
  | '\r' :: '\n' :: t => some ([], t)
  | 'u' :: t => (Json.unicode? t).map fun (c, t) => ([c], t)
  | 'x' :: a :: b :: t => (toNat? 16 [a, b]).map fun n => ([Char.ofNat n], t)
  | '0' :: t => some (['\x00'], t)
  | c :: t =>
    if isLineEnd c then some ([], t)
    else if c.isDigit || c == 'x' then none
    else some ([shortEscape c], t)
  | [] => none

/-- The contents of a string up to the quote that closes it. The first argument bounds the number
of characters. -/
def stringBody? (quote : Char) : Nat → Text → Option (Text × Text)
  | 0, _ => none
  | _ + 1, [] => none
  | fuel + 1, c :: t =>
    if c = quote then some ([], t)
    else if c = '\\' then do
      let (e, t) ← escape? t
      let (s, t) ← stringBody? quote fuel t
      return (e ++ s, t)
    else if isLineEnd c then none
    else (stringBody? quote fuel t).map fun (s, t) => (c :: s, t)

/-- Letters and the two signs that a name may start with. -/
def startsName (c : Char) : Bool :=
  c.isAlpha || c == '$' || c == '_' ||
    (0x80 ≤ c.toNat && (Category.union (.letterNumber :: Category.letters)).has c)

/-- The further characters of a name: letters, marks, digits, connecting punctuation and joiners.
The marks are those that take no space and those that change a letter, two of them in ASCII. -/
def continuesName (c : Char) : Bool :=
  startsName c || c.isDigit || c == '^' || c == '\x60' ||
    (0x80 ≤ c.toNat && (Property.gather [.nonspacingMark, .decimalNumber, .connectorPunctuation]
      [.diacritic, .joinControl]).has c)

/-- A name; also an empty one. -/
def name (first : Bool) : Nat → Text → Option (Text × Text)
  | 0, _ => none
  | _ + 1, [] => some ([], [])
  | fuel + 1, c :: t =>
    if startsName c || (!first && continuesName c) then
      (name false fuel t).map fun (s, t) => (c :: s, t)
    else
      match c, t with
      | '\\', 'u' :: t => do
        let (c, t) ← Json.unicode? t
        let (s, t) ← name false fuel t
        return (c :: s, t)
      | _, _ => some ([], c :: t)

/-- The key of a field. -/
def key? (t : Text) : Option (Text × Text) :=
  match t with
  | '"' :: r => stringBody? '"' (r.length + 1) r
  | '\'' :: r => stringBody? '\'' (r.length + 1) r
  | _ => (name true (t.length + 1) t).filter fun (s, _) => !s.isEmpty

/-! ## Numbers -/

/-- An exponent at the start of a text, if there is one, and what follows. -/
def spanExponent (t : Text) : Text × Text :=
  match t with
  | e :: r =>
    if e = 'e' || e = 'E' then
      let (sign, r) := match r with
        | '+' :: r => (['+'], r)
        | '-' :: r => (['-'], r)
        | r => ([], r)
      let digits := r.takeWhile Char.isDigit
      if digits.isEmpty then ([], t) else (e :: sign ++ digits, r.dropWhile Char.isDigit)
    else ([], t)
  | [] => ([], [])

/-- A decimal number without a sign, and what follows. A zero is not followed by a digit. -/
def spanDecimal? (t : Text) : Option (Text × Text) :=
  let digits := t.takeWhile Char.isDigit
  let whole := if digits.head? = some '0' then ['0'] else digits
  match t.drop whole.length with
  | '.' :: r =>
    let fraction := r.takeWhile Char.isDigit
    if whole.isEmpty && fraction.isEmpty then none
    else
      let (e, r) := spanExponent (r.dropWhile Char.isDigit)
      some (whole ++ '.' :: fraction ++ e, r)
  | r =>
    if whole.isEmpty then none
    else
      let (e, r) := spanExponent r
      some (whole ++ e, r)

/-- A decimal number with a sign. -/
def decimal? (negative : Bool) (t : Text) : Option (Json × Text) := do
  let (s, rest) ← spanDecimal? t
  if s.all Char.isDigit then return (← Json.bounded? negative (← toNat? 10 s), rest)
  else
    let x ← Numeral.unsigned? negative s
    if x.isFinite then return (.real x, rest) else none

def number? : Text → Option (Json × Text)
  | '+' :: t => decimal? false t
  | '-' :: 'I' :: 'n' :: 'f' :: 'i' :: 'n' :: 'i' :: 't' :: 'y' :: t =>
    some (.real (-(1.0 / 0.0)), t)
  | '-' :: 'N' :: 'a' :: 'N' :: t => some (.real (0.0 / 0.0), t)
  | '-' :: t => decimal? true t
  | 'I' :: 'n' :: 'f' :: 'i' :: 'n' :: 'i' :: 't' :: 'y' :: t => some (.real (1.0 / 0.0), t)
  | 'N' :: 'a' :: 'N' :: t => some (.real (0.0 / 0.0), t)
  | '0' :: x :: t =>
    let digits := t.takeWhile fun c => (hexValue? c).isSome
    if (x = 'x' || x = 'X') && !digits.isEmpty then do
      let n ← toNat? 16 digits
      if n < Nat.pow 2 32 then some (.whole n, t.drop digits.length) else none
    else decimal? false ('0' :: x :: t)
  | t => decimal? false t

/-! ## Values -/

mutual

/-- A value at the start of a text. The first argument bounds the length of the text. -/
def value? : Nat → Text → Option (Json × Text)
  | 0, _ => none
  | fuel + 1, t =>
    match skipSpace t with
    | 'n' :: 'u' :: 'l' :: 'l' :: t => some (.null, t)
    | 't' :: 'r' :: 'u' :: 'e' :: t => some (.bool true, t)
    | 'f' :: 'a' :: 'l' :: 's' :: 'e' :: t => some (.bool false, t)
    | '"' :: t => (stringBody? '"' (t.length + 1) t).map fun (s, t) => (.string s, t)
    | '\'' :: t => (stringBody? '\'' (t.length + 1) t).map fun (s, t) => (.string s, t)
    | '[' :: t =>
      match skipSpace t with
      | ']' :: t => some (.array [], t)
      | t => (items? fuel t).map fun (vs, t) => (.array vs, t)
    | '{' :: t =>
      match skipSpace t with
      | '}' :: t => some (.object [], t)
      | t => (fields? fuel t).map fun (fs, t) => (.object fs, t)
    | t => number? t

/-- The items of an array up to its closing bracket. -/
def items? : Nat → Text → Option (List Json × Text)
  | 0, _ => none
  | fuel + 1, t => do
    let (v, t) ← value? fuel t
    match skipSpace t with
    | ',' :: t =>
      match skipSpace t with
      | ']' :: t => return ([v], t)
      | t =>
        let (vs, t) ← items? fuel t
        return (v :: vs, t)
    | ']' :: t => return ([v], t)
    | _ => none

/-- The fields of an object up to its closing brace. -/
def fields? : Nat → Text → Option (List (Text × Json) × Text)
  | 0, _ => none
  | fuel + 1, t => do
    let (name, t) ← key? (skipSpace t)
    let ':' :: t := skipSpace t | none
    let (v, t) ← value? fuel t
    match skipSpace t with
    | ',' :: t =>
      match skipSpace t with
      | '}' :: t => return ([(name, v)], t)
      | t =>
        let (fs, t) ← fields? fuel t
        return ((name, v) :: fs, t)
    | '}' :: t => return ([(name, v)], t)
    | _ => none

end

/-- The value that a text writes, with the fields of objects in their order and all of them. -/
def read? (t : Text) : Option Json :=
  match value? (2 * t.length + 2) t with
  | some (v, rest) => if (skipSpace rest).isEmpty then some v else none
  | none => none

end PixelScale.Json5
