import PixelScale.Text
import PixelScale.Text.Digit

/-!
# Reading decimal numerals

A numeral has an optional sign, ASCII digits with at most one point among, before or behind them,
and an optional exponent; `inf`, `infinity` and `nan` are numerals too, in any case. The value is
the double nearest to the decimal.

* `Numeral.toFloat?`: the value of a numeral.
* `Numeral.ofDecimal`: the double nearest to `± coefficient * 10 ^ exponent`.
-/

namespace PixelScale.Numeral

/-- The ASCII digits at the start of a text, and what follows them. -/
def spanDigits (t : Text) : Text × Text := t.span Char.isDigit

/-- The number that ASCII digits write. -/
def natValue (digits : Text) : Nat := Text.ofDigits 10 (digits.map fun c => c.toNat - '0'.toNat)

/-- The double nearest to `coefficient * 10 ^ exponent`. A number of at least `10 ^ 310` is beyond all
doubles, and one below `10 ^ (-330)` is nearer to zero than to any other double. -/
def nearest (coefficient : Nat) (exponent : Int) : Float :=
  let magnitude := (Nat.toDigits 10 coefficient).length + exponent
  if coefficient = 0 ∨ magnitude < -330 then 0
  else if 310 < magnitude then 1.0 / 0.0
  else Float.ofScientific coefficient (decide (exponent < 0)) exponent.natAbs

/-- The double nearest to `± coefficient * 10 ^ exponent`. -/
def ofDecimal (negative : Bool) (coefficient : Nat) (exponent : Int) : Float :=
  let x := nearest coefficient exponent
  if negative then -x else x

/-- A sign at the start of a text, and what follows it; no sign counts as plus. -/
def spanSign : Text → Bool × Text
  | '-' :: t => (true, t)
  | '+' :: t => (false, t)
  | t => (false, t)

/-- The exponent that a text writes, which is zero if the text is empty. -/
def exponent? : Text → Option Int
  | [] => some 0
  | c :: t =>
    if c = 'e' || c = 'E' then
      let (negative, t) := spanSign t
      let (digits, rest) := spanDigits t
      if digits.isEmpty || !rest.isEmpty then none
      else some (if negative then -(natValue digits : Int) else natValue digits)
    else none

/-- The value of a numeral without a sign. -/
def unsigned? (negative : Bool) (t : Text) : Option Float :=
  let (whole, rest) := spanDigits t
  let (fraction, rest) := match rest with
    | '.' :: r => spanDigits r
    | r => ([], r)
  if whole.isEmpty && fraction.isEmpty then none
  else (exponent? rest).map fun e =>
    ofDecimal negative (natValue (whole ++ fraction)) (e - fraction.length)

/-- The value of a numeral. -/
def toFloat? (t : Text) : Option Float :=
  let (negative, t) := spanSign t
  let name := Text.lowerAscii t
  if name = "inf".toList || name = "infinity".toList then
    some (if negative then -(1.0 / 0.0) else 1.0 / 0.0)
  else if name = "nan".toList then some (0.0 / 0.0)
  else unsigned? negative t

end PixelScale.Numeral
