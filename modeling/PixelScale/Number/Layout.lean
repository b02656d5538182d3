import PixelScale.Text
import PixelScale.Number.Shortest

/-!
# Writing doubles

A double is written with the digits of its shortest decimal, either in positions around a point
or with an exponent. A layout says which of the two is used and how they look. Two layouts are in
use: `Layout.inText` in converted text and in messages, and `Layout.inRecord` in option records.

* `Layout.write`: the text of a double.
-/

namespace PixelScale

open Shortest (Tie Decimal)

/-- How doubles are written. -/
structure Layout where
  /-- which of two equally near decimals is taken -/
  tie : Tie
  /-- the exponents of the first digit that are written without an exponent, if not all are -/
  positional : Option (Int × Int)
  /-- whether a whole number ends in a point and a zero -/
  pointZero : Bool
  /-- the texts of NaN, infinity and negative infinity -/
  nan : Text
  infinity : Text
  negativeInfinity : Text

namespace Layout

/-- Converted text never has an exponent: it would run into the unit. -/
def inText : Layout := ⟨.up, none, false, "NaN".toList, "inf".toList, "-inf".toList⟩

/-- Option records keep a point in every number and write exponents below `0.00001` and from
`1e+16` on. They have no notation for NaN and infinities. -/
def inRecord : Layout :=
  ⟨.toEven, some (-5, 15), true, "null".toList, "null".toList, "null".toList⟩

/-- Digits around a point that stands behind the first `point` digits. -/
def place (pointZero : Bool) (digits : Text) (point : Int) : Text :=
  if point ≤ 0 then '0' :: '.' :: List.replicate (-point).toNat '0' ++ digits
  else if digits.length ≤ point then
    digits ++ List.replicate (point.toNat - digits.length) '0' ++
      if pointZero then ['.', '0'] else []
  else digits.take point.toNat ++ '.' :: digits.drop point.toNat

/-- One digit in front of the point, and an exponent with its sign. -/
def scientific (digits : Text) (exponent : Int) : Text :=
  let mantissa := match digits with
    | [] => []
    | [d] => [d]
    | d :: ds => d :: '.' :: ds
  mantissa ++ 'e' :: (if exponent < 0 then '-' else '+') :: Text.ofNat exponent.natAbs

/-- The text of a decimal. -/
def writeDecimal (layout : Layout) (d : Decimal) : Text :=
  let digits := Text.ofNat d.coefficient
  let first : Int := digits.length - 1 + d.exponent
  match layout.positional with
  | some (least, greatest) =>
    if least ≤ first && first ≤ greatest then place layout.pointZero digits (first + 1)
    else scientific digits first
  | none => place layout.pointZero digits (first + 1)

/-- A minus sign in front of a negative number. -/
def signed (negative : Bool) (t : Text) : Text := if negative then '-' :: t else t

/-- The text of a double. -/
def write (layout : Layout) (x : Float) : Text :=
  match Double.parts x with
  | .nan => layout.nan
  | .infinite negative => if negative then layout.negativeInfinity else layout.infinity
  | .finite negative steps exponent =>
    signed negative <|
      if steps = 0 then place layout.pointZero ['0'] 1
      else layout.writeDecimal (Shortest.digits layout.tie steps exponent)

end Layout

end PixelScale
