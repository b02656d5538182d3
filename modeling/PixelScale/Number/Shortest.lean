import PixelScale.Number.Double

/-!
# Shortest decimals

Among the decimals that read back as a given double this module picks one with the fewest
digits, and of those the one nearest to the double. A decimal reads back as the double if it lies
between the two points halfway to the neighbouring doubles; the halfway points themselves read
back as the double if its number of steps is even.

Two decimals of the same length can be equally near. Formats differ on which of them they write,
so the choice is a parameter.

* `Shortest.digits`: the digits and the exponent of the chosen decimal.
-/

namespace PixelScale.Shortest

/-- Which of two equally near decimals is taken. -/
inductive Tie where
  /-- the one farther from zero -/
  | up
  /-- the one whose last digit is even -/
  | toEven
deriving DecidableEq, Repr

/-- A decimal `coefficient * 10 ^ exponent`. -/
structure Decimal where
  coefficient : Nat
  exponent : Int
deriving DecidableEq, Repr

/-- A positive number `value / scale` between the two numbers `low / scale` and `high / scale`
that are halfway to its neighbours; `closed` if these belong to the number as well. -/
structure Interval where
  low : Nat
  value : Nat
  high : Nat
  scale : Nat
  closed : Bool
deriving Repr

namespace Interval

/-- The numbers that read back as `steps * 2 ^ exponent`. The neighbour below is only half as far
away if the number is the first one with its exponent. -/
def ofParts (steps : Nat) (exponent : Int) : Interval :=
  let unit := Nat.pow 2 exponent.toNat
  { low := (4 * steps - if steps = Nat.pow 2 52 ∧ -1074 < exponent then 1 else 2) * unit
    value := 4 * steps * unit
    high := (4 * steps + 2) * unit
    scale := 4 * Nat.pow 2 (-exponent).toNat
    closed := steps % 2 = 0 }

/-- `i.has c num den` holds if the decimal `c * num / den` reads back as the number. -/
def has (i : Interval) (c num den : Nat) : Bool :=
  let x := c * num * i.scale
  if i.closed then i.low * den ≤ x && x ≤ i.high * den else i.low * den < x && x < i.high * den

/-- The multiple of `num / den` that reads back as the number and is nearest to it, if any
multiple does. -/
def nearest? (tie : Tie) (i : Interval) (num den : Nat) : Option Nat :=
  let below := i.value * den / (i.scale * num)
  let above := below + 1
  let toBelow := i.value * den - below * num * i.scale
  let toAbove := above * num * i.scale - i.value * den
  if i.has below num den then
    if i.has above num den then
      if toBelow < toAbove then some below
      else if toAbove < toBelow then some above
      else
        match tie with
        | .up => some above
        | .toEven => some (if below % 2 = 0 then below else above)
    else some below
  else if i.has above num den then some above
  else none

/-- The number of digits in front of the point, zero or below if there are none: `value / scale`
lies in `[10 ^ (n - 1), 10 ^ n)`. -/
def magnitude (i : Interval) : Int :=
  let whole := i.value / i.scale
  if 0 < whole then (Nat.toDigits 10 whole).length
  else
    let inverse := i.scale / i.value
    let n := (Nat.toDigits 10 inverse).length
    if i.scale = Nat.pow 10 (n - 1) * i.value then 2 - (n : Int) else 1 - (n : Int)

/-- The first number of digits, counting up from `17 - n`, with a decimal that reads back. -/
def search (tie : Tie) (i : Interval) : Nat → Option Decimal
  | 0 => none
  | n + 1 =>
    let exponent := i.magnitude - (17 - n : Int)
    match i.nearest? tie (Nat.pow 10 exponent.toNat) (Nat.pow 10 (-exponent).toNat) with
    | some c => some ⟨c, exponent⟩
    | none => search tie i n

end Interval

/-- A decimal without zeros at the end of its coefficient; `fuel` bounds their number. -/
def Decimal.stripped : Nat → Decimal → Decimal
  | 0, d => d
  | fuel + 1, d =>
    if d.coefficient ≠ 0 ∧ d.coefficient % 10 = 0 then
      stripped fuel ⟨d.coefficient / 10, d.exponent + 1⟩
    else d

/-- The shortest decimal that reads back as `steps * 2 ^ exponent`, a positive number. Seventeen
digits always suffice. -/
def digits (tie : Tie) (steps : Nat) (exponent : Int) : Decimal :=
  let i := Interval.ofParts steps exponent
  match i.search tie 17 with
  | some d => d.stripped 20
  | none => ⟨0, 0⟩

end PixelScale.Shortest
