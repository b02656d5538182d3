/-!
# Doubles as exact numbers

A finite double is a whole number of steps, each step a power of two. Taking a double apart into
these two numbers makes its value available to exact arithmetic on natural numbers, and the
functions of this library that round or print a double are defined through it.

* `Double.parts`: sign, number of steps and exponent of the step.
* `Double.floor`: the greatest whole number that is not above a double.
-/

namespace PixelScale.Double

/-- What a double stands for: `finite negative steps exponent` is `± steps * 2 ^ exponent`. -/
inductive Parts where
  | nan
  | infinite (negative : Bool)
  | finite (negative : Bool) (steps : Nat) (exponent : Int)
deriving DecidableEq, Repr

/-- The parts of a double. A number below the normal range has the smallest exponent. -/
def parts (x : Float) : Parts :=
  let bits := x.toBits.toNat
  let negative := decide (Nat.pow 2 63 ≤ bits)
  let exponent : Nat := bits / Nat.pow 2 52 % Nat.pow 2 11
  let fraction : Nat := bits % Nat.pow 2 52
  if exponent = Nat.pow 2 11 - 1 then
    if fraction = 0 then .infinite negative else .nan
  else if exponent = 0 then .finite negative fraction (-1074)
  else .finite negative (Nat.pow 2 52 + fraction) (exponent - 1075)

/-- A natural number up to `2 ^ 53` with a sign. -/
def ofWhole (negative : Bool) (n : Nat) : Float :=
  if negative then -(UInt64.ofNat n).toFloat else (UInt64.ofNat n).toFloat

/-- The greatest whole number that is not above `x`; infinities and NaN stay as they are. A step
of at least one makes the number whole already. -/
def floor (x : Float) : Float :=
  match parts x with
  | .finite negative steps exponent =>
    if 0 ≤ exponent then x
    else
      let step := Nat.pow 2 (-exponent).toNat
      if negative then ofWhole true ((steps + step - 1) / step) else ofWhole false (steps / step)
  | _ => x

/-- The power of ten with the given exponent, exact up to the twenty-second. -/
def powerOfTen (n : Nat) : Float := Float.ofScientific 1 false n

end PixelScale.Double
