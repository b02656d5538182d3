import PixelScale.Number.Double

/-!
# Rounding to a number of decimals

A number is first cut off one decimal behind the last one that is kept, and that decimal is then
rounded half up. Cutting first keeps a quotient such as `0.9375` apart from its neighbours; halves
go towards positive infinity for both signs.

The rule is written once for every kind of number that has the four operations of `Scale`, and
used for doubles.

* `Scale.toFixed`: the rule.
* `Double.toFixed`: the rule for doubles, with at most twenty decimals.
-/

namespace PixelScale

/-- The most decimals that are kept. A double has no more to give. -/
def maxPrecision : Nat := 20

/-- A kind of number with what the rounding rule needs. -/
class Scale (α : Type) extends Add α, Mul α, Div α where
  floor : α → α
  half : α
  powerOfTen : Nat → α

namespace Scale

variable {α : Type} [Scale α]

/-- The nearest whole number, halves going up. -/
def roundHalfUp (x : α) : α := floor (x + half)

/-- `x` with the given number of decimals. -/
def toFixed (x : α) (precision : Nat) : α :=
  let unit := powerOfTen (min precision maxPrecision + 1)
  roundHalfUp (floor (x * unit) / powerOfTen 1) * powerOfTen 1 / unit

end Scale

instance : Scale Float where
  floor := Double.floor
  half := 0.5
  powerOfTen := Double.powerOfTen

/-- A double with the given number of decimals. -/
def Double.toFixed (x : Float) (precision : Nat) : Float := Scale.toFixed x precision

end PixelScale
