import PixelScale.MatchRule
import PixelScale.Pixel.Conversion
import PixelScale.Text.Blank

/-!
# Options

The options that are in force for one stylesheet, their defaults, and the ranges of their values.
A hook can put a conversion of its own in place of the built-in one; it is asked once, with the
options in force, and may decline.

* `Options.problems`: what is wrong with the values.
* `Settings.converter`: the converter that options and hook ask for.
-/

namespace PixelScale

structure Options where
  /-- written behind converted numbers -/
  unit : Text := "rem".toList
  /-- pixels per unit -/
  rootValue : Float := 16
  /-- decimals kept -/
  unitPrecision : Nat := 5
  /-- rules whose selector matches are left alone -/
  selectorBlackList : List MatchRule := []
  /-- which properties are converted -/
  propList : List Text := ["font", "font-size", "line-height", "letter-spacing"].map String.toList
  /-- whether a value is replaced; otherwise a converted copy follows it -/
  replace : Bool := true
  /-- whether the parameters of media queries are converted -/
  mediaQuery : Bool := false
  /-- lengths below it are kept -/
  minPixelValue : Float := 0
  /-- files whose path matches are left alone -/
  excludeFiles : List MatchRule := []

namespace Options

/-- A value out of its range. -/
inductive Problem where
  | rootValue (x : Float)
  | unitPrecision (n : Nat)
  | minPixelValue (x : Float)
  | unit

def Problem.message : Problem → Text
  | rootValue x => "rootValue must be a positive number, got ".toList ++ Layout.inText.write x
  | unitPrecision n =>
    "unitPrecision must be at most ".toList ++ Text.ofNat maxPrecision ++ ", got ".toList ++
      Text.ofNat n
  | minPixelValue x => "minPixelValue must be a finite number, got ".toList ++ Layout.inText.write x
  | unit => "unit must not be empty".toList

/-- The values out of their range. -/
def problems (o : Options) : List Problem :=
  (if o.rootValue.isFinite && 0 < o.rootValue then [] else [.rootValue o.rootValue]) ++
  (if o.unitPrecision ≤ maxPrecision then [] else [.unitPrecision o.unitPrecision]) ++
  (if o.minPixelValue.isFinite then [] else [.minPixelValue o.minPixelValue]) ++
  (if (Text.trimBlank o.unit).isEmpty then [.unit] else [])

/-- Whether a file is left alone. -/
def excludes (o : Options) (path : Text) : Bool := MatchRule.anyMatches o.excludeFiles path

end Options

/-- A conversion of its own for the options in force, or none. -/
abbrev Hook := Options → Option (Float → Text)

/-- Options with the hook that comes with them. -/
structure Settings where
  options : Options
  hook : Option Hook := none

/-- The converter that options and hook ask for. -/
def Settings.converter (s : Settings) : Pixel.Converter :=
  match s.hook.bind fun h => h s.options with
  | some write => .custom write
  | none =>
    .builtin s.options.rootValue s.options.unitPrecision s.options.minPixelValue s.options.unit

end PixelScale
