import PixelScale.Pixel.Segment
import PixelScale.Number.Layout
import PixelScale.Number.Numeral
import PixelScale.Number.Rounding

/-!
# Converting pixel lengths

A converter replaces the pixel lengths of a text and keeps everything else. A length is replaced
if no ASCII letter touches it on either side, so that a part of an identifier stays as it is.

The built-in conversion divides by the root value, rounds, and writes the unit behind the number;
a result of zero loses its unit. A custom conversion writes what it likes.

* `Converter.replaceAll`: the text with its pixel lengths replaced.
* `Converter.value`: the same for a value, which is left alone if `px` does not occur in it.
-/

namespace PixelScale.Pixel

open Text

/-- What a pixel length becomes. -/
inductive Converter where
  | builtin (rootValue : Float) (unitPrecision : Nat) (minPixelValue : Float) (unit : Text)
  | custom (write : Float → Text)

namespace Converter

/-- The built-in conversion of a number of pixels, unless it is below the threshold. -/
def builtin? (rootValue : Float) (unitPrecision : Nat) (minPixelValue : Float) (unit : Text)
    (pixels : Float) : Option Text :=
  if pixels.abs < minPixelValue then none
  else
    let x := Double.toFixed (pixels / rootValue) unitPrecision
    if x == 0 then some ['0'] else some (Layout.inText.write x ++ unit)

/-- The text for a number of pixels; `none` if the length is kept. -/
def pixels? : Converter → Float → Option Text
  | .builtin rootValue unitPrecision minPixelValue unit, x =>
    builtin? rootValue unitPrecision minPixelValue unit x
  | .custom write, x => some (write x)

/-- The text for a pixel length. Numbers without a value are kept. -/
def literal (k : Converter) (number : Text) : Text :=
  ((Numeral.toFloat? number).bind k.pixels?).getD (number ++ Segment.pxSuffix)

/-- `touches c` holds if the character `c`, where there is one, is an ASCII letter. -/
def touches (c : Option Char) : Bool := c.any Char.isAlpha

/-- The converted text of a row of segments behind the character `last`. -/
def segments (k : Converter) (last : Option Char) : List Segment → Text
  | [] => []
  | s :: rest =>
    let next := rest.head?.bind fun s => s.text.head?
    let converted := match s with
      | .pixels number =>
        if touches last || touches next then s.text else k.literal number
      | s => s.text
    converted ++ segments k s.text.getLast? rest

/-- The text with its pixel lengths replaced. -/
def replaceAll (k : Converter) (t : Text) : Text := k.segments none (Segment.ofText t)

/-- The value with its pixel lengths replaced. -/
def value (k : Converter) (t : Text) : Text :=
  if occurs Segment.pxSuffix t then k.replaceAll t else t

end Converter

end PixelScale.Pixel
