import PixelScale.Text.Digit
import PixelScale.Text.Ranges

/-!
# Tables of characters

A table writes a set of characters by hexadecimal code points: `41` for one of them, `41-5A` for a
range, and `100~136` for every second code point from the first to the last. Blanks and line ends
stand between the entries, which are in order.

* `readTable`: the set that a table writes.
-/

namespace PixelScale.Unicode

open Text

/-- The code point that an entry starts or ends with. -/
def codePoint (t : Text) : Nat := (toNat? 16 t).getD 0

/-- The ranges that an entry writes. -/
def readEntry (t : Text) : Ranges :=
  match splitFirst '-' t, splitFirst '~' t with
  | some (a, b), _ => [(codePoint a, codePoint b)]
  | none, some (a, b) =>
    (List.range ((codePoint b - codePoint a) / 2 + 1)).map fun i =>
      (codePoint a + 2 * i, codePoint a + 2 * i)
  | none, none => [(codePoint t, codePoint t)]

/-- The set that a table writes. -/
def readTable (table : String) : Ranges :=
  let entries := fields ' ' (table.toList.map fun c => if c = '\n' then ' ' else c)
  (entries.filter fun t => !t.isEmpty).flatMap readEntry

end PixelScale.Unicode
