import PixelScale.Text.Ranges

/-!
# UTF-8 forms of sets of characters

The UTF-8 form of a character starts with a byte that says how many bytes there are, and every
further byte adds six bits. A range of characters is cut into parts such that the bytes at each
position range independently of each other.

* `Utf8.sequences`: the parts of a set, each a list of ranges of bytes.
-/

namespace PixelScale.Text.Utf8

/-- The bytes at one position, both ends included. -/
abbrev ByteRange := Nat × Nat

/-- The parts of the range from `lo` to `hi` in a notation with the base 64, where `n` digits follow
the first one. Where the first digits differ, the parts that start with them are cut off unless
all further digits occur in them. -/
def digitRanges : Nat → Nat → Nat → List (List ByteRange)
  | 0, lo, hi => [[(lo, hi)]]
  | n + 1, lo, hi =>
    let unit := Nat.pow 64 (n + 1)
    let first := lo / unit
    let last := hi / unit
    let under (digit : Nat) := List.map ((digit, digit) :: ·)
    if first = last then under first (digitRanges n (lo % unit) (hi % unit))
    else
      let start := if lo % unit = 0 then first else first + 1
      let stop := if hi % unit = unit - 1 then last + 1 else last
      (if start = first then [] else under first (digitRanges n (lo % unit) (unit - 1))) ++
        (if start < stop then [(start, stop - 1) :: List.replicate (n + 1) (0, 63)] else []) ++
        (if stop = last then under last (digitRanges n 0 (hi % unit)) else [])

/-- The characters whose forms have one byte and `n` more, and what is added to the first byte. The
halves of pairs in another encoding have no form. -/
def forms : List (Nat × Nat × Nat × Nat) :=
  [(0, 0, 0x7F, 0), (1, 0x80, 0x7FF, 0xC0), (2, 0x800, 0xD7FF, 0xE0), (2, 0xE000, 0xFFFF, 0xE0),
   (3, 0x10000, 0x10FFFF, 0xF0)]

/-- The bytes of digits. -/
def bytes (lead : Nat) : List ByteRange → List ByteRange
  | [] => []
  | (lo, hi) :: ds => (lo + lead, hi + lead) :: ds.map fun (lo, hi) => (lo + 0x80, hi + 0x80)

/-- The parts of a range. -/
def rangeSequences (lo hi : Nat) : List (List ByteRange) :=
  forms.flatMap fun (n, first, last, lead) =>
    let lo := max lo first
    let hi := min hi last
    if lo ≤ hi then (digitRanges n lo hi).map (bytes lead) else []

/-- The parts of a set, in the order of their bytes. -/
def sequences (rs : Ranges) : List (List ByteRange) :=
  rs.flatMap fun (lo, hi) => rangeSequences lo hi

/-- The bytes of a text. -/
def encode (t : List Char) : List Nat :=
  (sequences (t.map fun c => (c.toNat, c.toNat))).flatMap (List.map Prod.fst)

end PixelScale.Text.Utf8
