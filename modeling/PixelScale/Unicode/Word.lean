import PixelScale.Unicode.Property

/-!
# Word characters

The characters that make up words: letters, marks, decimal digits, connecting punctuation and
the two joiners.

* `isWord`: the class, and its ASCII part.
* `words`: the class as a set.
-/

namespace PixelScale.Unicode

open Text

/-- An ASCII letter, a digit or the underscore. -/
def isWordAscii (c : Char) : Bool := c.isAlphanum || c == '_'

/-- The ASCII word characters. -/
def asciiWords : Ranges := [(0x30, 0x39), (0x41, 0x5A), (0x5F, 0x5F), (0x61, 0x7A)]

/-- The word characters, or the ASCII ones among them. -/
def words (ascii : Bool) : Ranges :=
  if ascii then asciiWords
  else
    Property.gather
      (.letterNumber :: .decimalNumber :: .connectorPunctuation ::
        (Category.letters ++ Category.marks))
      [.otherAlphabetic, .joinControl]

/-- A word character, which has to be an ASCII character if `ascii` holds. -/
def isWord (ascii : Bool) (c : Char) : Bool :=
  isWordAscii c || (!ascii && 0x80 ≤ c.toNat && (words false).has c)

end PixelScale.Unicode
