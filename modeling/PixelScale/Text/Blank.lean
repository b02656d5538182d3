import PixelScale.Text
import PixelScale.Text.Ranges

/-!
# White space

Two classes: the five ASCII blanks that separate the statements of a stylesheet, and the
characters with the Unicode property `White_Space`, which are removed at the ends of its parts.

* `isBlank_of_isBlankAscii`: the first class lies in the second.
-/

namespace PixelScale.Text

/-- Tab, line feed, form feed, carriage return and space. -/
def isBlankAscii (c : Char) : Bool :=
  c == ' ' || c == '\t' || c == '\n' || c == '\x0c' || c == '\r'

/-- The characters with the property `White_Space`. -/
def blanks : Ranges :=
  [(0x9, 0xD), (0x20, 0x20), (0x85, 0x85), (0xA0, 0xA0), (0x1680, 0x1680), (0x2000, 0x200A),
   (0x2028, 0x2029), (0x202F, 0x202F), (0x205F, 0x205F), (0x3000, 0x3000)]

def isBlank (c : Char) : Bool := blanks.has c

theorem isBlank_of_isBlankAscii {c : Char} (h : isBlankAscii c) : isBlank c := by
  simp only [isBlankAscii, Bool.or_eq_true, beq_iff_eq] at h
  rcases h with (((rfl | rfl) | rfl) | rfl) | rfl <;> decide

/-- A text without white space at its start. -/
abbrev trimBlankLeft (t : Text) : Text := trimLeft isBlank t

/-- A text without white space at its end. -/
abbrev trimBlankRight (t : Text) : Text := trimRight isBlank t

/-- A text without white space at its ends. -/
abbrev trimBlank (t : Text) : Text := trim isBlank t

end PixelScale.Text
