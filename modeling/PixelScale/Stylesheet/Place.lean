import PixelScale.Text

/-!
# Places in a text

A place is where a text can be cut, given by the number of bytes and of line ends in front of it.
Places move over texts, and moving over one text and then another is moving over both.
-/

namespace PixelScale.Stylesheet

structure Place where
  offset : Nat
  /-- the number of line feeds in front -/
  feeds : Nat
deriving DecidableEq, Repr

namespace Place

/-- The start of a text. -/
def start : Place := ⟨0, 0⟩

/-- The place behind a text that starts at `p`. -/
def after (p : Place) (t : Text) : Place := ⟨p.offset + t.bytes, p.feeds + t.count '\n'⟩

/-- The number of the line that a place is on. -/
def line (p : Place) : Nat := p.feeds + 1

@[simp] theorem after_nil (p : Place) : p.after [] = p := rfl

@[simp] theorem after_append (p : Place) (s t : Text) : p.after (s ++ t) = (p.after s).after t := by
  simp [after, Nat.add_assoc]

end Place

end PixelScale.Stylesheet
