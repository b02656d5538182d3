import PixelScale.Text

/-!
# Pieces of a stylesheet

A stylesheet is first read as a row of pieces: quoted strings, comments, and single characters
outside of both. What looks like a delimiter inside a string or a comment therefore does not
delimit anything. In a string a backslash hides the character behind it. A string or a comment
that is never closed is the last piece.

* `Piece.ofText`: the pieces of a text.
* `Piece.joined_ofText`: the pieces put together are the text.
-/

namespace PixelScale.Stylesheet

inductive Piece where
  | char (c : Char)
  | quoted (mark : Char) (body : Text)
  | comment (body : Text)
  | unclosedString (mark : Char) (body : Text)
  | unclosedComment (body : Text)
deriving DecidableEq, Repr

namespace Piece

def text : Piece → Text
  | char c => [c]
  | quoted mark body => mark :: body ++ [mark]
  | comment body => '/' :: '*' :: body ++ ['*', '/']
  | unclosedString mark body => mark :: body
  | unclosedComment body => '/' :: '*' :: body

/-- The text of a row of pieces. -/
def joined (ps : List Piece) : Text := ps.flatMap text

@[simp] theorem joined_nil : joined [] = [] := rfl

@[simp] theorem joined_cons (p : Piece) (ps : List Piece) : joined (p :: ps) = p.text ++ joined ps :=
  rfl

@[simp] theorem joined_append (ps qs : List Piece) : joined (ps ++ qs) = joined ps ++ joined qs := by
  simp [joined]

def isQuote (c : Char) : Bool := c == '"' || c == '\''

/-- Where the reader is: outside strings and comments, or inside one with what was read of it, the
last character first. -/
inductive Mode where
  | outside
  | inString (mark : Char) (read : Text)
  | inComment (read : Text)

/-- The pieces of a text from a given mode on. -/
def read : Mode → Text → List Piece
  | .outside, [] => []
  | .outside, '/' :: '*' :: t => read (.inComment []) t
  | .outside, c :: t => if isQuote c then read (.inString c []) t else char c :: read .outside t
  | .inString mark r, [] => [unclosedString mark r.reverse]
  | .inString mark r, '\\' :: c :: t => read (.inString mark (c :: '\\' :: r)) t
  | .inString mark r, c :: t =>
    if c = mark then quoted mark r.reverse :: read .outside t
    else read (.inString mark (c :: r)) t
  | .inComment r, [] => [unclosedComment r.reverse]
  | .inComment r, '*' :: '/' :: t => comment r.reverse :: read .outside t
  | .inComment r, c :: t => read (.inComment (c :: r)) t

/-- The pieces of a text. -/
def ofText (t : Text) : List Piece := read .outside t

/-- What a mode has read of an unfinished piece. -/
def Mode.pending : Mode → Text
  | outside => []
  | inString mark r => mark :: r.reverse
  | inComment r => '/' :: '*' :: r.reverse

theorem joined_read (m : Mode) (t : Text) : joined (read m t) = m.pending ++ t := by
  fun_induction read m t <;> simp_all [joined, text, Mode.pending]

theorem joined_ofText (t : Text) : joined (ofText t) = t := joined_read .outside t

end Piece

end PixelScale.Stylesheet
