import PixelScale.Stylesheet.Error
import PixelScale.Stylesheet.Node
import PixelScale.Stylesheet.Piece
import PixelScale.Stylesheet.Place
import PixelScale.Text.Blank

/-!
# Statements of a stylesheet

The pieces of a stylesheet fall into statements. A statement runs up to the first semicolon or
brace outside parentheses, or to the end of the text. With an opening brace it opens a block;
otherwise it is a declaration or, if it starts with an `@`, an at-rule without a block. Comments
between statements and closing braces stand alone. The row of statements says nothing about how
blocks nest, and a statement that cannot be read is one of the row.

* `Statement.ofPieces`: the statements of a row of pieces.
* `Statement.ofText`: the statements of a text.
-/

namespace PixelScale.Stylesheet

open Text

/-- What a block belongs to. -/
inductive Head where
  | rule (selector : Text)
  | atRule (head : AtHead)
deriving DecidableEq, Repr

inductive Statement where
  | comment (text : Text)
  | declaration (d : Declaration)
  | atStatement (head : AtHead)
  /-- the start of a block, with the line of its brace -/
  | opening (head : Head) (line : Nat)
  /-- the end of a block, with its line -/
  | closing (line : Nat)
  /-- a statement that cannot be read -/
  | bad (e : SyntaxError)
deriving DecidableEq, Repr

namespace Statement

/-- The nesting of parentheses behind a piece. A closing one that nothing opened is no error. -/
def depthAfter (depth : Nat) : Piece → Nat
  | .char '(' => depth + 1
  | .char ')' => depth - 1
  | _ => depth

/-- Whether a statement ends in front of a piece, at the given nesting of parentheses. -/
def endsBody (depth : Nat) : Piece → Bool
  | .char c => depth == 0 && (c == ';' || c == '{' || c == '}')
  | .unclosedString _ _ | .unclosedComment _ => true
  | _ => false

/-- Whether a piece is a blank between statements. -/
def isSpace : Piece → Bool
  | .char c => isBlankAscii c
  | _ => false

/-- The pieces of a statement, and those behind it. -/
def splitBody : Nat → List Piece → List Piece × List Piece
  | _, [] => ([], [])
  | depth, p :: ps =>
    if endsBody depth p then ([], p :: ps)
    else
      let (body, rest) := splitBody (depthAfter depth p) ps
      (p :: body, rest)

theorem splitBody_append (depth : Nat) (ps : List Piece) :
    (splitBody depth ps).1 ++ (splitBody depth ps).2 = ps := by
  induction ps generalizing depth with
  | nil => rfl
  | cons p ps ih =>
    simp only [splitBody]
    split
    · rfl
    · simp [ih]

theorem length_splitBody (depth : Nat) (ps : List Piece) :
    (splitBody depth ps).2.length ≤ ps.length := by
  have h := congrArg List.length (splitBody_append depth ps)
  simp only [List.length_append] at h
  omega

/-- Whether a piece belongs to the name of an at-rule. -/
def isName : Piece → Bool
  | .char c => c.isAlphanum || c == '-' || c == '_'
  | _ => false

/-- The parameters of an at-rule whose raw text starts at a place. -/
def atHead (name : Text) (p : Place) (raw : Text) : AtHead :=
  let params := trimBlank raw
  let start := p.offset + raw.bytes - (trimBlankLeft raw).bytes
  ⟨name, params, some ⟨start, start + params.bytes⟩⟩

/-- A value without its mark of importance, and whether it had one. -/
def splitImportant (value : Text) : Text × Bool :=
  match splitLast '!' value with
  | some (front, back) =>
    if lowerAscii (trimBlank back) = "important".toList then (trimBlankRight front, true)
    else (value, false)
  | none => (value, false)

/-- The declaration that a raw text starting at a place stands for. The first colon ends the
property, wherever it stands. -/
def declaration? (p : Place) (raw : Text) (semicolon : Option Nat) :
    Except SyntaxError Declaration :=
  let trimmed := trimBlank raw
  match splitFirst ':' trimmed with
  | none => .error (.missingColon p.line trimmed)
  | some (property, rest) =>
    let start := p.offset + raw.bytes - (trimBlankLeft raw).bytes
    let valueStart := start + property.bytes + 1 + (rest.bytes - (trimBlankLeft rest).bytes)
    let (value, important) := splitImportant (trimBlank rest)
    .ok ⟨trimBlank property, value, important,
      some ⟨start, valueStart, valueStart + value.bytes, start + trimmed.bytes, semicolon⟩⟩

/-- The statement with a given raw text, which is an at-rule if it has a name. -/
def ofBody (name : Option Text) (p : Place) (raw : Text) (semicolon : Option Nat) : Statement :=
  match name with
  | some name => .atStatement (atHead name p raw)
  | none =>
    match declaration? p raw semicolon with
    | .ok d => .declaration d
    | .error e => .bad e

/-- The start of a block with a given raw text in front of its brace. -/
def ofHead (name : Option Text) (p : Place) (raw : Text) : Head :=
  match name with
  | some name => .atRule (atHead name p raw)
  | none => .rule (trimBlank raw)

/-- A statement whose raw text starts at `p` and ends in front of the given pieces, and where
reading goes on. -/
def ofSplit (name : Option Text) (p : Place) (raw : Text) :
    List Piece → Statement × Place × List Piece
  | [] => (ofBody name p raw none, p.after raw, [])
  | piece :: ps =>
    let stop := p.after raw
    match piece with
    | .unclosedString _ _ => (.bad (.unclosedString stop.line), stop, [])
    | .unclosedComment _ => (.bad (.unclosedComment stop.line), stop, [])
    | .char '{' => (.opening (ofHead name p raw) stop.line, stop.after ['{'], ps)
    | .char ';' => (ofBody name p raw (some stop.offset), stop.after [';'], ps)
    | _ => (ofBody name p raw none, stop, piece :: ps)

theorem length_ofSplit (name : Option Text) (p : Place) (raw : Text) (ps : List Piece) :
    (ofSplit name p raw ps).2.2.length ≤ ps.length := by
  unfold ofSplit
  split
  · simp
  · dsimp only; split <;> simp

/-- What comes first in the pieces that start at `p`: a statement, or none if the piece separates
statements, and where reading goes on. -/
def first (p : Place) (piece : Piece) (ps : List Piece) :
    Option Statement × Place × List Piece :=
  let next := p.after piece.text
  match piece with
  | .comment text => (some (.comment text), next, ps)
  | .unclosedString _ _ => (some (.bad (.unclosedString p.line)), next, [])
  | .unclosedComment _ => (some (.bad (.unclosedComment p.line)), next, [])
  | .char '}' => (some (.closing p.line), next, ps)
  | .char '{' => (some (.opening (.rule []) p.line), next, ps)
  | .char '@' =>
    let name := Piece.joined (ps.takeWhile isName)
    let (body, rest) := splitBody 0 (ps.dropWhile isName)
    let (s, q, rest) := ofSplit (some name) (next.after name) (Piece.joined body) rest
    (some s, q, rest)
  | piece =>
    if piece = .char ';' || isSpace piece then (none, next, ps)
    else
      let (body, rest) := splitBody (depthAfter 0 piece) ps
      let (s, q, rest) := ofSplit none p (Piece.joined (piece :: body)) rest
      (some s, q, rest)

theorem length_first (p : Place) (piece : Piece) (ps : List Piece) :
    (first p piece ps).2.2.length ≤ ps.length := by
  unfold first
  dsimp only
  split
  case h_6 =>
    exact Nat.le_trans (length_ofSplit ..)
      (Nat.le_trans (length_splitBody ..) (List.dropWhile_sublist _).length_le)
  case h_7 =>
    split
    · simp
    · exact Nat.le_trans (length_ofSplit ..) (length_splitBody ..)
  all_goals simp

/-- The statements of the pieces that start at a place. -/
def ofPieces (p : Place) : List Piece → List Statement
  | [] => []
  | piece :: ps =>
    let r := first p piece ps
    r.1.toList ++ ofPieces r.2.1 r.2.2
termination_by ps => ps.length
decreasing_by exact Nat.lt_succ_of_le (length_first ..)

/-- The statements of a text. -/
def ofText (t : Text) : List Statement := ofPieces .start (Piece.ofText t)

end Statement

end PixelScale.Stylesheet
