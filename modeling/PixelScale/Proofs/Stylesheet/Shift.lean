import PixelScale.Proofs.Stylesheet.Row

/-!
# Reading further on

Statements and nodes know where they were read: spans count the bytes in front, and lines the line
feeds. Nothing else depends on the place. So the same characters that are read further on in a text
give the same statements, with all places moved by what stands in front.

* `Statement.shift`, `Node.shift`: what was read, with another text in front.
* `row_shift`: the statements of a text that starts further on.
* `Node.statementsList_shiftList`: a tree and its row are moved alike.
-/

namespace PixelScale.Stylesheet

open Text

/-! ## Moving places -/

namespace Place

/-- A place in a text that itself starts at `front`. -/
def shift (front p : Place) : Place := ⟨front.offset + p.offset, front.feeds + p.feeds⟩

variable (front p : Place)

@[simp] theorem shift_start : shift front start = front := rfl

@[simp] theorem offset_shift : (shift front p).offset = front.offset + p.offset := rfl

@[simp] theorem offset_after_start (t : Text) : (start.after t).offset = t.bytes := by
  simp [after, start]

theorem shift_after (t : Text) : shift front (p.after t) = (shift front p).after t := by
  simp [shift, after, Nat.add_assoc]

theorem line_shift : (shift front p).line = front.feeds + p.line := rfl

end Place

def Span.shift (n : Nat) (s : Span) : Span := ⟨n + s.start, n + s.stop⟩

def DeclarationSpan.shift (n : Nat) (s : DeclarationSpan) : DeclarationSpan :=
  ⟨n + s.start, n + s.valueStart, n + s.valueStop, n + s.stop, s.semicolon.map (n + ·)⟩

def Declaration.shift (n : Nat) (d : Declaration) : Declaration :=
  { d with span := d.span.map (DeclarationSpan.shift n) }

def AtHead.shift (n : Nat) (h : AtHead) : AtHead := { h with span := h.span.map (Span.shift n) }

def SyntaxError.shift (feeds : Nat) : SyntaxError → SyntaxError
  | unclosedBlock line => unclosedBlock (feeds + line)
  | unclosedComment line => unclosedComment (feeds + line)
  | unclosedString line => unclosedString (feeds + line)
  | unexpectedClose line => unexpectedClose (feeds + line)
  | missingColon line statement => missingColon (feeds + line) statement

def Head.shift (n : Nat) : Head → Head
  | rule selector => rule selector
  | atRule head => atRule (head.shift n)

/-- A statement of a text that itself starts at `front`. -/
def Statement.shift (front : Place) : Statement → Statement
  | comment text => comment text
  | declaration d => declaration (d.shift front.offset)
  | atStatement head => atStatement (head.shift front.offset)
  | opening head line => opening (head.shift front.offset) (front.feeds + line)
  | closing line => closing (front.feeds + line)
  | bad e => bad (e.shift front.feeds)

mutual

/-- A node of a text with `n` bytes in front of it. -/
def Node.shift (n : Nat) : Node → Node
  | rule selector nodes => rule selector (shiftList n nodes)
  | atRule head nodes => atRule (head.shift n) (shiftList n nodes)
  | atStatement head => atStatement (head.shift n)
  | declaration d => declaration (d.shift n)
  | comment text => comment text

def Node.shiftList (n : Nat) : List Node → List Node
  | [] => []
  | m :: ms => shift n m :: shiftList n ms

end

/-! ## Reading from a place further on -/

theorem bytes_trimBlankLeft_le (t : Text) : (trimBlankLeft t).bytes ≤ t.bytes := by
  obtain ⟨b, -, h⟩ := exists_blank_append_trimBlankLeft t
  have := congrArg bytes h
  rw [bytes_append] at this
  omega

namespace Statement

variable (front p : Place)

theorem atHead_shift (name raw : Text) :
    atHead name (front.shift p) raw = (atHead name p raw).shift front.offset := by
  have := bytes_trimBlankLeft_le raw
  simp only [atHead, AtHead.shift, Place.offset_shift, Option.map_some, Span.shift, AtHead.mk.injEq,
    Option.some.injEq, Span.mk.injEq, true_and]
  omega

theorem ofHead_shift (name : Option Text) (raw : Text) :
    ofHead name (front.shift p) raw = (ofHead name p raw).shift front.offset := by
  cases name with
  | none => rfl
  | some name => exact congrArg Head.atRule (atHead_shift front p name raw)

theorem ofBody_shift (name : Option Text) (raw : Text) (semicolon : Option Nat) :
    ofBody name (front.shift p) raw (semicolon.map (front.offset + ·)) =
      (ofBody name p raw semicolon).shift front := by
  cases name with
  | some name => exact congrArg atStatement (atHead_shift front p name raw)
  | none =>
    have hle := bytes_trimBlankLeft_le raw
    cases hsplit : splitFirst ':' (trimBlank raw) with
    | none => simp [ofBody, declaration?, hsplit, shift, SyntaxError.shift, Place.line_shift]
    | some r =>
      obtain ⟨property, rest⟩ := r
      simp only [ofBody, declaration?, hsplit, shift, Declaration.shift, DeclarationSpan.shift,
        Place.offset_shift, Option.map_some, Statement.declaration.injEq, Declaration.mk.injEq,
        Option.some.injEq, DeclarationSpan.mk.injEq, true_and, and_true]
      omega

theorem ofSplit_shift (name : Option Text) (raw : Text) (ps : List Piece) :
    ofSplit name (front.shift p) raw ps =
      ((ofSplit name p raw ps).1.shift front, front.shift (ofSplit name p raw ps).2.1,
        (ofSplit name p raw ps).2.2) := by
  have hnone := ofBody_shift front p name raw none
  have hsome := ofBody_shift front p name raw (some (p.after raw).offset)
  simp only [Option.map_none, Option.map_some] at hnone hsome
  cases ps with
  | nil => simp only [ofSplit, hnone, Place.shift_after]
  | cons piece ps =>
    simp only [ofSplit, ← Place.shift_after, Place.line_shift, Place.offset_shift, ofHead_shift,
      hnone, hsome]
    split <;> rfl

theorem first_shift (piece : Piece) (ps : List Piece) :
    first (front.shift p) piece ps =
      ((first p piece ps).1.map (shift front), front.shift (first p piece ps).2.1,
        (first p piece ps).2.2) := by
  unfold first
  simp only [← Place.shift_after, Place.line_shift, ofSplit_shift]
  split
  case h_7 => split <;> rfl
  all_goals rfl

/-- Statements that are read from a place further on are the same statements, moved. -/
theorem ofPieces_shift (ps : List Piece) :
    ofPieces (front.shift p) ps = (ofPieces p ps).map (shift front) := by
  fun_induction ofPieces p ps with
  | case1 => simp [ofPieces]
  | case2 p piece ps r ih =>
    rw [ofPieces, first_shift]
    dsimp only
    rw [ih, List.map_append, Option.toList_map]

end Statement

/-- The statements of a text that starts further on. -/
theorem row_shift (front p : Place) (t : Text) :
    row (front.shift p) t = (row p t).map (Statement.shift front) :=
  Statement.ofPieces_shift front p _

/-! ## Moving trees -/

namespace Node

mutual

theorem statements_shift (k : Nat) (n : Node) :
    (n.shift k).statements = n.statements.map (Statement.shift ⟨k, 0⟩) := by
  cases n with
  | rule selector nodes =>
    simp [shift, statements, Statement.shift, Head.shift, statementsList_shiftList k nodes]
  | atRule head nodes =>
    simp [shift, statements, Statement.shift, Head.shift, statementsList_shiftList k nodes]
  | atStatement head => rfl
  | declaration d => rfl
  | comment text => rfl

/-- A tree and its row are moved alike. -/
theorem statementsList_shiftList (k : Nat) (ns : List Node) :
    statementsList (shiftList k ns) = (statementsList ns).map (Statement.shift ⟨k, 0⟩) := by
  cases ns with
  | nil => rfl
  | cons n ns =>
    simp [shiftList, statementsList, statements_shift k n, statementsList_shiftList k ns]

end

/-- Whether a row has a tree does not depend on where it was read. -/
theorem balanced_map_shift (front : Place) (depth : Nat) (ss : List Statement) :
    balanced depth (ss.map (Statement.shift front)) = balanced depth ss := by
  fun_induction balanced depth ss with
  | case1 => rfl
  | case2 depth head line ss ih => simpa [Statement.shift, balanced] using ih
  | case3 depth line ss ih => simpa [Statement.shift, balanced] using ih
  | case4 => rfl
  | case5 => simp [Statement.shift, balanced]
  | case6 depth text ss ih => simpa [Statement.shift, balanced] using ih
  | case7 depth d ss ih => simpa [Statement.shift, balanced] using ih
  | case8 depth head ss ih => simpa [Statement.shift, balanced] using ih

/-- Behind closed blocks a row starts anew. -/
theorem balanced_append {depth : Nat} {ss : List Statement} (h : balanced depth ss = true)
    (ts : List Statement) : balanced depth (ss ++ ts) = balanced 0 ts := by
  fun_induction balanced depth ss with
  | case1 depth =>
    have hdepth : depth = 0 := by simpa using h
    rw [hdepth, List.nil_append]
  | case2 depth head line ss ih => exact ih h
  | case3 depth line ss ih => exact ih h
  | case4 => cases h
  | case5 => cases h
  | case6 depth text ss ih => exact ih h
  | case7 depth d ss ih => exact ih h
  | case8 depth head ss ih => exact ih h

end Node

/-- Without lines, and where all statements can be read, only the offset counts. -/
theorem Statement.unlined_shift (front : Place) {s : Statement} (hs : ∀ e, s ≠ .bad e) :
    (s.shift front).unlined = s.unlined.shift ⟨front.offset, 0⟩ := by
  cases s with
  | bad e => exact absurd rfl (hs e)
  | _ => rfl

theorem Statement.map_unlined_shift (front : Place) {ss : List Statement}
    (hbad : ∀ e, .bad e ∉ ss) :
    (ss.map (shift front)).map unlined = (ss.map unlined).map (shift ⟨front.offset, 0⟩) := by
  rw [List.map_map, List.map_map]
  refine List.map_congr_left fun s hs => unlined_shift front ?_
  rintro e rfl
  exact hbad e hs

end PixelScale.Stylesheet
