import PixelScale.Stylesheet.Statement

/-!
# Reading stylesheets

The statements of a text become a tree by matching the starts and the ends of blocks. While a
block is open, what stands in front of it waits in a frame. The first statement that does not fit
is the error of the text; a block that is still open at the end is an error on the line of its
brace.

* `Node.ofStatements`: the nodes that a row of statements makes up.
* `Stylesheet.parse`: the tree of a text.
* `Node.statements`: the row of statements that a tree stands for.
-/

namespace PixelScale.Stylesheet

/-- A block that is open: what it belongs to, the line of its brace, and the nodes in front of it,
the last one first. -/
structure Frame where
  head : Head
  line : Nat
  earlier : List Node

/-- The block with its nodes. -/
def Head.node (nodes : List Node) : Head → Node
  | .rule selector => .rule selector nodes
  | .atRule head => .atRule head nodes

namespace Node

/-- The nodes that a row of statements adds to `earlier`, the last one first, inside of the given
frames. -/
def ofStatementsIn : List Frame → List Node → List Statement → Except SyntaxError (List Node)
  | [], earlier, [] => .ok earlier.reverse
  | frame :: _, _, [] => .error (.unclosedBlock frame.line)
  | frames, earlier, s :: ss =>
    match s with
    | .comment text => ofStatementsIn frames (.comment text :: earlier) ss
    | .declaration d => ofStatementsIn frames (.declaration d :: earlier) ss
    | .atStatement head => ofStatementsIn frames (.atStatement head :: earlier) ss
    | .opening head line => ofStatementsIn (⟨head, line, earlier⟩ :: frames) [] ss
    | .closing line =>
      match frames with
      | [] => .error (.unexpectedClose line)
      | frame :: frames =>
        ofStatementsIn frames (frame.head.node earlier.reverse :: frame.earlier) ss
    | .bad e => .error e

/-- The nodes that a row of statements makes up. -/
def ofStatements (ss : List Statement) : Except SyntaxError (List Node) := ofStatementsIn [] [] ss

mutual

/-- The row of statements that a node stands for. -/
def statements : Node → List Statement
  | rule selector nodes =>
    .opening (.rule selector) 0 :: (statementsList nodes ++ [.closing 0])
  | atRule head nodes =>
    .opening (.atRule head) 0 :: (statementsList nodes ++ [.closing 0])
  | atStatement head => [.atStatement head]
  | declaration d => [.declaration d]
  | comment text => [.comment text]

def statementsList : List Node → List Statement
  | [] => []
  | n :: ns => statements n ++ statementsList ns

end

end Node

/-- The tree of a text. -/
def parse (t : Text) : Except SyntaxError Stylesheet :=
  (Node.ofStatements (Statement.ofText t)).map fun nodes => ⟨none, nodes⟩

end PixelScale.Stylesheet
