import PixelScale.Stylesheet.Node

/-!
# Printing stylesheets

The printed form of a tree has a line for every declaration, comment and at-rule without a block,
two blanks of indentation for every block around it, and an empty line on either side of a block
at the top.

* `Stylesheet.print`: the printed form.
-/

namespace PixelScale.Stylesheet

namespace Declaration

/-- The mark of importance, where there is one. -/
def mark (d : Declaration) : Text := if d.important then " !important".toList else []

/-- A declaration without its semicolon. -/
def print (d : Declaration) : Text := d.property ++ ": ".toList ++ d.value ++ d.mark

end Declaration

/-- An at-rule up to its block or its semicolon. -/
def AtHead.print (h : AtHead) : Text :=
  '@' :: h.name ++ if h.params.isEmpty then [] else ' ' :: h.params

namespace Node

def isBlock : Node → Bool
  | rule _ _ | atRule _ _ => true
  | _ => false

def indent (depth : Nat) : Text := List.replicate (2 * depth) ' '

mutual

/-- The lines of a node inside of `depth` blocks. -/
def print (depth : Nat) : Node → Text
  | rule selector nodes =>
    indent depth ++ selector ++ " \x7b\n".toList ++ printList (depth + 1) nodes ++
      indent depth ++ "\x7d\n".toList
  | atRule head nodes =>
    indent depth ++ head.print ++ " \x7b\n".toList ++ printList (depth + 1) nodes ++
      indent depth ++ "\x7d\n".toList
  | atStatement head => indent depth ++ head.print ++ ";\n".toList
  | declaration d => indent depth ++ d.print ++ ";\n".toList
  | comment text => indent depth ++ "/*".toList ++ text ++ "*/\n".toList

def printList (depth : Nat) : List Node → Text
  | [] => []
  | n :: ns => print depth n ++ printList depth ns

end

/-- The printed nodes behind `last`, at the top of a sheet. -/
def printTop (last : Option Node) : List Node → Text
  | [] => []
  | n :: ns =>
    (if last.any fun l => l.isBlock || n.isBlock then ['\n'] else []) ++ print 0 n ++
      printTop (some n) ns

end Node

/-- The printed form of a sheet. -/
def print (s : Stylesheet) : Text := Node.printTop none s.nodes

end PixelScale.Stylesheet
