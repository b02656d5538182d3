import PixelScale.Text

/-!
# Stylesheet trees

A stylesheet is a list of nodes. Selectors, parameters and values are kept as raw text. What was
read from a text knows where it stood there; what was built otherwise has no span. Two trees are
the same sheet if they differ in spans only.

* `Node.bare`, `Node.bareList`: nodes without spans.
* `Stylesheet.Same`: equality up to spans.
* `Node.declarations`, `Node.atRules`: all declarations and at-rules, in document order.
-/

namespace PixelScale

namespace Stylesheet

/-- Two byte offsets. -/
structure Span where
  start : Nat
  stop : Nat
deriving DecidableEq, Repr

/-- Where the parts of a declaration stood: the property name from `start` on, the value from
`valueStart` to `valueStop`, and the mark of importance from there to `stop`. The semicolon is the
one that ends the declaration, if there is one. -/
structure DeclarationSpan where
  start : Nat
  valueStart : Nat
  valueStop : Nat
  stop : Nat
  semicolon : Option Nat
deriving DecidableEq, Repr

structure Declaration where
  property : Text
  /-- without the mark of importance -/
  value : Text
  important : Bool
  span : Option DeclarationSpan
deriving DecidableEq, Repr

namespace Declaration

/-- The same declaration with another value. It stood nowhere. -/
def withValue (d : Declaration) (value : Text) : Declaration := { d with value, span := none }

def bare (d : Declaration) : Declaration := { d with span := none }

end Declaration

/-- The name of an at-rule, without the `@`, and its parameters with their span. -/
structure AtHead where
  name : Text
  params : Text
  span : Option Span
deriving DecidableEq, Repr

def AtHead.bare (h : AtHead) : AtHead := { h with span := none }

inductive Node where
  | rule (selector : Text) (nodes : List Node)
  /-- an at-rule with a block -/
  | atRule (head : AtHead) (nodes : List Node)
  /-- an at-rule that a semicolon ends, or nothing -/
  | atStatement (head : AtHead)
  | declaration (d : Declaration)
  /-- the text between the delimiters of a comment -/
  | comment (text : Text)
deriving Repr, BEq

namespace Node

mutual

/-- A node without spans. -/
def bare : Node → Node
  | rule selector nodes => rule selector (bareList nodes)
  | atRule head nodes => atRule head.bare (bareList nodes)
  | atStatement head => atStatement head.bare
  | declaration d => declaration d.bare
  | comment text => comment text

def bareList : List Node → List Node
  | [] => []
  | n :: ns => bare n :: bareList ns

end

mutual

/-- The declarations of a node, in document order. -/
def declarations : Node → List Declaration
  | rule _ nodes => declarationsList nodes
  | atRule _ nodes => declarationsList nodes
  | declaration d => [d]
  | atStatement _ => []
  | comment _ => []

def declarationsList : List Node → List Declaration
  | [] => []
  | n :: ns => declarations n ++ declarationsList ns

end

mutual

/-- The at-rules of a node, in document order, each with the number of its children if it has a
block. -/
def atRules : Node → List (AtHead × Option Nat)
  | rule _ nodes => atRulesList nodes
  | atRule head nodes => (head, some nodes.length) :: atRulesList nodes
  | atStatement head => [(head, none)]
  | declaration _ => []
  | comment _ => []

def atRulesList : List Node → List (AtHead × Option Nat)
  | [] => []
  | n :: ns => atRules n ++ atRulesList ns

end

mutual

/-- A node with the parameters of the at-rules of a given name changed. -/
def mapParams (name : Text) (f : Text → Text) : Node → Node
  | rule selector nodes => rule selector (mapParamsList name f nodes)
  | atRule head nodes =>
    atRule (if head.name = name then { head with params := f head.params } else head)
      (mapParamsList name f nodes)
  | atStatement head =>
    atStatement (if head.name = name then { head with params := f head.params } else head)
  | declaration d => declaration d
  | comment text => comment text

def mapParamsList (name : Text) (f : Text → Text) : List Node → List Node
  | [] => []
  | n :: ns => mapParams name f n :: mapParamsList name f ns

end

end Node

end Stylesheet

/-- A tree with the path of the file it came from, if it came from one. -/
structure Stylesheet where
  source : Option Text
  nodes : List Stylesheet.Node
deriving Repr, BEq

namespace Stylesheet

/-- The same sheet without spans. -/
def bare (s : Stylesheet) : Stylesheet := { s with nodes := Node.bareList s.nodes }

/-- Equality up to spans. -/
def Same (s t : Stylesheet) : Prop := s.bare = t.bare

/-- Whether two sheets are the same up to spans. -/
def same (s t : Stylesheet) : Bool := s.bare == t.bare

def declarations (s : Stylesheet) : List Declaration := Node.declarationsList s.nodes

/-- The at-rules of a given name. -/
def atRules (s : Stylesheet) (name : Text) : List (AtHead × Option Nat) :=
  (Node.atRulesList s.nodes).filter fun (head, _) => head.name == name

end Stylesheet

end PixelScale
