import PixelScale.Stylesheet.Node

/-!
# Changing a tree in place

A node is addressed by the list of its positions among its siblings, from the top down. A change
at an address that no node has, or of a part that the node does not have, is refused.

* `Node.at?`: the node at an address.
* `Node.insertAt?`, `Node.removeAt?`, `Node.changeAt?`: the nodes after a change.
-/

namespace PixelScale.Stylesheet

/-- Positions from the top of a tree down. -/
abbrev Address := List Nat

/-- A new content for one part of a node. -/
inductive Change where
  | property (t : Text)
  | value (t : Text)
  | important (b : Bool)
  | selector (t : Text)
  | name (t : Text)
  | params (t : Text)
  /-- the text of a comment -/
  | text (t : Text)
deriving DecidableEq, Repr

namespace Node

/-- The nodes of a block. -/
def children? : Node → Option (List Node)
  | rule _ nodes | atRule _ nodes => some nodes
  | _ => none

/-- A block with other nodes. -/
def withChildren (nodes : List Node) : Node → Node
  | rule selector _ => rule selector nodes
  | atRule head _ => atRule head nodes
  | n => n

/-- The head of an at-rule changed. -/
def mapHead? (f : AtHead → AtHead) : Node → Option Node
  | atRule head nodes => some (atRule (f head) nodes)
  | atStatement head => some (atStatement (f head))
  | _ => none

/-- A node with one part changed. Spans stay, so that the change can be written back. -/
def change? : Change → Node → Option Node
  | .property t, declaration d => some (declaration { d with property := t })
  | .value t, declaration d => some (declaration { d with value := t })
  | .important b, declaration d => some (declaration { d with important := b })
  | .selector t, rule _ nodes => some (rule t nodes)
  | .name t, n => n.mapHead? fun h => { h with name := t }
  | .params t, n => n.mapHead? fun h => { h with params := t }
  | .text t, comment _ => some (comment t)
  | _, _ => none

/-- The nodes after a change among the siblings at an address. -/
def siblingsAt? (f : Nat → List Node → Option (List Node)) :
    Address → List Node → Option (List Node)
  | [], _ => none
  | [i], ns => f i ns
  | i :: j :: is, ns => do
    let n ← ns[i]?
    let children ← siblingsAt? f (j :: is) (← n.children?)
    return ns.set i (n.withChildren children)

def at? : Address → List Node → Option Node
  | [], _ => none
  | [i], ns => ns[i]?
  | i :: j :: is, ns => do at? (j :: is) (← (← ns[i]?).children?)

/-- The nodes with a new one at an address, which may be right behind the last sibling. -/
def insertAt? (node : Node) : Address → List Node → Option (List Node) :=
  siblingsAt? fun i ns => if i ≤ ns.length then some (ns.take i ++ node :: ns.drop i) else none

def removeAt? : Address → List Node → Option (List Node) :=
  siblingsAt? fun i ns => if i < ns.length then some (ns.eraseIdx i) else none

def changeAt? (c : Change) : Address → List Node → Option (List Node) :=
  siblingsAt? fun i ns => do return ns.set i (← (← ns[i]?).change? c)

end Node

end PixelScale.Stylesheet
