import PixelScale.Regex.Syntax

/-!
# Regular expressions in normal form

Sequences and choices are chains that lean to the right. In a sequence, characters that stand for
themselves make up one run, and what matches the empty text alone is left out. A choice between
characters is a set, and what all branches of a choice start with stands in front of it. A
repetition of what has no length is made at most once.

* `Regex.ofSet`, `Regex.sequence`, `Regex.choice`, `Regex.repeated`: building such expressions from
  parts in normal form.
* `Regex.isWidthless`: whether all matches are empty.
-/

namespace PixelScale.Regex

open Text

/-- A character of a set. -/
def ofSet (rs : Ranges) : Regex :=
  match rs.single? with
  | some c => text [c]
  | none => chars rs

/-! ## Sequences -/

/-- The items of a sequence. -/
def items : Regex → List Regex
  | empty => []
  | cat a b => items a ++ items b
  | r => [r]

/-- The sequence of some items. -/
def ofItems : List Regex → Regex
  | [] => empty
  | [r] => r
  | r :: rs => cat r (ofItems rs)

/-- An item in front of others, as a part of the first of them if both are runs. -/
def attach : Regex → List Regex → List Regex
  | text s, text t :: rs => text (s ++ t) :: rs
  | r, rs => r :: rs

/-- Expressions one after another. -/
def sequence (rs : List Regex) : Regex := ofItems ((rs.flatMap items).foldr attach [])

/-! ## Choices -/

/-- The branches of a choice. -/
def branches : Regex → List Regex
  | alt a b => branches a ++ branches b
  | r => [r]

/-- The choice between some branches; nothing matches a choice without branches. -/
def ofBranches : List Regex → Regex
  | [] => chars []
  | [r] => r
  | r :: rs => alt r (ofBranches rs)

/-- The character that a run is made of. -/
def character? : Regex → Option Ranges
  | text [c] => some (Ranges.single c)
  | _ => none

/-- The set that a character is taken from. -/
def set? : Regex → Option Ranges
  | chars rs => some rs
  | _ => none

/-- A choice that is a set if its branches are all characters or all sets. -/
def anyOf (rs : List Regex) : Regex :=
  let rs := rs.flatMap branches
  match rs with
  | [r] => r
  | rs =>
    match rs.mapM character? <|> rs.mapM set? with
    | some sets => ofSet (Ranges.unions sets)
    | none => ofBranches rs

/-- The items that two lists start with. -/
def shared : List Regex → List Regex → List Regex
  | r :: rs, s :: ss => if r = s then r :: shared rs ss else []
  | _, _ => []

/-- The items that all branches start with, if all of them are sequences of several items. -/
def commonStart (rs : List Regex) : List Regex :=
  match rs.map items with
  | r :: s :: ss =>
    if (r :: s :: ss).all fun items => 2 ≤ items.length then (s :: ss).foldl shared r else []
  | _ => []

/-- The choice between expressions. -/
def choice (rs : List Regex) : Regex :=
  let rs := rs.flatMap branches
  match commonStart rs with
  | [] => anyOf rs
  | start =>
    sequence (start ++ [anyOf (rs.map fun r => sequence (r.items.drop start.length))])

/-! ## Repetitions -/

/-- Whether all matches are empty, and there is no set of characters that has to be met. -/
def isWidthless : Regex → Bool
  | empty | look _ => true
  | text t => t.isEmpty
  | chars _ => false
  | group _ a => isWidthless a
  | times _ a _ most => isWidthless a && most.isSome
  | cat a b | alt a b => isWidthless a && isWidthless b

/-- A repetition with given bounds. -/
def repeated (greedy : Bool) (a : Regex) (least : Nat) (most : Option Nat) : Regex :=
  let (least, most) :=
    if a.isWidthless then (min least 1, some (min (most.getD 1) 1)) else (least, most)
  if most = some 0 then empty
  else if least = 1 ∧ most = some 1 then a
  else times greedy a least most

end PixelScale.Regex
