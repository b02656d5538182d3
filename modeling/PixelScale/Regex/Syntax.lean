import PixelScale.Text
import PixelScale.Text.Ranges

/-!
# Regular expressions

The forms of a regular expression. Groups and greediness say which occurrence is found and what it
captures, not whether there is one; they are kept because two expressions that differ in them are
not the same.
-/

namespace PixelScale

open Text

namespace Regex

/-- A condition on the place between two characters. -/
inductive Look where
  | textStart
  | textEnd
  /-- the ends of a line; with `crlf`, carriage returns and line feeds both end lines -/
  | lineStart (crlf : Bool)
  | lineEnd (crlf : Bool)
  /-- the ends of words; with `ascii`, only ASCII words count -/
  | wordBoundary (ascii : Bool)
  | noWordBoundary (ascii : Bool)
  | wordStart (ascii : Bool)
  | wordEnd (ascii : Bool)
  | noWordBefore (ascii : Bool)
  | noWordAfter (ascii : Bool)
deriving Repr, DecidableEq

end Regex

open Regex in
inductive Regex where
  | empty
  /-- a run of characters that stand for themselves -/
  | text (t : Text)
  /-- a character of a set -/
  | chars (rs : Ranges)
  | look (l : Look)
  /-- a group that captures; groups are numbered in their order -/
  | group (index : Nat) (a : Regex)
  /-- at least `least` and at most `most` times -/
  | times (greedy : Bool) (a : Regex) (least : Nat) (most : Option Nat)
  | cat (a b : Regex)
  | alt (a b : Regex)
deriving Repr, DecidableEq

end PixelScale
