import PixelScale.Regex.Syntax
import PixelScale.Unicode.Word

/-!
# Occurrences of regular expressions

The places of a text lie in front of its characters and at its end. A set of places is a list of
marks, one for every place in their order. A regular expression takes a set of places to the places
where a match that starts in the set can end, so a text has an occurrence if the set of all its
places is taken to a set that is not empty.

* `Regex.ends`: the ends of the matches that start in a set of places.
* `Regex.occurs`: whether a text has an occurrence.
-/

namespace PixelScale.Regex

open Text Unicode

/-- A place in a text: the characters in front of it and behind it, where there are any. -/
structure Place where
  last : Option Char
  next : Option Char
deriving Repr, DecidableEq

/-- The places of a text that follows the character `last`. -/
def places (last : Option Char) : Text → List Place
  | [] => [⟨last, none⟩]
  | c :: t => ⟨last, some c⟩ :: places (some c) t

/-- `l.holds p` holds if the condition is met at the place. -/
def Look.holds (l : Look) (p : Place) : Bool :=
  match l with
  | textStart => p.last.isNone
  | textEnd => p.next.isNone
  | lineStart false => p.last.isNone || p.last = some '\n'
  | lineEnd false => p.next.isNone || p.next = some '\n'
  | lineStart true =>
    p.last.isNone || p.last = some '\n' || (p.last = some '\r' && p.next ≠ some '\n')
  | lineEnd true =>
    p.next.isNone || p.next = some '\r' || (p.next = some '\n' && p.last ≠ some '\r')
  | wordBoundary ascii => p.last.any (isWord ascii) != p.next.any (isWord ascii)
  | noWordBoundary ascii => p.last.any (isWord ascii) == p.next.any (isWord ascii)
  | wordStart ascii => !p.last.any (isWord ascii) && p.next.any (isWord ascii)
  | wordEnd ascii => p.last.any (isWord ascii) && !p.next.any (isWord ascii)
  | noWordBefore ascii => !p.last.any (isWord ascii)
  | noWordAfter ascii => !p.next.any (isWord ascii)

/-! ## Sets of places -/

/-- A mark for every place of a text. -/
abbrev Marks := List Bool

namespace Marks

def any (ms : Marks) : Bool := List.any ms id

/-- The marked places with a property. -/
def keep (ps : List Place) (f : Place → Bool) (ms : Marks) : Marks :=
  ps.zipWith (fun p m => m && f p) ms

def union (ms ns : Marks) : Marks := ms.zipWith (· || ·) ns

def without (ms ns : Marks) : Marks := ms.zipWith (fun m n => m && !n) ns

/-- The places behind the next character. -/
def advance (ms : Marks) : Marks := (false :: ms).dropLast

/-- The places behind a character with a property. -/
def pass (ps : List Place) (f : Char → Bool) (ms : Marks) : Marks :=
  (ms.keep ps fun p => p.next.any f).advance

/-- The places behind a run of characters. -/
def passAll (ps : List Place) : Text → Marks → Marks
  | [], ms => ms
  | c :: t, ms => if ms.any then passAll ps t (ms.pass ps (· == c)) else ms

/-- The places reached by exactly `n` steps. Where one step changes nothing, more steps do not. -/
def exactly (step : Marks → Marks) : Nat → Marks → Marks
  | 0, ms => ms
  | n + 1, ms =>
    let next := step ms
    if next = ms then ms else exactly step n next

/-- The places reached by at most `n` steps, where `seen` were reached so far and `new` by the last
step. -/
def atMost (step : Marks → Marks) : Nat → Marks → Marks → Marks
  | 0, seen, _ => seen
  | n + 1, seen, new =>
    let found := (step new).without seen
    if found.any then atMost step n (seen.union found) found else seen

end Marks

/-- The ends of the matches that start in a set of places.

As many rounds of a repetition as there are places are enough. A round never leads back, so among
more rounds than that there is one that stays where it is, and it may be left out or made again.
Every optional round that finds something marks one more place. -/
def ends (ps : List Place) : Regex → Marks → Marks
  | empty, ms => ms
  | text t, ms => ms.passAll ps t
  | chars rs, ms => ms.pass ps rs.has
  | look l, ms => ms.keep ps l.holds
  | group _ a, ms => ends ps a ms
  | cat a b, ms => ends ps b (ends ps a ms)
  | alt a b, ms => (ends ps a ms).union (ends ps b ms)
  | times _ a least most, ms =>
    let start := Marks.exactly (ends ps a) (min least ps.length) ms
    let rounds := match most with
      | some m => min (m - least) ps.length
      | none => ps.length
    Marks.atMost (ends ps a) rounds start start

/-- Whether a text has an occurrence of the regular expression. -/
def occurs (r : Regex) (t : Text) : Bool :=
  let ps := places none t
  (ends ps r (ps.map fun _ => true)).any

end PixelScale.Regex
