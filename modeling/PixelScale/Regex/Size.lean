import PixelScale.Regex.Normal
import PixelScale.Text.Utf8

/-!
# Sizes of regular expressions

A regular expression stands for a machine that reads the UTF-8 form of a text byte by byte. A state
of the machine either reads a byte and goes on, or goes on without reading, or is a fork from which
several states are reached. The machine of an expression in normal form is put together from the
machines of its parts. There are two of them, one for each direction of reading, and only the one
that reads forward keeps track of groups. An expression is refused if one of them takes too much
space.

* `Regex.machineBytes`: the space that a machine takes.
* `Regex.fits`: whether both machines take no more than `sizeLimit`.
-/

namespace PixelScale.Regex

open Text

/-- The space that the machines of a regular expression may take, in bytes. -/
def sizeLimit : Nat := 10485760

/-- The space of a state. -/
def stateBytes : Nat := 32

/-- The space of a link from a fork, beyond that of the fork. -/
def linkBytes : Nat := 4

/-- The space of a range of bytes in a state that has a list of them. -/
def arcBytes : Nat := 8

/-- The space of several parts together. -/
def total (sizes : List Nat) : Nat := sizes.foldl (· + ·) 0

/-- A direction of reading. -/
inductive Direction where
  | forward
  | backward
deriving Repr, DecidableEq

/-! ## Sets of characters -/

/-- Lists with the same head brought together, if they are neighbours. Empty lists are left out. -/
def byHead : List (List Utf8.ByteRange) → List (Utf8.ByteRange × List (List Utf8.ByteRange))
  | [] => []
  | [] :: qs => byHead qs
  | (r :: q) :: qs =>
    match byHead qs with
    | (s, tails) :: groups =>
      if r = s then (r, q :: tails) :: groups else (r, [q]) :: (s, tails) :: groups
    | [] => [(r, [q])]

/-- The inner nodes of the tree of some sequences of bytes, where the sequences have at most the
given length. A node is the list of what may follow it. -/
def innerNodes : Nat → List (List Utf8.ByteRange) → List (List (List Utf8.ByteRange))
  | 0, _ => []
  | n + 1, qs =>
    match byHead qs with
    | [] => []
    | groups => qs :: groups.flatMap fun (_, tails) => innerNodes n tails

/-- The space for a set of characters. An ASCII set takes one state and an end. Reading forward, the
nodes of the tree of UTF-8 forms are states, and nodes with the same continuations are one state.
Reading backward, a fork leads to the last byte of each form, and the way from the first byte to it
is shared by forms that start alike. -/
def setBytes (d : Direction) (rs : Ranges) : Nat :=
  if rs.isAscii then 2 * stateBytes + arcBytes * rs.length
  else
    let qs := Utf8.sequences rs
    let nodes := innerNodes 4 qs
    let arcs (ns : List (List (List Utf8.ByteRange))) : Nat :=
      total (ns.map fun n => (byHead n).length)
    match d with
    | .forward =>
      let nodes := nodes.eraseDups
      stateBytes + stateBytes * nodes.length + arcBytes * arcs nodes
    | .backward => 2 * stateBytes + stateBytes * arcs nodes + linkBytes * qs.length

/-! ## Choices between runs -/

/-- Words between empty words. -/
def chunks : List (List Nat) → List (List (List Nat))
  | [] => [[]]
  | [] :: ws => [] :: chunks ws
  | w :: ws =>
    match chunks ws with
    | c :: cs => (w :: c) :: cs
    | [] => [[w]]

/-- Words with no more than one empty word in front of all others. -/
def withoutRepeatedStart (ws : List (List Nat)) : List (List Nat) :=
  let rest := ws.dropWhile List.isEmpty
  if rest.length < ws.length then [] :: rest else ws

/-- The space of a tree that reads one of several words, where the words are shorter than the given
length. A word is read in the order in which it stands among the others, so a word that ends at a
node parts the words in front of it from those behind it. -/
def treeBytes : Nat → List (List Nat) → Nat
  | 0, _ => 0
  | n + 1, words =>
    if words.all List.isEmpty then 0
    else
      let parts := chunks (withoutRepeatedStart words)
      let full := parts.filter fun part => !part.isEmpty
      let below := full.map fun part =>
        let heads := (part.filterMap List.head?).eraseDups
        let trees := heads.map fun h =>
          treeBytes n ((part.filter fun w => w.head? = some h).map List.tail)
        stateBytes + (if 2 ≤ heads.length then arcBytes * heads.length else 0) + total trees
      stateBytes + linkBytes * (full.length + (parts.length - 1)) + total below

/-- The space of a choice between runs. -/
def runsBytes (d : Direction) (runs : List Text) : Nat :=
  let words := runs.map fun t =>
    match d with
    | .forward => Utf8.encode t
    | .backward => (Utf8.encode t).reverse
  let longest := (words.map List.length).foldl max 0
  stateBytes + treeBytes (longest + 1) words

/-! ## Machines -/

/-- The space of a machine, and whether it ends in a fork. -/
structure Extent where
  bytes : Nat
  forked : Bool

namespace Extent

/-- The space for a link from the end of a machine. -/
def link (e : Extent) : Nat := if e.forked then linkBytes else 0

/-- One state that is no fork. -/
def state : Extent := ⟨stateBytes, false⟩

/-- One machine after another. -/
def followedBy (e f : Extent) : Extent := ⟨e.bytes + e.link + f.bytes, f.forked⟩

/-- As many copies of a machine as given, at least one. -/
def copies (e : Extent) (n : Nat) : Extent := ⟨n * e.bytes + (n - 1) * e.link, e.forked⟩

/-- A repetition of a machine; `consumes` holds if each round reads something. -/
def repeated (e : Extent) (consumes : Bool) (least : Nat) (most : Option Nat) : Extent :=
  match least, most with
  | 0, some 1 => ⟨2 * stateBytes + e.bytes + 2 * linkBytes + e.link, false⟩
  | 0, none =>
    if consumes then ⟨stateBytes + e.bytes + linkBytes + e.link, true⟩
    else ⟨3 * stateBytes + e.bytes + 4 * linkBytes + e.link, false⟩
  | n, none => ⟨n * (e.bytes + e.link) + stateBytes + linkBytes, true⟩
  | n, some m =>
    if n = m then e.copies n
    else
      let start := if n = 0 then state else e.copies n
      let optional := stateBytes + e.bytes + 2 * linkBytes + e.link
      ⟨start.bytes + start.link + stateBytes + (m - n) * optional, false⟩

end Extent

/-- The space of a part of an expression. What a choice takes is settled when all its branches are
known. -/
inductive Measure where
  /-- a choice between runs, or one run -/
  | runs (ts : List Text)
  /-- a choice, by the space of its branches with the links to them and from them -/
  | choice (branches : Nat)
  | whole (e : Extent)

namespace Measure

/-- The space of the branches of a choice. -/
def branches : Measure → Nat
  | runs ts => total (ts.map fun t => stateBytes * Text.bytes t + linkBytes)
  | choice n => n
  | whole e => e.bytes + e.link + linkBytes

/-- The machine that is put together when everything is known. -/
def extent (d : Direction) : Measure → Extent
  | runs [t] => ⟨stateBytes * Text.bytes t, false⟩
  | runs ts => ⟨runsBytes d ts, false⟩
  | choice n => ⟨2 * stateBytes + n, false⟩
  | whole e => e

/-- Two parts of a choice. -/
def beside : Measure → Measure → Measure
  | runs s, runs t => runs (s ++ t)
  | m, n => choice (m.branches + n.branches)

end Measure

/-- The least number of characters of a match, if sets without characters do not keep it from being
known. -/
def leastLength? : Regex → Option Nat
  | empty | look _ => some 0
  | text t => some t.length
  | chars rs => if rs.isEmpty then none else some 1
  | group _ a => leastLength? a
  | times _ a least _ => (leastLength? a).map (least * ·)
  | cat a b => return (← leastLength? a) + (← leastLength? b)
  | alt a b => return min (← leastLength? a) (← leastLength? b)

/-- Whether every match reads something. -/
def consumes (r : Regex) : Bool := r.leastLength?.any (0 < ·)

/-- The space of an expression in normal form. -/
def measure (d : Direction) : Regex → Measure
  | empty | look _ => .whole Extent.state
  | text t => .runs [t]
  | chars rs => .whole ⟨setBytes d rs, false⟩
  | group _ a =>
    match d with
    | .forward =>
      .whole ((Extent.state.followedBy ((measure d a).extent d)).followedBy Extent.state)
    | .backward => .whole ((measure d a).extent d)
  | times _ a least most => .whole (((measure d a).extent d).repeated a.consumes least most)
  | cat a b =>
    match d with
    | .forward => .whole (((measure d a).extent d).followedBy ((measure d b).extent d))
    | .backward => .whole (((measure d b).extent d).followedBy ((measure d a).extent d))
  | alt a b => (measure d a).beside (measure d b)

/-- Whether all matches end where reading starts: at the start or at the end of a text. -/
def isAnchored (d : Direction) : Regex → Bool
  | empty | text _ | chars _ => false
  | look l =>
    match d with
    | .forward => l = .textStart
    | .backward => l = .textEnd
  | group _ a => isAnchored d a
  | times _ a least _ => least ≠ 0 && isAnchored d a
  | cat a b =>
    match d with
    | .forward => isAnchored d a || (a.isWidthless && isAnchored d b)
    | .backward => isAnchored d b || (b.isWidthless && isAnchored d a)
  | alt a b => isAnchored d a && isAnchored d b

/-- The space of a machine. In front of a match that may start anywhere, it skips any bytes. All of
the match is a group of its own, and a last state says that there is one. -/
def machineBytes (d : Direction) (r : Regex) : Nat :=
  let skipping : Extent :=
    if r.isAnchored d then Extent.state
    else (⟨2 * stateBytes + arcBytes, false⟩ : Extent).repeated true 0 none
  let matching := (measure d (group 0 r)).extent d
  ((skipping.followedBy matching).followedBy Extent.state).bytes

/-- Whether both machines of an expression take no more space than allowed. -/
def fits (r : Regex) : Bool :=
  machineBytes .forward r ≤ sizeLimit && machineBytes .backward r ≤ sizeLimit

end PixelScale.Regex
