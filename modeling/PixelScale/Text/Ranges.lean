/-!
# Sets of characters as ranges

A set of characters is given by ranges of code points, both ends included. In its normal form the
ranges are in order, and neither overlap nor touch. The operations on sets take ranges in normal
form and give ranges in normal form.

* `Ranges.has`: membership.
* `Ranges.ofList`: the normal form of any list of ranges.
* `Ranges.union`, `Ranges.complement`, `Ranges.intersection`, `Ranges.difference`: operations.
-/

namespace PixelScale.Text

/-- A list of ranges of code points, both ends included. -/
abbrev Ranges := List (Nat × Nat)

namespace Ranges

/-- `rs.has c` holds if a range of `rs` has the character `c`. -/
def has (rs : Ranges) (c : Char) : Bool :=
  rs.any fun (lo, hi) => lo ≤ c.toNat && c.toNat ≤ hi

/-- The highest code point. -/
def last : Nat := 0x10FFFF

/-- The set of all characters. -/
def full : Ranges := [(0, last)]

/-- The set of one character. -/
def single (c : Char) : Ranges := [(c.toNat, c.toNat)]

/-- Whether all members are ASCII characters. -/
def isAscii (rs : Ranges) : Bool := rs.all fun (_, hi) => hi < 0x80

/-- The only member of a set that has one member. -/
def single? : Ranges → Option Char
  | [(lo, hi)] => if lo = hi ∧ lo.isValidChar then some (Char.ofNat lo) else none
  | _ => none

/-- A range in front of ranges that start no lower. What overlaps it or touches it becomes a part
of it. -/
def attach (r : Nat × Nat) : Ranges → Ranges
  | [] => [r]
  | s :: rs => if s.1 ≤ r.2 + 1 then attach (r.1, max r.2 s.2) rs else r :: s :: rs

/-- The normal form of ranges in the order of their starts. -/
def ofSorted (rs : Ranges) : Ranges := rs.foldr attach []

/-- The order of ranges by their starts. -/
def startsBefore (r s : Nat × Nat) : Bool := r.1 ≤ s.1

/-- The normal form of a list of ranges. -/
def ofList (rs : List (Nat × Nat)) : Ranges := ofSorted (rs.mergeSort startsBefore)

def union (rs ss : Ranges) : Ranges := ofSorted (rs.merge ss startsBefore)

/-- The union of several sets. -/
def unions (sets : List Ranges) : Ranges := ofList sets.flatten

/-- What lies between ranges, from a code point on. -/
def gaps (start : Nat) : Ranges → Ranges
  | [] => if start ≤ last then [(start, last)] else []
  | (lo, hi) :: rs =>
    if start < lo then (start, lo - 1) :: gaps (hi + 1) rs else gaps (hi + 1) rs

def complement (rs : Ranges) : Ranges := gaps 0 rs

def intersection (rs ss : Ranges) : Ranges := (rs.complement.union ss.complement).complement

def difference (rs ss : Ranges) : Ranges := rs.intersection ss.complement

/-- The members of one of two sets that are not members of the other. -/
def symmetricDifference (rs ss : Ranges) : Ranges := (rs.difference ss).union (ss.difference rs)

@[simp] theorem has_nil (c : Char) : has [] c = false := rfl

@[simp] theorem has_cons (r : Nat × Nat) (rs : Ranges) (c : Char) :
    has (r :: rs) c = ((r.1 ≤ c.toNat && c.toNat ≤ r.2) || has rs c) := rfl

end Ranges

end PixelScale.Text
