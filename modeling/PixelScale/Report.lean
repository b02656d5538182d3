/-!
# Reports

What a run over a stylesheet did, in numbers. Reports add up field by field.

* `Report.changes`: the number of changes made.
-/

namespace PixelScale

structure Report where
  /-- declarations looked at; copies that the run inserted are not among them -/
  declarations : Nat := 0
  /-- declarations with a new value -/
  replaced : Nat := 0
  /-- converted copies -/
  inserted : Nat := 0
  /-- declarations whose property is not converted -/
  skippedProperty : Nat := 0
  /-- declarations of a rule that is left alone -/
  skippedSelector : Nat := 0
  /-- declarations whose converted form was there already -/
  skippedDuplicate : Nat := 0
  /-- media queries with new parameters -/
  mediaQueries : Nat := 0
deriving DecidableEq, Repr

namespace Report

def add (r s : Report) : Report :=
  { declarations := r.declarations + s.declarations
    replaced := r.replaced + s.replaced
    inserted := r.inserted + s.inserted
    skippedProperty := r.skippedProperty + s.skippedProperty
    skippedSelector := r.skippedSelector + s.skippedSelector
    skippedDuplicate := r.skippedDuplicate + s.skippedDuplicate
    mediaQueries := r.mediaQueries + s.mediaQueries }

instance : Add Report := ⟨add⟩

/-- The number of changes made to the tree. -/
def changes (r : Report) : Nat := r.replaced + r.inserted + r.mediaQueries

end Report

end PixelScale
