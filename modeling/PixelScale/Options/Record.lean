import PixelScale.Options.Basic

/-!
# Option records

A record says what a caller or a configuration text wants: any of the options, the rest being the
defaults.

* `Record.resolve`: the options in force.
* `Record.above`: a record laid over another one.
-/

namespace PixelScale

structure Record where
  unit : Option Text := none
  rootValue : Option Float := none
  unitPrecision : Option Nat := none
  selectorBlackList : Option (List MatchRule) := none
  propList : Option (List Text) := none
  replace : Option Bool := none
  mediaQuery : Option Bool := none
  minPixelValue : Option Float := none
  excludeFiles : Option (List MatchRule) := none
  hook : Option Hook := none

namespace Record

/-- The options that a record asks for, with the defaults for what it does not mention. -/
def resolve (r : Record) : Settings :=
  let d : Options := {}
  { options :=
      { unit := r.unit.getD d.unit
        rootValue := r.rootValue.getD d.rootValue
        unitPrecision := r.unitPrecision.getD d.unitPrecision
        selectorBlackList := r.selectorBlackList.getD d.selectorBlackList
        propList := r.propList.getD d.propList
        replace := r.replace.getD d.replace
        mediaQuery := r.mediaQuery.getD d.mediaQuery
        minPixelValue := r.minPixelValue.getD d.minPixelValue
        excludeFiles := r.excludeFiles.getD d.excludeFiles }
    hook := r.hook }

/-- What `r` says, and what `s` says where `r` says nothing. -/
def above (r s : Record) : Record :=
  { unit := r.unit <|> s.unit
    rootValue := r.rootValue <|> s.rootValue
    unitPrecision := r.unitPrecision <|> s.unitPrecision
    selectorBlackList := r.selectorBlackList <|> s.selectorBlackList
    propList := r.propList <|> s.propList
    replace := r.replace <|> s.replace
    mediaQuery := r.mediaQuery <|> s.mediaQuery
    minPixelValue := r.minPixelValue <|> s.minPixelValue
    excludeFiles := r.excludeFiles <|> s.excludeFiles
    hook := r.hook <|> s.hook }

end Record

end PixelScale
