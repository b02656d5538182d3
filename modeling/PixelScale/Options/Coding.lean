import PixelScale.Json.Mismatch
import PixelScale.Options.Record
import PixelScale.Options.Renaming

/-!
# Option records as JSON

A record is an object with a field for every option it mentions. Reading goes through the fields
in their order and stops at the first problem. A field that is null mentions nothing, but it still
counts as a use of its name.

* `Record.ofFields`, `Record.ofJson`: reading.
* `Record.toFields`, `Options.toFields`: writing, in the order in which options are declared.
-/

namespace PixelScale

/-- What is wrong with the fields of an option record. -/
inductive RecordError where
  | unknownField (name : Text)
  | duplicateField (name : Text)
  | mismatch (m : Mismatch)
  /-- a value that is no match rule -/
  | noRule
  /-- a match rule whose regular expression is refused -/
  | badPattern (source : Text) (cause : Regex.Refusal)

/-- The options that a record can mention. -/
inductive Field where
  | unit
  | rootValue
  | unitPrecision
  | selectorBlackList
  | propList
  | replace
  | mediaQuery
  | minPixelValue
  | excludeFiles
deriving DecidableEq, Repr

namespace Field

/-- The names of a field in messages and records; the first one is written. -/
def names : Field → List Text
  | unit => ["unit".toList]
  | rootValue => ["rootValue".toList]
  | unitPrecision => ["unitPrecision".toList]
  | selectorBlackList => ["selectorBlackList".toList]
  | propList => ["propList".toList, "prop_list".toList]
  | replace => ["replace".toList]
  | mediaQuery => ["mediaQuery".toList]
  | minPixelValue => ["minPixelValue".toList, "min_pixel_value".toList]
  | excludeFiles => ["excludeFiles".toList, "exclude_files".toList]

def all : List Field :=
  [unit, rootValue, unitPrecision, selectorBlackList, propList, replace, mediaQuery, minPixelValue,
   excludeFiles]

def name (f : Field) : Text := f.names.headD []

def ofName? (name : Text) : Option Field := all.find? fun f => f.names.contains name

end Field

namespace RecordError

/-- A name in a message. -/
def ticked (t : Text) : Text := '\x60' :: t ++ ['\x60']

/-- What is said about a pattern that is refused. -/
def badPatternMessage (source : Text) (cause : Regex.Refusal) : Text :=
  "invalid pattern '".toList ++ source ++ "': ".toList ++ cause.message

def message : RecordError → Text
  | unknownField name =>
    "unknown field ".toList ++ ticked name ++ ", expected one of ".toList ++
      Text.join ", ".toList ((Field.all.flatMap Field.names).map ticked)
  | duplicateField name => "duplicate field ".toList ++ ticked name
  | mismatch m => m.message
  | noRule => "data did not match any variant of untagged enum RuleRepr".toList
  | badPattern source cause => badPatternMessage source cause

end RecordError

namespace MatchRule

def ofJson : Json → Except RecordError MatchRule
  | .string t => .ok (literal t)
  | .object fields =>
    match fields.lookup "pattern".toList with
    | some (.string source) =>
      match Pattern.ofSource source with
      | .ok p => .ok (pattern p)
      | .error cause => .error (.badPattern source cause)
    | _ => .error .noRule
  | _ => .error .noRule

def toJson : MatchRule → Json
  | literal t => .string t
  | pattern p => .object [("pattern".toList, .string p.source)]

end MatchRule

namespace Record

/-- A reader of a list from a reader of its items. -/
def listOf {α : Type} (read : Json → Except RecordError α) (v : Json) :
    Except RecordError (List α) := do
  (← v.asItems.mapError .mismatch).mapM read

/-- A reader with mismatches as its errors, among the others. -/
def readBy {α : Type} (read : Json → Except Mismatch α) (v : Json) : Except RecordError α :=
  (read v).mapError .mismatch

/-- A reader for a field that may be null. -/
def unlessNull {α : Type} (read : Json → Except RecordError α) : Json → Except RecordError (Option α)
  | .null => .ok none
  | v => (read v).map some

/-- A record with a field read from JSON. -/
def set (r : Record) (f : Field) (v : Json) : Except RecordError Record :=
  match f with
  | .unit => return { r with unit := ← unlessNull (readBy Json.asText) v }
  | .rootValue => return { r with rootValue := ← unlessNull (readBy Json.asFloat) v }
  | .unitPrecision => return { r with unitPrecision := ← unlessNull (readBy Json.asBounded) v }
  | .selectorBlackList =>
    return { r with selectorBlackList := ← unlessNull (listOf MatchRule.ofJson) v }
  | .propList => return { r with propList := ← unlessNull (listOf (readBy Json.asText)) v }
  | .replace => return { r with replace := ← unlessNull (readBy Json.asBool) v }
  | .mediaQuery => return { r with mediaQuery := ← unlessNull (readBy Json.asBool) v }
  | .minPixelValue => return { r with minPixelValue := ← unlessNull (readBy Json.asFloat) v }
  | .excludeFiles => return { r with excludeFiles := ← unlessNull (listOf MatchRule.ofJson) v }

/-- A record with fields read from JSON, where the fields `used` were read before. -/
def setAll (used : List Field) (r : Record) : List (Text × Json) → Except RecordError Record
  | [] => .ok r
  | (name, v) :: fs =>
    match Field.ofName? name with
    | none => .error (.unknownField name)
    | some f =>
      if f ∈ used then .error (.duplicateField f.name)
      else do setAll (f :: used) (← r.set f v) fs

/-- The record that fields stand for, some of which may have older names. -/
def ofFields (fs : List (Text × Json)) : Except RecordError Record :=
  setAll [] {} (Renaming.renamed fs)

def rulesToJson (rules : List MatchRule) : Json := .array (rules.map MatchRule.toJson)

/-- The value of a field, if the record mentions it. -/
def get? (r : Record) : Field → Option Json
  | .unit => r.unit.map .string
  | .rootValue => r.rootValue.map .ofFloat
  | .unitPrecision => r.unitPrecision.map fun n => .whole n
  | .selectorBlackList => r.selectorBlackList.map rulesToJson
  | .propList => r.propList.map fun ts => .array (ts.map .string)
  | .replace => r.replace.map .bool
  | .mediaQuery => r.mediaQuery.map .bool
  | .minPixelValue => r.minPixelValue.map .ofFloat
  | .excludeFiles => r.excludeFiles.map rulesToJson

/-- The fields of a record. A hook has no written form. -/
def toFields (r : Record) : List (Text × Json) :=
  Field.all.filterMap fun f => (r.get? f).map (f.name, ·)

def toJson (r : Record) : Json := .object r.toFields

end Record

/-- The record that mentions every option. -/
def Options.toRecord (o : Options) : Record :=
  { unit := o.unit
    rootValue := o.rootValue
    unitPrecision := o.unitPrecision
    selectorBlackList := o.selectorBlackList
    propList := o.propList
    replace := o.replace
    mediaQuery := o.mediaQuery
    minPixelValue := o.minPixelValue
    excludeFiles := o.excludeFiles }

def Options.toJson (o : Options) : Json := o.toRecord.toJson

end PixelScale
