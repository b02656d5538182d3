import PixelScale.Options.Error

/-!
# Option sets

A set is a list of records. For a file the last record that does not exclude it counts; a
stylesheet without a path is excluded by none. A set is written as one record, as an array of
records, or as an object whose only field `options` is such an array.

* `OptionSet.select`: the options for a file.
* `OptionSet.problems`: the values out of their ranges.
* `OptionSet.ofJson`: reading.
* `OptionSet.override`: a record laid over every record of a set.
-/

namespace PixelScale

structure OptionSet where
  records : List Record

namespace OptionSet

/-- The set whose only record mentions nothing. -/
def default : OptionSet := ⟨[{}]⟩

/-- The options for a file, or for a stylesheet without a path; none if every record excludes
it. -/
def select (s : OptionSet) (path : Option Text) : Option Settings :=
  ((s.records.map Record.resolve).filter fun r => !path.any r.options.excludes).getLast?

/-- The values out of their ranges, record by record. -/
def problems (s : OptionSet) : List PlacedProblem :=
  s.records.zipIdx.flatMap fun (r, i) =>
    r.resolve.options.problems.map fun p => ⟨if 1 < s.records.length then some i else none, p⟩

/-- The set itself if its values are in their ranges. -/
def validated (s : OptionSet) : Except ConfigError OptionSet :=
  if s.problems.isEmpty then .ok s else .error (.problems s.problems)

/-- The record that a JSON value writes. -/
def recordOfJson : Json → Except ConfigError Record
  | .object fields => (Record.ofFields fields).mapError .record
  | v => .error (.noRecord v)

/-- The JSON values of the records of a set. -/
def items : Json → Except ConfigError (List Json)
  | .array vs => .ok vs
  | .object fields =>
    match fields.lookup "options".toList with
    | some (.array vs) =>
      if (Json.eraseField "options".toList fields).isEmpty then .ok vs else .error .mixed
    | _ => .ok [.object fields]
  | v => .ok [v]

/-- The set that a JSON value writes, its values being in their ranges. -/
def ofJson (v : Json) : Except ConfigError OptionSet := do
  validated ⟨← (← items v).mapM recordOfJson⟩

/-- A set with a record laid over each of its records. -/
def override (r : Record) (s : OptionSet) : OptionSet := ⟨s.records.map r.above⟩

end OptionSet

end PixelScale
