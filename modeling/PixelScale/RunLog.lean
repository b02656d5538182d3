import PixelScale.Json.Parser
import PixelScale.Json.Printer
import PixelScale.Report
import PixelScale.Timestamp

/-!
# Run logs

A run log has a line for every stylesheet of every run: a JSON object with the time, the file, the
outcome, and a report or an error where there is one. Reading takes such an object with its fields
in any order and others among them, or an array of all its fields.

* `RunLog.Entry.finished`, `RunLog.Entry.failed`: entries.
* `RunLog.Entry.ofText?`: reading a line.
* `RunLog.lines`: the text of entries.
-/

namespace PixelScale

namespace Report

/-- The names of the counters, with their values. -/
def counters (r : Report) : List (Text × Nat) :=
  [("declarations".toList, r.declarations), ("replaced".toList, r.replaced),
   ("inserted".toList, r.inserted), ("skipped_property".toList, r.skippedProperty),
   ("skipped_selector".toList, r.skippedSelector),
   ("skipped_duplicate".toList, r.skippedDuplicate), ("media_queries".toList, r.mediaQueries)]

def toJson (r : Report) : Json := .object (r.counters.map fun (name, n) => (name, .whole n))

/-- The number in a counter. -/
def count? : Json → Option Nat
  | .whole n => if 0 ≤ n ∧ n < Nat.pow 2 64 then some n.toNat else none
  | _ => none

/-- The report with the given counters. -/
def ofCounters? : List Nat → Option Report
  | [a, b, c, d, e, f, g] => some ⟨a, b, c, d, e, f, g⟩
  | _ => none

/-- The values that a record has for the given names, if it has each of them once. -/
def valuesOf? (names : List Text) (fields : List (Text × Json)) : Option (List Json) :=
  names.mapM fun name =>
    match fields.filter fun (n, _) => n = name with
    | [(_, v)] => some v
    | _ => none

def ofJson? : Json → Option Report
  | .object fields => do
    ofCounters? (← (← valuesOf? ((({} : Report).counters).map (·.1)) fields).mapM count?)
  | .array items => do ofCounters? (← items.mapM count?)
  | _ => none

end Report

namespace RunLog

/-- What became of a stylesheet. -/
inductive Status where
  | converted
  | unchanged
  /-- every record of options excluded it -/
  | excluded
  /-- it could not be read, understood or written -/
  | failed
deriving DecidableEq, Repr

namespace Status

def name : Status → Text
  | converted => "converted".toList
  | unchanged => "unchanged".toList
  | excluded => "excluded".toList
  | failed => "failed".toList

def ofName? (t : Text) : Option Status :=
  [converted, unchanged, excluded, failed].find? fun s => s.name = t

/-- A status is its name, or an object that has null under its name. -/
def ofJson? : Json → Option Status
  | .string t => ofName? t
  | .object [(t, .null)] => ofName? t
  | _ => none

end Status

structure Entry where
  timestamp : Text
  file : Text
  status : Status
  report : Option Report
  error : Option Text
deriving DecidableEq, Repr

namespace Entry

/-- The entry for a stylesheet that was read; without a report it was excluded. -/
def finished (timestamp file : Text) (report : Option Report) : Entry :=
  let status := match report with
    | none => Status.excluded
    | some r => if 0 < r.changes then .converted else .unchanged
  ⟨timestamp, file, status, report, none⟩

def failed (timestamp file error : Text) : Entry := ⟨timestamp, file, .failed, none, some error⟩

def toJson (e : Entry) : Json :=
  .object <|
    [("timestamp".toList, .string e.timestamp), ("file".toList, .string e.file),
     ("status".toList, .string e.status.name)] ++
    (e.report.map fun r => ("report".toList, r.toJson)).toList ++
    (e.error.map fun t => ("error".toList, Json.string t)).toList

def text? : Json → Option Text
  | .string t => some t
  | _ => none

/-- A part that may be null. -/
def unlessNull? {α : Type} (read : Json → Option α) : Json → Option (Option α)
  | .null => some none
  | v => (read v).map some

/-- A field that an object has at most once; one that it has not counts as null. -/
def optional? (name : Text) (fields : List (Text × Json)) : Option Json :=
  match fields.filter fun (n, _) => n = name with
  | [] => some .null
  | [(_, v)] => some v
  | _ => none

/-- The entry that the values of all fields stand for. -/
def ofValues? : List Json → Option Entry
  | [timestamp, file, status, report, error] => do
    return ⟨← text? timestamp, ← text? file, ← Status.ofJson? status,
      ← unlessNull? Report.ofJson? report, ← unlessNull? text? error⟩
  | _ => none

def ofJson? : Json → Option Entry
  | .object fields => do
    ofValues? ((← Report.valuesOf? ["timestamp".toList, "file".toList, "status".toList] fields) ++
      [← optional? "report".toList fields, ← optional? "error".toList fields])
  | .array items => ofValues? items
  | _ => none

/-- The entry that a line writes. -/
def ofText? (t : Text) : Option Entry := (Json.read? t).bind ofJson?

end Entry

/-- The text of entries, one on each line. -/
def lines (es : List Entry) : Text := es.flatMap fun e => e.toJson.print ++ ['\n']

end RunLog

end PixelScale
