import PixelScale.Json.Value

/-!
# Tables in TOML

The keys and headers of a document build up one table. Every table remembers how it came to be,
since that decides who may add to it: a table with a header of its own is closed to dotted keys from
outside, one that dotted keys made can only be added to by dotted keys, and one that was only passed
on the way to another may still get its header. Values, among them arrays and tables in braces, are
closed.

* `Table.insert?`: the effect of a key with a value.
* `Table.open?`, `Table.openNext?`: the effect of a header in single and in double brackets.
-/

namespace PixelScale.Toml

/-- How a table came to be. -/
inductive Origin where
  /-- by a header of its own -/
  | header
  /-- on the way to another table -/
  | passed
  /-- by a dotted key -/
  | dotted
deriving DecidableEq, Repr

inductive Item where
  | value (v : Json)
  | table (origin : Origin) (entries : List (Text × Item))
  /-- tables with headers in double brackets, the last one first -/
  | tables (entries : List (List (Text × Item)))

abbrev Table := List (Text × Item)

/-- Keys from a table down. -/
abbrev Keys := List Text

namespace Table

/-- A table with something else under a key. -/
def set (t : Table) (key : Text) (item : Item) : Table :=
  match t with
  | [] => [(key, item)]
  | (k, i) :: t => if k = key then (k, item) :: t else (k, i) :: set t key item

/-- A table with a value under a key that goes through the tables `path`. The origin of `t` is given;
the keys of the path do not lead into tables with headers, and the last table must have been made
by a dotted key if there is a path. -/
def insertIn? (origin : Origin) (inside : Bool) : Keys → Text → Json → Table → Option Table
  | [], key, v, t =>
    if (inside && origin != .dotted) || (t.lookup key).isSome then none
    else some (t.set key (.value v))
  | k :: path, key, v, t =>
    match t.lookup k with
    | none => (insertIn? .dotted true path key v []).map fun u => t.set k (.table .dotted u)
    | some (.table .header _) => none
    | some (.table origin u) =>
      (insertIn? origin true path key v u).map fun u => t.set k (.table origin u)
    | some (.tables (u :: us)) =>
      (insertIn? .header true path key v u).map fun u => t.set k (.tables (u :: us))
    | some (.tables []) | some (.value _) => none

/-- A table with a value under dotted keys. -/
def insert? (path : Keys) (key : Text) (v : Json) (t : Table) : Option Table :=
  insertIn? .header false path key v t

/-- A table with a change made in the table that header keys lead to. -/
def change? (f : Table → Option Table) : Keys → Table → Option Table
  | [], t => f t
  | k :: path, t =>
    match t.lookup k with
    | none => (change? f path []).map fun u => t.set k (.table .passed u)
    | some (.table origin u) => (change? f path u).map fun u => t.set k (.table origin u)
    | some (.tables (u :: us)) => (change? f path u).map fun u => t.set k (.tables (u :: us))
    | some (.tables []) | some (.value _) => none

/-- The effect of a header in single brackets. -/
def open? (path : Keys) (key : Text) : Table → Option Table :=
  change? (fun t =>
    match t.lookup key with
    | none => some (t.set key (.table .header []))
    | some (.table .passed u) => some (t.set key (.table .header u))
    | _ => none) path

/-- The effect of a header in double brackets. -/
def openNext? (path : Keys) (key : Text) : Table → Option Table :=
  change? (fun t =>
    match t.lookup key with
    | none => some (t.set key (.tables [[]]))
    | some (.tables us) => some (t.set key (.tables ([] :: us)))
    | _ => none) path

end Table

mutual

/-- The value of an item. -/
def Item.toJson : Item → Json
  | .value v => v
  | .table _ entries => .object (fieldsOf entries)
  | .tables us => .array (valuesOf us).reverse

def fieldsOf : List (Text × Item) → List (Text × Json)
  | [] => []
  | (k, i) :: es => (k, i.toJson) :: fieldsOf es

def valuesOf : List (List (Text × Item)) → List Json
  | [] => []
  | u :: us => .object (fieldsOf u) :: valuesOf us

end

def Table.toJson (t : Table) : Json := .object (fieldsOf t)

end PixelScale.Toml
