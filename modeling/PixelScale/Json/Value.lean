import PixelScale.Text

/-!
# JSON values

Numbers are whole or doubles: a whole number that does not fit into 64 bits is read as a double.
An object keeps its fields as they were written, until they are put in order.

* `Json.ofFields`: an object with its fields in order; of two fields with one name the last stays.
* `Json.ordered`: a value with all its objects in order.
* `Json.finite`: a value with null for the doubles that JSON has no notation for.
* `Json.field?`: the value of a field.
-/

namespace PixelScale

inductive Json where
  | null
  | bool (b : Bool)
  | whole (n : Int)
  | real (x : Float)
  | string (t : Text)
  | array (items : List Json)
  | object (fields : List (Text × Json))
deriving Repr

namespace Json

/-- A double, or null where JSON has no notation for it. -/
def ofFloat (x : Float) : Json := if x.isFinite then real x else null

/-- A whole number with a sign, if it fits into 64 bits. -/
def bounded? (negative : Bool) (n : Nat) : Option Json :=
  if negative then if n ≤ Nat.pow 2 63 then some (whole (-n)) else none
  else if n < Nat.pow 2 63 then some (whole n) else none

/-- Fields in order with one more, which replaces a field with its name. -/
def insertField (name : Text) (v : Json) : List (Text × Json) → List (Text × Json)
  | [] => [(name, v)]
  | (n, w) :: fs =>
    if name = n then (name, v) :: fs
    else if Text.before name n then (name, v) :: (n, w) :: fs
    else (n, w) :: insertField name v fs

/-- Fields in order, the last one with a name in place of the earlier ones. -/
def sortFields (fs : List (Text × Json)) : List (Text × Json) :=
  fs.foldl (fun sorted (name, v) => insertField name v sorted) []

def ofFields (fs : List (Text × Json)) : Json := object (sortFields fs)

mutual

/-- A value with the fields of all its objects in order. -/
def ordered : Json → Json
  | array items => array (orderedItems items)
  | object fields => ofFields (orderedFields fields)
  | v => v

def orderedItems : List Json → List Json
  | [] => []
  | v :: vs => ordered v :: orderedItems vs

def orderedFields : List (Text × Json) → List (Text × Json)
  | [] => []
  | (name, v) :: fs => (name, ordered v) :: orderedFields fs

end

mutual

/-- A value with null in the place of infinities and NaN. -/
def finite : Json → Json
  | real x => ofFloat x
  | array items => array (finiteItems items)
  | object fields => object (finiteFields fields)
  | v => v

def finiteItems : List Json → List Json
  | [] => []
  | v :: vs => finite v :: finiteItems vs

def finiteFields : List (Text × Json) → List (Text × Json)
  | [] => []
  | (name, v) :: fs => (name, finite v) :: finiteFields fs

end

/-- Fields without those of a given name. -/
def eraseField (name : Text) (fs : List (Text × Json)) : List (Text × Json) :=
  fs.filter fun (n, _) => n ≠ name

def field? (name : Text) : Json → Option Json
  | object fields => fields.lookup name
  | _ => none

end Json

end PixelScale
