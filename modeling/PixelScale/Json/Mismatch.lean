import PixelScale.Json.Printer
import PixelScale.Text.Quoted

/-!
# Reading values out of JSON

A value of the wrong kind is a mismatch, which says what was found and what was expected. A whole
number is read as a double where one is expected, but not the other way round.

* `Json.asText`, `Json.asFloat`, `Json.asBounded`, `Json.asBool`, `Json.asItems`: the readers.
* `Mismatch.message`: what is said about a mismatch.
-/

namespace PixelScale

/-- Why a JSON value does not stand for what was expected. -/
inductive Mismatch where
  | kind (found : Json) (expected : Text)
  /-- a number outside the range of its kind -/
  | range (found : Json) (expected : Text)

namespace Json

/-- A value as a message shows it: its kind, and the value if it is short. -/
def described : Json → Text
  | null => "null".toList
  | bool b => "boolean \x60".toList ++ (bool b).print ++ ['\x60']
  | whole n => "integer \x60".toList ++ printWhole n ++ ['\x60']
  | real x => "floating point \x60".toList ++ Layout.inRecord.write x ++ ['\x60']
  | string t => "string ".toList ++ Text.quoted t
  | array _ => "sequence".toList
  | object _ => "map".toList

def asText : Json → Except Mismatch Text
  | string t => .ok t
  | v => .error (.kind v "a string".toList)

def asFloat : Json → Except Mismatch Float
  | real x => .ok x
  | whole n => .ok (Float.ofInt n)
  | v => .error (.kind v "f64".toList)

/-- A natural number below `2 ^ 32`. -/
def asBounded : Json → Except Mismatch Nat
  | whole n =>
    if 0 ≤ n ∧ n < Nat.pow 2 32 then .ok n.toNat else .error (.range (whole n) "u32".toList)
  | v => .error (.kind v "u32".toList)

def asBool : Json → Except Mismatch Bool
  | bool b => .ok b
  | v => .error (.kind v "a boolean".toList)

def asItems : Json → Except Mismatch (List Json)
  | array items => .ok items
  | v => .error (.kind v "a sequence".toList)

end Json

def Mismatch.message : Mismatch → Text
  | kind found expected =>
    "invalid type: ".toList ++ found.described ++ ", expected ".toList ++ expected
  | range found expected =>
    "invalid value: ".toList ++ found.described ++ ", expected ".toList ++ expected

end PixelScale
