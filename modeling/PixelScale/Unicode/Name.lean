import PixelScale.Unicode.Age
import PixelScale.Unicode.Break

/-!
# Names of sets of characters

A set of characters has a name, such as `Greek` or `Lu`, or is given by a property and its value,
such as `Script=Greek`. Names are read loosely: case, blanks, hyphens and underscores do not
matter, nor does `is` in front of them.

* `loose`: what matters of a name.
* `namedSet?`: the set with a name.
* `valueSet?`: the set given by a property and its value.
-/

namespace PixelScale.Unicode

open Text

/-- A name without `is` at its start. -/
def withoutIs : Text → Option Text
  | c :: d :: t => if (c = 'i' ∨ c = 'I') ∧ (d = 's' ∨ d = 'S') then some t else none
  | _ => none

/-- The ASCII characters of a name in lower case, without blanks, hyphens and underscores. -/
def plain (t : Text) : Text :=
  lowerAscii (t.filter fun c => c.toNat < 0x80 && c != ' ' && c != '-' && c != '_')

/-- What matters of a name. The name `isc` is kept, since it is not the name `c` in disguise. -/
def loose (name : Text) : Text :=
  match withoutIs name with
  | some t => if plain t = ['c'] then "isc".toList else plain t
  | none => plain name

/-- The set with a name: a property, a general category or a script. -/
def namedSet? (name : Text) : Option Ranges :=
  let name := loose name
  propertySet? name <|> categorySet? name <|> scriptSet? name

/-- The set of the characters with a value of a property. -/
def valueSet? (property value : Text) : Option Ranges :=
  let value := loose value
  match String.ofList (loose property) with
  | "generalcategory" | "gc" => categorySet? value
  | "script" | "sc" => scriptSet? value
  | "scriptextensions" | "scx" => scriptExtensionSet? value
  | "age" => ageSet? value
  | "graphemeclusterbreak" | "gcb" => graphemeBreakSet? value
  | "wordbreak" | "wb" => wordBreakSet? value
  | "sentencebreak" | "sb" => sentenceBreakSet? value
  | _ => none

end PixelScale.Unicode
