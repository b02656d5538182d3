import PixelScale.Json5.Parser
import PixelScale.OptionSet
import PixelScale.Toml.Parser

/-!
# Configuration texts

A configuration text holds an option set in one of three formats. Infinities and NaN, which two of
them have notations for, become null.

* `ConfigFormat.read?`: the value that a text writes.
* `ConfigFormat.parse?`: the JSON value that it stands for.
* `OptionSet.ofText`: the set that a text holds.
-/

namespace PixelScale

namespace ConfigFormat

/-- The value that a text of the given format writes, with the fields of objects in their order and
all of them. -/
def read? : ConfigFormat → Text → Option Json
  | toml, t => Toml.read? t
  | json, t => Json.read? t
  | json5, t => Json5.read? t

/-- A value as far as it is kept. -/
def kept : ConfigFormat → Json → Json
  | json, v => v
  | toml, v | json5, v => v.finite

/-- The JSON value that a text of the given format stands for. -/
def parse? (format : ConfigFormat) (t : Text) : Option Json :=
  (format.read? t).map fun v => (format.kept v).ordered

end ConfigFormat

/-- The set that a text holds, its values being in their ranges. -/
def OptionSet.ofText (format : ConfigFormat) (t : Text) : Except ConfigError OptionSet :=
  match format.parse? t with
  | some v => OptionSet.ofJson v
  | none => .error (.malformed format)

end PixelScale
