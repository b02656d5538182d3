import PixelScale.Text

/-!
# Formats of configuration texts

* `ConfigFormat.ofExtension`: the format of a file by the extension of its name.
-/

namespace PixelScale

inductive ConfigFormat where
  | toml
  | json
  | json5
deriving DecidableEq, Repr

/-- Files without an extension and with any other one hold TOML. -/
def ConfigFormat.ofExtension (extension : Option Text) : ConfigFormat :=
  if extension = some "json".toList then json
  else if extension = some "json5".toList then json5
  else toml

end PixelScale
