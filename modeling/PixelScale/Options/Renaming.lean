import PixelScale.Json.Value

/-!
# Older names of options

Some options had other names once. A record that uses an older name is read as if it used the
present one, and where it uses both the older one counts. An empty white list of properties used
to stand for all properties, which a star says now; it yields to a property list.

* `Renaming.renamed`: the fields of a record under their present names.
-/

namespace PixelScale.Renaming

/-- Fields of a JSON object. -/
abbrev Fields := List (Text × Json)

def propList : Text := "propList".toList

/-- The two older names of the property list. -/
def whiteLists : List Text := ["prop_white_list".toList, "propWhiteList".toList]

/-- The older names with the present ones, in the order in which they are replaced. -/
def names : List (Text × Text) :=
  [("root_value", "rootValue"), ("unit_precision", "unitPrecision"),
   ("selector_black_list", "selectorBlackList"), ("prop_white_list", "propList"),
   ("media_query", "mediaQuery"), ("propWhiteList", "propList")].map fun (a, b) =>
    (a.toList, b.toList)

def isEmptyList : Json → Bool
  | .array items => items.isEmpty
  | .string t => t.isEmpty
  | _ => false

/-- Whether an empty white list stands for all properties. -/
def acceptsAll (fs : Fields) : Bool :=
  whiteLists.any (fun name => (fs.lookup name).any isEmptyList) && (fs.lookup propList).isNone

/-- Fields with a star for the property list in place of the white lists. -/
def withStar (fs : Fields) : Fields :=
  Json.insertField propList (.array [.string ['*']]) (whiteLists.foldr Json.eraseField fs)

/-- Fields with one older name replaced. -/
def replaceName (fs : Fields) (older present : Text) : Fields :=
  match fs.lookup older with
  | some v => Json.insertField present v (Json.eraseField older fs)
  | none => fs

/-- The fields of a record under their present names. -/
def renamed (fs : Fields) : Fields :=
  names.foldl (fun fs (older, present) => replaceName fs older present)
    (if acceptsAll fs then withStar fs else fs)

end PixelScale.Renaming
