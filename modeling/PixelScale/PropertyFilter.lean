import PixelScale.Text

/-!
# Property filters

A property list says which properties are converted. Its entries are names with a star at either
end or at both, where a star stands for any text:

* `*` accepts every property;
* `name`, `name*`, `*name` and `*name*` accept a property that is the name, starts with it, ends
  with it or contains it;
* a `!` in front turns any of these but `*` around, and a property that such an entry meets is
  not converted whatever the other entries say.

Entries of any other form say nothing.

* `PropertyFilter.ofList`: the filter that a list stands for.
* `PropertyFilter.accepts`: whether a property is converted.
-/

namespace PixelScale

namespace PropertyFilter

/-- Which properties a name stands for. -/
inductive Shape where
  | exact
  | starting
  | ending
  | containing
deriving DecidableEq, Repr

/-- An entry of a property list. -/
inductive Entry where
  | all
  | named (negated : Bool) (shape : Shape) (name : Text)
deriving DecidableEq, Repr

/-- The text in front of a star that ends it. -/
def stripStar? (t : Text) : Option Text := if t.getLast? = some '*' then some t.dropLast else none

/-- The shape and the name of an entry without its `!`. -/
def shape? (body : Text) : Option (Shape × Text) :=
  let found := match body with
    | '*' :: rest =>
      match stripStar? body with
      | some _ => (stripStar? rest).map (Shape.containing, ·)
      | none => some (.ending, rest)
    | _ =>
      match stripStar? body with
      | some rest => some (.starting, rest)
      | none => some (.exact, body)
  found.filter fun (_, name) => !name.isEmpty && !name.contains '*'

/-- The entry that a text writes, if it says something. -/
def Entry.ofText? (t : Text) : Option Entry :=
  if t = ['*'] then some all
  else
    let (negated, body) := match t with
      | '!' :: rest => (true, rest)
      | _ => (false, t)
    if body.contains '!' then none
    else (shape? body).map fun (shape, name) => named negated shape name

/-- `s.meets name property` holds if the property is one that the name stands for. -/
def Shape.meets : Shape → Text → Text → Bool
  | exact, name, property => name == property
  | starting, name, property => name.isPrefixOf property
  | ending, name, property => name.isSuffixOf property
  | containing, name, property => Text.occurs name property

/-- Whether an entry asks for a property. -/
def Entry.asksFor : Entry → Text → Bool
  | all, _ => true
  | named negated shape name, property => !negated && shape.meets name property

/-- Whether an entry rules a property out. -/
def Entry.rulesOut : Entry → Text → Bool
  | all, _ => false
  | named negated shape name, property => negated && shape.meets name property

end PropertyFilter

/-- A property list, as it is asked about properties. -/
structure PropertyFilter where
  /-- whether every property is accepted at sight -/
  all : Bool
  /-- the entries that say something -/
  entries : List PropertyFilter.Entry
deriving DecidableEq, Repr

namespace PropertyFilter

/-- A list accepts all properties at sight if `*` is its only entry. -/
def isAll (list : List Text) : Bool := list == [['*']]

/-- The filter that a property list stands for. -/
def ofList (list : List Text) : PropertyFilter := ⟨isAll list, list.filterMap Entry.ofText?⟩

/-- Whether a property is converted. -/
def accepts (f : PropertyFilter) (property : Text) : Bool :=
  f.all || f.entries.any (·.asksFor property) && !f.entries.any (·.rulesOut property)

end PropertyFilter

end PixelScale
