import PixelScale.Text

/-!
# Paths

A path is the text that names a file. The slashes cut it into fields; an empty field in front is
the root, and empty fields and fields that are a dot say nothing anywhere else, except for a dot in
front. What is left are the components. Paths with equal components name the same file, but
messages show a path as it was written, so the text is kept and cut only at its ends.

* `Path.components`: the components.
* `Path.parent?`, `Path.fileName?`, `Path.extension?`: parts of a path.
* `Path.isStylesheet`: whether a path names a stylesheet.
* `Path.join`, `Path.relativeTo?`: one path behind another, and what is behind it.
* `Path.before`: the order of paths, by components.
-/

namespace PixelScale

structure Path where
  text : Text
deriving DecidableEq, Repr

namespace Path

inductive Component where
  | root
  | here
  | up
  | name (t : Text)
deriving DecidableEq, Repr

namespace Component

def rank : Component → Nat
  | root => 0
  | here => 1
  | up => 2
  | name _ => 3

/-- The order of components: the root, the two special names, then names as texts. -/
def before : Component → Component → Bool
  | name s, name t => Text.before s t
  | a, b => a.rank < b.rank

def text : Component → Text
  | root => ['/']
  | here => ['.']
  | up => ['.', '.']
  | name t => t

end Component

def fields (p : Path) : List Text := Text.fields '/' p.text

def isAbsolute (p : Path) : Bool := p.text.head? = some '/'

/-- The component of a field that is not the first one. -/
def component? (field : Text) : Option Component :=
  if field = [] ∨ field = ['.'] then none
  else some (if field = ['.', '.'] then .up else .name field)

/-- The component of the first field. -/
def firstComponent? (field : Text) (isLast : Bool) : Option Component :=
  if field = [] then if isLast then none else some .root
  else if field = ['.'] then some .here
  else component? field

/-- What a path is made of. -/
def components (p : Path) : List Component :=
  match p.fields with
  | [] => []
  | f :: fs => (firstComponent? f fs.isEmpty).toList ++ fs.filterMap component?

/-- Whether two paths name the same file. -/
def same (p q : Path) : Bool := p.components == q.components

/-- The order of lists of components. -/
def beforeBy : List Component → List Component → Bool
  | [], [] => false
  | [], _ :: _ => true
  | _ :: _, [] => false
  | a :: as, b :: bs => a.before b || (a == b && beforeBy as bs)

def before (p q : Path) : Bool := beforeBy p.components q.components

/-- The path that fields make up. Alone, an empty field of an absolute path is the root. -/
def ofFields (absolute : Bool) : List Text → Path
  | [[]] => ⟨if absolute then ['/'] else []⟩
  | fs => ⟨Text.join ['/'] fs⟩

/-- Fields without those at the end that say nothing; the first field stays. -/
def dropEnd : List Text → List Text
  | [] => []
  | f :: fs => f :: (fs.reverse.dropWhile fun g => (component? g).isNone).reverse

/-- The path of the folder around a path, cut at the end of its text. A root and an empty path
have none. -/
def parent? (p : Path) : Option Path :=
  match dropEnd p.fields with
  | [] | [[]] => none
  | [_] => some ⟨[]⟩
  | fs => some (ofFields p.isAbsolute (dropEnd fs.dropLast))

/-- The last component, if it is a name. -/
def fileName? (p : Path) : Option Text :=
  match p.components.getLast? with
  | some (.name t) => some t
  | _ => none

/-- What is behind the last dot of a name, if there is something in front of it. -/
def extension? (p : Path) : Option Text :=
  match p.fileName?.bind (Text.splitLast '.') with
  | some (_ :: _, extension) => some extension
  | _ => none

/-- Whether a path names a stylesheet, by its extension in any case of its letters. -/
def isStylesheet (p : Path) : Bool := p.extension?.any fun e => Text.lowerAscii e == "css".toList

/-- The path `q` seen from `p`. -/
def join (p q : Path) : Path :=
  if q.isAbsolute then q
  else if p.text.isEmpty || p.text.getLast? = some '/' then ⟨p.text ++ q.text⟩
  else ⟨p.text ++ '/' :: q.text⟩

/-- The fields behind the first `n` components. -/
def dropComponents : Nat → List Text → List Text
  | 0, fs => fs
  | _ + 1, [] => []
  | n + 1, f :: fs =>
    if (component? f).isNone then dropComponents (n + 1) fs else dropComponents n fs

/-- Fields without those at the start that say nothing. -/
def dropStart (fs : List Text) : List Text := fs.dropWhile fun f => (component? f).isNone

/-- What is behind the path `base` in the text of `p`. An empty base takes nothing away. -/
def relativeTo? (base p : Path) : Option Path :=
  let taken := base.components
  if taken.isPrefixOf p.components then
    match taken, p.fields with
    | [], fs => some (ofFields p.isAbsolute (dropEnd fs))
    | _ :: more, _ :: fs =>
      let rest := dropStart (dropComponents more.length fs)
      some ⟨Text.join ['/'] (rest.reverse.dropWhile fun g => (component? g).isNone).reverse⟩
    | _ :: _, [] => none
  else none

end Path

end PixelScale
