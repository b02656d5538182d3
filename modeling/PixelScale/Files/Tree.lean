import PixelScale.Files.Content

/-!
# File trees

A tree is a file or a folder, and the entries of a folder are ordered by name. A location is the
list of names that leads from the root to a place in the tree.

* `FileTree.at?`: what is at a location.
* `FileTree.put`: a tree with something else at a location.
-/

namespace PixelScale

inductive FileTree where
  | file (content : Content)
  | folder (entries : List (Text × FileTree))
deriving Repr

/-- Names from the root of a tree down. -/
abbrev Location := List Text

namespace FileTree

/-- Entries in order with one more, which replaces an entry with its name. -/
def insertEntry (name : Text) (t : FileTree) : List (Text × FileTree) → List (Text × FileTree)
  | [] => [(name, t)]
  | (n, u) :: es =>
    if name = n then (name, t) :: es
    else if Text.before name n then (name, t) :: (n, u) :: es
    else (n, u) :: insertEntry name t es

/-- The entries of a folder; a file has none. -/
def entries : FileTree → List (Text × FileTree)
  | file _ => []
  | folder es => es

def isFolder : FileTree → Bool
  | file _ => false
  | folder _ => true

def isFile (t : FileTree) : Bool := !t.isFolder

/-- What is at a location. -/
def at? : Location → FileTree → Option FileTree
  | [], t => some t
  | n :: ns, t => (t.entries.lookup n).bind (at? ns)

/-- A tree with `u` at a location; folders that are missing on the way are made. -/
def put (t : FileTree) : Location → FileTree → FileTree
  | [], u => u
  | n :: ns, u =>
    folder (insertEntry n (put ((t.entries.lookup n).getD (folder [])) ns u) t.entries)

mutual

/-- The files of a tree, each with the names that lead to it behind `above`. -/
def files (above : Location) : FileTree → List (Location × Content)
  | file content => [(above, content)]
  | folder entries => filesOfEntries above entries

def filesOfEntries (above : Location) : List (Text × FileTree) → List (Location × Content)
  | [] => []
  | (name, t) :: es => files (above ++ [name]) t ++ filesOfEntries above es

end

end FileTree

end PixelScale
