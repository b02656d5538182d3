import PixelScale.Files.Error
import PixelScale.Files.Path
import PixelScale.Files.Tree

/-!
# Disks

A disk is a tree with a working folder, from which relative paths lead. A path is followed field by
field, and every place on the way must be a folder. There are no links, so a path leads to one
location. Names have at most 255 bytes and paths fewer than 4096.

An operation fails with the error of its first obstacle. What is opened for writing need not be
there, but its folder must; a path that ends in a slash cannot be opened for writing.

* `Disk.locate`, `Disk.look?`: where a path leads, and what is there.
* `Disk.read`, `Disk.write`, `Disk.append`, `Disk.makeFolder`: the operations.
-/

namespace PixelScale

structure Disk where
  root : FileTree
  /-- the location of the working folder -/
  working : Location

namespace Disk

def isFolderAt (d : Disk) (l : Location) : Bool := (d.root.at? l).any FileTree.isFolder

def longestName : Nat := 255

def pathLimit : Nat := 4096

/-- Where one more field leads from a location. -/
def step (d : Disk) (l : Location) (field : Text) : Except FileError Location :=
  if !d.isFolderAt l then .error .notDirectory
  else
    match Path.component? field with
    | some (.name n) =>
      if longestName < n.bytes then .error .nameTooLong
      else if (d.root.at? (l ++ [n])).isSome then .ok (l ++ [n])
      else .error .notFound
    | some .up => .ok l.dropLast
    | _ => .ok l

/-- Where a path starts. -/
def origin (d : Disk) (p : Path) : Except FileError Location :=
  if p.text.isEmpty then .error .notFound
  else if pathLimit ≤ p.text.bytes then .error .nameTooLong
  else .ok (if p.isAbsolute then [] else d.working)

/-- Where a path leads. -/
def locate (d : Disk) (p : Path) : Except FileError Location := do
  p.fields.foldlM d.step (← d.origin p)

/-- What a path leads to. -/
def look? (d : Disk) (p : Path) : Option FileTree :=
  match d.locate p with
  | .ok l => d.root.at? l
  | .error _ => none

/-! ## Reading -/

def read (d : Disk) (p : Path) : Except FileError Text := do
  let l ← d.locate p
  match d.root.at? l with
  | some (.file (.text t)) => .ok t
  | some (.file (.binary _)) => .error .notText
  | some (.folder _) => .error .isDirectory
  | none => .error .notFound

/-! ## Writing -/

/-- The fields of a path up to the last one that is not empty, in two parts, and whether a slash
follows. -/
def splitTarget (p : Path) : List Text × Option Text × Bool :=
  let fields := (p.fields.reverse.dropWhile List.isEmpty).reverse
  (fields.dropLast, fields.getLast?, fields.length < p.fields.length)

/-- The folder that the last field of a path is looked up in. -/
def folderOf (d : Disk) (p : Path) : Except FileError Location := do
  let l ← (splitTarget p).1.foldlM d.step (← d.origin p)
  if d.isFolderAt l then .ok l else .error .notDirectory

/-- Where a file can be opened for writing. -/
def target (d : Disk) (p : Path) : Except FileError Location := do
  let l ← d.folderOf p
  match splitTarget p with
  | (_, some field, false) =>
    match Path.component? field with
    | some (.name n) =>
      if longestName < n.bytes then .error .nameTooLong
      else if d.isFolderAt (l ++ [n]) then .error .isDirectory
      else .ok (l ++ [n])
    | _ => .error .isDirectory
  | _ => .error .isDirectory

/-- A disk with a file at a location. -/
def put (d : Disk) (l : Location) (content : Content) : Disk :=
  { d with root := d.root.put l (.file content) }

def write (d : Disk) (p : Path) (t : Text) : Except FileError Disk := do
  return d.put (← d.target p) (.text t)

def append (d : Disk) (p : Path) (t : Text) : Except FileError Disk := do
  let l ← d.target p
  match d.root.at? l with
  | some (.file content) => return d.put l (content.append t)
  | _ => return d.put l (.text t)

/-- A disk with a new folder, whose parent must be there. -/
def makeFolder (d : Disk) (p : Path) : Except FileError Disk := do
  let l ← d.folderOf p
  match (splitTarget p).2.1.bind Path.component? with
  | some (.name n) =>
    if longestName < n.bytes then .error .nameTooLong
    else if (d.root.at? (l ++ [n])).isSome then .error .alreadyExists
    else return { d with root := d.root.put (l ++ [n]) (.folder []) }
  | _ => .error .alreadyExists

end Disk

end PixelScale
