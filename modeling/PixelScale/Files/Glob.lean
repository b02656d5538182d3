import PixelScale.Files.Disk
import PixelScale.Text.Blank

/-!
# Glob patterns

A glob pattern stands for paths. Its slashes cut it into parts, and each part stands for names:
`?` for any character, `*` for any text, `[…]` for a character of a set and `[!…]` for one that is
not in it. A part that is two stars stands for any number of folders. A part without any of these
is a name that is looked up, so that it may also be a dot or two dots, or nothing.

The paths that a pattern stands for come in the order of a walk through the tree in which a folder
comes before its entries and entries come by name. A pattern that ends in a slash stands for
folders only.

* `Glob.ofText`: reading a pattern.
* `Glob.paths`: the paths that a pattern stands for.
* `Glob.base`: the part of a pattern that is a path.
-/

namespace PixelScale

namespace Glob

/-- A set of characters is a list of ranges. -/
abbrev Ranges := List (Char × Char)

inductive Token where
  | char (c : Char)
  | anyChar
  | anyText
  | oneOf (rs : Ranges)
  | noneOf (rs : Ranges)
  /-- two stars -/
  | folders
deriving DecidableEq, Repr

/-- What is wrong with a pattern, and near which character. -/
inductive Problem where
  | stars (position : Nat)
  | foldersInPart (position : Nat)
  | range (position : Nat)
deriving DecidableEq, Repr

namespace Problem

def position : Problem → Nat
  | stars n | foldersInPart n | range n => n

def reason : Problem → Text
  | stars _ => "wildcards are either regular \x60*\x60 or recursive \x60**\x60".toList
  | foldersInPart _ => "recursive wildcards must form a single path component".toList
  | range _ => "invalid range pattern".toList

def message (p : Problem) : Text :=
  "Pattern syntax error near position ".toList ++ Text.ofNat p.position ++ ": ".toList ++ p.reason

end Problem

/-! ## Reading -/

/-- The ranges that the text between brackets writes. -/
def rangesOf : Text → Ranges
  | a :: '-' :: b :: t => (a, b) :: rangesOf t
  | a :: t => (a, a) :: rangesOf t
  | [] => []

/-- A set of characters behind its opening bracket; at least one character stands in it. -/
def set? : Text → Option (Token × Text)
  | '!' :: c :: t => (Text.splitFirst ']' t).map fun (s, t) => (.noneOf (rangesOf (c :: s)), t)
  | ['!'] => none
  | c :: t => (Text.splitFirst ']' t).map fun (s, t) => (.oneOf (rangesOf (c :: s)), t)
  | [] => none

theorem splitFirst_length {x : Char} {t a b : Text} (h : Text.splitFirst x t = some (a, b)) :
    b.length < t.length := by
  induction t generalizing a with
  | nil => cases h
  | cons c t ih =>
    simp only [Text.splitFirst] at h
    split at h
    · cases h; simp
    · obtain ⟨⟨a', b'⟩, h', heq⟩ := Option.map_eq_some_iff.1 h
      cases heq
      exact Nat.lt_succ_of_lt (ih h')

theorem set?_length {t rest : Text} {k : Token} (h : set? t = some (k, rest)) :
    rest.length < t.length := by
  unfold set? at h
  split at h
  · obtain ⟨⟨a, b⟩, h', heq⟩ := Option.map_eq_some_iff.1 h
    cases heq
    have := splitFirst_length h'
    simp only [List.length_cons]; omega
  · cases h
  · obtain ⟨⟨a, b⟩, h', heq⟩ := Option.map_eq_some_iff.1 h
    cases heq
    have := splitFirst_length h'
    simp only [List.length_cons]; omega
  · cases h

/-- The tokens of a pattern from a position on; `last` is the character in front, if any. -/
def tokensFrom (position : Nat) (last : Option Char) (t : Text) : Except Problem (List Token) :=
  match t with
  | [] => .ok []
  | '*' :: '*' :: '*' :: _ => .error (.stars (position + 2))
  | '*' :: '*' :: t =>
    if last.any (· ≠ '/') then .error (.foldersInPart (position - 1))
    else
      match t with
      | [] => .ok [.folders]
      | '/' :: t => do return .folders :: (← tokensFrom (position + 3) (some '/') t)
      | _ => .error (.foldersInPart (position + 2))
  | '[' :: t =>
    match h : set? t with
    | some (token, rest) => do
      have : rest.length < t.length := set?_length h
      return token :: (← tokensFrom (position + 1 + (t.length - rest.length)) (some ']') rest)
    | none => .error (.range position)
  | c :: t => do
    let token := if c = '?' then .anyChar else if c = '*' then .anyText else .char c
    return token :: (← tokensFrom (position + 1) (some c) t)
termination_by t.length

/-- The tokens of a pattern. -/
def tokens (t : Text) : Except Problem (List Token) := tokensFrom 0 none t

/-- A part of a pattern. -/
inductive Part where
  /-- a name that is looked up -/
  | name (t : Text)
  | folders
  | wild (ts : List Token)
deriving DecidableEq, Repr

/-- The text of tokens that are all characters. -/
def plain? (ts : List Token) : Option Text :=
  ts.mapM fun
    | .char c => some c
    | _ => none

def Part.ofTokens (ts : List Token) : Part :=
  match plain? ts with
  | some t => .name t
  | none => if ts.contains .folders then .folders else .wild ts

/-- Parts with one in place of several that are two stars. -/
def collapse : List Part → List Part
  | .folders :: .folders :: ps => collapse (.folders :: ps)
  | p :: ps => p :: collapse ps
  | [] => []

/-- The texts of the parts behind the root. A slash at the end adds no part. -/
def partTexts (t : Text) : List Text :=
  let fields := Text.fields '/' t
  if 1 < fields.length ∧ fields.getLast? = some [] then fields.dropLast else fields

end Glob

/-- A pattern. -/
structure Glob where
  absolute : Bool
  parts : List Glob.Part
  /-- whether only folders are asked for -/
  onlyFolders : Bool
deriving Repr

namespace Glob

/-- The pattern that a text writes. The text is checked as a whole and then part by part. -/
def ofText (t : Text) : Except Problem Glob := do
  let _ ← tokens t
  let absolute := t.head? = some '/'
  let parts ← (partTexts (if absolute then t.tail else t)).mapM fun s => do
    return Part.ofTokens (← tokens s)
  return ⟨absolute, collapse parts, t.getLast? = some '/'⟩

/-! ## Matching names -/

def hasRange (rs : Ranges) (c : Char) : Bool := rs.any fun (a, b) => a ≤ c && c ≤ b

/-- The texts that a text ends with, the whole text first. -/
def endings : Text → List Text
  | [] => [[]]
  | c :: t => (c :: t) :: endings t

/-- Whether a token stands for a character. -/
def Token.has : Token → Char → Bool
  | char d, c => d == c
  | anyChar, _ => true
  | oneOf rs, c => hasRange rs c
  | noneOf rs, c => !hasRange rs c
  | anyText, _ => false
  | folders, _ => false

/-- Whether tokens stand for a text. -/
def accepts : List Token → Text → Bool
  | [], t => t.isEmpty
  | .anyText :: ts, t => (endings t).any (accepts ts)
  | k :: ts, c :: t => k.has c && accepts ts t
  | _ :: _, [] => false

/-- Whether a part stands for the name of an entry. -/
def Part.accepts : Part → Text → Bool
  | name t, n => t == n
  | folders, _ => false
  | wild ts, n => Glob.accepts ts n

/-! ## Paths -/

/-- The path of an entry of a folder. Names in the working folder stand alone. -/
def under (p : Path) (name : Text) : Path :=
  if p.components = [.here] then ⟨name⟩ else p.join ⟨name⟩

mutual

/-- The paths that `f` gives for everything below a tree, each entry before what is below it. -/
def below (f : Text → Path → FileTree → List Path) (p : Path) : FileTree → List Path
  | .file _ => []
  | .folder entries => belowEntries f p entries

def belowEntries (f : Text → Path → FileTree → List Path) (p : Path) :
    List (Text × FileTree) → List Path
  | [] => []
  | (name, t) :: es =>
    let q := under p name
    f name q t ++ below f q t ++ belowEntries f p es

end

/-- The paths behind `p` that the parts stand for, where `t` is what `p` leads to. -/
def walk (d : Disk) (onlyFolders : Bool) : List Part → Path → FileTree → List Path
  | [], p, t => if onlyFolders && t.isFile then [] else [p]
  | .name s :: ps, p, t =>
    let q := under p s
    let special := s = ['.'] ∨ s = ['.', '.']
    if special ∧ t.isFile then []
    else
      match d.look? q with
      | some u => walk d onlyFolders ps q u
      | none => []
  | [.folders], p, t => below (fun _ q u => if u.isFolder then [q] else []) p t
  | .folders :: part :: ps, p, t =>
    below (fun name q u => if part.accepts name then walk d onlyFolders ps q u else []) p t
  | .wild ts :: ps, p, t =>
    let dots := [['.', '.'], ['.']].flatMap fun s =>
      let q := p.join ⟨s⟩
      if t.isFolder && ts.head? == some (.char '.') && accepts ts s then
        match d.look? q with
        | some u => walk d onlyFolders ps q u
        | none => []
      else []
    dots ++ t.entries.flatMap fun (name, u) =>
      if accepts ts name then walk d onlyFolders ps (under p name) u else []

/-- The paths that a pattern stands for. -/
def paths (g : Glob) (d : Disk) : List Path :=
  let start : Path := ⟨if g.absolute then ['/'] else ['.']⟩
  match d.look? start with
  | some t => walk d g.onlyFolders g.parts start t
  | none => []

/-- The path that the names in front of the first wildcard make up. -/
def start (g : Glob) : Path :=
  g.parts.foldr (fun part rest p =>
    match part with
    | .name s => rest (under p s)
    | _ => p) id ⟨if g.absolute then ['/'] else ['.']⟩

/-- How many names follow one another in a path, if their number is bounded. -/
def depth? (g : Glob) : Option Nat :=
  if g.parts.contains .folders then none else some g.parts.length

def isWild (c : Char) : Bool := c == '*' || c == '?' || c == '['

/-- The components of a pattern in front of the first one with a wildcard, as a path. -/
def base (t : Text) : Path :=
  ((Path.components ⟨t⟩).takeWhile fun c => !c.text.any isWild).foldl
    (fun p c => p.join ⟨c.text⟩) ⟨[]⟩

end Glob

end PixelScale
