import PixelScale.Regex.Normal
import PixelScale.Text.Case
import PixelScale.Unicode.Name
import PixelScale.Unicode.Word

/-!
# Reading regular expressions

The notation has literals, `.`, bracketed classes with set operations, named sets of characters,
escapes, anchors, word boundaries, groups with flags, alternatives and repetitions. There is no
look-around and no reference back to a group. A text outside the notation has no regular
expression, and neither has one that is nested too deeply.

Flags take effect where they stand and last until the end of their group: `i` ignores case, `m`
lets `^` and `$` meet the ends of lines, `s` lets `.` meet line feeds, `R` counts carriage
returns as line ends, `x` skips blanks and comments, `U` changes greediness, and `u` is on and
can be turned off to mean ASCII. An ASCII class cannot be complemented, since its complement
holds bytes that are no characters.

* `Regex.parse?`: the regular expression that a text writes.
-/

namespace PixelScale.Regex

open Text

namespace Parser

structure Flags where
  ignoreCase : Bool := false
  multiLine : Bool := false
  dotAll : Bool := false
  crlf : Bool := false
  ascii : Bool := false
  verbose : Bool := false
  lazy : Bool := false

/-- The depth to which a regular expression may be nested. -/
def nestLimit : Nat := 250

/-- What is left to read, the flags in force, the number of groups that capture and their names, and
how many more brackets may be opened. -/
structure State where
  rest : Text
  flags : Flags := {}
  groups : Nat := 0
  names : List Text := []
  room : Nat := nestLimit

/-- A step of the reader; there is one kind of failure. -/
abbrev Reader := StateT State Option

def flags : Reader Flags := return (← get).flags

def setFlags (f : Flags) : Reader Unit := modify fun s => { s with flags := f }

/-- The next character, which stays unread. -/
def peek? : Reader (Option Char) := return (← get).rest.head?

/-- The next character. -/
def next : Reader Char := do
  match (← get).rest with
  | c :: t => modify fun s => { s with rest := t }; return c
  | [] => failure

/-- Reads the given text if it comes next. -/
def accept (t : Text) : Reader Bool := do
  let s ← get
  if t.isPrefixOf s.rest then
    set { s with rest := s.rest.drop t.length }
    return true
  else return false

/-- A text without the blanks and comments at its start; `comment` holds inside a comment. -/
def withoutComments (comment : Bool) : Text → Text
  | [] => []
  | c :: t =>
    if comment then withoutComments (c != '\n') t
    else if isBlank c then withoutComments false t
    else if c = '#' then withoutComments true t
    else c :: t

/-- Skips blanks and comments if the flag `x` is set. -/
def skip : Reader Unit :=
  modify fun s => if s.flags.verbose then { s with rest := withoutComments false s.rest } else s

/-- What stands in a group or a bracketed class. Brackets beyond the limit are too deep whatever
stands in them. -/
def nested {α : Type} (inner : Reader α) : Reader α := do
  let room := (← get).room
  if room = 0 then failure
  modify fun s => { s with room := room - 1 }
  let a ← inner
  modify fun s => { s with room }
  return a

/-- One round for each character that is left. -/
def rounds : Reader (List Unit) := return (← get).rest.map fun _ => ()

/-- The next characters with a property, with blanks skipped behind each of them. -/
def takeWhile (p : Char → Bool) : List Unit → Reader Text
  | [] => return []
  | _ :: ns => do
    if (← peek?).any p then
      let c ← next
      skip
      return c :: (← takeWhile p ns)
    else return []

/-- As many characters as the list is long, with blanks skipped behind each of them. -/
def takeChars : List Unit → Reader Text
  | [] => return []
  | _ :: ns => do
    let c ← next
    skip
    return c :: (← takeChars ns)

/-- The characters up to a closing brace, which is read as well. -/
def untilBrace : List Unit → Reader Text
  | [] => failure
  | _ :: ns => do
    skip
    let c ← next
    if c = '}' then return [] else return c :: (← untilBrace ns)

/-! ## Characters and escapes -/

/-- What an escape or a single character stands for. -/
inductive Primitive where
  | literal (c : Char)
  | chars (rs : Ranges)
  | look (l : Look)

/-- A set under the flag `i`. -/
def fold (f : Flags) (rs : Ranges) : Ranges :=
  if !f.ignoreCase then rs else if f.ascii then rs.withAsciiCases else rs.withCases

/-- The complement of a set, which no ASCII class has. -/
def complement (f : Flags) (rs : Ranges) : Reader Ranges :=
  if f.ascii then failure else return rs.complement

def asciiDigits : Ranges := [(0x30, 0x39)]

def asciiBlanks : Ranges := [(0x09, 0x0D), (0x20, 0x20)]

/-- The characters that have a meaning in the notation. -/
def isMeta (c : Char) : Bool := "\\.+*?()|[]\x7b\x7d^$#&-~".toList.contains c

/-- The characters that stand for themselves behind a backslash. -/
def isEscapable (c : Char) : Bool :=
  isMeta c || (c.toNat < 0x80 && !c.isAlphanum && c != '<' && c != '>')

/-- The character with the code point that hexadecimal digits write. -/
def ofHex (digits : Text) : Reader Char := do
  let some n := toNat? 16 digits | failure
  if n.isValidChar then return Char.ofNat n else failure

/-- A code point with a fixed number of digits or in braces. Two digits stand for a byte where
characters are ASCII. -/
def hex (width : Nat) : Reader Char := do
  skip
  if ← accept ['{'] then
    let c ← ofHex (← untilBrace (← rounds))
    skip
    return c
  else
    let c ← ofHex (← takeChars (List.replicate width ()))
    if width = 2 && (← flags).ascii && 0x80 ≤ c.toNat then failure else return c

/-- A class of one letter, complemented if the letter is a capital. -/
def letterClass (c : Char) : Reader Ranges := do
  let f ← flags
  let rs := match c.toLower with
    | 'd' => if f.ascii then asciiDigits else digits
    | 's' => if f.ascii then asciiBlanks else blanks
    | _ => Unicode.words f.ascii
  if c.isUpper then complement f rs else return rs

/-- The texts in front of and behind the first sign of inequality. -/
def splitUnequal : Text → Option (Text × Text)
  | '!' :: '=' :: t => some ([], t)
  | c :: t => (splitUnequal t).map fun (a, b) => (c :: a, b)
  | [] => none

/-- The set that a text in braces names, and whether its complement is meant. -/
def namedSet? (t : Text) : Option (Ranges × Bool) :=
  match splitUnequal t, splitFirst ':' t, splitFirst '=' t with
  | some (property, value), _, _ => (Unicode.valueSet? property value).map (·, true)
  | none, some (property, value), _ => (Unicode.valueSet? property value).map (·, false)
  | none, none, some (property, value) => (Unicode.valueSet? property value).map (·, false)
  | none, none, none => (Unicode.namedSet? t).map (·, false)

/-- A set named by a letter or in braces. Names belong to characters of all scripts. -/
def namedClass (negated : Bool) : Reader Ranges := do
  skip
  let f ← flags
  let name ← match ← next with
    | '{' => untilBrace (← rounds)
    | '\\' => failure
    | c => pure [c]
  match namedSet? name with
  | some (rs, unequal) =>
    if f.ascii then failure
    else if negated != unequal then return (fold f rs).complement
    else return fold f rs
  | none => failure

/-- The word boundary that a name in braces may follow. Braces that do not hold a name are left
to be read as a repetition. -/
def wordBoundary (ascii : Bool) : Reader Look := do
  let s ← get
  if ← accept ['{'] then
    skip
    let isName (c : Char) : Bool := c.isAlpha || c == '-'
    if (← peek?).any isName then
      let name ← untilBrace (← rounds)
      if name = "start".toList then return .wordStart ascii
      else if name = "end".toList then return .wordEnd ascii
      else if name = "start-half".toList then return .noWordBefore ascii
      else if name = "end-half".toList then return .noWordAfter ascii
      else failure
    else if (← peek?).isNone then failure
    else
      set s
      return .wordBoundary ascii
  else return .wordBoundary ascii

/-- What follows a backslash. -/
def escape : Reader Primitive := do
  let c ← next
  let f ← flags
  if isEscapable c then return .literal c
  match c with
  | 'x' => return .literal (← hex 2)
  | 'u' => return .literal (← hex 4)
  | 'U' => return .literal (← hex 8)
  | 'p' | 'P' => return .chars (← namedClass (c = 'P'))
  | 'd' | 's' | 'w' | 'D' | 'S' | 'W' => return .chars (← letterClass c)
  | 'a' => return .literal '\x07'
  | 'f' => return .literal '\x0c'
  | 't' => return .literal '\t'
  | 'n' => return .literal '\n'
  | 'r' => return .literal '\r'
  | 'v' => return .literal '\x0b'
  | 'A' => return .look .textStart
  | 'z' => return .look .textEnd
  | 'b' => return .look (← wordBoundary f.ascii)
  | 'B' => return .look (.noWordBoundary f.ascii)
  | '<' => return .look (.wordStart f.ascii)
  | '>' => return .look (.wordEnd f.ascii)
  | _ => failure

/-! ## Bracketed classes -/

/-- The named ASCII classes. -/
def asciiClasses : List (Text × Ranges) := [
  ("alnum".toList, [(0x30, 0x39), (0x41, 0x5A), (0x61, 0x7A)]),
  ("alpha".toList, [(0x41, 0x5A), (0x61, 0x7A)]),
  ("ascii".toList, [(0x00, 0x7F)]),
  ("blank".toList, [(0x09, 0x09), (0x20, 0x20)]),
  ("cntrl".toList, [(0x00, 0x1F), (0x7F, 0x7F)]),
  ("digit".toList, asciiDigits),
  ("graph".toList, [(0x21, 0x7E)]),
  ("lower".toList, [(0x61, 0x7A)]),
  ("print".toList, [(0x20, 0x7E)]),
  ("punct".toList, [(0x21, 0x2F), (0x3A, 0x40), (0x5B, 0x60), (0x7B, 0x7E)]),
  ("space".toList, asciiBlanks),
  ("upper".toList, [(0x41, 0x5A)]),
  ("word".toList, Unicode.asciiWords),
  ("xdigit".toList, [(0x30, 0x39), (0x41, 0x46), (0x61, 0x66)])]

/-- A named class such as `[:alpha:]`, if one comes next. -/
def asciiClass? : Reader (Option Ranges) := do
  let s ← get
  if ← accept ['[', ':'] then
    let negated ← accept ['^']
    let rest := (← get).rest
    let name := rest.takeWhile (· != ':')
    match asciiClasses.lookup name with
    | some rs =>
      if (rest.drop name.length).take 2 = [':', ']'] then
        set { s with rest := rest.drop (name.length + 2) }
        let named := fold s.flags rs
        if negated then return some (← complement s.flags named) else return some named
      else set s; return none
    | none => set s; return none
  else return none

/-- One member of a class, which may start a range. -/
def classMember : Reader Primitive := do
  match ← next with
  | '\\' => escape
  | c => return .literal c

/-- A character of a class, which is an ASCII character where characters are ASCII. -/
def classChar (c : Char) : Reader Nat := do
  if (← flags).ascii && 0x80 ≤ c.toNat then failure else return c.toNat

/-- The character that decides whether a minus sign in front of a text makes a range. Where blanks
are skipped, so is one number sign, which need not start a comment. -/
def behindMinus (verbose : Bool) (t : Text) : Option Char :=
  let visible := match trimBlankLeft t with
    | '#' :: r => trimBlankLeft r
    | r => r
  if verbose then visible.head? <|> t.head? else t.head?

/-- A member or a range of a class. -/
def classRange : Reader Ranges := do
  let first ← classMember
  skip
  let whole : Reader Ranges := match first with
    | .literal c => return [(← classChar c, c.toNat)]
    | .chars rs => return rs
    | .look _ => failure
  match (← get).rest with
  | [] => failure
  | '-' :: t =>
    match behindMinus (← flags).verbose t with
    | some ']' | some '-' => whole
    | _ =>
      discard next
      skip
      match first, ← classMember with
      | .literal c, .literal d =>
        if c ≤ d then return [(← classChar c, ← classChar d)] else failure
      | _, _ => failure
  | _ => whole

/-- The operations between the parts of a class. -/
inductive Operation where
  | intersection
  | difference
  | symmetric

def Operation.apply : Operation → Ranges → Ranges → Ranges
  | intersection => Ranges.intersection
  | difference => Ranges.difference
  | symmetric => Ranges.symmetricDifference

/-- A set of characters with the depth to which its notation is nested. -/
structure Part where
  set : Ranges
  depth : Nat

/-- The parts that stand side by side in a class, last one first. -/
def Part.gather : List Part → Part
  | [] => ⟨[], 0⟩
  | [p] => p
  | ps => ⟨Ranges.unions (ps.map Part.set), (ps.map Part.depth).foldl max 0 + 1⟩

/-- What stands in front of an operation, and the parts behind it. -/
def Part.combine (f : Flags) (left : Option (Operation × Part)) (ps : List Part) : Part :=
  let right := gather ps
  match left with
  | none => right
  | some (op, left) =>
    ⟨op.apply (fold f left.set) (fold f right.set), max left.depth right.depth + 1⟩

/-- Minus signs at the start of a class stand for themselves. -/
def leadingMinus : List Unit → Reader (List Part)
  | [] => return []
  | _ :: ns => do
    if ← accept ['-'] then
      skip
      return ⟨Ranges.single '-', 0⟩ :: (← leadingMinus ns)
    else return []

/-- The start of a class behind its bracket: whether it is negated, and its first parts. -/
def classOpen : Reader (Bool × List Part) := do
  skip
  let negated ← accept ['^']
  skip
  let minus ← leadingMinus (← rounds)
  if minus.isEmpty && (← accept [']']) then
    skip
    return (negated, [⟨Ranges.single ']', 0⟩])
  else return (negated, minus)

/-- The rest of a class, up to its closing bracket. `left` is what stands in front of the last
operation, `ps` what has been read behind it. -/
def classBody : Nat → Bool → Option (Operation × Part) → List Part → Reader Part
  | 0, _, _, _ => failure
  | fuel + 1, negated, left, ps => do
    skip
    let f ← flags
    if ← accept ['&', '&'] then
      classBody fuel negated (some (.intersection, Part.combine f left ps)) []
    else if ← accept ['-', '-'] then
      classBody fuel negated (some (.difference, Part.combine f left ps)) []
    else if ← accept ['~', '~'] then
      classBody fuel negated (some (.symmetric, Part.combine f left ps)) []
    else if ← accept [']'] then
      let p := Part.combine f left ps
      let rs := fold f p.set
      return ⟨← if negated then complement f rs else pure rs, p.depth + 1⟩
    else
      match ← asciiClass? with
      | some rs => classBody fuel negated left (⟨rs, 0⟩ :: ps)
      | none =>
        if ← accept ['['] then
          let p ← nested do
            let (innerNegated, first) ← classOpen
            classBody fuel innerNegated none first
          classBody fuel negated left (p :: ps)
        else
          let rs ← classRange
          classBody fuel negated left (⟨rs, 0⟩ :: ps)

/-! ## Groups, repetitions and sequences -/

/-- A number in a repetition, with blanks around it. -/
def count? : Reader (Option Nat) := do
  modify fun s => { s with rest := trimBlankLeft s.rest }
  let digits ← takeWhile Char.isDigit (← rounds)
  modify fun s => { s with rest := trimBlankLeft s.rest }
  match toNat? 10 digits with
  | some n => if n < Nat.pow 2 32 then return some n else failure
  | none => return none

/-- The bounds of a repetition in braces, behind the opening brace. -/
def bounds : Reader (Nat × Option Nat) := do
  skip
  let some least ← count? | failure
  if ← accept [','] then
    skip
    if ← accept ['}'] then return (least, none)
    let some most ← count? | failure
    if (← accept ['}']) && least ≤ most then return (least, some most) else failure
  else if ← accept ['}'] then return (least, some least)
  else failure

/-- One flag, set or cleared. -/
def setFlag (f : Flags) (value : Bool) : Char → Option Flags
  | 'i' => some { f with ignoreCase := value }
  | 'm' => some { f with multiLine := value }
  | 's' => some { f with dotAll := value }
  | 'R' => some { f with crlf := value }
  | 'u' => some { f with ascii := !value }
  | 'x' => some { f with verbose := value }
  | 'U' => some { f with lazy := value }
  | _ => none

/-- The flags of a group, up to a colon or a closing parenthesis. No flag is given twice, and a
minus sign stands at most once and in front of a flag. -/
def groupFlags (f : Flags) (seen : List Char) : Text → Option (Flags × Bool × Text)
  | [] => none
  | c :: t =>
    if c = ':' || c = ')' then
      if seen.head? = some '-' then none
      else if c = ')' && seen.isEmpty then none
      else some (f, c = ':', t)
    else if seen.contains c then none
    else if c = '-' then groupFlags f (c :: seen) t
    else (setFlag f (!seen.contains '-') c).bind fun f => groupFlags f (c :: seen) t

/-- A letter, with which the name of a group may start. -/
def isLetter (c : Char) : Bool :=
  c.isAlpha || (0x80 ≤ c.toNat && (Unicode.Property.ranges .alphabetic).has c)

/-- A digit or another number. -/
def isNumber (c : Char) : Bool :=
  c.isDigit || (0x80 ≤ c.toNat && (Unicode.Category.union Unicode.Category.numbers).has c)

/-- A group name, up to a closing angle bracket. -/
def groupName : Reader Unit := do
  let rest := (← get).rest
  let name := rest.takeWhile (· != '>')
  let isFirst (c : Char) : Bool := c == '_' || isLetter c
  let isLater (c : Char) : Bool := isFirst c || isNumber c || c == '.' || c == '[' || c == ']'
  match name, rest.drop name.length with
  | c :: cs, _ :: t =>
    if isFirst c && cs.all isLater && !(← get).names.contains name then
      modify fun s => { s with rest := t, names := name :: s.names }
    else failure
  | _, _ => failure

/-- What starts with a parenthesis. -/
inductive Opening where
  | capture (index : Nat)
  | plain
  /-- a change of flags, which is complete -/
  | flags

/-- A group that captures. -/
def capture : Reader Opening := do
  modify fun s => { s with groups := s.groups + 1 }
  return .capture (← get).groups

/-- The start of a group behind its parenthesis. -/
def groupOpen : Reader Opening := do
  skip
  let rest := (← get).rest
  if ["?=", "?!", "?<=", "?<!"].any fun p => p.toList.isPrefixOf rest then failure
  if (← accept "?P<".toList) || (← accept "?<".toList) then
    groupName
    capture
  else if ← accept ['?'] then
    let s ← get
    match groupFlags s.flags [] s.rest with
    | some (f, opens, t) =>
      set { s with rest := t, flags := f }
      return if opens then .plain else .flags
    | none => failure
  else capture

/-- A regular expression with the depth to which its notation is nested. A change of flags is an
item of a sequence that cannot be repeated. -/
structure Item where
  regex : Regex
  depth : Nat := 0
  repeatable : Bool := true

/-- Items one after another; the last one comes first. -/
def Item.sequence : List Item → Item
  | [] => ⟨.empty, 0, true⟩
  | [i] => i
  | is => ⟨Regex.sequence (is.reverse.map regex), (is.map depth).foldl max 0 + 1, true⟩

/-- Alternatives; the last one comes first. -/
def Item.choice : List Item → Item
  | [i] => i
  | is => ⟨Regex.choice (is.reverse.map regex), (is.map depth).foldl max 0 + 1, true⟩

/-- The set that the dot stands for. -/
def dot (f : Flags) : Reader Ranges :=
  if f.dotAll then complement f []
  else if f.crlf then complement f [(0x0A, 0x0A), (0x0D, 0x0D)]
  else complement f [(0x0A, 0x0A)]

/-- A character, an escape, an anchor or the dot. -/
def primitive : Reader Regex := do
  let f ← flags
  match ← next with
  | '.' => return .chars (← dot f)
  | '^' => return .look (if f.multiLine then .lineStart f.crlf else .textStart)
  | '$' => return .look (if f.multiLine then .lineEnd f.crlf else .textEnd)
  | '\\' =>
    match ← escape with
    | .literal c => return ofSet (fold f (Ranges.single c))
    | .chars rs => return ofSet rs
    | .look l => return .look l
  | c => return ofSet (fold f (Ranges.single c))

/-- The last item repeated. A question mark behind a repetition turns its greediness around. -/
def repeatLast (items : List Item) (least : Nat) (most : Option Nat) : Reader (List Item) := do
  let turned ← accept ['?']
  let f ← flags
  match items with
  | i :: is =>
    if i.repeatable then
      return ⟨repeated (turned == f.lazy) i.regex least most, i.depth + 1, true⟩ :: is
    else failure
  | [] => failure

/-- The alternatives of a group, up to its end. `branches` are the alternatives in front of the
present one and `items` what has been read of it, both from the end. -/
def alternatives : Nat → List Item → List Item → Reader Item
  | 0, _, _ => failure
  | fuel + 1, branches, items => do
    skip
    match ← peek? with
    | none | some ')' => return Item.choice (Item.sequence items :: branches)
    | some '|' =>
      discard next
      alternatives fuel (Item.sequence items :: branches) []
    | some '(' =>
      discard next
      let outer ← flags
      match ← groupOpen with
      | .flags => alternatives fuel branches (⟨.empty, 0, false⟩ :: items)
      | opening =>
        let inner ← nested (alternatives fuel [] [])
        if ← accept [')'] then
          setFlags outer
          let regex := match opening with
            | .capture index => .group index inner.regex
            | _ => inner.regex
          alternatives fuel branches (⟨regex, inner.depth + 1, true⟩ :: items)
        else failure
    | some '[' =>
      discard next
      let p ← nested do
        let (negated, first) ← classOpen
        classBody fuel negated none first
      alternatives fuel branches (⟨ofSet p.set, p.depth, true⟩ :: items)
    | some '?' =>
      discard next
      alternatives fuel branches (← repeatLast items 0 (some 1))
    | some '*' =>
      discard next
      alternatives fuel branches (← repeatLast items 0 none)
    | some '+' =>
      discard next
      alternatives fuel branches (← repeatLast items 1 none)
    | some '{' =>
      discard next
      let (least, most) ← bounds
      skip
      alternatives fuel branches (← repeatLast items least most)
    | some _ =>
      let regex ← primitive
      alternatives fuel branches (⟨regex, 0, true⟩ :: items)

end Parser

open PixelScale.Regex.Parser in
/-- The regular expression that a text writes. Every step of the reader takes a character. -/
def parse? (source : Text) : Option Regex :=
  match alternatives (source.length + 1) [] [] { rest := source } with
  | some (item, s) => if s.rest.isEmpty && item.depth ≤ nestLimit then some item.regex else none
  | none => none

end PixelScale.Regex
