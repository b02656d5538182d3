import PixelScale.Unicode.Property
import PixelScale.Unicode.Script

/-!
# Breaks in a text

Three classifications of characters say where a text may be divided: into characters as readers
see them, into words, and into sentences. The characters that belong to no class have no name here.

* `GraphemeBreak.ranges`, `WordBreak.ranges`, `SentenceBreak.ranges`: the characters of a class.
* `graphemeBreakSet?`, `wordBreakSet?`, `sentenceBreakSet?`: the same by a loose name.
-/

namespace PixelScale.Unicode

open Text Property

/-- The joiner, which extends a character but has a class of its own. -/
def joiner : Ranges := [(0x200D, 0x200D)]

/-- The signs in front of numbers that enclose their digits. -/
def numberSigns : String := "600-605 6DD 890-891 8E2 110BD 110CD"

/-- A sign in front of letters that encloses them. -/
def letterSign : Ranges := [(0x70F, 0x70F)]

/-- The marks, with those of some listed properties. -/
def marksAnd (ps : List Listed) : Ranges :=
  gather [.nonspacingMark, .enclosingMark, .spacingMark] (.otherGraphemeExtend :: ps)

/-! ## Characters as readers see them -/

inductive GraphemeBreak where
  | carriageReturn
  | lineFeed
  | control
  | extend
  | joiner
  | leadingJamo
  | vowelJamo
  | trailingJamo
  | openSyllable
  | closedSyllable
  | prepended
  | regionalIndicator
  | spacingMark
deriving Repr, DecidableEq

namespace GraphemeBreak

/-- The syllables that end in a vowel. Each is followed by the 27 that end in a consonant. -/
def openSyllables : Ranges := (List.range 399).map fun i => (0xAC00 + 28 * i, 0xAC00 + 28 * i)

/-- Letters that are written in front of the next character. -/
def leadingLetters : String := "
    D4E 111C2-111C3 113D1 1193F 11941 11A3A 11A84-11A89 11D46 11F02"

/-- Spacing marks that stand for characters of their own. -/
def separateMarks : String := "
    102B-102C 1038 1062-1064 1067-106D 1083 1087-108C 108F 109A-109C 1A61 1A63-1A64 AA7B AA7D
    11720-11721"

/-- The characters of a class. -/
def ranges : GraphemeBreak → Ranges
  | carriageReturn => [(0x0D, 0x0D)]
  | lineFeed => [(0x0A, 0x0A)]
  | joiner => Unicode.joiner
  | control =>
    let ignored := Category.unassigned.ranges.intersection defaultIgnorable.ranges
    let excepted := Listed.prependedConcatenationMark.ranges.union
      (readTable "A D 200C-200D E0020-E007F")
    ((gather [.lineSeparator, .paragraphSeparator, .control, .format] []).union ignored).difference
      excepted
  | extend =>
    (gather [.nonspacingMark, .enclosingMark] [.otherGraphemeExtend, .emojiModifier]).difference
      Unicode.joiner
  | leadingJamo => readTable "1100-115F A960-A97C"
  | vowelJamo => readTable "1160-11A7 D7B0-D7C6 16D63 16D67-16D6A"
  | trailingJamo => readTable "11A8-11FF D7CB-D7FB"
  | openSyllable => openSyllables
  | closedSyllable => Ranges.difference [(0xAC00, 0xD7A3)] openSyllables
  | prepended => Listed.prependedConcatenationMark.ranges.union (readTable leadingLetters)
  | regionalIndicator => Listed.regionalIndicator.ranges
  | spacingMark =>
    ((Category.spacingMark.ranges.difference graphemeExtend.ranges).union
      (readTable "E33 EB3")).difference (readTable separateMarks)

/-- The classes under their loose names. -/
def named : List (List String × GraphemeBreak) :=
  [(["cr"], carriageReturn),
   (["lf"], lineFeed),
   (["control", "cn"], control),
   (["extend", "ex"], extend),
   (["zwj"], joiner),
   (["l"], leadingJamo),
   (["v"], vowelJamo),
   (["t"], trailingJamo),
   (["lv"], openSyllable),
   (["lvt"], closedSyllable),
   (["prepend", "pp"], prepended),
   (["regionalindicator", "ri"], regionalIndicator),
   (["spacingmark", "sm"], spacingMark)]

end GraphemeBreak

/-- The characters of a class, by its loose name. -/
def graphemeBreakSet? (name : Text) : Option Ranges :=
  (GraphemeBreak.named.find? fun (names, _) => names.contains (String.ofList name)).map
    fun (_, b) => b.ranges

/-! ## Words -/

inductive WordBreak where
  | carriageReturn
  | lineFeed
  | newline
  | joiner
  | extend
  | format
  | letter
  | hebrewLetter
  | katakana
  | number
  | connector
  | midLetter
  | midNumber
  | midBoth
  | singleQuote
  | doubleQuote
  | regionalIndicator
  | space
deriving Repr, DecidableEq

namespace WordBreak

/-- The characters of scripts that write no spaces between words. -/
def unspaced : String := "
    E01-E3A E40-E4E E81-E82 E84 E86-E8A E8C-EA3 EA5 EA7-EBD EC0-EC4 EC6 EC8-ECE EDC-EDF 1000-103F
    1050-108F 109A-109F 1780-17D3 17D7 17DC-17DD 1950-196D 1970-1974 1980-19AB 19B0-19C9 19DA
    19DE-19DF 1A20-1A5E 1A60-1A7C 1AA0-1AAD A9E0-A9EF A9FA-A9FE AA60-AAC2 AADB-AADF 11700-1171A
    1171D-1172B 1173A-1173B 1173F-11746"

/-- Signs that count as letters. -/
def signs : String := "
    2C2-2C5 2D2-2D7 2DE-2DF 2E5-2EB 2ED 2EF-2FF 55A-55C 55E 58A 5F3 A708-A716 A720-A721 A789-A78A
    AB5B"

/-- Signs that join katakana letters. -/
def katakanaSigns : String := "3031-3035 309B-309C 30A0 30FC FF70"

/-- The characters that extend the one in front of them within a word. -/
def extending (ps : List Listed) : Ranges := (marksAnd ps).difference Unicode.joiner

/-- The characters of a script. -/
def ofScript (name : String) : Ranges := (scriptSet? name.toList).getD []

/-- The letters of a script that are neither marks nor signs. -/
def lettersOf (name : String) : Ranges := (ofScript name).intersection Category.otherLetter.ranges

/-- The characters of a class. -/
def ranges : WordBreak → Ranges
  | carriageReturn => [(0x0D, 0x0D)]
  | lineFeed => [(0x0A, 0x0A)]
  | newline => readTable "B-C 85 2028-2029"
  | joiner => Unicode.joiner
  | extend => extending [.emojiModifier]
  | format =>
    Category.format.ranges.difference
      (Ranges.unions [[(0x200B, 0x200D)], readTable numberSigns, letterSign, extending []])
  | letter =>
    (Ranges.unions [alphabetic.ranges, letterSign, readTable signs]).difference
      (Ranges.unions [Listed.ideographic.ranges, ofScript "katakana", readTable katakanaSigns,
        readTable unspaced, ofScript "hiragana", extending [], lettersOf "hebrew"])
  | hebrewLetter => lettersOf "hebrew"
  | katakana => (ofScript "katakana").union (readTable katakanaSigns)
  | number => Ranges.unions [digits, readTable numberSigns, [(0x66B, 0x66B)]]
  | connector => Category.connectorPunctuation.ranges.union [(0x202F, 0x202F)]
  | midLetter => readTable "3A B7 387 55F 5F4 2027 FE13 FE55 FF1A"
  | midNumber => readTable "
    2C 3B 37E 589 60C-60D 66C 7F8 2044 FE10 FE14 FE50 FE54 FF0C FF1B"
  | midBoth => readTable "2E 2018-2019 2024 FE52 FF07 FF0E"
  | singleQuote => [(0x27, 0x27)]
  | doubleQuote => [(0x22, 0x22)]
  | regionalIndicator => Listed.regionalIndicator.ranges
  | space => readTable "20 1680 2000-2006 2008-200A 205F 3000"

/-- The classes under their loose names. -/
def named : List (List String × WordBreak) :=
  [(["cr"], carriageReturn),
   (["lf"], lineFeed),
   (["newline", "nl"], newline),
   (["zwj"], joiner),
   (["extend"], extend),
   (["format", "fo"], format),
   (["aletter", "le"], letter),
   (["hebrewletter", "hl"], hebrewLetter),
   (["katakana", "ka"], katakana),
   (["numeric", "nu"], number),
   (["extendnumlet", "ex"], connector),
   (["midletter", "ml"], midLetter),
   (["midnum", "mn"], midNumber),
   (["midnumlet", "mb"], midBoth),
   (["singlequote", "sq"], singleQuote),
   (["doublequote", "dq"], doubleQuote),
   (["regionalindicator", "ri"], regionalIndicator),
   (["wsegspace"], space)]

end WordBreak

/-- The characters of a class, by its loose name. -/
def wordBreakSet? (name : Text) : Option Ranges :=
  (WordBreak.named.find? fun (names, _) => names.contains (String.ofList name)).map
    fun (_, b) => b.ranges

/-! ## Sentences -/

inductive SentenceBreak where
  | carriageReturn
  | lineFeed
  | separator
  | extend
  | format
  | space
  | lower
  | upper
  | letter
  | number
  | fullStop
  | terminal
  | closing
  | continuation
deriving Repr, DecidableEq

namespace SentenceBreak

/-- Quotation marks that are not known as such by their categories. -/
def quotes : String := "22 27 275B-2760 2E00-2E01 2E06-2E08 2E0B 1F676-1F678"

/-- Signs after which a sentence goes on. -/
def continuations : String := "
    2C-2D 3A-3B 37E 55D 60C-60D 7F8 1802 1808 2013-2014 3001 FE10-FE11 FE13-FE14 FE31-FE32
    FE50-FE51 FE54-FE55 FE58 FE63 FF0C-FF0D FF1A-FF1B FF64"

/-- Full stops, which may also end an abbreviation. -/
def fullStops : String := "2E 2024 FE52 FF0E"

/-- The letters of a script whose two cases are used alike. -/
def sameInBothCases : String := "10D0-10FA 10FD-10FF 1C90-1CBA 1CBD-1CBF"

/-- Letters in lower case that are no marks, without the letters of a table. -/
def lowerLetters (table : String) : Ranges :=
  lowercase.ranges.difference (graphemeExtend.ranges.union (readTable table))

/-- Letters in upper or title case, without the letters of a table. -/
def upperLetters (table : String) : Ranges :=
  (gather [.titlecaseLetter, .uppercaseLetter] [.otherUppercase]).difference (readTable table)

/-- The characters of a class. -/
def ranges : SentenceBreak → Ranges
  | carriageReturn => [(0x0D, 0x0D)]
  | lineFeed => [(0x0A, 0x0A)]
  | separator => readTable "85 2028-2029"
  | extend => marksAnd [.joinControl]
  | format =>
    Category.format.ranges.difference
      (Ranges.unions [readTable numberSigns, marksAnd [.joinControl]])
  | space => Listed.whiteSpace.ranges.difference (readTable "A D 85 2028-2029")
  | lower => lowerLetters sameInBothCases
  | upper => upperLetters sameInBothCases
  | letter =>
    (alphabetic.ranges.union [(0x5F3, 0x5F3)]).difference
      (Ranges.unions [lowerLetters sameInBothCases, upperLetters sameInBothCases,
        marksAnd [.joinControl]])
  | number => Ranges.unions [digits, readTable numberSigns, [(0x66B, 0x66C)]]
  | fullStop => readTable fullStops
  | terminal => Listed.sentenceTerminal.ranges.difference (readTable fullStops)
  | closing =>
    ((gather [.openPunctuation, .closePunctuation, .initialPunctuation, .finalPunctuation]
      []).union (readTable quotes)).difference
        (Listed.sentenceTerminal.ranges.union (readTable fullStops))
  | continuation => readTable continuations

/-- The classes under their loose names. -/
def named : List (List String × SentenceBreak) :=
  [(["cr"], carriageReturn),
   (["lf"], lineFeed),
   (["sep", "se"], separator),
   (["extend", "ex"], extend),
   (["format", "fo"], format),
   (["sp"], space),
   (["lower", "lo"], lower),
   (["upper", "up"], upper),
   (["oletter", "le"], letter),
   (["numeric", "nu"], number),
   (["aterm", "at"], fullStop),
   (["sterm", "st"], terminal),
   (["close", "cl"], closing),
   (["scontinue", "sc"], continuation)]

end SentenceBreak

/-- The characters of a class, by its loose name. -/
def sentenceBreakSet? (name : Text) : Option Ranges :=
  (SentenceBreak.named.find? fun (names, _) => names.contains (String.ofList name)).map
    fun (_, b) => b.ranges

end PixelScale.Unicode
