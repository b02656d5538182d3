import PixelScale.OptionSet
import PixelScale.PropertyFilter
import PixelScale.Report
import PixelScale.Stylesheet.Parser
import PixelScale.Stylesheet.Patch

/-!
# Running over a stylesheet

A run looks at every declaration in document order. One whose value has pixel lengths is converted
if its property is accepted and the selector of the rule right around it is not denied. A
conversion that would repeat a sibling, as the siblings are at that moment, is not made. The
converted value takes the place of the old one, or is given to a copy right behind the
declaration; the run does not look at copies. Afterwards the parameters of media queries are
converted, if the options ask for it.

* `Pass.run`: a run with given settings.
* `OptionSet.run`: a run with the settings for the sheet.
* `OptionSet.convert`: from text to text, where everything but the changes stays as it was.
-/

namespace PixelScale

open Stylesheet

/-- What a run needs to know. -/
structure Pass where
  converter : Pixel.Converter
  filter : PropertyFilter
  denied : List MatchRule
  replace : Bool
  mediaQuery : Bool

namespace Pass

def ofSettings (s : Settings) : Pass :=
  { converter := s.converter
    filter := .ofList s.options.propList
    denied := s.options.selectorBlackList
    replace := s.options.replace
    mediaQuery := s.options.mediaQuery }

/-- What a run finds out about a declaration. -/
inductive Verdict where
  /-- there are no pixel lengths in it -/
  | plain
  | propertySkipped
  | selectorSkipped
  | duplicate
  | converted (value : Text)
deriving DecidableEq, Repr

/-- Whether one of the nodes is a declaration with the given property and value. -/
def exists? (property value : Text) (nodes : List Node) : Bool :=
  nodes.any fun
    | .declaration d => d.property == property && d.value == value
    | _ => false

/-- What becomes of a declaration in the rule with the given selector, among its siblings. -/
def verdict (p : Pass) (selector : Option Text) (siblings : List Node) (d : Declaration) :
    Verdict :=
  if !Text.occurs Pixel.Segment.pxSuffix d.value then .plain
  else if !p.filter.accepts d.property then .propertySkipped
  else if selectorDenied p.denied selector then .selectorSkipped
  else
    let value := p.converter.replaceAll d.value
    if exists? d.property value siblings then .duplicate else .converted value

/-- The nodes in place of a declaration. -/
def nodesFor (p : Pass) (d : Declaration) : Verdict → List Node
  | .converted value =>
    if p.replace then [.declaration { d with value }]
    else [.declaration d, .declaration (d.withValue value)]
  | _ => [.declaration d]

/-- The report on a declaration. -/
def counted (p : Pass) : Verdict → Report
  | .plain => { declarations := 1 }
  | .propertySkipped => { declarations := 1, skippedProperty := 1 }
  | .selectorSkipped => { declarations := 1, skippedSelector := 1 }
  | .duplicate => { declarations := 1, skippedDuplicate := 1 }
  | .converted _ =>
    if p.replace then { declarations := 1, replaced := 1 } else { declarations := 1, inserted := 1 }

mutual

/-- A block with its declarations converted; any other node as it is. -/
def walkBlock (p : Pass) : Node → Node × Report
  | .rule selector nodes =>
    let (nodes, report) := walk p (some selector) [] nodes
    (.rule selector nodes, report)
  | .atRule head nodes =>
    let (nodes, report) := walk p none [] nodes
    (.atRule head nodes, report)
  | .atStatement head => (.atStatement head, {})
  | .declaration d => (.declaration d, {})
  | .comment text => (.comment text, {})

/-- The nodes of a block with their declarations converted, where `done` is what became of the
siblings in front of them. -/
def walk (p : Pass) (selector : Option Text) (done : List Node) : List Node → List Node × Report
  | [] => (done, {})
  | .declaration d :: rest =>
    let v := p.verdict selector (done ++ .declaration d :: rest) d
    let (nodes, report) := walk p selector (done ++ p.nodesFor d v) rest
    (nodes, p.counted v + report)
  | n :: rest =>
    let (n, inner) := walkBlock p n
    let (nodes, report) := walk p selector (done ++ [n]) rest
    (nodes, inner + report)

end

/-- The name of media queries. -/
def media : Text := "media".toList

/-- The parameters of media queries converted, and how many changed. -/
def runMedia (p : Pass) (nodes : List Node) : List Node × Report :=
  let changed := (Node.atRulesList nodes).filter fun (head, _) =>
    head.name == media && p.converter.value head.params != head.params
  (Node.mapParamsList media p.converter.value nodes, { mediaQueries := changed.length })

/-- A run over the nodes of a sheet. -/
def runNodes (p : Pass) (nodes : List Node) : List Node × Report :=
  let (nodes, report) := p.walk none [] nodes
  if p.mediaQuery then
    let (nodes, more) := p.runMedia nodes
    (nodes, report + more)
  else (nodes, report)

/-- A run over a sheet. -/
def run (p : Pass) (sheet : Stylesheet) : Stylesheet × Report :=
  let (nodes, report) := p.runNodes sheet.nodes
  ({ sheet with nodes }, report)

end Pass

/-- What became of a text; there is no report if the text is excluded. -/
structure Converted where
  text : Text
  report : Option Report
deriving DecidableEq, Repr

/-- The number of changes made. -/
def Converted.changes (c : Converted) : Nat := (c.report.map Report.changes).getD 0

namespace OptionSet

/-- A run over a sheet with the settings for its path, unless it is excluded. -/
def run (s : OptionSet) (sheet : Stylesheet) : Option (Stylesheet × Report) :=
  (s.select sheet.source).map fun settings => (Pass.ofSettings settings).run sheet

/-- The text of a stylesheet with its pixel lengths converted. -/
def convert (s : OptionSet) (source : Option Text) (text : Text) :
    Except SyntaxError Converted := do
  let sheet ← Stylesheet.parse text
  return match s.run { sheet with source } with
    | none => ⟨text, none⟩
    | some (sheet, report) =>
      ⟨if 0 < report.changes then sheet.patch text else text, some report⟩

end OptionSet

end PixelScale
