import PixelScale.Stylesheet.Printer
import PixelScale.Text.Blank

/-!
# Writing changes back

A tree that was read from a text and then changed is written over that text: only what changed is
replaced, and every other byte stays. Changed values and parameters replace their spans. A
declaration without a span is written behind the nearest declaration with a span in front of it,
in the way that one was written, and on a line of its own if that one has its own line. Any other
node without a span has no place in the text, and then the printed form is written instead.

* `Edit.ofNodes?`: the edits that nodes ask for.
* `Edit.splice?`: a text with edits made, where these do not overlap.
* `Stylesheet.patch`: the text for a changed tree.
-/

namespace PixelScale.Stylesheet

open Text

/-- A new text for the bytes from `start` to `stop`. -/
structure Edit where
  start : Nat
  stop : Nat
  text : Text
deriving DecidableEq, Repr

namespace Edit

/-- The blanks in front of an offset, from the last line feed among them on. -/
def indentBefore? (text : Text) (offset : Nat) : Option Text := do
  let front ← takeBytes? offset text
  let blanks := front.drop (trimBlankRight front).length
  return match splitLast '\n' blanks with
    | some (_, behind) => '\n' :: behind
    | none => blanks

/-- The edit for a declaration that was read from `span`, if it changed there. A change of the
property or of the importance replaces the whole declaration. -/
def ofChanged? (text : Text) (d : Declaration) (span : DeclarationSpan) :
    Option (Option Edit) := do
  let front ← slice? text span.start span.valueStart
  let property := match splitFirst ':' front with
    | some (a, _) => trimBlank a
    | none => trimBlank front
  let important := decide (span.valueStop < span.stop)
  if property ≠ d.property ∨ important ≠ d.important then
    return some ⟨span.start, span.stop, d.print⟩
  else
    let value ← slice? text span.valueStart span.valueStop
    return if value = d.value then none else some ⟨span.valueStart, span.valueStop, d.value⟩

/-- The edit that writes `copy` behind the declaration `base`, which was read from `span`. -/
def ofCopy? (text : Text) (base : Declaration) (span : DeclarationSpan) (copy : Declaration) :
    Option Edit := do
  let body ←
    if copy.property = base.property ∧ copy.important = base.important then do
      let head ← slice? text span.start span.valueStart
      let tail ← slice? text span.valueStop span.stop
      pure (head ++ copy.value ++ tail)
    else pure copy.print
  let indent ← indentBefore? text span.start
  return match span.semicolon with
    | some semicolon => ⟨semicolon + 1, semicolon + 1, indent ++ body ++ [';']⟩
    | none => ⟨span.stop, span.stop, ';' :: indent ++ body⟩

/-- The edit for the parameters of an at-rule, if they changed. -/
def ofHead? (text : Text) (head : AtHead) : Option (List Edit) := do
  let span ← head.span
  let params ← slice? text span.start span.stop
  return if params = head.params then [] else [⟨span.start, span.stop, head.params⟩]

mutual

/-- The edits that a node other than a declaration asks for. -/
def ofNode? (text : Text) : Node → Option (List Edit)
  | .rule _ nodes => ofNodes? text none nodes
  | .atRule head nodes => do return (← ofHead? text head) ++ (← ofNodes? text none nodes)
  | .atStatement head => ofHead? text head
  | .declaration _ => some []
  | .comment _ => some []

/-- The edits that nodes ask for, in document order; `anchor` is the declaration behind which a
copy would be written. -/
def ofNodes? (text : Text) (anchor : Option (Declaration × DeclarationSpan)) :
    List Node → Option (List Edit)
  | [] => some []
  | .declaration d :: rest =>
    match d.span with
    | some span => do
      return (← ofChanged? text d span).toList ++ (← ofNodes? text (some (d, span)) rest)
    | none => do
      let (base, span) ← anchor
      return (← ofCopy? text base span d) :: (← ofNodes? text anchor rest)
  | n :: rest => do return (← ofNode? text n) ++ (← ofNodes? text none rest)

end

/-- The order in which edits are made: by start, then by end. -/
def le (a b : Edit) : Bool := a.start < b.start || (a.start == b.start && a.stop ≤ b.stop)

/-- The text from `cursor` on with edits made; `none` if one starts in front of the cursor. -/
def spliceFrom? (text : Text) (cursor : Nat) : List Edit → Option Text
  | [] => dropBytes? cursor text
  | e :: es =>
    if e.start < cursor then none
    else do return (← slice? text cursor e.start) ++ e.text ++ (← spliceFrom? text e.stop es)

/-- A text with edits made. Edits at one place are made in the order given. -/
def splice? (text : Text) (es : List Edit) : Option Text :=
  spliceFrom? text 0 (es.mergeSort le)

end Edit

/-- The text that the changed tree stands for, if every node has a place in the text. -/
def patch? (s : Stylesheet) (text : Text) : Option Text :=
  (Edit.ofNodes? text none s.nodes).bind (Edit.splice? text)

/-- The text that the changed tree stands for. -/
def patch (s : Stylesheet) (text : Text) : Text := (s.patch? text).getD s.print

end PixelScale.Stylesheet
