import PixelScale.Proofs.Stylesheet.Row
import PixelScale.Stylesheet.Patch

/-!
# Changes to a sheet that was read

The changes that a sheet undergoes between reading and writing it back: declarations get other
values, properties and marks, copies of a declaration with other values are put behind it, and
at-rules get other parameters. A revision lists what became of every declaration and every at-rule
of a tree, in document order, and says which tree this makes. Its edits are the places of the text
that have to change.

* `Update`: what became of a declaration or of an at-rule.
* `Revises`: a tree with its changes, and the tree that these make.
* `Update.edits`: the edits of a text that an update asks for.
* `Revises.row`: a revision of a tree is a revision of its row of statements.
-/

namespace PixelScale.Stylesheet

open Text

inductive Update where
  /-- a declaration, what it became, and the values of the copies behind it -/
  | declaration (old new : Declaration) (copies : List Text)
  /-- an at-rule and its parameters afterwards -/
  | params (old : AtHead) (new : Text)

/-- The second list of nodes is the first one with the given changes, which are those of its
declarations and at-rules in document order. What was read stays where it stood, and copies of a
declaration have its property and its importance. -/
inductive Revises : List Update → List Node → List Node → Prop
  | nil : Revises [] [] []
  | comment {cs : List Update} {ns ms : List Node} {text : Text} :
      Revises cs ns ms → Revises cs (.comment text :: ns) (.comment text :: ms)
  | rule {cs cs' : List Update} {ns ms nodes nodes' : List Node} {selector : Text} :
      Revises cs nodes nodes' → Revises cs' ns ms →
      Revises (cs ++ cs') (.rule selector nodes :: ns) (.rule selector nodes' :: ms)
  | atRule {cs cs' : List Update} {ns ms nodes nodes' : List Node} {head : AtHead} {params : Text} :
      Revises cs nodes nodes' → Revises cs' ns ms →
      Revises (.params head params :: (cs ++ cs')) (.atRule head nodes :: ns)
        (.atRule { head with params } nodes' :: ms)
  | atStatement {cs : List Update} {ns ms : List Node} {head : AtHead} {params : Text} :
      Revises cs ns ms →
      Revises (.params head params :: cs) (.atStatement head :: ns)
        (.atStatement { head with params } :: ms)
  | declaration {cs : List Update} {ns ms : List Node} {old new : Declaration}
      {copies : List Text} :
      new.span = old.span → Revises cs ns ms →
      Revises (.declaration old new copies :: cs) (.declaration old :: ns)
        (.declaration new :: (copies.map fun v => .declaration (new.withValue v)) ++ ms)

namespace Update

/-- The edit for a declaration that was read from `span`. -/
def baseEdits (old new : Declaration) (span : DeclarationSpan) : List Edit :=
  if new.property ≠ old.property ∨ new.important ≠ old.important then
    [⟨span.start, span.stop, new.print⟩]
  else if new.value = old.value then []
  else [⟨span.valueStart, span.valueStop, new.value⟩]

/-- The edit for a copy of the declaration that was read from `span`: the text of the declaration
with another value, behind its semicolon or else behind its end. -/
def copyEdit (css : Text) (span : DeclarationSpan) (value : Text) : Edit :=
  let copy := (slice? css span.start span.valueStart).getD [] ++ value ++
    (slice? css span.valueStop span.stop).getD []
  let indent := (Edit.indentBefore? css span.start).getD []
  match span.semicolon with
  | some semicolon => ⟨semicolon + 1, semicolon + 1, indent ++ copy ++ [';']⟩
  | none => ⟨span.stop, span.stop, ';' :: (indent ++ copy)⟩

/-- The edits of a text that an update of its tree asks for. -/
def edits (css : Text) : Update → List Edit
  | declaration old new copies =>
    match old.span with
    | some span => baseEdits old new span ++ copies.map (copyEdit css span)
    | none => []
  | params old new =>
    match old.span with
    | some span => if old.params = new then [] else [⟨span.start, span.stop, new⟩]
    | none => []

end Update

/-! ## Revisions of rows -/

/-- Whether a revision keeps a statement. -/
def Statement.isKept : Statement → Bool
  | comment _ | closing _ | opening (.rule _) _ => true
  | _ => false

/-- A row of statements, its changes, and the row that these make. -/
inductive RevisesRow : List Update → List Statement → List Statement → Prop
  | nil : RevisesRow [] [] []
  | keep {cs : List Update} {ss ts : List Statement} {s : Statement} :
      s.isKept = true → RevisesRow cs ss ts → RevisesRow cs (s :: ss) (s :: ts)
  | opening {cs : List Update} {ss ts : List Statement} {head : AtHead} {line : Nat}
      {params : Text} :
      RevisesRow cs ss ts →
      RevisesRow (.params head params :: cs) (.opening (.atRule head) line :: ss)
        (.opening (.atRule { head with params }) line :: ts)
  | atStatement {cs : List Update} {ss ts : List Statement} {head : AtHead} {params : Text} :
      RevisesRow cs ss ts →
      RevisesRow (.params head params :: cs) (.atStatement head :: ss)
        (.atStatement { head with params } :: ts)
  | declaration {cs : List Update} {ss ts : List Statement} {old new : Declaration}
      {copies : List Text} :
      new.span = old.span → RevisesRow cs ss ts →
      RevisesRow (.declaration old new copies :: cs) (.declaration old :: ss)
        (.declaration new :: (copies.map fun v => .declaration (new.withValue v)) ++ ts)

/-- The statement of an at-rule, with a block or without one. -/
def Stop.atRule (head : AtHead) : Stop → Statement
  | brace => .opening (.atRule head) 0
  | _ => .atStatement head

theorem RevisesRow.of_kept {cs : List Update} {s : Statement} {ss ts : List Statement}
    (hs : s.isKept = true) (h : RevisesRow cs (s :: ss) ts) :
    ∃ ts', ts = s :: ts' ∧ RevisesRow cs ss ts' := by
  cases h with
  | keep _ h => exact ⟨_, rfl, h⟩
  | opening => cases hs
  | atStatement => cases hs
  | declaration => cases hs

theorem RevisesRow.of_atRule {cs : List Update} {stop : Stop} {head : AtHead}
    {ss ts : List Statement} (h : RevisesRow cs (stop.atRule head :: ss) ts) :
    ∃ new cs' ts', cs = .params head new :: cs' ∧
      ts = stop.atRule { head with params := new } :: ts' ∧ RevisesRow cs' ss ts' := by
  cases stop with
  | brace =>
    cases h with
    | keep hs => cases hs
    | opening h => exact ⟨_, _, _, rfl, rfl, h⟩
  | semicolon =>
    cases h with
    | keep hs => cases hs
    | atStatement h => exact ⟨_, _, _, rfl, rfl, h⟩
  | nothing =>
    cases h with
    | keep hs => cases hs
    | atStatement h => exact ⟨_, _, _, rfl, rfl, h⟩

theorem RevisesRow.of_declaration {cs : List Update} {old : Declaration} {ss ts : List Statement}
    (h : RevisesRow cs (.declaration old :: ss) ts) :
    ∃ new copies cs' ts', cs = .declaration old new copies :: cs' ∧ new.span = old.span ∧
      ts = .declaration new :: (copies.map fun v => .declaration (new.withValue v)) ++ ts' ∧
      RevisesRow cs' ss ts' := by
  cases h with
  | keep hs => cases hs
  | declaration hspan h => exact ⟨_, _, _, _, rfl, hspan, rfl, h⟩

theorem RevisesRow.append {cs cs' : List Update} {ss ss' ts ts' : List Statement}
    (h : RevisesRow cs ss ts) (h' : RevisesRow cs' ss' ts') :
    RevisesRow (cs ++ cs') (ss ++ ss') (ts ++ ts') := by
  induction h with
  | nil => exact h'
  | keep hs _ ih => exact .keep hs ih
  | opening _ ih => exact .opening ih
  | atStatement _ ih => exact .atStatement ih
  | declaration hspan _ ih =>
    simp only [List.cons_append, List.append_assoc]
    exact .declaration hspan ih

theorem Node.statementsList_copies (d : Declaration) (copies : List Text) :
    statementsList (copies.map fun v => .declaration (d.withValue v)) =
      copies.map fun v => .declaration (d.withValue v) := by
  induction copies with
  | nil => rfl
  | cons v copies ih => simp [statementsList, statements, ih]

theorem Statement.map_bare_copies (d : Declaration) (copies : List Text) :
    (copies.map fun v => declaration (d.withValue v)).map bare =
      copies.map fun v => declaration (d.withValue v) := by
  rw [List.map_map]
  rfl

/-- A revision of a tree is a revision of its row of statements. -/
theorem Revises.row {cs : List Update} {ns ms : List Node} (h : Revises cs ns ms) :
    RevisesRow cs (Node.statementsList ns) (Node.statementsList ms) := by
  induction h with
  | nil => exact .nil
  | comment _ ih => exact .keep rfl ih
  | @rule _ _ _ _ _ _ selector _ _ ih₁ ih₂ =>
    have hblock := RevisesRow.keep (s := .opening (.rule selector) 0) rfl
      (ih₁.append (.keep (s := .closing 0) rfl .nil))
    rw [List.append_nil] at hblock
    exact hblock.append ih₂
  | @atRule _ _ _ _ _ _ head params _ _ ih₁ ih₂ =>
    have hblock := @RevisesRow.opening _ _ _ head 0 params
      (ih₁.append (.keep (s := .closing 0) rfl .nil))
    rw [List.append_nil] at hblock
    exact hblock.append ih₂
  | atStatement _ ih => exact .atStatement ih
  | declaration hspan _ ih =>
    rw [Node.statementsList_append]
    simp only [Node.statementsList, Node.statements, Node.statementsList_copies]
    exact .declaration hspan ih

/-! ## No changes -/

theorem Update.edits_params_self (css : Text) (head : AtHead) :
    (Update.params head head.params).edits css = [] := by
  cases h : head.span <;> simp [edits, h]

theorem Update.edits_declaration_self (css : Text) (d : Declaration) :
    (Update.declaration d d []).edits css = [] := by
  cases h : d.span <;> simp [edits, baseEdits, h]

mutual

theorem revises_cons_self (css : Text) (n : Node) {cs : List Update} {ns ms : List Node}
    (h : Revises cs ns ms) :
    ∃ cs', Revises (cs' ++ cs) (n :: ns) (n :: ms) ∧ cs'.flatMap (Update.edits css) = [] := by
  cases n with
  | rule selector nodes =>
    obtain ⟨cs', h', he⟩ := exists_revises_self css nodes
    exact ⟨cs', .rule h' h, he⟩
  | atRule head nodes =>
    obtain ⟨cs', h', he⟩ := exists_revises_self css nodes
    refine ⟨.params head head.params :: cs', .atRule h' h, ?_⟩
    rw [List.flatMap_cons, Update.edits_params_self, he, List.append_nil]
  | atStatement head =>
    refine ⟨[.params head head.params], .atStatement h, ?_⟩
    rw [List.flatMap_singleton, Update.edits_params_self]
  | declaration d =>
    refine ⟨[.declaration d d []], .declaration rfl h, ?_⟩
    rw [List.flatMap_singleton, Update.edits_declaration_self]
  | comment text => exact ⟨[], .comment h, rfl⟩

/-- Every tree is a revision of itself, without edits. -/
theorem exists_revises_self (css : Text) (ns : List Node) :
    ∃ cs, Revises cs ns ns ∧ cs.flatMap (Update.edits css) = [] := by
  cases ns with
  | nil => exact ⟨[], .nil, rfl⟩
  | cons n ns =>
    obtain ⟨cs, h, he⟩ := exists_revises_self css ns
    obtain ⟨cs', h', he'⟩ := revises_cons_self css n h
    exact ⟨cs' ++ cs, h', by rw [List.flatMap_append, he, he', List.append_nil]⟩

end

end PixelScale.Stylesheet
