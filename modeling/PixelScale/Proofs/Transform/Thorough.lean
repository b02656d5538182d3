import PixelScale.Proofs.Pixel.Respelling
import PixelScale.Proofs.Transform.Outcome

/-!
# Runs that do not look for `px` first

A run passes over a value in which `px` does not occur, before it asks for the property or the
selector and before it converts anything. This saves work and nothing else. A conversion keeps a
text without `px` as it is, so the guard against repetitions, put to such a declaration, finds the
declaration itself: it is among its siblings at that moment, whatever has been replaced or inserted
in front of it. A run without this look leaves the same tree behind and counts the same changes; it
only has another reason for leaving such a declaration alone.

* `Pass.walkBy`: a walk with any way to judge declarations.
* `Pass.runThorough`: a run that looks at every value and at the parameters of every media query.
* `Pass.SameSteps.walkBy`: judges that make the same of each declaration do so of all siblings.
* `Pass.value_and_runThorough`: both are the same but for the reasons for leaving something alone.
-/

namespace PixelScale

open Stylesheet Text

/-- A text without `px` is converted to itself. -/
theorem Pixel.Converter.value_eq_replaceAll (k : Pixel.Converter) (t : Text) :
    k.value t = k.replaceAll t := by
  unfold value
  split
  · rfl
  · rename_i hpixels
    exact ((k.respelled_replaceAll t).eq_self (Bool.eq_false_iff.mpr hpixels)).symm

/-- Two reports count the same declarations and the same changes. -/
structure Report.Agrees (r s : Report) : Prop where
  declarations : r.declarations = s.declarations
  replaced : r.replaced = s.replaced
  inserted : r.inserted = s.inserted
  mediaQueries : r.mediaQueries = s.mediaQueries

theorem Report.Agrees.refl (r : Report) : r.Agrees r := ⟨rfl, rfl, rfl, rfl⟩

theorem Report.Agrees.add {r s r' s' : Report} (h : r.Agrees s) (h' : r'.Agrees s') :
    (r + r').Agrees (s + s') :=
  ⟨congrArg₂ (· + ·) h.declarations h'.declarations, congrArg₂ (· + ·) h.replaced h'.replaced,
    congrArg₂ (· + ·) h.inserted h'.inserted, congrArg₂ (· + ·) h.mediaQueries h'.mediaQueries⟩

namespace Pass

open Node

/-! ## Walks -/

/-- A way to judge declarations, under a selector and among siblings. -/
abbrev Judge := Option Text → List Node → Declaration → Verdict

section

variable (p : Pass) (judge : Judge)

mutual

/-- A block with its declarations judged by `judge`; any other node as it is. -/
def walkBlockBy : Node → Node × Report
  | .rule selector nodes =>
    let (nodes, report) := walkBy (some selector) [] nodes
    (.rule selector nodes, report)
  | .atRule head nodes =>
    let (nodes, report) := walkBy none [] nodes
    (.atRule head nodes, report)
  | .atStatement head => (.atStatement head, {})
  | .declaration d => (.declaration d, {})
  | .comment text => (.comment text, {})

/-- The nodes of a block with their declarations judged by `judge`, where `done` is what became of
the siblings in front of them. -/
def walkBy (selector : Option Text) (done : List Node) : List Node → List Node × Report
  | [] => (done, {})
  | .declaration d :: rest =>
    let v := judge selector (done ++ .declaration d :: rest) d
    let (nodes, report) := walkBy selector (done ++ p.nodesFor d v) rest
    (nodes, p.counted v + report)
  | n :: rest =>
    let (n, inner) := walkBlockBy n
    let (nodes, report) := walkBy selector (done ++ [n]) rest
    (nodes, inner + report)

end

end

/-- The verdict on a declaration without a look for `px` in its value. -/
def thoroughVerdict (p : Pass) : Judge := fun selector siblings d =>
  if !p.filter.accepts d.property then .propertySkipped
  else if selectorDenied p.denied selector then .selectorSkipped
  else
    let value := p.converter.replaceAll d.value
    if exists? d.property value siblings then .duplicate else .converted value

/-- A run over a sheet that looks for `px` neither in values nor in parameters. -/
def runThorough (p : Pass) (sheet : Stylesheet) : Stylesheet × Report :=
  let (nodes, report) := p.walkBy p.thoroughVerdict none [] sheet.nodes
  if p.mediaQuery then
    let changed := (Node.atRulesList nodes).filter fun (head, _) =>
      head.name == media && p.converter.replaceAll head.params != head.params
    ({ sheet with nodes := Node.mapParamsList media p.converter.replaceAll nodes },
      report + { mediaQueries := changed.length })
  else ({ sheet with nodes }, report)

variable (p : Pass)

theorem walkBy_declaration (judge : Judge) (selector : Option Text) (done : List Node)
    (d : Declaration) (ns : List Node) :
    p.walkBy judge selector done (.declaration d :: ns) =
      let v := judge selector (done ++ .declaration d :: ns) d
      ((p.walkBy judge selector (done ++ p.nodesFor d v) ns).1,
        p.counted v + (p.walkBy judge selector (done ++ p.nodesFor d v) ns).2) := rfl

theorem walkBy_cons (judge : Judge) (selector : Option Text) (done : List Node) {n : Node}
    (hn : ∀ d, n ≠ .declaration d) (ns : List Node) :
    p.walkBy judge selector done (n :: ns) =
      ((p.walkBy judge selector (done ++ [(p.walkBlockBy judge n).1]) ns).1,
        (p.walkBlockBy judge n).2 +
          (p.walkBy judge selector (done ++ [(p.walkBlockBy judge n).1]) ns).2) := by
  cases n with
  | declaration d => exact absurd rfl (hn d)
  | _ => rfl

mutual

theorem walkBlockBy_verdict (n : Node) : p.walkBlockBy p.verdict n = p.walkBlock n := by
  cases n with
  | rule selector nodes => rw [walkBlockBy, walkBy_verdict, walkBlock]
  | atRule head nodes => rw [walkBlockBy, walkBy_verdict, walkBlock]
  | _ => rfl

/-- The walk of a run judges by the verdicts of the run. -/
theorem walkBy_verdict (selector : Option Text) (done ns : List Node) :
    p.walkBy p.verdict selector done ns = p.walk selector done ns := by
  cases ns with
  | nil => rfl
  | cons n ns =>
    rcases n.exists_declaration_or with ⟨d, rfl⟩ | hn
    · rw [walkBy_declaration, walk_declaration]
      dsimp only
      rw [walkBy_verdict]
    · rw [p.walkBy_cons _ _ _ hn, p.walk_cons _ _ hn, walkBlockBy_verdict, walkBy_verdict]

end

/-- Both judges make the same of every declaration that is among its siblings. -/
def SameSteps (judge judge' : Judge) : Prop :=
  ∀ selector siblings (d : Declaration), (d.property, d.value) ∈ pairs siblings →
    p.nodesFor d (judge selector siblings d) = p.nodesFor d (judge' selector siblings d) ∧
      (p.counted (judge selector siblings d)).Agrees (p.counted (judge' selector siblings d))

section

variable {p} {judge judge' : Judge}

mutual

theorem SameSteps.walkBlockBy (h : p.SameSteps judge judge') (n : Node) :
    (p.walkBlockBy judge n).1 = (p.walkBlockBy judge' n).1 ∧
      (p.walkBlockBy judge n).2.Agrees (p.walkBlockBy judge' n).2 := by
  cases n with
  | rule selector nodes =>
    obtain ⟨hnodes, hreport⟩ := h.walkBy (some selector) [] nodes
    exact ⟨congrArg (Node.rule selector) hnodes, hreport⟩
  | atRule head nodes =>
    obtain ⟨hnodes, hreport⟩ := h.walkBy none [] nodes
    exact ⟨congrArg (Node.atRule head) hnodes, hreport⟩
  | _ => exact ⟨rfl, .refl _⟩

/-- What two judges make of siblings: a declaration is among its siblings when it is judged,
whatever has become of those in front of it. -/
theorem SameSteps.walkBy (h : p.SameSteps judge judge') (selector : Option Text)
    (done ns : List Node) :
    (p.walkBy judge selector done ns).1 = (p.walkBy judge' selector done ns).1 ∧
      (p.walkBy judge selector done ns).2.Agrees (p.walkBy judge' selector done ns).2 := by
  cases ns with
  | nil => exact ⟨rfl, .refl _⟩
  | cons n ns =>
    rcases n.exists_declaration_or with ⟨d, rfl⟩ | hn
    · obtain ⟨hnodes, hreport⟩ := h selector (done ++ .declaration d :: ns) d (by simp)
      obtain ⟨hrest, hmore⟩ := h.walkBy selector
        (done ++ p.nodesFor d (judge' selector (done ++ .declaration d :: ns) d)) ns
      rw [walkBy_declaration, walkBy_declaration]
      dsimp only
      rw [hnodes]
      exact ⟨hrest, hreport.add hmore⟩
    · obtain ⟨hblock, hreport⟩ := h.walkBlockBy n
      obtain ⟨hrest, hmore⟩ :=
        h.walkBy selector (done ++ [(p.walkBlockBy judge' n).1]) ns
      rw [p.walkBy_cons _ selector done hn, p.walkBy_cons _ selector done hn, hblock]
      exact ⟨hrest, hreport.add hmore⟩

end

end

/-! ## The verdicts -/

/-- The two verdicts differ in the look for `px` only. -/
theorem verdict_eq_thoroughVerdict (selector : Option Text) (siblings : List Node)
    (d : Declaration) :
    p.verdict selector siblings d =
      if occurs Pixel.Segment.pxSuffix d.value then p.thoroughVerdict selector siblings d
      else .plain := by
  unfold verdict thoroughVerdict
  cases occurs Pixel.Segment.pxSuffix d.value <;> rfl

/-- A declaration without `px` is left alone without the look for it as well: it would repeat
itself. -/
theorem thoroughVerdict_ne {selector : Option Text} {siblings : List Node} {d : Declaration}
    (hpixels : occurs Pixel.Segment.pxSuffix d.value = false)
    (hd : (d.property, d.value) ∈ pairs siblings) (value : Text) :
    p.thoroughVerdict selector siblings d ≠ .converted value := by
  have hvalue : p.converter.replaceAll d.value = d.value :=
    (p.converter.respelled_replaceAll d.value).eq_self hpixels
  unfold thoroughVerdict
  rw [hvalue]
  dsimp only
  rw [if_pos (exists?_iff.mpr hd)]
  split
  · exact nofun
  split
  · exact nofun
  · exact nofun

theorem counted_agrees {v w : Verdict} (hv : ∀ value, v ≠ .converted value)
    (hw : ∀ value, w ≠ .converted value) : (p.counted v).Agrees (p.counted w) := by
  have hleft : ∀ {u : Verdict}, (∀ value, u ≠ .converted value) →
      (p.counted u).Agrees { declarations := 1 } := by
    intro u hu
    cases u with
    | converted value => exact absurd rfl (hu value)
    | _ => exact ⟨rfl, rfl, rfl, rfl⟩
  obtain ⟨h₁, h₂, h₃, h₄⟩ := hleft hw
  obtain ⟨h₁', h₂', h₃', h₄'⟩ := hleft hv
  exact ⟨h₁'.trans h₁.symm, h₂'.trans h₂.symm, h₃'.trans h₃.symm, h₄'.trans h₄.symm⟩

/-- A step of either run makes the same of a declaration that is among its siblings. -/
theorem sameSteps_thoroughVerdict : p.SameSteps p.thoroughVerdict p.verdict := by
  intro selector siblings d hd
  rw [verdict_eq_thoroughVerdict]
  by_cases hpixels : occurs Pixel.Segment.pxSuffix d.value = true
  · rw [if_pos hpixels]
    exact ⟨rfl, .refl _⟩
  · rw [if_neg hpixels]
    have hleft := @thoroughVerdict_ne p selector siblings d (Bool.eq_false_iff.mpr hpixels) hd
    exact ⟨p.nodesFor_eq d hleft, p.counted_agrees hleft nofun⟩

/-- Looking for `px` first changes nothing: a value is converted as if there were no such look, and
a run without it leaves the same tree behind and counts the same declarations and changes. -/
theorem value_and_runThorough :
    (∀ t, p.converter.value t = p.converter.replaceAll t) ∧
      ∀ sheet, (p.runThorough sheet).1 = (p.run sheet).1 ∧
        (p.runThorough sheet).2.Agrees (p.run sheet).2 := by
  refine ⟨p.converter.value_eq_replaceAll, fun sheet => ?_⟩
  obtain ⟨hnodes, hreport⟩ := p.sameSteps_thoroughVerdict.walkBy none [] sheet.nodes
  rw [walkBy_verdict] at hnodes hreport
  have hvalue : p.converter.value = p.converter.replaceAll :=
    funext p.converter.value_eq_replaceAll
  simp only [runThorough, run, runNodes, runMedia, hvalue, hnodes]
  split
  · exact ⟨rfl, hreport.add (.refl _)⟩
  · exact ⟨rfl, hreport⟩

end Pass

end PixelScale
