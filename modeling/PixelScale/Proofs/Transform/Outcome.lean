import PixelScale.Proofs.Transform

/-!
# What a run makes of siblings

A run goes through the siblings of a block with a look at all of them as they are at that moment:
in front the ones that it has been through, behind the ones that are still to come. A declaration
that asks for a conversion gets it unless a sibling has the converted value already. So a converted
pair of property and value is new when it is made, and since it stands in front of all that comes
after, it is never made again. A value that the conversion does not change stays where it is, for
the declaration that has it is itself the sibling that speaks against converting it.

* `Pass.verdict_cases`: all that a run can find out about a declaration.
* `Pass.count_pairs_walk`: a pair that stands in front is not made again.
* `Pass.mem_pairs_walk`: a pair that nothing replaces is still there after the run.
* `Becomes`: a tree and what became of it, with a condition on every declaration.
* `Pass.becomes_run`: what a run makes of a tree.
-/

namespace PixelScale

open Stylesheet Text

/-! ## Siblings -/

/-- The property and the value of every declaration among siblings. -/
def Stylesheet.Node.pairs (ns : List Node) : List (Text × Text) :=
  ns.filterMap fun
    | .declaration d => some (d.property, d.value)
    | _ => none

namespace Stylesheet.Node

@[simp] theorem pairs_nil : pairs [] = [] := rfl

@[simp] theorem pairs_declaration (d : Declaration) (ns : List Node) :
    pairs (.declaration d :: ns) = (d.property, d.value) :: pairs ns := rfl

theorem pairs_cons {n : Node} (hn : ∀ d, n ≠ .declaration d) (ns : List Node) :
    pairs (n :: ns) = pairs ns := by
  cases n with
  | declaration d => exact absurd rfl (hn d)
  | _ => rfl

@[simp] theorem pairs_append (ns ms : List Node) : pairs (ns ++ ms) = pairs ns ++ pairs ms :=
  List.filterMap_append

@[simp] theorem pairs_mapParamsList (name : Text) (f : Text → Text) (ns : List Node) :
    pairs (mapParamsList name f ns) = pairs ns := by
  induction ns with
  | nil => rfl
  | cons n ns ih =>
    rw [mapParamsList]
    cases n with
    | declaration d => rw [mapParams, pairs_declaration, pairs_declaration, ih]
    | _ => exact ih

theorem atRulesList_append (ns ms : List Node) :
    atRulesList (ns ++ ms) = atRulesList ns ++ atRulesList ms := by
  induction ns with
  | nil => rfl
  | cons n ns ih => rw [List.cons_append, atRulesList, ih, atRulesList, List.append_assoc]

end Stylesheet.Node

namespace Pass

open Node

/-- A declaration under a selector asks for a conversion: its value has pixel lengths, its property
is accepted, and the selector, if there is one, is not denied. -/
def Eligible (p : Pass) (selector : Option Text) (d : Declaration) : Prop :=
  occurs Pixel.Segment.pxSuffix d.value = true ∧ p.filter.accepts d.property = true ∧
    selectorDenied p.denied selector = false

/-- The property and the converted value of a declaration. -/
def target (p : Pass) (d : Declaration) : Text × Text :=
  (d.property, p.converter.replaceAll d.value)

variable (p : Pass)

theorem exists?_iff {property value : Text} {ns : List Node} :
    exists? property value ns = true ↔ (property, value) ∈ pairs ns := by
  induction ns with
  | nil => simp [exists?]
  | cons n ns ih =>
    rw [exists?, List.any_cons, Bool.or_eq_true, ← exists?, ih]
    cases n with
    | declaration d =>
      rw [pairs_declaration, List.mem_cons, Prod.mk.injEq, Bool.and_eq_true, beq_iff_eq, beq_iff_eq]
      exact or_congr (and_congr eq_comm eq_comm) Iff.rfl
    | _ => simp [pairs]

/-- All that a run can find out about a declaration. -/
theorem verdict_cases (selector : Option Text) (siblings : List Node) (d : Declaration) :
    (¬ p.Eligible selector d ∧ ∀ value, p.verdict selector siblings d ≠ .converted value) ∨
    (p.Eligible selector d ∧ p.target d ∈ pairs siblings ∧
      p.verdict selector siblings d = .duplicate) ∨
    (p.Eligible selector d ∧ p.target d ∉ pairs siblings ∧
      p.verdict selector siblings d = .converted (p.converter.replaceAll d.value)) := by
  unfold verdict Eligible
  by_cases hpixels : occurs Pixel.Segment.pxSuffix d.value = true
  · by_cases hproperty : p.filter.accepts d.property = true
    · by_cases hselector : selectorDenied p.denied selector = true
      · left
        simp [hpixels, hproperty, hselector]
      · right
        by_cases hexists : p.target d ∈ pairs siblings
        · left
          have := exists?_iff.mpr hexists
          simp_all
        · right
          have : exists? d.property (p.converter.replaceAll d.value) siblings = false :=
            Bool.eq_false_iff.mpr fun h => hexists (exists?_iff.mp h)
          simp_all
    · left
      simp [hpixels, hproperty]
  · left
    simp [hpixels]

/-- What a step of a run makes of a declaration: it stays as it is, or it is converted because it
asks for that and no sibling has the converted value. -/
theorem step_cases (selector : Option Text) (siblings : List Node) (d : Declaration) :
    ((∀ value, p.verdict selector siblings d ≠ .converted value) ∧
      (p.Eligible selector d → p.target d ∈ pairs siblings)) ∨
    (p.Eligible selector d ∧ p.target d ∉ pairs siblings ∧
      p.verdict selector siblings d = .converted (p.converter.replaceAll d.value)) := by
  rcases p.verdict_cases selector siblings d with ⟨hnot, hv⟩ | ⟨-, hmem, hv⟩ | h
  · exact .inl ⟨hv, fun h => absurd h hnot⟩
  · rw [hv]
    exact .inl ⟨nofun, fun _ => hmem⟩
  · exact .inr h

theorem pairs_converted (d : Declaration) :
    pairs (p.nodesFor d (.converted (p.converter.replaceAll d.value))) =
      if p.replace then [p.target d] else [(d.property, d.value), p.target d] := by
  rw [nodesFor]
  split <;> rfl

/-! ## Pairs during a run -/

theorem walkBlock_ne {n : Node} (hn : ∀ d, n ≠ .declaration d) (d : Declaration) :
    (p.walkBlock n).1 ≠ .declaration d := by
  cases n with
  | declaration d => exact absurd rfl (hn d)
  | _ => exact nofun

/-- A pair that stands in front of the siblings still to come, and not among them, is not made
again. -/
theorem count_pairs_walk (selector : Option Text) {x : Text × Text} {done ns : List Node}
    (hdone : x ∈ pairs done) (hns : x ∉ pairs ns) :
    (pairs (p.walk selector done ns).1).count x = (pairs done).count x := by
  induction ns generalizing done with
  | nil => rfl
  | cons n ns ih =>
    have hmem : ∀ ms, x ∈ pairs (done ++ ms) := fun ms => by simp [hdone]
    rcases n.exists_declaration_or with ⟨d, rfl⟩ | hn
    · obtain ⟨hd, hns⟩ : x ≠ (d.property, d.value) ∧ x ∉ pairs ns := by simpa using hns
      have hnodes :
          x ∉ pairs (p.nodesFor d (p.verdict selector (done ++ .declaration d :: ns) d)) := by
        rcases p.step_cases selector (done ++ .declaration d :: ns) d with
          ⟨hv, -⟩ | ⟨-, hnew, hv⟩
        · simpa [p.nodesFor_eq d hv] using hd
        · have htarget : x ≠ p.target d := fun h => hnew (h ▸ hmem _)
          rw [hv, pairs_converted]
          split <;> simp [htarget, hd]
      rw [walk_declaration, ih (hmem _) hns, pairs_append, List.count_append,
        List.count_eq_zero_of_not_mem hnodes, Nat.add_zero]
    · rw [pairs_cons hn] at hns
      rw [p.walk_cons selector done hn, ih (hmem _) hns, pairs_append,
        pairs_cons (p.walkBlock_ne hn), pairs_nil, List.append_nil]

/-- A step keeps the pair of a declaration if it replaces nothing, or if the value is converted to
itself. -/
theorem mem_pairs_nodesFor (selector : Option Text) {siblings : List Node} {d : Declaration}
    (hd : p.replace = false ∨ p.converter.replaceAll d.value = d.value)
    (h : (d.property, d.value) ∈ pairs siblings) :
    (d.property, d.value) ∈ pairs (p.nodesFor d (p.verdict selector siblings d)) := by
  rcases p.step_cases selector siblings d with ⟨hv, -⟩ | ⟨-, hnew, hv⟩
  · simp [p.nodesFor_eq d hv]
  · rcases hd with hinsert | hself
    · simp [hv, pairs_converted, hinsert]
    · rw [target, hself] at hnew
      exact absurd h hnew

/-- So such a pair is still there after the run. -/
theorem mem_pairs_walk (selector : Option Text) {x : Text × Text}
    (hx : p.replace = false ∨ p.converter.replaceAll x.2 = x.2) {done ns : List Node}
    (h : x ∈ pairs (done ++ ns)) : x ∈ pairs (p.walk selector done ns).1 := by
  induction ns generalizing done with
  | nil => simpa [walk] using h
  | cons n ns ih =>
    rcases n.exists_declaration_or with ⟨d, rfl⟩ | hn
    · rw [walk_declaration]
      refine ih ?_
      have hcases : x ∈ pairs done ∨ x = (d.property, d.value) ∨ x ∈ pairs ns := by simpa using h
      rw [pairs_append, pairs_append, List.mem_append, List.mem_append, or_assoc]
      refine hcases.imp_right (Or.imp_left ?_)
      rintro rfl
      exact p.mem_pairs_nodesFor selector hx h
    · rw [p.walk_cons selector done hn]
      refine ih ?_
      simpa [pairs_cons hn, pairs_cons (p.walkBlock_ne hn)] using h

theorem mem_of_count_eq_one {x : Text × Text} {prs : List (Text × Text)} (h : prs.count x = 1) :
    x ∈ prs :=
  List.count_pos_iff.mp (by omega)

/-- A converted pair is there once. -/
theorem count_target (selector : Option Text) {done ns : List Node} {d : Declaration}
    (h : p.target d ∉ pairs (done ++ .declaration d :: ns)) :
    (pairs (p.walk selector
      (done ++ p.nodesFor d (.converted (p.converter.replaceAll d.value))) ns).1).count
        (p.target d) = 1 := by
  obtain ⟨hdone, hd, hns⟩ : p.target d ∉ pairs done ∧ p.target d ≠ (d.property, d.value) ∧
      p.target d ∉ pairs ns := by simpa [not_or] using h
  rw [p.count_pairs_walk selector _ hns]
  · rw [pairs_append, pairs_converted, List.count_append, List.count_eq_zero_of_not_mem hdone]
    split <;> simp [hd.symm]
  · rw [pairs_append, pairs_converted]
    split <;> simp

end Pass

/-! ## Trees and what became of them -/

/-- What may become of a declaration under a selector: another declaration with copies behind it,
where the siblings have the given pairs of property and value afterwards. -/
abbrev Fate :=
  Option Text → List (Text × Text) → Declaration → Declaration → List Declaration → Prop

/-- The second list of siblings is what became of the first one. Every declaration under a selector
has the fate `R`, which may depend on the pairs that its siblings have afterwards. A rule gives its
selector to its own block, and an at-rule gives none. The heads of at-rules are changed by `f`.
Everything else is as it was, where it was. -/
inductive Becomes (R : Fate) (f : AtHead → AtHead) :
    Option Text → List (Text × Text) → List Node → List Node → Prop
  | nil {selector : Option Text} {pairs : List (Text × Text)} : Becomes R f selector pairs [] []
  | declaration {selector : Option Text} {pairs : List (Text × Text)} {ns ms : List Node}
      {d new : Declaration} {copies : List Declaration} :
      R selector pairs d new copies → Becomes R f selector pairs ns ms →
      Becomes R f selector pairs (.declaration d :: ns)
        (.declaration new :: (copies.map .declaration ++ ms))
  | rule {selector : Option Text} {pairs : List (Text × Text)} {ns ms nodes nodes' : List Node}
      {inner : Text} :
      Becomes R f (some inner) (Node.pairs nodes') nodes nodes' → Becomes R f selector pairs ns ms →
      Becomes R f selector pairs (.rule inner nodes :: ns) (.rule inner nodes' :: ms)
  | atRule {selector : Option Text} {pairs : List (Text × Text)} {ns ms nodes nodes' : List Node}
      {head : AtHead} :
      Becomes R f none (Node.pairs nodes') nodes nodes' → Becomes R f selector pairs ns ms →
      Becomes R f selector pairs (.atRule head nodes :: ns) (.atRule (f head) nodes' :: ms)
  | atStatement {selector : Option Text} {pairs : List (Text × Text)} {ns ms : List Node}
      {head : AtHead} :
      Becomes R f selector pairs ns ms →
      Becomes R f selector pairs (.atStatement head :: ns) (.atStatement (f head) :: ms)
  | comment {selector : Option Text} {pairs : List (Text × Text)} {ns ms : List Node}
      {text : Text} :
      Becomes R f selector pairs ns ms →
      Becomes R f selector pairs (.comment text :: ns) (.comment text :: ms)

theorem Becomes.mono {R S : Fate} (hRS : ∀ selector pairs d new copies,
    R selector pairs d new copies → S selector pairs d new copies) {f : AtHead → AtHead}
    {selector : Option Text} {pairs : List (Text × Text)} {ns ms : List Node}
    (h : Becomes R f selector pairs ns ms) : Becomes S f selector pairs ns ms := by
  induction h with
  | nil => exact .nil
  | declaration hd _ ih => exact .declaration (hRS _ _ _ _ _ hd) ih
  | rule _ _ ih₁ ih₂ => exact .rule ih₁ ih₂
  | atRule _ _ ih₁ ih₂ => exact .atRule ih₁ ih₂
  | atStatement _ ih => exact .atStatement ih
  | comment _ ih => exact .comment ih

theorem Stylesheet.Node.mapParamsList_declarations (name : Text) (f : Text → Text)
    (ds : List Declaration) : mapParamsList name f (ds.map .declaration) = ds.map .declaration := by
  induction ds with
  | nil => rfl
  | cons d ds ih => rw [List.map_cons, mapParamsList, mapParams, ih]

/-- Changing parameters afterwards changes the heads of at-rules. -/
theorem Becomes.mapParams {R : Fate} {selector : Option Text} {pairs : List (Text × Text)}
    {ns ms : List Node} (h : Becomes R id selector pairs ns ms) (name : Text) (g : Text → Text) :
    Becomes R (fun head => if head.name = name then { head with params := g head.params } else head)
      selector pairs ns (Node.mapParamsList name g ms) := by
  induction h with
  | nil => exact .nil
  | declaration hd _ ih =>
    rw [Node.mapParamsList, Node.mapParamsList_append, Node.mapParams,
      Node.mapParamsList_declarations]
    exact .declaration hd ih
  | @rule _ _ _ _ _ nodes' _ _ _ ih₁ ih₂ =>
    rw [← Node.pairs_mapParamsList name g nodes'] at ih₁
    exact .rule ih₁ ih₂
  | @atRule _ _ _ _ _ nodes' _ _ _ ih₁ ih₂ =>
    rw [← Node.pairs_mapParamsList name g nodes'] at ih₁
    exact .atRule ih₁ ih₂
  | atStatement _ ih => exact .atStatement ih
  | comment _ ih => exact .comment ih

namespace Pass

open Node

variable (p : Pass)

/-- The head of an at-rule after a run. -/
def headAfter (head : AtHead) : AtHead :=
  if p.mediaQuery = true ∧ head.name = media then
    { head with params := p.converter.value head.params }
  else head

theorem headAfter_of_mediaQuery (hmedia : p.mediaQuery = true) :
    p.headAfter = fun head =>
      if head.name = media then { head with params := p.converter.value head.params } else head := by
  funext head
  simp only [headAfter, hmedia, true_and]

theorem headAfter_of_not_mediaQuery (hmedia : ¬ p.mediaQuery = true) : p.headAfter = id := by
  funext head
  rw [headAfter, if_neg fun h => hmedia h.1, id]

/-- Only the parameters of media queries change, and only if the run asks for it. -/
theorem headAfter_cases (head : AtHead) :
    p.headAfter head = head ∨ p.mediaQuery = true ∧ head.name = media ∧
      p.headAfter head = { head with params := p.converter.replaceAll head.params } := by
  unfold headAfter Pixel.Converter.value
  split
  · rename_i h
    split
    · exact .inr ⟨h.1, h.2, rfl⟩
    · exact .inl rfl
  · exact .inl rfl

/-- What a run makes of a declaration: it is left alone, or it asks for a conversion and is replaced
or copied. What is made is there once. What is left alone although it asks for a conversion has
the converted value in a sibling, if no replacement took it away. -/
inductive Outcome (selector : Option Text) (pairs : List (Text × Text)) (d : Declaration) :
    Declaration → List Declaration → Prop
  | left : (p.Eligible selector d → p.replace = false ∨
      p.converter.replaceAll (p.converter.replaceAll d.value) = p.converter.replaceAll d.value →
        p.target d ∈ pairs) → Outcome selector pairs d d []
  | replaced : p.replace = true → p.Eligible selector d → pairs.count (p.target d) = 1 →
      Outcome selector pairs d { d with value := p.converter.replaceAll d.value } []
  | inserted : p.replace = false → p.Eligible selector d → pairs.count (p.target d) = 1 →
      Outcome selector pairs d d [d.withValue (p.converter.replaceAll d.value)]

/-- What a step makes of a declaration, seen from the end of the run. -/
theorem exists_outcome (selector : Option Text) (done ns : List Node) (d : Declaration) :
    ∃ new copies,
      p.nodesFor d (p.verdict selector (done ++ .declaration d :: ns) d) =
        .declaration new :: copies.map .declaration ∧
      p.Outcome selector (pairs (p.walk selector done (.declaration d :: ns)).1) d new copies := by
  rcases p.step_cases selector (done ++ .declaration d :: ns) d with
    ⟨hv, hpresent⟩ | ⟨he, hnew, hv⟩
  · exact ⟨d, [], p.nodesFor_eq d hv,
      .left fun he hstays => p.mem_pairs_walk selector hstays (hpresent he)⟩
  · have honce := p.count_target selector hnew
    rw [walk_declaration, hv]
    by_cases hreplace : p.replace = true
    · refine ⟨_, _, ?_, .replaced hreplace he honce⟩
      rw [nodesFor, if_pos hreplace]
      rfl
    · refine ⟨_, _, ?_, .inserted (by simpa using hreplace) he honce⟩
      rw [nodesFor, if_neg hreplace]
      rfl

mutual

theorem becomes_walkBlock (n : Node) (hn : ∀ d, n ≠ .declaration d)
    {selector : Option Text} {prs : List (Text × Text)} {ns ms : List Node}
    (h : Becomes p.Outcome id selector prs ns ms) :
    Becomes p.Outcome id selector prs (n :: ns) ((p.walkBlock n).1 :: ms) := by
  cases n with
  | rule inner nodes =>
    obtain ⟨nodes', hwalk, hb⟩ := exists_becomes_walk (some inner) [] nodes
    rw [walkBlock_rule, hwalk]
    rw [hwalk] at hb
    exact .rule hb h
  | atRule head nodes =>
    obtain ⟨nodes', hwalk, hb⟩ := exists_becomes_walk none [] nodes
    rw [walkBlock_atRule, hwalk]
    rw [hwalk] at hb
    exact .atRule hb h
  | atStatement head => exact .atStatement h
  | declaration d => exact absurd rfl (hn d)
  | comment text => exact .comment h

/-- What a walk makes of the siblings of a block. -/
theorem exists_becomes_walk (selector : Option Text) (done ns : List Node) :
    ∃ ms, (p.walk selector done ns).1 = done ++ ms ∧
      Becomes p.Outcome id selector (pairs (p.walk selector done ns).1) ns ms := by
  cases ns with
  | nil => exact ⟨[], by simp [walk], .nil⟩
  | cons n ns =>
    rcases n.exists_declaration_or with ⟨d, rfl⟩ | hn
    · obtain ⟨new, copies, hnodes, hd⟩ := p.exists_outcome selector done ns d
      rw [walk_declaration] at hd ⊢
      dsimp only at hd ⊢
      rw [hnodes] at hd ⊢
      obtain ⟨ms, hwalk, hb⟩ := exists_becomes_walk selector
        (done ++ .declaration new :: copies.map .declaration) ns
      refine ⟨_, ?_, .declaration hd hb⟩
      rw [hwalk, List.append_assoc, List.cons_append]
    · rw [p.walk_cons selector done hn]
      obtain ⟨ms, hwalk, hb⟩ := exists_becomes_walk selector (done ++ [(p.walkBlock n).1]) ns
      refine ⟨_, ?_, becomes_walkBlock n hn hb⟩
      rw [hwalk, List.append_assoc]
      rfl

end

/-- What a run makes of a tree. -/
theorem becomes_run (sheet : Stylesheet) :
    Becomes p.Outcome p.headAfter none (pairs (p.run sheet).1.nodes) sheet.nodes
      (p.run sheet).1.nodes := by
  obtain ⟨ms, hwalk, hb⟩ := p.exists_becomes_walk none [] sheet.nodes
  rw [hwalk, List.nil_append] at hb
  rw [List.nil_append] at hwalk
  simp only [run, runNodes, runMedia]
  split
  · rename_i hmedia
    rw [p.headAfter_of_mediaQuery hmedia, hwalk, pairs_mapParamsList]
    exact hb.mapParams media p.converter.value
  · rename_i hmedia
    rw [p.headAfter_of_not_mediaQuery hmedia, hwalk]
    exact hb

end Pass

end PixelScale
