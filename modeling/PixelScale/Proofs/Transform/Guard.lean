import PixelScale.Proofs.Transform.Outcome

/-!
# What the guard against repetitions sees

A declaration that asks for a conversion is left alone if a sibling has the converted value. A run
that replaces puts this question to the siblings as they are at that moment: those behind the
declaration as they were written, those in front as the run left them. A sibling that the run has
converted a moment ago therefore counts like one that was written, and of two declarations with the
same property and the same value the second one keeps its pixels. The rule as it was written decides
alone only where no two of its values converge.

* `Pass.Judges`: the verdict on a declaration among its siblings in front and behind.
* `Judged`: a tree and what became of it, with this verdict on every declaration.
* `Pass.run_judges`: a run that replaces judges every declaration so.
-/

namespace PixelScale

open Stylesheet Text

namespace Pass

open Node

variable (p : Pass)

/-- Nothing happens to a declaration, or it asks for a conversion and gets it in place. -/
def Makes (selector : Option Text) (d new : Declaration) : Prop :=
  new = d ∨
    p.Eligible selector d ∧ new = { d with value := p.converter.replaceAll d.value }

/-- The verdict on a declaration. The siblings in front are given with what became of them, and the
siblings behind by the pairs of property and value that they were written with. -/
structure Judges (selector : Option Text) (front : List (Declaration × Declaration))
    (behind : List (Text × Text)) (d new : Declaration) : Prop where
  makes : p.Makes selector d new
  /-- it is left alone exactly if a sibling has the converted value at that moment -/
  left_iff : p.Eligible selector d → p.converter.replaceAll d.value ≠ d.value →
    (new.value = d.value ↔
      p.target d ∈ front.map (fun e => (e.2.property, e.2.value)) ++ behind)
  /-- such a sibling was written with this value, or was given it by the same run -/
  written_or_made : p.Eligible selector d → p.converter.replaceAll d.value ≠ d.value →
    new.value = d.value →
      p.target d ∈ front.map (fun e => (e.1.property, e.1.value)) ++ behind ∨
      ∃ e ∈ front, p.Eligible selector e.1 ∧ e.2.value ≠ e.1.value ∧ p.target e.1 = p.target d

end Pass

/-- The second list of siblings is what became of the first one, behind siblings that are given with
what became of them. There is a verdict on every declaration; the siblings that it depends on are
those of its own block. The heads of at-rules are changed by `f`, and everything else is as it was,
where it was. -/
inductive Judged (p : Pass) (f : AtHead → AtHead) :
    Option Text → List (Declaration × Declaration) → List Node → List Node → Prop
  | nil {selector : Option Text} {front : List (Declaration × Declaration)} :
      Judged p f selector front [] []
  | declaration {selector : Option Text} {front : List (Declaration × Declaration)}
      {ns ms : List Node} {d new : Declaration} :
      p.Judges selector front (Node.pairs ns) d new →
      Judged p f selector (front ++ [(d, new)]) ns ms →
      Judged p f selector front (.declaration d :: ns) (.declaration new :: ms)
  | rule {selector : Option Text} {front : List (Declaration × Declaration)}
      {ns ms nodes nodes' : List Node} {inner : Text} :
      Judged p f (some inner) [] nodes nodes' → Judged p f selector front ns ms →
      Judged p f selector front (.rule inner nodes :: ns) (.rule inner nodes' :: ms)
  | atRule {selector : Option Text} {front : List (Declaration × Declaration)}
      {ns ms nodes nodes' : List Node} {head : AtHead} :
      Judged p f none [] nodes nodes' → Judged p f selector front ns ms →
      Judged p f selector front (.atRule head nodes :: ns) (.atRule (f head) nodes' :: ms)
  | atStatement {selector : Option Text} {front : List (Declaration × Declaration)}
      {ns ms : List Node} {head : AtHead} :
      Judged p f selector front ns ms →
      Judged p f selector front (.atStatement head :: ns) (.atStatement (f head) :: ms)
  | comment {selector : Option Text} {front : List (Declaration × Declaration)}
      {ns ms : List Node} {text : Text} :
      Judged p f selector front ns ms →
      Judged p f selector front (.comment text :: ns) (.comment text :: ms)

variable {p : Pass}

/-- Changing parameters afterwards changes the heads of at-rules. -/
theorem Judged.mapParams {selector : Option Text} {front : List (Declaration × Declaration)}
    {ns ms : List Node} (h : Judged p id selector front ns ms) (name : Text) (g : Text → Text) :
    Judged p (fun head => if head.name = name then { head with params := g head.params } else head)
      selector front ns (Node.mapParamsList name g ms) := by
  induction h with
  | nil => exact .nil
  | declaration hd _ ih => exact .declaration hd ih
  | rule _ _ ih₁ ih₂ => exact .rule ih₁ ih₂
  | atRule _ _ ih₁ ih₂ => exact .atRule ih₁ ih₂
  | atStatement _ ih => exact .atStatement ih
  | comment _ ih => exact .comment ih

namespace Pass

open Node

variable (p)

/-- What a step of a run that replaces makes of a declaration, and why. -/
theorem exists_makes (hreplace : p.replace = true) (selector : Option Text) (siblings : List Node)
    (d : Declaration) :
    ∃ new, p.nodesFor d (p.verdict selector siblings d) = [.declaration new] ∧
      p.Makes selector d new ∧
      (p.Eligible selector d → p.converter.replaceAll d.value ≠ d.value →
        (new.value = d.value ↔ p.target d ∈ pairs siblings)) := by
  rcases p.step_cases selector siblings d with ⟨hv, hpresent⟩ | ⟨he, hnew, hv⟩
  · exact ⟨d, p.nodesFor_eq d hv, .inl rfl, fun he _ => iff_of_true rfl (hpresent he)⟩
  · refine ⟨_, ?_, .inr ⟨he, rfl⟩, fun _ hne => iff_of_false hne hnew⟩
    rw [hv, nodesFor, if_pos hreplace]

/-- The siblings in front and behind, as they are when a declaration is looked at. A declaration is
never its own repetition if its value changes. -/
theorem judges_of_makes {selector : Option Text} {front : List (Declaration × Declaration)}
    {done ns : List Node} (hdone : pairs done = front.map fun e => (e.2.property, e.2.value))
    (hfront : ∀ e ∈ front, p.Makes selector e.1 e.2) {d new : Declaration}
    (hmakes : p.Makes selector d new)
    (hleft : p.Eligible selector d → p.converter.replaceAll d.value ≠ d.value →
      (new.value = d.value ↔ p.target d ∈ pairs (done ++ .declaration d :: ns))) :
    p.Judges selector front (pairs ns) d new := by
  have hiff : p.Eligible selector d → p.converter.replaceAll d.value ≠ d.value →
      (new.value = d.value ↔
        p.target d ∈ front.map (fun e => (e.2.property, e.2.value)) ++ pairs ns) := by
    intro he hne
    have hself : p.target d ≠ (d.property, d.value) := fun h => hne (congrArg Prod.snd h)
    rw [hleft he hne, pairs_append, pairs_declaration, hdone, List.mem_append, List.mem_append,
      List.mem_cons, or_iff_right hself]
  refine ⟨hmakes, hiff, fun he hne heq => ?_⟩
  rcases List.mem_append.mp ((hiff he hne).mp heq) with hmem | hmem
  · obtain ⟨e, he, htarget⟩ := List.mem_map.mp hmem
    rcases hfront e he with hsame | ⟨heligible, hnew⟩
    · rw [hsame] at htarget
      exact .inl (List.mem_append_left _ (List.mem_map.mpr ⟨e, he, htarget⟩))
    · by_cases hvalue : e.2.value = e.1.value
      · rw [hvalue, hnew] at htarget
        exact .inl (List.mem_append_left _ (List.mem_map.mpr ⟨e, he, htarget⟩))
      · rw [hnew] at htarget
        exact .inr ⟨e, he, heligible, hvalue, htarget⟩
  · exact .inl (List.mem_append_right _ hmem)

mutual

theorem judged_walkBlock (hreplace : p.replace = true) (n : Node) (hn : ∀ d, n ≠ .declaration d)
    {selector : Option Text} {front : List (Declaration × Declaration)} {ns ms : List Node}
    (h : Judged p id selector front ns ms) :
    Judged p id selector front (n :: ns) ((p.walkBlock n).1 :: ms) := by
  cases n with
  | rule inner nodes =>
    obtain ⟨nodes', hwalk, hb⟩ :=
      exists_judged_walk hreplace (some inner) [] [] rfl (by simp) nodes
    rw [walkBlock_rule, hwalk]
    exact .rule hb h
  | atRule head nodes =>
    obtain ⟨nodes', hwalk, hb⟩ :=
      exists_judged_walk hreplace none [] [] rfl (by simp) nodes
    rw [walkBlock_atRule, hwalk]
    exact .atRule hb h
  | atStatement head => exact .atStatement h
  | declaration d => exact absurd rfl (hn d)
  | comment text => exact .comment h

/-- The verdicts of a walk over the siblings of a block. -/
theorem exists_judged_walk (hreplace : p.replace = true) (selector : Option Text)
    (front : List (Declaration × Declaration)) (done : List Node)
    (hdone : pairs done = front.map fun e => (e.2.property, e.2.value))
    (hfront : ∀ e ∈ front, p.Makes selector e.1 e.2) (ns : List Node) :
    ∃ ms, (p.walk selector done ns).1 = done ++ ms ∧ Judged p id selector front ns ms := by
  cases ns with
  | nil => exact ⟨[], by simp [walk], .nil⟩
  | cons n ns =>
    rcases n.exists_declaration_or with ⟨d, rfl⟩ | hn
    · obtain ⟨new, hnodes, hmakes, hleft⟩ :=
        p.exists_makes hreplace selector (done ++ .declaration d :: ns) d
      obtain ⟨ms, hwalk, hb⟩ := exists_judged_walk hreplace selector
        (front ++ [(d, new)]) (done ++ [.declaration new]) (by simp [hdone])
        (List.forall_mem_append.mpr ⟨hfront, List.forall_mem_singleton.mpr hmakes⟩) ns
      refine ⟨_, ?_, .declaration (p.judges_of_makes hdone hfront hmakes hleft) hb⟩
      rw [walk_declaration]
      dsimp only
      rw [hnodes, hwalk, List.append_assoc]
      rfl
    · obtain ⟨ms, hwalk, hb⟩ := exists_judged_walk hreplace selector
        front (done ++ [(p.walkBlock n).1])
        (by rw [pairs_append, pairs_cons (p.walkBlock_ne hn), pairs_nil, List.append_nil, hdone])
        hfront ns
      refine ⟨_, ?_, judged_walkBlock hreplace n hn hb⟩
      rw [p.walk_cons selector done hn]
      dsimp only
      rw [hwalk, List.append_assoc]
      rfl

end

end Pass

end PixelScale
