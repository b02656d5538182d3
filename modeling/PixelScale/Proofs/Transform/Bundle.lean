import PixelScale.Proofs.Stylesheet.Joining
import PixelScale.Proofs.Transform.Outcome

/-!
# Converting a bundle

A bundle is one stylesheet behind another. Converting it gives the two converted stylesheets, one
behind the other, and a report that is the sum of theirs. For a run sees of a block's siblings
nothing but the declarations, so blocks behind the nodes of a sheet do not change what becomes of
these, and the other way round; and where a node was read does not count for what becomes of it.

* `Pass.walk_append`: blocks at the end do not change what becomes of the siblings in front.
* `Pass.runNodes_shift`: what becomes of nodes does not depend on where they were read.
* `Pass.runNodes_bundle`: a run over a bundle is a run over both sheets.
* `OptionSet.convert_eq_patch`: a text is converted by patching it with what the run makes of its
  tree.
* `OptionSet.convert_append`: converting a bundle is bundling the conversions.
-/

namespace PixelScale

open Stylesheet Text

/-! ## Sums of reports -/

namespace Report

instance : Zero Report := ⟨{}⟩

theorem add_eq (r s : Report) : r + s = r.add s := rfl

instance : AddCommMonoid Report where
  add_assoc r s t := by simp only [add_eq, add, Nat.add_assoc]
  zero_add r := by simp only [add_eq, add, Zero.zero, OfNat.ofNat, Nat.zero_add]
  add_zero r := rfl
  add_comm r s := by simp only [add_eq, add, Nat.add_comm]
  nsmul := nsmulRec

end Report

/-! ## Nodes that were read further on -/

namespace Stylesheet.Node

variable (k : Nat)

theorem shiftList_append (ns ms : List Node) :
    shiftList k (ns ++ ms) = shiftList k ns ++ shiftList k ms := by
  induction ns with
  | nil => rfl
  | cons n ns ih => rw [List.cons_append, shiftList, ih, shiftList, List.cons_append]

@[simp] theorem pairs_shiftList (ns : List Node) : pairs (shiftList k ns) = pairs ns := by
  induction ns with
  | nil => rfl
  | cons n ns ih =>
    cases n with
    | declaration d => exact congrArg (_ :: ·) ih
    | _ => exact ih

theorem declaration_mem_shiftList {d : Declaration} {ns : List Node}
    (h : .declaration d ∈ shiftList k ns) : ∃ d', .declaration d' ∈ ns := by
  induction ns with
  | nil => cases h
  | cons n ns ih =>
    rcases List.mem_cons.mp h with h | h
    · cases n with
      | declaration d' => exact ⟨d', List.mem_cons_self⟩
      | _ => cases h
    · obtain ⟨d', hd'⟩ := ih h
      exact ⟨d', List.mem_cons_of_mem _ hd'⟩

mutual

theorem mapParams_shift (name : Text) (f : Text → Text) (n : Node) :
    (n.shift k).mapParams name f = (n.mapParams name f).shift k := by
  have hhead : ∀ head : AtHead,
      (if (head.shift k).name = name then { head.shift k with params := f (head.shift k).params }
        else head.shift k) =
      (if head.name = name then { head with params := f head.params } else head).shift k := by
    intro head
    by_cases h : head.name = name
    · rw [if_pos h, if_pos (show (head.shift k).name = name from h)]
      rfl
    · rw [if_neg h, if_neg (show ¬ (head.shift k).name = name from h)]
  cases n with
  | rule selector nodes => rw [shift, mapParams, mapParamsList_shiftList, mapParams, shift]
  | atRule head nodes => rw [shift, mapParams, mapParamsList_shiftList, mapParams, shift, hhead]
  | atStatement head => rw [shift, mapParams, mapParams, shift, hhead]
  | declaration d => rfl
  | comment text => rfl

theorem mapParamsList_shiftList (name : Text) (f : Text → Text) (ns : List Node) :
    mapParamsList name f (shiftList k ns) = shiftList k (mapParamsList name f ns) := by
  cases ns with
  | nil => rfl
  | cons n ns =>
    rw [shiftList, mapParamsList, mapParams_shift, mapParamsList_shiftList, mapParamsList,
      shiftList]

end

mutual

theorem atRules_shift (n : Node) :
    (n.shift k).atRules = n.atRules.map fun a => (a.1.shift k, a.2) := by
  cases n with
  | rule selector nodes => exact atRulesList_shiftList nodes
  | atRule head nodes =>
    have hlength : (shiftList k nodes).length = nodes.length := by
      induction nodes with
      | nil => rfl
      | cons n nodes ih => exact congrArg Nat.succ ih
    rw [shift, atRules, atRulesList_shiftList, hlength, atRules, List.map_cons]
  | atStatement head => rfl
  | declaration d => rfl
  | comment text => rfl

theorem atRulesList_shiftList (ns : List Node) :
    atRulesList (shiftList k ns) = (atRulesList ns).map fun a => (a.1.shift k, a.2) := by
  cases ns with
  | nil => rfl
  | cons n ns =>
    rw [shiftList, atRulesList, atRules_shift, atRulesList_shiftList, atRulesList, List.map_append]

end

end Stylesheet.Node

namespace Pass

open Node

variable (p : Pass)

/-! ## Runs over two sheets -/

/-- Of its siblings only the declarations count for a declaration. -/
theorem verdict_congr (selector : Option Text) {siblings siblings' : List Node}
    (h : pairs siblings = pairs siblings') (d : Declaration) :
    p.verdict selector siblings d = p.verdict selector siblings' d := by
  have hexists : ∀ value,
      exists? d.property value siblings = exists? d.property value siblings' := by
    intro value
    rw [Bool.eq_iff_iff, exists?_iff, exists?_iff, h]
  simp only [verdict, hexists]

/-- What stands in front of blocks does not change what becomes of them. -/
theorem walk_blocks (selector : Option Text) (done : List Node) {ms : List Node}
    (hms : ∀ d, .declaration d ∉ ms) :
    p.walk selector done ms =
      (done ++ (p.walk selector [] ms).1, (p.walk selector [] ms).2) := by
  induction ms generalizing done with
  | nil => simp [walk]
  | cons m ms ih =>
    have hm : ∀ d, m ≠ .declaration d := fun d h => hms d (h ▸ List.mem_cons_self)
    have hrest := fun done => ih done fun d h => hms d (List.mem_cons_of_mem _ h)
    rw [p.walk_cons selector done hm, p.walk_cons selector [] hm, hrest,
      hrest ([] ++ [(p.walkBlock m).1])]
    simp

/-- Blocks at the end do not change what becomes of the siblings in front. -/
theorem walk_append (selector : Option Text) (done ns : List Node) {ms : List Node}
    (hms : ∀ d, .declaration d ∉ ms) :
    p.walk selector done (ns ++ ms) =
      ((p.walk selector done ns).1 ++ (p.walk selector [] ms).1,
        (p.walk selector done ns).2 + (p.walk selector [] ms).2) := by
  have hpairs : pairs ms = [] := by
    refine List.filterMap_eq_nil_iff.mpr fun m hm => ?_
    cases m with
    | declaration d => exact absurd hm (hms d)
    | _ => rfl
  induction ns generalizing done with
  | nil =>
    rw [List.nil_append, p.walk_blocks selector done hms, walk]
    exact Prod.ext rfl (zero_add _).symm
  | cons n ns ih =>
    rw [List.cons_append]
    rcases n.exists_declaration_or with ⟨d, rfl⟩ | hn
    · have hverdict : p.verdict selector (done ++ .declaration d :: (ns ++ ms)) d =
          p.verdict selector (done ++ .declaration d :: ns) d :=
        p.verdict_congr selector (by simp [hpairs]) d
      rw [walk_declaration, walk_declaration, hverdict]
      dsimp only
      rw [ih, add_assoc]
    · rw [p.walk_cons selector done hn, p.walk_cons selector done hn, ih, add_assoc]

theorem runMedia_append (ns ms : List Node) :
    p.runMedia (ns ++ ms) =
      ((p.runMedia ns).1 ++ (p.runMedia ms).1, (p.runMedia ns).2 + (p.runMedia ms).2) := by
  simp only [runMedia, mapParamsList_append, atRulesList_append, List.filter_append,
    List.length_append]
  rfl

/-- A run over a sheet with blocks behind it is a run over both. -/
theorem runNodes_append (ns : List Node) {ms : List Node} (hms : ∀ d, .declaration d ∉ ms) :
    p.runNodes (ns ++ ms) =
      ((p.runNodes ns).1 ++ (p.runNodes ms).1, (p.runNodes ns).2 + (p.runNodes ms).2) := by
  simp only [runNodes, p.walk_append none [] ns hms]
  split
  · rw [runMedia_append, add_add_add_comm]
  · rfl

/-! ## Runs over sheets that were read further on -/

theorem nodesFor_shift (k : Nat) (d : Declaration) (v : Verdict) :
    p.nodesFor (d.shift k) v = shiftList k (p.nodesFor d v) := by
  cases v with
  | converted value =>
    simp only [nodesFor]
    split <;> rfl
  | _ => rfl

mutual

theorem walkBlock_shift (k : Nat) (n : Node) :
    p.walkBlock (n.shift k) = ((p.walkBlock n).1.shift k, (p.walkBlock n).2) := by
  cases n with
  | rule selector nodes =>
    have := walk_shift k (some selector) [] nodes
    rw [shiftList] at this
    rw [shift, walkBlock_rule, this, walkBlock_rule, shift]
  | atRule head nodes =>
    have := walk_shift k none [] nodes
    rw [shiftList] at this
    rw [shift, walkBlock_atRule, this, walkBlock_atRule, shift]
  | atStatement head => rfl
  | declaration d => rfl
  | comment text => rfl

/-- What becomes of nodes does not depend on where they were read. -/
theorem walk_shift (k : Nat) (selector : Option Text) (done ns : List Node) :
    p.walk selector (shiftList k done) (shiftList k ns) =
      (shiftList k (p.walk selector done ns).1, (p.walk selector done ns).2) := by
  cases ns with
  | nil => simp [walk, shiftList]
  | cons n ns =>
    rcases n.exists_declaration_or with ⟨d, rfl⟩ | hn
    · have hverdict : p.verdict selector
          (shiftList k done ++ .declaration (d.shift k) :: shiftList k ns) (d.shift k) =
            p.verdict selector (done ++ .declaration d :: ns) d := by
        refine p.verdict_congr selector ?_ d
        simp [Declaration.shift]
      rw [shiftList, shift, walk_declaration, walk_declaration, hverdict]
      dsimp only
      rw [nodesFor_shift, ← shiftList_append, walk_shift]
    · have hshift : ∀ d, n.shift k ≠ .declaration d := by
        intro d
        cases n with
        | declaration d => exact absurd rfl (hn d)
        | _ => exact nofun
      have happend : shiftList k done ++ [(p.walkBlock n).1.shift k] =
          shiftList k (done ++ [(p.walkBlock n).1]) := by
        rw [shiftList_append]
        rfl
      rw [shiftList, p.walk_cons _ _ hshift, p.walk_cons _ _ hn, walkBlock_shift k n]
      dsimp only
      rw [happend, walk_shift]

end

theorem runMedia_shift (k : Nat) (ns : List Node) :
    p.runMedia (shiftList k ns) = (shiftList k (p.runMedia ns).1, (p.runMedia ns).2) := by
  simp only [runMedia, mapParamsList_shiftList, atRulesList_shiftList, List.filter_map,
    List.length_map]
  rfl

/-- What a run makes of nodes does not depend on where they were read. -/
theorem runNodes_shift (k : Nat) (ns : List Node) :
    p.runNodes (shiftList k ns) = (shiftList k (p.runNodes ns).1, (p.runNodes ns).2) := by
  have hwalk := p.walk_shift k none [] ns
  rw [shiftList] at hwalk
  simp only [runNodes, hwalk]
  split
  · rw [runMedia_shift]
  · rfl

/-- A run over a bundle is a run over both sheets. -/
theorem runNodes_bundle (k : Nat) (ns : List Node) {ms : List Node}
    (hms : ∀ d, .declaration d ∉ ms) :
    p.runNodes (ns ++ shiftList k ms) =
      ((p.runNodes ns).1 ++ shiftList k (p.runNodes ms).1,
        (p.runNodes ns).2 + (p.runNodes ms).2) := by
  have hblocks : ∀ d, .declaration d ∉ shiftList k ms := by
    intro d hd
    obtain ⟨d', hd'⟩ := declaration_mem_shiftList k hd
    exact hms d' hd'
  rw [p.runNodes_append ns hblocks, p.runNodes_shift]

/-! ## The text of a bundle -/

/-- A run over the nodes of a sheet is a revision of them. -/
theorem exists_revises_runNodes (ns : List Node) : ∃ cs, Revises cs ns (p.runNodes ns).1 := by
  obtain ⟨cs, ms, hwalk, hr, -⟩ := p.exists_revises_walk none [] ns
  rw [List.nil_append] at hwalk
  simp only [runNodes, runMedia, hwalk]
  split
  · exact ⟨_, hr.mapParams media p.converter.value⟩
  · exact ⟨cs, hr⟩

end Pass

namespace OptionSet

variable (set : OptionSet) (source : Option Text)

/-- A text is converted by patching it with what the run makes of its tree, also if that is
nothing. -/
theorem convert_eq_patch {css : Text} {sheet : Stylesheet} {settings : Settings}
    (h : Stylesheet.parse css = .ok sheet) (hselect : set.select source = some settings) :
    set.convert source css =
      .ok ⟨patch ⟨source, ((Pass.ofSettings settings).runNodes sheet.nodes).1⟩ css,
        some ((Pass.ofSettings settings).runNodes sheet.nodes).2⟩ := by
  have hrun : set.run { sheet with source } =
      some (⟨source, ((Pass.ofSettings settings).runNodes sheet.nodes).1⟩,
        ((Pass.ofSettings settings).runNodes sheet.nodes).2) := by
    rw [OptionSet.run, hselect]
    rfl
  rw [set.convert_of_run h hrun]
  by_cases hchanges : 0 < ((Pass.ofSettings settings).runNodes sheet.nodes).2.changes
  · rw [if_pos hchanges]
  · have hself := (Pass.ofSettings settings).run_eq_self { sheet with source }
      (Nat.eq_zero_of_not_pos hchanges)
    have hnodes : ((Pass.ofSettings settings).runNodes sheet.nodes).1 = sheet.nodes :=
      congrArg Stylesheet.nodes hself
    rw [if_neg hchanges, hnodes, patch_self h]

/-- Converting a bundle is bundling the conversions. The last statement of the first text has to be
closed, and the second text must have no declaration outside of its blocks. -/
theorem convert_append {a b : Text} {s t : Stylesheet} (ha : Stylesheet.parse a = .ok s)
    (hb : Stylesheet.parse b = .ok t) (hclosed : Closed a) (htop : ∀ d, .declaration d ∉ t.nodes) :
    ∃ c d e, set.convert source a = .ok c ∧ set.convert source b = .ok d ∧
      set.convert source (a ++ b) = .ok e ∧ e.text = c.text ++ d.text ∧
      (c.report = none ∧ d.report = none ∧ e.report = none ∨
        ∃ r r', c.report = some r ∧ d.report = some r' ∧ e.report = some (r + r')) := by
  have hab := parse_append ha hb hclosed
  cases hselect : set.select source with
  | none =>
    have hrun : ∀ sheet : Stylesheet, set.run { sheet with source } = none := by
      intro sheet
      rw [OptionSet.run, hselect]
      rfl
    exact ⟨_, _, _, set.convert_of_excluded ha (hrun s), set.convert_of_excluded hb (hrun t),
      set.convert_of_excluded hab (hrun _), rfl, .inl ⟨rfl, rfl, rfl⟩⟩
  | some settings =>
    obtain ⟨cs, hr⟩ := (Pass.ofSettings settings).exists_revises_runNodes s.nodes
    obtain ⟨cs', hr'⟩ := (Pass.ofSettings settings).exists_revises_runNodes t.nodes
    have hhead : ∀ d, t.nodes.head? ≠ some (.declaration d) := fun d hd =>
      htop d (List.mem_of_mem_head? hd)
    have hboth := set.convert_eq_patch source hab hselect
    dsimp only at hboth
    rw [Pass.runNodes_bundle _ _ _ htop, patch_append ha hb hhead hr hr'] at hboth
    exact ⟨_, _, _, set.convert_eq_patch source ha hselect, set.convert_eq_patch source hb hselect,
      hboth, rfl, .inr ⟨_, _, rfl, rfl, rfl⟩⟩

/-- A rule and a media query, with a conversion of one's own. -/
theorem convert_append_media :
    ∃ s t c d e,
      Stylesheet.parse "a \x7b font: 12px; \x7d\n".toList = .ok s ∧
      Stylesheet.parse "@media (width: 64px) \x7b b \x7b font: 8px \x7d \x7d".toList = .ok t ∧
      OptionSet.convert ⟨[{ hook := some fun _ => some fun _ => "1em".toList }]⟩ none
        "a \x7b font: 12px; \x7d\n".toList = .ok c ∧
      OptionSet.convert ⟨[{ hook := some fun _ => some fun _ => "1em".toList }]⟩ none
        "@media (width: 64px) \x7b b \x7b font: 8px \x7d \x7d".toList = .ok d ∧
      OptionSet.convert ⟨[{ hook := some fun _ => some fun _ => "1em".toList }]⟩ none
        ("a \x7b font: 12px; \x7d\n".toList ++
          "@media (width: 64px) \x7b b \x7b font: 8px \x7d \x7d".toList) = .ok e ∧
      e.text = c.text ++ d.text ∧
      (c.report = none ∧ d.report = none ∧ e.report = none ∨
        ∃ r r', c.report = some r ∧ d.report = some r' ∧ e.report = some (r + r')) := by
  have ha : Stylesheet.parse "a \x7b font: 12px; \x7d\n".toList =
      .ok ⟨none, [.rule "a".toList [.declaration
        ⟨"font".toList, "12px".toList, false, some ⟨4, 10, 14, 14, some 14⟩⟩]]⟩ := by
    cbv
  have hb : Stylesheet.parse "@media (width: 64px) \x7b b \x7b font: 8px \x7d \x7d".toList =
      .ok ⟨none, [.atRule ⟨"media".toList, "(width: 64px)".toList, some ⟨7, 20⟩⟩
        [.rule "b".toList [.declaration
          ⟨"font".toList, "8px".toList, false, some ⟨27, 33, 36, 36, none⟩⟩]]]⟩ := by
    cbv
  have hclosed : Closed "a \x7b font: 12px; \x7d\n".toList := by
    have hpassages : Passage.ofText "a \x7b font: 12px; \x7d\n".toList =
        [.statement none "a ".toList .brace, .space ' ',
          .statement none "font: 12px".toList .semicolon, .space ' ', .closing, .space '\n'] := by
      cbv
    rw [Closed, hpassages]
    intro q hq
    cases hq
    rfl
  obtain ⟨c, d, e, h⟩ := convert_append ⟨[{ hook := some fun _ => some fun _ => "1em".toList }]⟩
    none ha hb hclosed fun d hd => by simp at hd
  exact ⟨_, _, c, d, e, ha, hb, h⟩

end OptionSet

end PixelScale
