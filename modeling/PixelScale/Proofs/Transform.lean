import PixelScale.Proofs.Pixel.Conversion
import PixelScale.Transform

/-!
# The text and the tree after a run

A run is a revision of the tree it runs over: declarations get converted values or copies with
them, and media queries get converted parameters. The built-in conversion makes gentle changes
only. So the text that a run leaves behind is read as the tree that it leaves behind.

* `Update.Converts`: what a run makes of a declaration.
* `Pass.exists_revises_run`: a run is a revision, with gentle changes.
* `Pass.run_eq_self`: a run that counts no changes makes none.
* `Pass.exists_patch_run`: the text patched with what a run made is read as that.
* `OptionSet.parse_convert`: the text after a run is read as the tree after it.
-/

namespace PixelScale

open Stylesheet Text

/-! ## Runs are revisions -/

namespace Stylesheet

/-- A declaration has its value or the converted one, its copies have the converted one, and the
parameters of at-rules stay. -/
def Update.Converts (k : Pixel.Converter) : Update → Prop
  | declaration old new copies =>
    (new = old ∨ new = { old with value := k.replaceAll old.value }) ∧
      ∀ v ∈ copies, v = k.replaceAll old.value
  | params old new => new = old.params

/-- A change with the parameters of at-rules of a given name changed further. -/
def Update.mapParams (name : Text) (f : Text → Text) : Update → Update
  | declaration old new copies => declaration old new copies
  | params old new => params old (if old.name = name then f new else new)

theorem Node.mapParamsList_append (name : Text) (f : Text → Text) (ns ms : List Node) :
    mapParamsList name f (ns ++ ms) = mapParamsList name f ns ++ mapParamsList name f ms := by
  induction ns with
  | nil => rfl
  | cons n ns ih => rw [List.cons_append, mapParamsList, ih, mapParamsList, List.cons_append]

theorem Node.mapParamsList_copies (name : Text) (f : Text → Text) (d : Declaration)
    (copies : List Text) :
    mapParamsList name f (copies.map fun v => .declaration (d.withValue v)) =
      copies.map fun v => .declaration (d.withValue v) := by
  induction copies with
  | nil => rfl
  | cons v copies ih => rw [List.map_cons, mapParamsList, ih, mapParams]

/-- Changing parameters afterwards is a revision, too. -/
theorem Revises.mapParams {cs : List Update} {ns ms : List Node} (h : Revises cs ns ms)
    (name : Text) (f : Text → Text) :
    Revises (cs.map (Update.mapParams name f)) ns (Node.mapParamsList name f ms) := by
  have hhead : ∀ (head : AtHead) (params : Text),
      (if ({ head with params } : AtHead).name = name then { head with params := f params }
        else { head with params }) =
          { head with params := if head.name = name then f params else params } := by
    intro head params
    split <;> rfl
  induction h with
  | nil => exact .nil
  | comment _ ih => exact .comment ih
  | rule _ _ ih₁ ih₂ =>
    rw [List.map_append]
    exact .rule ih₁ ih₂
  | @atRule _ _ _ _ _ _ head params _ _ ih₁ ih₂ =>
    rw [List.map_cons, List.map_append, Node.mapParamsList, Node.mapParams, hhead]
    exact .atRule ih₁ ih₂
  | @atStatement _ _ _ head params _ ih =>
    rw [List.map_cons, Node.mapParamsList, Node.mapParams, hhead]
    exact .atStatement ih
  | declaration hspan _ ih =>
    rw [Node.mapParamsList_append, Node.mapParamsList, Node.mapParams, Node.mapParamsList_copies]
    exact .declaration hspan ih

/-- The changes of a revision are those of declarations of the tree. -/
theorem Revises.mem_declarationsList {cs : List Update} {ns ms : List Node} (h : Revises cs ns ms)
    {old new : Declaration} {copies : List Text} (hc : .declaration old new copies ∈ cs) :
    old ∈ Node.declarationsList ns := by
  induction h with
  | nil => cases hc
  | comment _ ih => simpa [Node.declarationsList, Node.declarations] using ih hc
  | rule _ _ ih₁ ih₂ =>
    rw [Node.declarationsList, Node.declarations, List.mem_append]
    exact (List.mem_append.mp hc).imp ih₁ ih₂
  | atRule _ _ ih₁ ih₂ =>
    rw [Node.declarationsList, Node.declarations, List.mem_append]
    rcases List.mem_cons.mp hc with hc | hc
    · cases hc
    · exact (List.mem_append.mp hc).imp ih₁ ih₂
  | atStatement _ ih =>
    rcases List.mem_cons.mp hc with hc | hc
    · cases hc
    · simpa [Node.declarationsList, Node.declarations] using ih hc
  | declaration _ _ ih =>
    rw [Node.declarationsList, Node.declarations, List.singleton_append, List.mem_cons]
    rcases List.mem_cons.mp hc with hc | hc
    · cases hc
      exact .inl rfl
    · exact .inr (ih hc)

/-- What a run with the built-in conversion changes, it changes gently. -/
theorem Update.Converts.gentle {k : Pixel.Converter} (hk : k.Tame) {c : Update}
    (h : c.Converts k) {name : Text}
    (hmasked : ∀ old new copies, c = .declaration old new copies → ¬ Masked old.property) :
    c.Gentle name ∧ (c.mapParams name k.value).Gentle name := by
  cases c with
  | declaration old new copies =>
    obtain ⟨hnew, hcopies⟩ := h
    have halike := k.alike_replaceAll hk old.value
    have hgentle : (Update.declaration old new copies).Gentle name := by
      refine ⟨?_, ?_, ?_, fun v hv => ⟨hmasked _ _ _ rfl, ?_⟩⟩
      · rcases hnew with rfl | rfl <;> rfl
      · rcases hnew with rfl | rfl <;> rfl
      · rcases hnew with rfl | rfl
        · exact .refl _
        · exact halike
      · rw [hcopies v hv]
        exact halike
    exact ⟨hgentle, hgentle⟩
  | params old new =>
    obtain rfl : new = old.params := h
    refine ⟨.inl rfl, ?_⟩
    by_cases hname : old.name = name
    · right
      rw [if_pos hname]
      exact ⟨hname, k.alike_value hk old.params⟩
    · left
      rw [if_neg hname]

end Stylesheet

namespace Pass

variable (p : Pass)

theorem walk_cons (selector : Option Text) (done : List Node) {n : Node}
    (hn : ∀ d, n ≠ .declaration d) (ns : List Node) :
    p.walk selector done (n :: ns) =
      ((p.walk selector (done ++ [(p.walkBlock n).1]) ns).1,
        (p.walkBlock n).2 + (p.walk selector (done ++ [(p.walkBlock n).1]) ns).2) := by
  cases n with
  | declaration d => exact absurd rfl (hn d)
  | _ => rfl

theorem walkBlock_rule (selector : Text) (nodes : List Node) :
    p.walkBlock (.rule selector nodes) =
      (.rule selector (p.walk (some selector) [] nodes).1,
        (p.walk (some selector) [] nodes).2) := rfl

theorem walkBlock_atRule (head : AtHead) (nodes : List Node) :
    p.walkBlock (.atRule head nodes) =
      (.atRule head (p.walk none [] nodes).1, (p.walk none [] nodes).2) := rfl

theorem walk_declaration (selector : Option Text) (done : List Node) (d : Declaration)
    (ns : List Node) :
    p.walk selector done (.declaration d :: ns) =
      let v := p.verdict selector (done ++ .declaration d :: ns) d
      ((p.walk selector (done ++ p.nodesFor d v) ns).1,
        p.counted v + (p.walk selector (done ++ p.nodesFor d v) ns).2) := rfl

/-- A verdict other than that of a conversion leaves a declaration as it is. -/
theorem nodesFor_eq (d : Declaration) {v : Verdict} (hv : ∀ value, v ≠ .converted value) :
    p.nodesFor d v = [.declaration d] := by
  cases v with
  | converted value => exact absurd rfl (hv value)
  | _ => rfl

theorem verdict_converted {selector : Option Text} {siblings : List Node} {d : Declaration}
    {value : Text} (h : p.verdict selector siblings d = .converted value) :
    value = p.converter.replaceAll d.value := by
  simp only [verdict] at h
  split at h
  · cases h
  split at h
  · cases h
  split at h
  · cases h
  split at h
  · cases h
  · exact (Verdict.converted.inj h).symm

/-- The nodes in place of a declaration are what it became, and its copies. -/
theorem exists_nodesFor (selector : Option Text) (siblings : List Node) (d : Declaration) :
    ∃ new copies, p.nodesFor d (p.verdict selector siblings d) =
        .declaration new :: (copies.map fun v => .declaration (new.withValue v)) ∧
      new.span = d.span ∧ (Update.declaration d new copies).Converts p.converter := by
  by_cases hv : ∃ value, p.verdict selector siblings d = .converted value
  · obtain ⟨value, hv⟩ := hv
    have hvalue := p.verdict_converted hv
    rw [hv, nodesFor]
    split
    · exact ⟨{ d with value }, [], rfl, rfl, .inr (by rw [hvalue]), by simp⟩
    · exact ⟨d, [value], rfl, rfl, .inl rfl, by simpa using hvalue⟩
  · refine ⟨d, [], p.nodesFor_eq d fun value h => hv ⟨value, h⟩, rfl, .inl rfl, by simp⟩

mutual

theorem revises_walkBlock (n : Node) (hn : ∀ d, n ≠ .declaration d) {cs : List Update}
    {ns ms : List Node} (h : Revises cs ns ms) :
    ∃ cs', Revises (cs' ++ cs) (n :: ns) ((p.walkBlock n).1 :: ms) ∧
      ∀ c ∈ cs', c.Converts p.converter := by
  cases n with
  | rule selector nodes =>
    obtain ⟨cs', ms', hwalk, hr, hc⟩ := exists_revises_walk (some selector) [] nodes
    refine ⟨cs', ?_, hc⟩
    rw [walkBlock_rule, hwalk]
    exact .rule hr h
  | atRule head nodes =>
    obtain ⟨cs', ms', hwalk, hr, hc⟩ := exists_revises_walk none [] nodes
    refine ⟨.params head head.params :: cs', ?_, List.forall_mem_cons.mpr ⟨rfl, hc⟩⟩
    rw [walkBlock_atRule, hwalk]
    exact .atRule hr h
  | atStatement head =>
    exact ⟨[.params head head.params], .atStatement h, List.forall_mem_singleton.mpr rfl⟩
  | declaration d => exact absurd rfl (hn d)
  | comment text => exact ⟨[], .comment h, by simp⟩

/-- A walk over the nodes of a block is a revision of them. -/
theorem exists_revises_walk (selector : Option Text) (done ns : List Node) :
    ∃ cs ms, (p.walk selector done ns).1 = done ++ ms ∧ Revises cs ns ms ∧
      ∀ c ∈ cs, c.Converts p.converter := by
  cases ns with
  | nil => exact ⟨[], [], by simp [walk], .nil, by simp⟩
  | cons n ns =>
    rcases n.exists_declaration_or with ⟨d, rfl⟩ | hn
    · obtain ⟨new, copies, hnodes, hspan, hc⟩ :=
        p.exists_nodesFor selector (done ++ .declaration d :: ns) d
      rw [walk_declaration]
      dsimp only
      rw [hnodes]
      obtain ⟨cs, ms, hwalk, hr, hcs⟩ := exists_revises_walk selector
        (done ++ .declaration new :: (copies.map fun v => .declaration (new.withValue v))) ns
      refine ⟨_, _, ?_, .declaration hspan hr, List.forall_mem_cons.mpr ⟨hc, hcs⟩⟩
      rw [hwalk, List.append_assoc]
    · rw [p.walk_cons selector done hn]
      obtain ⟨cs, ms, hwalk, hr, hcs⟩ :=
        exists_revises_walk selector (done ++ [(p.walkBlock n).1]) ns
      obtain ⟨cs', hr', hcs'⟩ := revises_walkBlock n hn hr
      refine ⟨_, _, ?_, hr', fun c hc => (List.mem_append.mp hc).elim (hcs' c) (hcs c)⟩
      dsimp only
      rw [hwalk, List.append_assoc]
      rfl

end

/-- A run over the nodes of a tree is a revision of them. With the built-in conversion its changes
are gentle. -/
theorem exists_revises_run (hk : p.converter.Tame) (sheet : Stylesheet)
    (hmasked : ∀ d ∈ sheet.declarations, ¬ Masked d.property) :
    ∃ cs, Revises cs sheet.nodes (p.run sheet).1.nodes ∧ ∀ c ∈ cs, c.Gentle media := by
  obtain ⟨cs, ms, hwalk, hr, hcs⟩ := p.exists_revises_walk none [] sheet.nodes
  have hgentle : ∀ c ∈ cs, c.Gentle media ∧ (c.mapParams media p.converter.value).Gentle media := by
    intro c hc
    refine (hcs c hc).gentle hk ?_
    rintro old new copies rfl
    exact hmasked old (hr.mem_declarationsList hc)
  rw [List.nil_append] at hwalk
  simp only [run, runNodes]
  split
  · refine ⟨cs.map (Update.mapParams media p.converter.value), ?_, ?_⟩
    · rw [hwalk]
      exact hr.mapParams media p.converter.value
    · exact List.forall_mem_map.mpr fun c hc => (hgentle c hc).2
  · exact ⟨cs, by rw [hwalk]; exact hr, fun c hc => (hgentle c hc).1⟩

/-! ## Runs without changes -/

theorem changes_add (r s : Report) : (r + s).changes = r.changes + s.changes := by
  change (r.add s).changes = _
  simp only [Report.add, Report.changes]
  omega

mutual

theorem walkBlock_eq_self (n : Node) (h : (p.walkBlock n).2.changes = 0) :
    (p.walkBlock n).1 = n := by
  cases n with
  | rule selector nodes =>
    rw [walkBlock_rule, walk_eq_self (some selector) [] nodes h]
    rfl
  | atRule head nodes =>
    rw [walkBlock_atRule, walk_eq_self none [] nodes h]
    rfl
  | _ => rfl

theorem walk_eq_self (selector : Option Text) (done ns : List Node)
    (h : (p.walk selector done ns).2.changes = 0) : (p.walk selector done ns).1 = done ++ ns := by
  cases ns with
  | nil => simp [walk]
  | cons n ns =>
    rcases n.exists_declaration_or with ⟨d, rfl⟩ | hn
    · rw [walk_declaration] at h ⊢
      dsimp only at h ⊢
      rw [changes_add, Nat.add_eq_zero_iff] at h
      have hnodes : p.nodesFor d (p.verdict selector (done ++ .declaration d :: ns) d) =
          [.declaration d] := by
        refine p.nodesFor_eq d fun value hv => ?_
        have := h.1
        rw [hv, counted] at this
        split at this <;> cases this
      rw [walk_eq_self selector _ ns h.2, hnodes, List.append_assoc]
      rfl
    · rw [p.walk_cons selector done hn] at h ⊢
      dsimp only at h ⊢
      rw [changes_add, Nat.add_eq_zero_iff] at h
      rw [walk_eq_self selector _ ns h.2, walkBlock_eq_self n h.1, List.append_assoc]
      rfl

end

mutual

theorem mapParams_eq_self {name : Text} {f : Text → Text} (n : Node)
    (h : ∀ a ∈ n.atRules, a.1.name = name → f a.1.params = a.1.params) :
    n.mapParams name f = n := by
  have hhead : ∀ head : AtHead, (head.name = name → f head.params = head.params) →
      (if head.name = name then { head with params := f head.params } else head) = head := by
    intro head hparams
    split
    · rename_i heq
      rw [hparams heq]
    · rfl
  cases n with
  | rule selector nodes => rw [Node.mapParams, mapParamsList_eq_self nodes h]
  | atRule head nodes =>
    obtain ⟨h₁, h₂⟩ := List.forall_mem_cons.mp h
    rw [Node.mapParams, mapParamsList_eq_self nodes h₂, hhead head h₁]
  | atStatement head => rw [Node.mapParams, hhead head (h _ List.mem_cons_self)]
  | declaration d => rfl
  | comment text => rfl

theorem mapParamsList_eq_self {name : Text} {f : Text → Text} (ns : List Node)
    (h : ∀ a ∈ Node.atRulesList ns, a.1.name = name → f a.1.params = a.1.params) :
    Node.mapParamsList name f ns = ns := by
  cases ns with
  | nil => rfl
  | cons n ns =>
    rw [Node.mapParamsList, mapParams_eq_self n fun a ha => h a (List.mem_append_left _ ha),
      mapParamsList_eq_self ns fun a ha => h a (List.mem_append_right _ ha)]

end

/-- A run that counts no changes makes none. -/
theorem run_eq_self (sheet : Stylesheet) (h : (p.run sheet).2.changes = 0) :
    (p.run sheet).1 = sheet := by
  simp only [run, runNodes] at h ⊢
  split at h
  · rename_i hmedia
    rw [changes_add, Nat.add_eq_zero_iff] at h
    rw [if_pos hmedia]
    have hwalk := p.walk_eq_self none [] sheet.nodes h.1
    rw [List.nil_append] at hwalk
    have hnone := h.2
    simp only [hwalk, runMedia, Report.changes, Nat.zero_add, List.length_eq_zero_iff,
      List.filter_eq_nil_iff] at hnone ⊢
    rw [mapParamsList_eq_self]
    intro a ha hname
    simpa [hname] using hnone a ha
  · rename_i hmedia
    rw [if_neg hmedia, p.walk_eq_self none [] sheet.nodes h]
    rfl

end Pass

/-! ## The text after a run -/

/-- A text is patched with what a run with the built-in conversion makes of its tree, and is read
as that. -/
theorem Pass.exists_patch_run {css : Text} {sheet : Stylesheet} (p : Pass) (hk : p.converter.Tame)
    (source : Option Text) (h : Stylesheet.parse css = .ok sheet)
    (hclosed : ∀ q ∈ Passage.ofText css, q.depth = 0)
    (hmasked : ∀ d ∈ sheet.declarations, ¬ Masked d.property)
    (hapart : ∀ raw stop, .statement (some media) raw stop ∈ Passage.ofText css →
      raw.head? ≠ some '+' ∧ raw.head? ≠ some '.') :
    ∃ u s, patch? (p.run { sheet with source }).1 css = some u ∧ Stylesheet.parse u = .ok s ∧
      Same { s with source } (p.run { sheet with source }).1 := by
  obtain ⟨cs, hr, hgentle⟩ := p.exists_revises_run hk { sheet with source } hmasked
  have hclear : ∀ q ∈ Passage.ofText css, q.Clear media :=
    fun q hq => ⟨hclosed q hq, fun raw stop heq => hapart raw stop (heq ▸ hq)⟩
  obtain ⟨u, s, hpatch, hparse, hsame⟩ := parse_patch_of_gentle h hr hclear hgentle source
  have hsource : (p.run { sheet with source }).1 =
      ⟨source, (p.run { sheet with source }).1.nodes⟩ := rfl
  rw [hsource]
  refine ⟨u, s, hpatch, hparse, ?_⟩
  simp only [Same, bare, hsame]

/-- What becomes of a text whose tree is run over. -/
theorem OptionSet.convert_of_run {css : Text} {sheet t : Stylesheet} {report : Report}
    (set : OptionSet) {source : Option Text} (h : Stylesheet.parse css = .ok sheet)
    (hrun : set.run { sheet with source } = some (t, report)) :
    set.convert source css =
      .ok ⟨if 0 < report.changes then t.patch css else css, some report⟩ := by
  rw [convert, h]
  simp only [Except.bind, bind, hrun]
  rfl

/-- What becomes of a text that is excluded. -/
theorem OptionSet.convert_of_excluded {css : Text} {sheet : Stylesheet} (set : OptionSet)
    {source : Option Text} (h : Stylesheet.parse css = .ok sheet)
    (hrun : set.run { sheet with source } = none) : set.convert source css = .ok ⟨css, none⟩ := by
  rw [convert, h]
  simp only [Except.bind, bind, hrun]
  rfl

/-- After a run with the built-in conversion, the text is read as the tree, up to spans, and it was
not printed anew. No statement may run to the end of the text inside of a parenthesis, no property
may look like an at-rule or a comment, and no number may follow the name of a media query without
anything in between. -/
theorem OptionSet.parse_convert {css : Text} {sheet : Stylesheet} (set : OptionSet)
    (source : Option Text) (h : Stylesheet.parse css = .ok sheet)
    (hset : ∀ settings, set.select source = some settings → settings.converter.Tame)
    (hclosed : ∀ q ∈ Passage.ofText css, q.depth = 0)
    (hmasked : ∀ d ∈ sheet.declarations, ¬ Masked d.property)
    (hapart : ∀ raw stop, .statement (some Pass.media) raw stop ∈ Passage.ofText css →
      raw.head? ≠ some '+' ∧ raw.head? ≠ some '.') :
    ∃ c s, set.convert source css = .ok c ∧ Stylesheet.parse c.text = .ok s ∧
      Same { s with source }
        (((set.run { sheet with source }).map Prod.fst).getD { sheet with source }) ∧
      ∀ t report, set.run { sheet with source } = some (t, report) → (patch? t css).isSome := by
  cases hrun : set.run { sheet with source } with
  | none => exact ⟨⟨css, none⟩, sheet, set.convert_of_excluded h hrun, h, rfl, by simp⟩
  | some result =>
    obtain ⟨t, report⟩ := result
    obtain ⟨settings, hselect, hpass⟩ := Option.map_eq_some_iff.mp hrun
    obtain ⟨u, s, hpatch, hparse, hsame⟩ := (Pass.ofSettings settings).exists_patch_run
      (hset settings hselect) source h hclosed hmasked hapart
    have hself := (Pass.ofSettings settings).run_eq_self { sheet with source }
    rw [hpass] at hpatch hsame hself
    have hconvert := set.convert_of_run h hrun
    have hsome : ∀ t' report', some (t, report) = some (t', report') →
        (patch? t' css).isSome := by
      rintro t' report' heq
      cases heq
      rw [hpatch]
      rfl
    by_cases hchanges : 0 < report.changes
    · have htext : t.patch css = u := by
        rw [patch, hpatch]
        rfl
      rw [if_pos hchanges, htext] at hconvert
      exact ⟨_, s, hconvert, hparse, hsame, hsome⟩
    · rw [if_neg hchanges] at hconvert
      have ht : t = { sheet with source } := hself (by
        dsimp only
        omega)
      exact ⟨_, sheet, hconvert, h, congrArg bare ht.symm, hsome⟩

/-- Copies are inserted into a rule inside a media query, and the query is converted. -/
theorem OptionSet.parse_convert_media :
    ∃ sheet c s,
      Stylesheet.parse "@media (width: 64px) \x7b a \x7b font: 12px \x7d \x7d".toList = .ok sheet ∧
      OptionSet.convert ⟨[{ replace := some false, mediaQuery := some true }]⟩ none
        "@media (width: 64px) \x7b a \x7b font: 12px \x7d \x7d".toList = .ok c ∧
      Stylesheet.parse c.text = .ok s ∧
      Same { s with source := none }
        (((OptionSet.run ⟨[{ replace := some false, mediaQuery := some true }]⟩
          { sheet with source := none }).map Prod.fst).getD { sheet with source := none }) ∧
      ∀ t report, OptionSet.run ⟨[{ replace := some false, mediaQuery := some true }]⟩
          { sheet with source := none } = some (t, report) →
        (patch? t "@media (width: 64px) \x7b a \x7b font: 12px \x7d \x7d".toList).isSome := by
  have hparse : Stylesheet.parse "@media (width: 64px) \x7b a \x7b font: 12px \x7d \x7d".toList =
      .ok ⟨none, [.atRule ⟨"media".toList, "(width: 64px)".toList, some ⟨7, 20⟩⟩
        [.rule "a".toList [.declaration
          ⟨"font".toList, "12px".toList, false, some ⟨27, 33, 37, 37, none⟩⟩]]]⟩ := by
    cbv
  have hpassages : Passage.ofText "@media (width: 64px) \x7b a \x7b font: 12px \x7d \x7d".toList =
      [.statement (some "media".toList) " (width: 64px) ".toList .brace, .space ' ',
        .statement none "a ".toList .brace, .space ' ',
        .statement none "font: 12px ".toList .nothing, .closing, .space ' ', .closing] := by
    cbv
  obtain ⟨c, s, hc, hs, hsame, hsome⟩ :=
    OptionSet.parse_convert ⟨[{ replace := some false, mediaQuery := some true }]⟩ none hparse
      (fun settings hselect => by
        cases hselect
        intro c hc
        have hletters : "rem".toList.all Char.isAlpha = true := by decide
        exact .inl (List.all_eq_true.mp hletters c hc))
      (by
        rw [hpassages]
        decide)
      (fun d hd => by
        obtain rfl := List.mem_singleton.mp hd
        decide)
      (fun raw stop hq => by
        rw [hpassages] at hq
        obtain ⟨rfl, rfl⟩ : raw = " (width: 64px) ".toList ∧ stop = .brace := by
          simpa [Pass.media] using hq
        decide)
  exact ⟨_, c, s, hparse, hc, hs, hsame, hsome⟩

end PixelScale
