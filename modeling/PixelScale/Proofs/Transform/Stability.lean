import PixelScale.Proofs.Transform.Outcome

/-!
# A second run

A run leaves nothing to be done if converting twice is converting once. Each declaration that asks
for a conversion then has a sibling with the converted value: its copy, or the sibling that would
have been repeated, or itself if it was converted. None of these is taken away later in the run,
since the conversion does not change them. The second run finds the same siblings everywhere and
converts nothing.

* `Settled`: a tree in which nothing is left to convert.
* `Settled.changes_walk`: a run over such a tree changes nothing.
* `Becomes.settled`: a run leaves such a tree behind.
* `Pass.run_run`: a second run changes nothing.
-/

namespace PixelScale

open Stylesheet Text

/-! ## Settled trees -/

/-- Among siblings with the given pairs of property and value nothing is left to convert: every
declaration that asks for a conversion has a sibling with the converted value. The same holds in
every block for the siblings there. -/
inductive Settled (p : Pass) : Option Text → List (Text × Text) → List Node → Prop
  | nil {selector : Option Text} {pairs : List (Text × Text)} : Settled p selector pairs []
  | declaration {selector : Option Text} {pairs : List (Text × Text)} {ns : List Node}
      {d : Declaration} :
      (p.Eligible selector d → p.target d ∈ pairs) → Settled p selector pairs ns →
      Settled p selector pairs (.declaration d :: ns)
  | rule {selector : Option Text} {pairs : List (Text × Text)} {ns nodes : List Node}
      {inner : Text} :
      Settled p (some inner) (Node.pairs nodes) nodes → Settled p selector pairs ns →
      Settled p selector pairs (.rule inner nodes :: ns)
  | atRule {selector : Option Text} {pairs : List (Text × Text)} {ns nodes : List Node}
      {head : AtHead} :
      Settled p none (Node.pairs nodes) nodes → Settled p selector pairs ns →
      Settled p selector pairs (.atRule head nodes :: ns)
  | atStatement {selector : Option Text} {pairs : List (Text × Text)} {ns : List Node}
      {head : AtHead} :
      Settled p selector pairs ns → Settled p selector pairs (.atStatement head :: ns)
  | comment {selector : Option Text} {pairs : List (Text × Text)} {ns : List Node} {text : Text} :
      Settled p selector pairs ns → Settled p selector pairs (.comment text :: ns)

variable {p : Pass}

theorem Settled.declarations {selector : Option Text} {pairs : List (Text × Text)} {ns : List Node}
    {ds : List Declaration} (hds : ∀ d ∈ ds, p.Eligible selector d → p.target d ∈ pairs)
    (h : Settled p selector pairs ns) : Settled p selector pairs (ds.map .declaration ++ ns) := by
  induction ds with
  | nil => exact h
  | cons d ds ih =>
    obtain ⟨hd, hds⟩ := List.forall_mem_cons.mp hds
    exact .declaration hd (ih hds)

theorem Pass.changes_counted {v : Pass.Verdict} (hv : ∀ value, v ≠ .converted value) :
    (p.counted v).changes = 0 := by
  cases v with
  | converted value => exact absurd rfl (hv value)
  | _ => rfl

theorem Pass.changes_walk_cons {selector : Option Text} {done ns : List Node} {n : Node}
    (hn : ∀ d, n ≠ .declaration d) (hblock : (p.walkBlock n).2.changes = 0)
    (hrest : (p.walk selector (done ++ [n]) ns).2.changes = 0) :
    (p.walk selector done (n :: ns)).2.changes = 0 := by
  rw [p.walk_cons selector done hn]
  dsimp only
  rw [changes_add, hblock, p.walkBlock_eq_self n hblock, hrest]

/-- A walk over settled siblings changes nothing. -/
theorem Settled.changes_walk {selector : Option Text} {prs : List (Text × Text)} {ns : List Node}
    (h : Settled p selector prs ns) {done : List Node} (hprs : Node.pairs (done ++ ns) = prs) :
    (p.walk selector done ns).2.changes = 0 := by
  induction h generalizing done with
  | nil => rfl
  | @declaration selector prs ns d hd _ ih =>
    subst hprs
    rcases p.step_cases selector (done ++ .declaration d :: ns) d with
      ⟨hv, -⟩ | ⟨he, hnew, -⟩
    · rw [Pass.walk_declaration]
      dsimp only
      rw [Pass.changes_add, Pass.changes_counted hv, p.nodesFor_eq d hv, ih (by simp)]
    · exact absurd (hd he) hnew
  | rule _ _ ih₁ ih₂ =>
    exact Pass.changes_walk_cons (fun _ => nofun) (ih₁ rfl) (ih₂ (by simpa using hprs))
  | atRule _ _ ih₁ ih₂ =>
    exact Pass.changes_walk_cons (fun _ => nofun) (ih₁ rfl) (ih₂ (by simpa using hprs))
  | atStatement _ ih => exact Pass.changes_walk_cons (fun _ => nofun) rfl (ih (by simpa using hprs))
  | comment _ ih => exact Pass.changes_walk_cons (fun _ => nofun) rfl (ih (by simpa using hprs))

/-! ## What a run leaves behind -/

/-- After a run a declaration and its copies have the converted value among their siblings, if they
ask for a conversion. -/
theorem Pass.Outcome.target_mem {selector : Option Text} {prs : List (Text × Text)}
    {d new : Declaration} {copies : List Declaration} (h : p.Outcome selector prs d new copies)
    (hself : p.converter.replaceAll (p.converter.replaceAll d.value) =
      p.converter.replaceAll d.value) :
    ∀ c ∈ new :: copies, p.Eligible selector c → p.target c ∈ prs := by
  have hmade : p.target d ∈ prs → ∀ c : Declaration, c.property = d.property →
      c.value = p.converter.replaceAll d.value → p.target c ∈ prs := by
    intro hmem c hproperty hvalue
    rw [target, hproperty, hvalue, hself]
    exact hmem
  cases h with
  | left hpresent => exact List.forall_mem_singleton.mpr fun he => hpresent he (.inr hself)
  | replaced _ _ honce =>
    exact List.forall_mem_singleton.mpr fun _ => hmade (mem_of_count_eq_one honce) _ rfl rfl
  | inserted _ _ honce =>
    exact List.forall_mem_cons.mpr ⟨fun _ => mem_of_count_eq_one honce,
      List.forall_mem_singleton.mpr fun _ => hmade (mem_of_count_eq_one honce) _ rfl rfl⟩

/-- A run leaves nothing to convert if the converter changes no converted value. -/
theorem Becomes.settled {f : AtHead → AtHead} {selector : Option Text} {prs : List (Text × Text)}
    {ns ms : List Node} (h : Becomes p.Outcome f selector prs ns ms)
    (hself : ∀ d ∈ Node.declarationsList ns,
      p.converter.replaceAll (p.converter.replaceAll d.value) = p.converter.replaceAll d.value) :
    Settled p selector prs ms := by
  induction h with
  | nil => exact .nil
  | declaration hd _ ih =>
    obtain ⟨hnew, hcopies⟩ := List.forall_mem_cons.mp (hd.target_mem (hself _ List.mem_cons_self))
    exact .declaration hnew
      (.declarations hcopies (ih fun d hd => hself d (List.mem_cons_of_mem _ hd)))
  | rule _ _ ih₁ ih₂ =>
    exact .rule (ih₁ fun d hd => hself d (List.mem_append_left _ hd))
      (ih₂ fun d hd => hself d (List.mem_append_right _ hd))
  | atRule _ _ ih₁ ih₂ =>
    exact .atRule (ih₁ fun d hd => hself d (List.mem_append_left _ hd))
      (ih₂ fun d hd => hself d (List.mem_append_right _ hd))
  | atStatement _ ih => exact .atStatement (ih hself)
  | comment _ ih => exact .comment (ih hself)

theorem Stylesheet.Node.atRulesList_declarations (ds : List Declaration) :
    atRulesList (ds.map .declaration) = [] := by
  induction ds with
  | nil => rfl
  | cons d ds ih => rw [List.map_cons, atRulesList, ih, atRules, List.append_nil]

/-- Every at-rule that a run leaves behind is one that was there, with its new head. -/
theorem Becomes.exists_atRule {R : Fate} {f : AtHead → AtHead} {selector : Option Text}
    {pairs : List (Text × Text)} {ns ms : List Node} (h : Becomes R f selector pairs ns ms) :
    ∀ a ∈ Node.atRulesList ms, ∃ b ∈ Node.atRulesList ns, a.1 = f b.1 := by
  have join : ∀ {as bs cs ds : List (AtHead × Option Nat)},
      (∀ a ∈ as, ∃ b ∈ cs, a.1 = f b.1) → (∀ a ∈ bs, ∃ b ∈ ds, a.1 = f b.1) →
        ∀ a ∈ as ++ bs, ∃ b ∈ cs ++ ds, a.1 = f b.1 := by
    intro as bs cs ds h₁ h₂ a ha
    rcases List.mem_append.mp ha with ha | ha
    · obtain ⟨b, hb, heq⟩ := h₁ a ha
      exact ⟨b, List.mem_append_left _ hb, heq⟩
    · obtain ⟨b, hb, heq⟩ := h₂ a ha
      exact ⟨b, List.mem_append_right _ hb, heq⟩
  induction h with
  | nil => simp [Node.atRulesList]
  | declaration _ _ ih =>
    rw [Node.atRulesList, Node.atRulesList_append, Node.atRulesList_declarations]
    exact ih
  | rule _ _ ih₁ ih₂ => exact join ih₁ ih₂
  | atRule _ _ ih₁ ih₂ =>
    exact join (List.forall_mem_cons.mpr ⟨⟨_, List.mem_cons_self, rfl⟩, fun a ha =>
      (ih₁ a ha).imp fun _ hb => hb.imp_left (List.mem_cons_of_mem _)⟩) ih₂
  | atStatement _ ih =>
    exact join (List.forall_mem_singleton.mpr ⟨_, List.mem_cons_self, rfl⟩) ih
  | comment _ ih => exact ih

namespace Pass

variable (p)

theorem value_value {t : Text}
    (h : p.converter.replaceAll (p.converter.replaceAll t) = p.converter.replaceAll t) :
    p.converter.value (p.converter.value t) = p.converter.value t := by
  unfold Pixel.Converter.value
  by_cases ht : occurs Pixel.Segment.pxSuffix t = true
  · rw [if_pos ht, h]
    split <;> rfl
  · rw [if_neg ht, if_neg ht]

/-- Where neither the declarations nor the media queries have anything left to convert, a run
changes nothing. -/
theorem changes_run (sheet : Stylesheet)
    (hwalk : (p.walk none [] sheet.nodes).2.changes = 0)
    (hparams : p.mediaQuery = true → ∀ a ∈ sheet.atRules media,
      p.converter.value a.1.params = a.1.params) : (p.run sheet).2.changes = 0 := by
  have hself := p.walk_eq_self none [] sheet.nodes hwalk
  rw [List.nil_append] at hself
  simp only [run, runNodes]
  split
  · rename_i hmedia
    rw [changes_add, hwalk, hself, runMedia]
    simp only [Report.changes, Nat.zero_add, List.length_eq_zero_iff, List.filter_eq_nil_iff]
    intro a ha hchanged
    obtain ⟨hname, hne⟩ := Bool.and_eq_true_iff.mp hchanged
    exact absurd (hparams hmedia a (List.mem_filter.mpr ⟨ha, hname⟩)) (by simpa using hne)
  · exact hwalk

/-- A second run changes nothing, if the converter changes neither a value nor a parameter that it
has converted before. -/
theorem run_run (sheet : Stylesheet)
    (hvalues : ∀ d ∈ sheet.declarations,
      p.converter.replaceAll (p.converter.replaceAll d.value) = p.converter.replaceAll d.value)
    (hparams : ∀ a ∈ sheet.atRules media,
      p.converter.replaceAll (p.converter.replaceAll a.1.params) =
        p.converter.replaceAll a.1.params) :
    (p.run (p.run sheet).1).2.changes = 0 ∧ (p.run (p.run sheet).1).1 = (p.run sheet).1 := by
  have hb := p.becomes_run sheet
  have hchanges : (p.run (p.run sheet).1).2.changes = 0 := by
    refine p.changes_run _ ((hb.settled hvalues).changes_walk rfl) fun hmedia a ha => ?_
    obtain ⟨hmem, hname⟩ := List.mem_filter.mp ha
    replace hname : a.1.name = media := by simpa using hname
    obtain ⟨b, hmem, heq⟩ := hb.exists_atRule a hmem
    by_cases hb' : b.1.name = media
    · have hparams := p.value_value (hparams b (List.mem_filter.mpr ⟨hmem, by simpa using hb'⟩))
      rw [heq, headAfter, if_pos ⟨hmedia, hb'⟩]
      exact hparams
    · rw [heq, headAfter, if_neg fun h => hb' h.2] at hname
      exact absurd hname hb'
  exact ⟨hchanges, p.run_eq_self _ hchanges⟩

/-- The converted value has pixel lengths again, and a second declaration would repeat it. -/
theorem run_run_pixels :
    ∃ (p : Pass) (sheet : Stylesheet), p.replace = false ∧
      sheet.nodes = [.atRule ⟨media, "(width: 1px)".toList, none⟩ [.rule "a".toList
        [.declaration ⟨"top".toList, "1px".toList, false, none⟩,
          .declaration ⟨"top".toList, "2px".toList, false, none⟩]]] ∧
      (p.run sheet).1.nodes = [.atRule ⟨media, "(width: 8px)".toList, none⟩ [.rule "a".toList
        [.declaration ⟨"top".toList, "1px".toList, false, none⟩,
          .declaration ⟨"top".toList, "8px".toList, false, none⟩,
          .declaration ⟨"top".toList, "2px".toList, false, none⟩]]] ∧
      (∀ d ∈ sheet.declarations,
        p.converter.replaceAll (p.converter.replaceAll d.value) = p.converter.replaceAll d.value) ∧
      (∀ a ∈ sheet.atRules media,
        p.converter.replaceAll (p.converter.replaceAll a.1.params) =
          p.converter.replaceAll a.1.params) ∧
      (p.run (p.run sheet).1).2.changes = 0 ∧ (p.run (p.run sheet).1).1 = (p.run sheet).1 := by
  refine ⟨⟨.custom fun _ => "8px".toList, .ofList ["*".toList], [], false, true⟩, ⟨none, _⟩, rfl,
    rfl, rfl, ?hvalues, ?hparams, run_run _ _ ?hvalues ?hparams⟩
  case hvalues => decide
  case hparams => decide

end Pass

end PixelScale
