import PixelScale.Proofs.Transform.Outcome

/-!
# What a report tells

A run counts while it goes through a list that grows behind it. Still the numbers of its report
are numbers of the tree before and after: the copies are what the tree has grown by, and what was
replaced are the places where a value changed. The second holds because a declaration is one of its
own siblings. If converting its value changes nothing, the run takes it for a repetition of itself
and counts it as such, so a replacement is never counted where nothing changes.

* `Tallies`: the numbers of a report on some nodes and what became of them.
* `Pass.tallies_step`: what one step counts.
* `Pass.exists_tallies_walk`: what a walk counts.
* `Report.Accounts`: what a report says about a tree and what became of it.
* `Pass.run_accounts`: the report of a run accounts for the tree.
-/

namespace PixelScale

open Stylesheet Text

/-! ## Counting differences -/

/-- The number of places at which two lists differ, compared by `f`. -/
def differences {α β : Type} [DecidableEq β] (f : α → β) (as bs : List α) : Nat :=
  (as.zip bs).countP fun ab => f ab.1 ≠ f ab.2

section

variable {α β : Type} [DecidableEq β] {f : α → β} {as as' bs bs' : List α}

theorem differences_append (h : as.length = bs.length) :
    differences f (as ++ as') (bs ++ bs') = differences f as bs + differences f as' bs' := by
  rw [differences, List.zip_append h, List.countP_append]
  rfl

theorem differences_eq_zero (h : as.map f = bs.map f) : differences f as bs = 0 := by
  induction as generalizing bs with
  | nil => rfl
  | cons a as ih =>
    cases bs with
    | nil => rfl
    | cons b bs =>
      obtain ⟨hab, h⟩ := List.cons.inj h
      have hzero := ih h
      simp only [differences, List.zip_cons_cons, List.countP_cons] at hzero ⊢
      rw [hzero]
      simp [hab]

/-- The places that a function changes are counted in the list itself. -/
theorem differences_map (g : α → α) (as : List α) :
    differences f as (as.map g) = as.countP fun a => f a ≠ f (g a) := by
  induction as with
  | nil => rfl
  | cons a as ih =>
    simp only [differences, List.map_cons, List.zip_cons_cons, List.countP_cons] at ih ⊢
    rw [ih]

end

/-! ## What a walk counts -/

/-- A declaration that has its property, its importance and its place from another one. -/
structure Stylesheet.Declaration.Revalues (old new : Declaration) : Prop where
  property : new.property = old.property
  important : new.important = old.important
  span : new.span = old.span

/-- A report on the nodes `ns`, which became `ms`, without media queries. -/
structure Tallies (p : Pass) (r : Report) (ns ms : List Node) : Prop where
  declarations : r.declarations = (Node.declarationsList ns).length
  pixels : r.replaced + r.inserted + r.skippedProperty + r.skippedSelector + r.skippedDuplicate =
    (Node.declarationsList ns).countP fun d => occurs Pixel.Segment.pxSuffix d.value
  inserted : (Node.declarationsList ms).length = (Node.declarationsList ns).length + r.inserted
  replaced : ∃ kept, kept.Sublist (Node.declarationsList ms) ∧
    List.Forall₂ Declaration.Revalues (Node.declarationsList ns) kept ∧
    r.replaced = differences Declaration.value (Node.declarationsList ns) kept
  mode : if p.replace then r.inserted = 0 else r.replaced = 0
  mediaQueries : r.mediaQueries = 0
  heads : (Node.atRulesList ms).map Prod.fst = (Node.atRulesList ns).map Prod.fst

namespace Stylesheet.Node

theorem declarationsList_append (ns ms : List Node) :
    declarationsList (ns ++ ms) = declarationsList ns ++ declarationsList ms := by
  induction ns with
  | nil => rfl
  | cons n ns ih => rw [List.cons_append, declarationsList, ih, declarationsList, List.append_assoc]

theorem declarationsList_singleton (n : Node) : declarationsList [n] = n.declarations :=
  List.append_nil _

theorem atRulesList_singleton (n : Node) : atRulesList [n] = n.atRules :=
  List.append_nil _

end Stylesheet.Node

open Stylesheet.Node

variable {p : Pass}

theorem Tallies.append {r r' : Report} {ns ns' ms ms' : List Node} (h : Tallies p r ns ms)
    (h' : Tallies p r' ns' ms') : Tallies p (r + r') (ns ++ ns') (ms ++ ms') := by
  obtain ⟨kept, hsub, hkept, hreplaced⟩ := h.replaced
  obtain ⟨kept', hsub', hkept', hreplaced'⟩ := h'.replaced
  have hadd : r + r' = r.add r' := rfl
  constructor
  case declarations =>
    have h₁ := h.declarations
    have h₂ := h'.declarations
    simp only [hadd, Report.add, declarationsList_append, List.length_append]
    omega
  case pixels =>
    have h₁ := h.pixels
    have h₂ := h'.pixels
    simp only [hadd, Report.add, declarationsList_append, List.countP_append]
    omega
  case inserted =>
    have h₁ := h.inserted
    have h₂ := h'.inserted
    simp only [hadd, Report.add, declarationsList_append, List.length_append]
    omega
  case replaced =>
    rw [declarationsList_append, declarationsList_append]
    refine ⟨kept ++ kept', hsub.append hsub', List.rel_append hkept hkept', ?_⟩
    rw [differences_append hkept.length_eq, ← hreplaced, ← hreplaced']
    rfl
  case mode =>
    have h₁ := h.mode
    have h₂ := h'.mode
    simp only [hadd, Report.add]
    split at h₁ <;> split at h₂ <;> simp_all
  case mediaQueries =>
    have h₁ := h.mediaQueries
    have h₂ := h'.mediaQueries
    simp only [hadd, Report.add]
    omega
  case heads =>
    simp only [atRulesList_append, List.map_append, h.heads, h'.heads]

/-- A report on nothing but blocks without declarations and comments. -/
theorem Tallies.zero {n : Node} (h : n.declarations = []) : Tallies p {} [n] [n] := by
  constructor
  case replaced =>
    refine ⟨[], ?_, ?_, ?_⟩ <;> simp [declarationsList_singleton, h, differences]
  case mode => split <;> rfl
  all_goals simp [declarationsList_singleton, h]

/-- A report on the nodes of a block is one on the block. -/
theorem Tallies.rule {r : Report} {nodes nodes' : List Node} (selector : Text)
    (h : Tallies p r nodes nodes') :
    Tallies p r [.rule selector nodes] [.rule selector nodes'] := by
  obtain ⟨hdeclarations, hpixels, hinserted, hreplaced, hmode, hmedia, hheads⟩ := h
  refine ⟨?_, ?_, ?_, ?_, hmode, hmedia, ?_⟩
  all_goals
    simp only [declarationsList_singleton, atRulesList_singleton, Node.declarations, Node.atRules]
    assumption

theorem Tallies.atRule {r : Report} {nodes nodes' : List Node} (head : AtHead)
    (h : Tallies p r nodes nodes') : Tallies p r [.atRule head nodes] [.atRule head nodes'] := by
  obtain ⟨hdeclarations, hpixels, hinserted, hreplaced, hmode, hmedia, hheads⟩ := h
  refine ⟨?_, ?_, ?_, ?_, hmode, hmedia, ?_⟩
  case refine_5 =>
    simp only [atRulesList_singleton, Node.atRules, List.map_cons]
    rw [hheads]
  all_goals
    simp only [declarationsList_singleton, Node.declarations]
    assumption

namespace Pass

/-- A declaration that is left alone is counted once, by the reason for it. -/
theorem tallies_left {d : Declaration} {v : Verdict} (hv : ∀ value, v ≠ .converted value)
    (hplain : v = .plain ↔ occurs Pixel.Segment.pxSuffix d.value = false) :
    Tallies p (p.counted v) [.declaration d] (p.nodesFor d v) := by
  rw [p.nodesFor_eq d hv]
  constructor
  case pixels =>
    cases hpixels : occurs Pixel.Segment.pxSuffix d.value with
    | false =>
      rw [hplain.mpr hpixels]
      simp [declarationsList_singleton, Node.declarations, counted, hpixels]
    | true =>
      have hne : v ≠ .plain := by
        intro h
        rw [hplain.mp h] at hpixels
        cases hpixels
      cases v with
      | plain => exact absurd rfl hne
      | converted value => exact absurd rfl (hv value)
      | _ => simp [declarationsList_singleton, Node.declarations, counted, hpixels]
  case replaced =>
    refine ⟨[d], ?_, ?_, ?_⟩
    · simp [declarationsList_singleton, Node.declarations]
    · simp only [declarationsList_singleton, Node.declarations]
      exact .cons ⟨rfl, rfl, rfl⟩ .nil
    · rw [declarationsList_singleton, Node.declarations, differences_eq_zero rfl]
      cases v with
      | converted value => exact absurd rfl (hv value)
      | _ => rfl
  case mode =>
    split
    all_goals
      cases v with
      | converted value => exact absurd rfl (hv value)
      | _ => rfl
  all_goals
    cases v with
    | converted value => exact absurd rfl (hv value)
    | _ => rfl

/-- A declaration that is converted is counted once, by the mode of the run. -/
theorem tallies_converted {d : Declaration} {value : Text}
    (hpixels : occurs Pixel.Segment.pxSuffix d.value = true) (hvalue : value ≠ d.value) :
    Tallies p (p.counted (.converted value)) [.declaration d]
      (p.nodesFor d (.converted value)) := by
  by_cases hreplace : p.replace = true
  · have hdifferent : differences Declaration.value [d] [{ d with value }] = 1 := by
      simp [differences, Ne.symm hvalue]
    simp only [counted, nodesFor, if_pos hreplace]
    refine ⟨rfl, ?_, rfl, ⟨[{ d with value }], ?_, ?_, hdifferent.symm⟩, ?_, rfl, rfl⟩
    · simp [declarationsList_singleton, Node.declarations, hpixels]
    · exact List.Sublist.refl _
    · exact .cons ⟨rfl, rfl, rfl⟩ .nil
    · rw [if_pos hreplace]
  · have hsame : differences Declaration.value [d] [d] = 0 := differences_eq_zero rfl
    simp only [counted, nodesFor, if_neg hreplace]
    refine ⟨rfl, ?_, rfl, ⟨[d], ?_, ?_, hsame.symm⟩, ?_, rfl, rfl⟩
    · simp [declarationsList_singleton, Node.declarations, hpixels]
    · exact List.Sublist.cons_cons _ (List.nil_sublist _)
    · exact .cons ⟨rfl, rfl, rfl⟩ .nil
    · rw [if_neg hreplace]

variable (p)

theorem verdict_eq_plain_iff (selector : Option Text) (siblings : List Node) (d : Declaration) :
    p.verdict selector siblings d = .plain ↔ occurs Pixel.Segment.pxSuffix d.value = false := by
  unfold verdict
  cases hpixels : occurs Pixel.Segment.pxSuffix d.value with
  | false => simp
  | true =>
    simp only [Bool.not_true, Bool.false_eq_true, if_false, Bool.true_eq_false, iff_false]
    split
    · exact nofun
    split
    · exact nofun
    split <;> exact nofun

/-- What one step counts. A converted value differs from the old one, since the declaration itself
is among the siblings that do not have it. -/
theorem tallies_step (selector : Option Text) {siblings : List Node} {d : Declaration}
    (hd : (d.property, d.value) ∈ pairs siblings) :
    Tallies p (p.counted (p.verdict selector siblings d)) [.declaration d]
      (p.nodesFor d (p.verdict selector siblings d)) := by
  rcases p.step_cases selector siblings d with ⟨hv, -⟩ | ⟨he, hnew, hv⟩
  · exact tallies_left hv (p.verdict_eq_plain_iff selector siblings d)
  · have hvalue : p.converter.replaceAll d.value ≠ d.value := by
      intro hself
      rw [target, hself] at hnew
      exact hnew hd
    rw [hv]
    exact tallies_converted he.1 hvalue

mutual

theorem tallies_walkBlock (n : Node) (hn : ∀ d, n ≠ .declaration d) :
    Tallies p (p.walkBlock n).2 [n] [(p.walkBlock n).1] := by
  cases n with
  | rule selector nodes =>
    obtain ⟨ms, hwalk, h⟩ := exists_tallies_walk (some selector) [] nodes
    rw [walkBlock_rule, hwalk]
    exact h.rule selector
  | atRule head nodes =>
    obtain ⟨ms, hwalk, h⟩ := exists_tallies_walk none [] nodes
    rw [walkBlock_atRule, hwalk]
    exact h.atRule head
  | atStatement head => exact Tallies.zero rfl
  | declaration d => exact absurd rfl (hn d)
  | comment text => exact Tallies.zero rfl

/-- What a walk over the siblings of a block counts. -/
theorem exists_tallies_walk (selector : Option Text) (done ns : List Node) :
    ∃ ms, (p.walk selector done ns).1 = done ++ ms ∧
      Tallies p (p.walk selector done ns).2 ns ms := by
  cases ns with
  | nil =>
    refine ⟨[], by simp [walk], ?_⟩
    constructor
    case replaced => exact ⟨[], List.Sublist.refl _, .nil, rfl⟩
    case mode => split <;> rfl
    all_goals rfl
  | cons n ns =>
    rcases n.exists_declaration_or with ⟨d, rfl⟩ | hn
    · have hmem : (d.property, d.value) ∈ pairs (done ++ .declaration d :: ns) := by simp
      have hstep := p.tallies_step selector hmem
      obtain ⟨ms, hwalk, h⟩ := exists_tallies_walk selector
        (done ++ p.nodesFor d (p.verdict selector (done ++ .declaration d :: ns) d)) ns
      rw [walk_declaration]
      refine ⟨_, ?_, hstep.append h⟩
      dsimp only
      rw [hwalk, List.append_assoc]
    · have hblock := tallies_walkBlock n hn
      obtain ⟨ms, hwalk, h⟩ := exists_tallies_walk selector (done ++ [(p.walkBlock n).1]) ns
      rw [p.walk_cons selector done hn]
      refine ⟨_, ?_, hblock.append h⟩
      dsimp only
      rw [hwalk, List.append_assoc]

end

end Pass

/-! ## What a run counts -/

namespace Stylesheet.Node

mutual

theorem declarations_mapParams (name : Text) (f : Text → Text) (n : Node) :
    (n.mapParams name f).declarations = n.declarations := by
  cases n with
  | rule selector nodes => exact declarationsList_mapParamsList name f nodes
  | atRule head nodes => exact declarationsList_mapParamsList name f nodes
  | _ => rfl

theorem declarationsList_mapParamsList (name : Text) (f : Text → Text) (ns : List Node) :
    declarationsList (mapParamsList name f ns) = declarationsList ns := by
  cases ns with
  | nil => rfl
  | cons n ns =>
    rw [mapParamsList, declarationsList, declarations_mapParams, declarationsList_mapParamsList,
      declarationsList]

end

mutual

theorem heads_mapParams (name : Text) (f : Text → Text) (n : Node) :
    (n.mapParams name f).atRules.map Prod.fst = (n.atRules.map Prod.fst).map fun head =>
      if head.name = name then { head with params := f head.params } else head := by
  cases n with
  | rule selector nodes => exact heads_mapParamsList name f nodes
  | atRule head nodes =>
    rw [mapParams, atRules, List.map_cons, heads_mapParamsList, atRules, List.map_cons,
      List.map_cons]
  | _ => rfl

/-- The heads of at-rules after their parameters changed. -/
theorem heads_mapParamsList (name : Text) (f : Text → Text) (ns : List Node) :
    (atRulesList (mapParamsList name f ns)).map Prod.fst =
      ((atRulesList ns).map Prod.fst).map fun head =>
        if head.name = name then { head with params := f head.params } else head := by
  cases ns with
  | nil => rfl
  | cons n ns =>
    rw [mapParamsList, atRulesList, List.map_append, heads_mapParams, heads_mapParamsList,
      atRulesList, List.map_append, List.map_append]

end

mutual

theorem declarations_bare (n : Node) : n.bare.declarations = n.declarations.map .bare := by
  cases n with
  | rule selector nodes => exact declarationsList_bareList nodes
  | atRule head nodes => exact declarationsList_bareList nodes
  | _ => rfl

theorem declarationsList_bareList (ns : List Node) :
    declarationsList (bareList ns) = (declarationsList ns).map .bare := by
  cases ns with
  | nil => rfl
  | cons n ns =>
    rw [bareList, declarationsList, declarations_bare, declarationsList_bareList, declarationsList,
      List.map_append]

end

mutual

theorem heads_bare (n : Node) :
    n.bare.atRules.map Prod.fst = (n.atRules.map Prod.fst).map .bare := by
  cases n with
  | rule selector nodes => exact heads_bareList nodes
  | atRule head nodes =>
    rw [bare, atRules, List.map_cons, heads_bareList, atRules, List.map_cons, List.map_cons]
  | _ => rfl

theorem heads_bareList (ns : List Node) :
    (atRulesList (bareList ns)).map Prod.fst = ((atRulesList ns).map Prod.fst).map .bare := by
  cases ns with
  | nil => rfl
  | cons n ns =>
    rw [bareList, atRulesList, List.map_append, heads_bare, heads_bareList, atRulesList,
      List.map_append, List.map_append]

end

end Stylesheet.Node

/-- The heads of the at-rules of a sheet, in document order. -/
def Stylesheet.heads (s : Stylesheet) : List AtHead := (atRulesList s.nodes).map Prod.fst

/-- What a report says about a tree and what became of it. The declarations of the old tree are
found again in the new one, in their order, with copies in between; the at-rules are found again one
for one. -/
structure Report.Accounts (r : Report) (before after : Stylesheet) : Prop where
  declarations : r.declarations = before.declarations.length
  /-- a declaration with pixel lengths is counted under what became of it -/
  pixels : r.replaced + r.inserted + r.skippedProperty + r.skippedSelector + r.skippedDuplicate =
    before.declarations.countP fun d => occurs Pixel.Segment.pxSuffix d.value
  inserted : after.declarations.length = before.declarations.length + r.inserted
  replaced : ∃ kept, kept.Sublist after.declarations ∧
    List.Forall₂ Declaration.Revalues before.declarations kept ∧
    r.replaced = differences Declaration.value before.declarations kept
  mediaQueries : List.Forall₂ (fun old new => new.name = old.name ∧ new.span = old.span)
      before.heads after.heads ∧
    r.mediaQueries = differences AtHead.params before.heads after.heads
  mode : r.replaced = 0 ∨ r.inserted = 0

/-- A report that accounts for a tree that stayed the same up to spans counts no changes. -/
theorem Report.Accounts.changes {r : Report} {before after : Stylesheet}
    (h : r.Accounts before after) (hsame : after.Same before) : r.changes = 0 := by
  have hnodes : bareList after.nodes = bareList before.nodes := congrArg Stylesheet.nodes hsame
  have hdeclarations : after.declarations.map Declaration.bare =
      before.declarations.map Declaration.bare := by
    have := congrArg declarationsList hnodes
    rwa [declarationsList_bareList, declarationsList_bareList] at this
  have hheads : after.heads.map AtHead.bare = before.heads.map AtHead.bare := by
    have := congrArg (fun ns => (atRulesList ns).map Prod.fst) hnodes
    rwa [heads_bareList, heads_bareList] at this
  have hlength : after.declarations.length = before.declarations.length := by
    simpa using congrArg List.length hdeclarations
  have hinserted : r.inserted = 0 := by
    have := h.inserted
    omega
  have hreplaced : r.replaced = 0 := by
    obtain ⟨kept, hsub, hkept, hreplaced⟩ := h.replaced
    obtain rfl : kept = after.declarations :=
      hsub.eq_of_length (by rw [← hkept.length_eq, hlength])
    rw [hreplaced]
    apply differences_eq_zero
    have := congrArg (List.map Declaration.value) hdeclarations
    rw [List.map_map, List.map_map] at this
    exact this.symm
  have hmedia : r.mediaQueries = 0 := by
    rw [h.mediaQueries.2]
    apply differences_eq_zero
    have := congrArg (List.map AtHead.params) hheads
    rw [List.map_map, List.map_map] at this
    exact this.symm
  rw [Report.changes]
  omega

namespace Pass

variable (p)

/-- The number of media queries that change is the number of at-rules with other parameters. -/
theorem mediaQueries_runMedia (ns : List Node) :
    (p.runMedia ns).2.mediaQueries = differences AtHead.params ((atRulesList ns).map Prod.fst)
      ((atRulesList (p.runMedia ns).1).map Prod.fst) := by
  simp only [runMedia]
  rw [heads_mapParamsList, differences_map, List.countP_map, List.countP_eq_length_filter]
  congr 2
  funext a
  by_cases hname : a.1.name = media
  · by_cases hvalue : p.converter.value a.1.params = a.1.params
    · simp [hname, hvalue]
    · simp [hname, hvalue, Ne.symm hvalue]
  · simp [hname]

theorem not_both_modes {r : Report} (h : if p.replace then r.inserted = 0 else r.replaced = 0) :
    r.replaced = 0 ∨ r.inserted = 0 := by
  split at h
  · exact .inr h
  · exact .inl h

/-- A walk over the nodes of a sheet accounts for it. -/
theorem accounts_walk {sheet : Stylesheet} {r : Report} {ms : List Node}
    (h : Tallies p r sheet.nodes ms) : r.Accounts sheet { sheet with nodes := ms } := by
  have hheads : ({ sheet with nodes := ms } : Stylesheet).heads = sheet.heads := h.heads
  refine ⟨h.declarations, h.pixels, h.inserted, h.replaced, ⟨?_, ?_⟩, p.not_both_modes h.mode⟩
  · rw [hheads]
    exact List.forall₂_same.mpr fun _ _ => ⟨rfl, rfl⟩
  · rw [hheads, h.mediaQueries, differences_eq_zero rfl]

/-- A walk and the media queries after it account for a sheet. The walk leaves the heads of the
at-rules alone, and the media queries the declarations. -/
theorem accounts_runMedia {sheet : Stylesheet} {r : Report} {ms : List Node}
    (h : Tallies p r sheet.nodes ms) :
    (r + (p.runMedia ms).2).Accounts sheet { sheet with nodes := (p.runMedia ms).1 } := by
  have hdeclarations : ({ sheet with nodes := (p.runMedia ms).1 } : Stylesheet).declarations =
      declarationsList ms :=
    declarationsList_mapParamsList media p.converter.value ms
  have hheads : ({ sheet with nodes := (p.runMedia ms).1 } : Stylesheet).heads =
      sheet.heads.map fun head =>
        if head.name = media then { head with params := p.converter.value head.params } else head :=
    (heads_mapParamsList media p.converter.value ms).trans (congrArg _ h.heads)
  have hqueries : (p.runMedia ms).2.mediaQueries = differences AtHead.params sheet.heads
      ({ sheet with nodes := (p.runMedia ms).1 } : Stylesheet).heads :=
    (p.mediaQueries_runMedia ms).trans (by rw [h.heads]; rfl)
  refine ⟨h.declarations, h.pixels, ?_, ?_, ⟨?_, ?_⟩, p.not_both_modes h.mode⟩
  · rw [hdeclarations]
    exact h.inserted
  · rw [hdeclarations]
    exact h.replaced
  · rw [hheads, List.forall₂_map_right_iff, List.forall₂_same]
    intro head _
    split <;> exact ⟨rfl, rfl⟩
  · change r.mediaQueries + (p.runMedia ms).2.mediaQueries = _
    rw [h.mediaQueries, Nat.zero_add, hqueries]

/-- The report of a run accounts for the tree and what became of it, and it counts changes if and
only if there are any. -/
theorem run_accounts (sheet : Stylesheet) :
    (p.run sheet).2.Accounts sheet (p.run sheet).1 ∧
      ((p.run sheet).2.changes = 0 ↔ (p.run sheet).1 = sheet) ∧
      ((p.run sheet).2.changes = 0 ↔ (p.run sheet).1.Same sheet) := by
  have haccounts : (p.run sheet).2.Accounts sheet (p.run sheet).1 := by
    obtain ⟨ms, hwalk, h⟩ := p.exists_tallies_walk none [] sheet.nodes
    rw [List.nil_append] at hwalk
    simp only [run, runNodes]
    split
    · rw [hwalk]
      exact p.accounts_runMedia h
    · rw [hwalk]
      exact p.accounts_walk h
  refine ⟨haccounts, ⟨p.run_eq_self sheet, ?_⟩, ⟨?_, haccounts.changes⟩⟩
  · intro hself
    exact haccounts.changes (congrArg Stylesheet.bare hself)
  · intro hzero
    rw [p.run_eq_self sheet hzero]
    rfl

end Pass

end PixelScale
