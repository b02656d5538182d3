import PixelScale.Proofs.Pixel.Respelling
import PixelScale.Proofs.Stylesheet.Comments
import PixelScale.Proofs.Transform.Bundle
import PixelScale.Proofs.Transform.Tally

/-!
# Comments after a run

A run that replaces writes nothing but values and parameters of media queries, and every other
comment is found in the converted text as it was. A value is converted with the comments in it: the
scanner of pixel lengths keeps strings and `url(...)` groups, but it does not know comments. So a
pixel length in a comment is converted too if the comment stands in a value or in the parameters of
a media query. Nothing else of such a comment changes.

* `Passage.comments`: the comments of a passage, with what a run may do to them.
* `Comment.Converts`: what becomes of a comment in a value or a media query.
* `OptionSet.convert_comments`: the comments of a converted text.
-/

namespace PixelScale

open Stylesheet Text

/-! ## Where comments stand -/

namespace Stylesheet

/-- Where a comment stands, as far as a run is concerned. -/
inductive Site where
  /-- outside of all values and of the parameters of media queries -/
  | fixed
  | value
  | query
deriving DecidableEq, Repr

/-- A comment with its delimiters. One that only reaches into a value counts as one in it. -/
structure Comment where
  text : Text
  site : Site
deriving DecidableEq, Repr

namespace Passage

/-- What a run may convert of a passage. -/
def site : Passage → Site
  | statement none _ .brace => .fixed
  | statement none _ _ => .value
  | statement (some name) _ _ => if name = Pass.media then .query else .fixed
  | _ => .fixed

/-- The start of a passage that no run converts: the property up to its colon, or the name of an
at-rule. -/
def front : Passage → Text
  | statement none raw _ => ((splitFirst ':' raw).map fun (property, _) => property ++ [':']).getD []
  | statement (some name) _ _ => sign (some name)
  | _ => []

/-- The comments of a passage. -/
def comments (q : Passage) : List Comment :=
  let first := Stylesheet.comments q.front
  first.map (⟨·, .fixed⟩) ++
    ((Stylesheet.comments q.text).drop first.length).map (⟨·, q.site⟩)

end Passage

/-- The comments of a stylesheet, in the order of the text. -/
def placedComments (css : Text) : List Comment := (Passage.ofText css).flatMap Passage.comments

/-- What becomes of a comment in a value or in the parameters of a media query: its pixel lengths
are converted. -/
structure Comment.Converts (p : Pass) (old : Comment) (new : Text) : Prop where
  site : old.site ≠ .fixed
  query : old.site = .query → p.mediaQuery = true
  pixels : occurs Pixel.Segment.pxSuffix old.text = true
  respelled : Pixel.Respelled p.converter old.text new

/-- A comment is kept, or it is converted by the run. -/
def Comment.Becomes (p : Pass) (old : Comment) (new : Text) : Prop :=
  new = old.text ∨ old.Converts p new

namespace Passage

/-- The start of a passage ends in a character of no meaning to the reader. -/
theorem Fits.front_last {q : Passage} {next : Text} (hq : q.Fits next) :
    ∀ c ∈ q.front.getLast?, c ≠ '/' ∧ c ≠ '\\' ∧ c ≠ '*' := by
  cases q with
  | statement name raw stop =>
    cases name with
    | none =>
      cases hsplit : splitFirst ':' raw with
      | none => simp [front, hsplit]
      | some r =>
        simp [front, hsplit]
    | some name =>
      intro c hc
      rcases List.mem_cons.mp (List.mem_of_mem_getLast? hc) with rfl | hmem
      · decide
      · have hname := hq.1.1 c hmem
        refine ⟨?_, ?_, ?_⟩ <;>
        · rintro rfl
          exact absurd hname (by decide)
  | _ => simp [front]

theorem exists_front_append (q : Passage) : ∃ body, q.text = q.front ++ body := by
  cases q with
  | statement name raw stop =>
    cases name with
    | none =>
      cases hsplit : splitFirst ':' raw with
      | none =>
        have hnil : front (statement none raw stop) = [] := by simp [front, hsplit]
        exact ⟨_, by rw [hnil, List.nil_append]⟩
      | some r =>
        have hfront : front (statement none raw stop) = r.1 ++ [':'] := by simp [front, hsplit]
        obtain ⟨hraw, -⟩ := splitFirst_eq_some_iff.mp hsplit
        exact ⟨r.2 ++ stop.text, by rw [hfront]; simp [text, sign, hraw]⟩
    | some name => exact ⟨raw ++ stop.text, by simp [front, text]⟩
  | _ => exact ⟨_, rfl⟩

/-- The comments of a passage are those of its text. -/
theorem Fits.texts_comments {q : Passage} {next : Text} (hq : q.Fits next) :
    q.comments.map Comment.text = Stylesheet.comments q.text := by
  obtain ⟨body, htext⟩ := q.exists_front_append
  obtain ⟨ps, last, -, hfirst, hread⟩ := exists_ofText_append body hq.front_last
  have hall : Stylesheet.comments q.text =
      Stylesheet.comments q.front ++ (Piece.read last body).filterMap Piece.comment? := by
    rw [htext, hfirst, Stylesheet.comments, hread, List.filterMap_append]
  simp only [comments, List.map_append, List.map_map]
  rw [hall, List.drop_left]
  simp [Function.comp_def]

end Passage

/-- The comments of the passages are the comments of the text. -/
theorem texts_placedComments {css : Text} (hjoined : Passage.joined (Passage.ofText css) = css)
    (hvalid : Passage.Valid (Passage.ofText css)) :
    (placedComments css).map Comment.text = comments css := by
  have hall : ∀ qs, Passage.Valid qs → (qs.flatMap Passage.comments).map Comment.text =
      qs.flatMap fun q => comments q.text := by
    intro qs hqs
    induction qs with
    | nil => rfl
    | cons q qs ih =>
      rw [List.flatMap_cons, List.map_append, hqs.1.texts_comments, ih hqs.2, List.flatMap_cons]
  rw [placedComments, hall _ hvalid, ← Passage.comments_joined hvalid, hjoined]

/-! ## Converted comments -/

end Stylesheet

/-- A converted row of pieces has its comments in their order, each of them converted. -/
theorem Pixel.Respelled.exists_inOrder {k : Converter} {ps : List Piece} {a w : Text}
    (h : Respelled k (a ++ Piece.joined ps) w) :
    ∃ ds, InOrder ds w ∧ List.Forall₂ (Respelled k) (ps.filterMap Piece.comment?) ds := by
  induction ps generalizing a w with
  | nil => exact ⟨[], .nil, .nil⟩
  | cons p ps ih =>
    cases p with
    | comment body =>
      rw [Piece.joined_cons] at h
      obtain ⟨v, u, rfl, -, hu⟩ := h.split (.inr fun c hc => by cases hc; rfl)
      have hlast : ∀ c ∈ (Piece.comment body).text.getLast?, inLength c = false := by
        have hend : (Piece.comment body).text = '/' :: '*' :: body ++ ['*'] ++ ['/'] := by
          simp [Piece.text]
        rw [hend, List.getLast?_append_of_ne_nil _ (by simp)]
        intro c hc
        cases hc
        rfl
      obtain ⟨d, u, rfl, hd, hu⟩ := hu.split (.inl hlast)
      obtain ⟨ds, horder, hds⟩ := ih (a := []) hu
      exact ⟨d :: ds, .cons horder, .cons hd hds⟩
    | _ =>
      rw [Piece.joined_cons, ← List.append_assoc] at h
      exact ih h

namespace Stylesheet

variable {p : Pass}

/-- A passage that is written as it was keeps its comments. -/
theorem Passage.Fits.becomes_self {q : Passage} {next : Text} (hq : q.Fits next) :
    ∃ ds, InOrder ds q.text ∧ List.Forall₂ (Comment.Becomes p) q.comments ds := by
  refine ⟨Stylesheet.comments q.text, inOrder_comments q.text, ?_⟩
  rw [← hq.texts_comments, List.forall₂_map_right_iff, List.forall₂_same]
  exact fun _ _ => .inl rfl

/-- A passage that is converted behind its start keeps the comments of its start, and has the other
ones converted. -/
theorem Passage.Fits.becomes_respelled {q : Passage} {next body body' : Text} (hq : q.Fits next)
    (htext : q.text = q.front ++ body) (hsite : q.site ≠ .fixed)
    (hquery : q.site = .query → p.mediaQuery = true)
    (h : Pixel.Respelled p.converter body body') :
    ∃ ds, InOrder ds (q.front ++ body') ∧ List.Forall₂ (Comment.Becomes p) q.comments ds := by
  obtain ⟨ps, last, hfront, hfirst, hread⟩ := exists_ofText_append body hq.front_last
  have hdrop : (Stylesheet.comments q.text).drop (Stylesheet.comments q.front).length =
      (Piece.read last body).filterMap Piece.comment? := by
    rw [htext, hfirst, Stylesheet.comments, hread, List.filterMap_append, List.drop_left]
  have hrest : Pixel.Respelled p.converter ([] ++ Piece.joined (Piece.read last body))
      (last.pending ++ body') := by
    rw [List.nil_append, Piece.joined_read]
    exact (Pixel.Respelled.refl _ _).append h
  obtain ⟨ds, horder, hds⟩ := hrest.exists_inOrder
  refine ⟨Stylesheet.comments q.front ++ ds, ?_, List.rel_append ?_ ?_⟩
  · rw [hfirst, hfront, List.append_assoc]
    exact (inOrder_joined ps).append horder
  · rw [List.forall₂_map_left_iff, List.forall₂_same]
    exact fun _ _ => .inl rfl
  · rw [hdrop, List.forall₂_map_left_iff]
    refine hds.imp fun old new hnew => ?_
    cases hpixels : occurs Pixel.Segment.pxSuffix old with
    | false => exact .inl (hnew.eq_self hpixels)
    | true => exact .inr ⟨hsite, hquery, hpixels, hnew⟩

/-! ## What a run that replaces writes -/

/-- A change that a run makes if it replaces. -/
def Update.Replaces (p : Pass) : Update → Prop
  | declaration old new copies =>
    copies = [] ∧ (new = old ∨ new = { old with value := p.converter.replaceAll old.value })
  | params old new =>
    new = old.params ∨ old.name = Pass.media ∧ p.mediaQuery = true ∧
      new = p.converter.value old.params

/-- What is written for a declaration without copies. -/
theorem Form.written_single (x : Form) (indent : Text) (new : Declaration) {stop : Stop}
    (hstop : stop ≠ .brace) :
    x.written indent new [] stop = x.lead ++ x.base new ++ x.trail ++ stop.text := by
  cases stop with
  | brace => exact absurd rfl hstop
  | semicolon => simp [written]
  | nothing => simp [written, Stop.text]

/-- The comments of the passages that a run wrote. -/
theorem Spliced.exists_inOrder {before u : Text} {qs : List Passage} {cs : List Update}
    {ss : List Statement} (h : Spliced before qs cs ss u) (hv : Passage.Valid qs)
    (hcs : ∀ c ∈ cs, c.Replaces p) :
    ∃ ds, InOrder ds u ∧ List.Forall₂ (Comment.Becomes p) (qs.flatMap Passage.comments) ds := by
  induction h with
  | nil => exact ⟨[], .nil, .nil⟩
  | @keep before u q qs cs ss hkept _ ih =>
    obtain ⟨ds, horder, hds⟩ := hv.1.becomes_self (p := p)
    obtain ⟨es, horder', hes⟩ := ih hv.2 hcs
    exact ⟨ds ++ es, horder.append horder', List.rel_append hds hes⟩
  | @params before name lead old trail new u stop qs cs ss head hl ht ho hnil hhead _ ih =>
    obtain ⟨hchange, hcs⟩ := List.forall_mem_cons.mp hcs
    obtain ⟨es, horder', hes⟩ := ih hv.2 hcs
    rw [atHead_frame hl ho ht hnil] at hhead
    subst hhead
    have hone : ∃ ds, InOrder ds (Passage.sign (some name) ++ (lead ++ new ++ trail) ++ stop.text) ∧
        List.Forall₂ (Comment.Becomes p)
          (Passage.statement (some name) (lead ++ old ++ trail) stop).comments ds := by
      rcases hchange with hnew | ⟨hname, hquery, hnew⟩
      · obtain rfl : new = old := hnew
        exact hv.1.becomes_self
      · obtain rfl : name = Pass.media := hname
        have hrespelled : Pixel.Respelled p.converter (lead ++ old ++ trail ++ stop.text)
            (lead ++ new ++ trail ++ stop.text) := by
          rw [show new = p.converter.value old from hnew]
          refine .append (.append (.append (.refl _ _) ?_) (.refl _ _)) (.refl _ _)
          exact p.converter.respelled_value old
        have hsite : (Passage.statement (some Pass.media) (lead ++ old ++ trail) stop).site =
            .query := by
          simp [Passage.site]
        have := hv.1.becomes_respelled (p := p) (List.append_assoc _ _ _)
          (by rw [hsite]; decide) (fun _ => hquery) hrespelled
        rwa [← List.append_assoc] at this
    obtain ⟨ds, horder, hds⟩ := hone
    exact ⟨ds ++ es, horder.append horder', List.rel_append hds hes⟩
  | @declaration before u x stop old new copies qs cs ss hx hstop hold hspan _ ih =>
    obtain ⟨⟨rfl, hnew⟩, hrest⟩ := List.forall_mem_cons.mp hcs
    obtain ⟨es, horder', hes⟩ := ih hv.2 hrest
    subst hold
    have hbase : x.base new = (x.withValue new.value).core := by
      refine if_neg ?_
      rcases hnew with rfl | rfl <;> simp [Form.declaration]
    have hvalue : Pixel.Respelled p.converter x.value new.value := by
      rcases hnew with rfl | rfl
      · exact .refl _ _
      · exact p.converter.respelled_replaceAll x.value
    have hfront : (Passage.statement none x.text stop).front = x.lead ++ x.front ++ [':'] := by
      have hsplit : splitFirst ':' x.text =
          some (x.lead ++ x.front, x.gap ++ x.value ++ x.mark ++ x.trail) := by
        refine splitFirst_eq_some_iff.mpr ⟨by simp [Form.text, Form.core], ?_⟩
        simp [Form.colon_not_mem_of_blank hx.lead, hx.colon]
      simp [Passage.front, hsplit]
    have hsite : (Passage.statement none x.text stop).site = .value := by
      cases stop with
      | brace => exact absurd rfl hstop
      | _ => rfl
    have hrespelled : Pixel.Respelled p.converter
        (x.gap ++ x.value ++ x.mark ++ x.trail ++ stop.text)
        (x.gap ++ new.value ++ x.mark ++ x.trail ++ stop.text) :=
      (((((Pixel.Respelled.refl _ _).append hvalue).append (.refl _ _)).append (.refl _ _)).append
        (.refl _ _))
    obtain ⟨ds, horder, hds⟩ := hv.1.becomes_respelled (p := p)
      (by rw [hfront]; simp [Passage.text, Passage.sign, Form.text, Form.core])
      (by rw [hsite]; decide) (fun hquery => absurd (hsite.symm.trans hquery) (by decide)) hrespelled
    refine ⟨ds ++ es, InOrder.append ?_ horder', List.rel_append hds hes⟩
    rw [hfront] at horder
    rw [Form.written_single x _ new hstop, hbase]
    simpa [Form.core, Form.withValue] using horder

/-- The copies that a change asks for. -/
def Update.copies : Update → List Text
  | declaration _ _ copies => copies
  | params _ _ => []

/-- A tree grows by the copies of its revision. -/
theorem Revises.length_declarationsList {cs : List Update} {ns ms : List Node}
    (h : Revises cs ns ms) :
    (Node.declarationsList ms).length =
      (Node.declarationsList ns).length + (cs.flatMap Update.copies).length := by
  have hcopies : ∀ (d : Declaration) (copies : List Text),
      (Node.declarationsList (copies.map fun v => .declaration (d.withValue v))).length =
        copies.length := by
    intro d copies
    induction copies with
    | nil => rfl
    | cons v copies ih =>
      rw [List.map_cons, Node.declarationsList, List.length_append, ih, List.length_cons,
        Nat.add_comm]
      rfl
  induction h with
  | nil => rfl
  | comment _ ih => exact ih
  | rule _ _ ih₁ ih₂ =>
    simp only [Node.declarationsList, Node.declarations, List.length_append, List.flatMap_append]
    omega
  | atRule _ _ ih₁ ih₂ =>
    simp only [Node.declarationsList, Node.declarations, List.length_append, List.flatMap_append,
      List.flatMap_cons, Update.copies, List.nil_append]
    omega
  | atStatement _ ih => exact ih
  | @declaration cs ns ms old new copies _ _ ih =>
    have := hcopies new copies
    simp only [Node.declarationsList, Node.declarations, List.length_append, List.flatMap_cons,
      Update.copies, List.cons_append, Node.declarationsList_append, List.length_cons,
      List.length_nil]
    omega

end Stylesheet

/-- A run that replaces is a revision without copies. -/
theorem Pass.exists_replaces_runNodes (p : Pass) (hreplace : p.replace = true) (ns : List Node) :
    ∃ cs, Revises cs ns (p.runNodes ns).1 ∧ ∀ c ∈ cs, c.Replaces p := by
  obtain ⟨cs, ms, hwalk, hr, hcs⟩ := p.exists_revises_walk none [] ns
  obtain ⟨ms', hwalk', htally⟩ := p.exists_tallies_walk none [] ns
  obtain rfl : ms = ms' := by
    rw [hwalk] at hwalk'
    exact List.append_cancel_left hwalk'
  have hnone : ∀ c ∈ cs, c.copies = [] := by
    have hmode := htally.mode
    rw [if_pos hreplace] at hmode
    have hlength := hr.length_declarationsList
    rw [htally.inserted, hmode] at hlength
    have hnil : cs.flatMap Update.copies = [] := List.length_eq_zero_iff.mp (by omega)
    exact List.flatMap_eq_nil_iff.mp hnil
  rw [List.nil_append] at hwalk
  simp only [runNodes, runMedia, hwalk]
  split
  · rename_i hquery
    refine ⟨_, hr.mapParams media p.converter.value, List.forall_mem_map.mpr fun c hc => ?_⟩
    have hconverts := hcs c hc
    cases c with
    | declaration old new copies => exact ⟨hnone _ hc, hconverts.1⟩
    | params old new =>
      obtain rfl : new = old.params := hconverts
      by_cases hname : old.name = media
      · exact .inr ⟨hname, hquery, if_pos hname⟩
      · exact .inl (if_neg hname)
  · refine ⟨cs, hr, fun c hc => ?_⟩
    have hconverts := hcs c hc
    cases c with
    | declaration old new copies => exact ⟨hnone _ hc, hconverts.1⟩
    | params old new => exact .inl hconverts

/-- The comments of a text are found in the converted text in their order, if the run replaces. All
of them are kept but those with pixel lengths in values, and in media queries where these are
converted; there the pixel lengths are converted and everything else is kept. -/
theorem OptionSet.convert_comments {css : Text} {sheet : Stylesheet} (set : OptionSet)
    (source : Option Text) (h : Stylesheet.parse css = .ok sheet)
    (hreplace : ∀ settings ∈ set.select source, settings.options.replace = true) :
    (placedComments css).map Comment.text = comments css ∧
      ∃ c ds, set.convert source css = .ok c ∧ InOrder ds c.text ∧
        List.Forall₂ (fun old new => new = old.text ∨
          ∃ settings ∈ set.select source, old.Converts (Pass.ofSettings settings) new)
          (placedComments css) ds := by
  obtain ⟨-, -, hbad⟩ := parse_ok h
  obtain ⟨hjoined, hvalid, -⟩ := Passage.ofText_spec hbad
  have htexts := texts_placedComments hjoined hvalid
  refine ⟨htexts, ?_⟩
  cases hselect : set.select source with
  | none =>
    have hrun : set.run { sheet with source } = none := by
      rw [OptionSet.run, hselect]
      rfl
    refine ⟨_, comments css, set.convert_of_excluded h hrun, inOrder_comments css, ?_⟩
    rw [← htexts, List.forall₂_map_right_iff, List.forall₂_same]
    exact fun _ _ => .inl rfl
  | some settings =>
    obtain ⟨cs, hr, hcs⟩ := (Pass.ofSettings settings).exists_replaces_runNodes
      (hreplace settings hselect) sheet.nodes
    obtain ⟨u, -, -, hu, hpatch, -⟩ := exists_spliced_patch? h hr source
    obtain ⟨ds, horder, hds⟩ := hu.exists_inOrder hvalid hcs
    refine ⟨_, ds, set.convert_eq_patch source h hselect, ?_, hds.imp fun old new hnew => ?_⟩
    · rw [patch, hpatch]
      exact horder
    · exact hnew.imp_right fun hnew => ⟨settings, rfl, hnew⟩

/-- A comment in a value is not kept: the length in it is converted with the one behind it. -/
theorem OptionSet.convert_comments_value :
    ∃ sheet c d,
      Stylesheet.parse "a \x7b font: /* 16px */ 32px; \x7d".toList = .ok sheet ∧
      OptionSet.convert ⟨[{}]⟩ none "a \x7b font: /* 16px */ 32px; \x7d".toList = .ok c ∧
      c.text = "a \x7b font: /* 1rem */ 2rem; \x7d".toList ∧
      comments "a \x7b font: /* 16px */ 32px; \x7d".toList = ["/* 16px */".toList] ∧
      ¬ InOrder ["/* 16px */".toList] c.text ∧ InOrder [d] c.text ∧
      ∃ settings ∈ OptionSet.select ⟨[{}]⟩ none,
        Comment.Converts (Pass.ofSettings settings) ⟨"/* 16px */".toList, .value⟩ d := by
  have hparse : Stylesheet.parse "a \x7b font: /* 16px */ 32px; \x7d".toList =
      .ok ⟨none, [.rule "a".toList [.declaration
        ⟨"font".toList, "/* 16px */ 32px".toList, false, some ⟨4, 10, 25, 25, some 25⟩⟩]]⟩ := by
    cbv
  have hplaced : placedComments "a \x7b font: /* 16px */ 32px; \x7d".toList =
      [⟨"/* 16px */".toList, .value⟩] := by
    cbv
  have htext : (OptionSet.convert ⟨[{}]⟩ none
      "a \x7b font: /* 16px */ 32px; \x7d".toList).toOption.map Converted.text =
        some "a \x7b font: /* 1rem */ 2rem; \x7d".toList := by
    decide +kernel
  obtain ⟨htexts, c, ds, hc, horder, hds⟩ := OptionSet.convert_comments ⟨[{}]⟩ none hparse
    fun settings hselect => by cases hselect; rfl
  rw [hplaced] at htexts hds
  rw [hc] at htext
  have hctext : c.text = "a \x7b font: /* 1rem */ 2rem; \x7d".toList := Option.some.inj htext
  have hchanged : ¬ InOrder ["/* 16px */".toList] c.text := by
    rw [hctext]
    intro h
    have hinfix := h.infix _ List.mem_cons_self
    exact absurd hinfix (by decide)
  cases hds with
  | @cons _ d _ _ hd hds =>
    cases hds
    refine ⟨_, c, d, hparse, hc, hctext, htexts.symm, hchanged, horder, ?_⟩
    rcases hd with rfl | hd
    · exact absurd horder hchanged
    · exact hd

end PixelScale
