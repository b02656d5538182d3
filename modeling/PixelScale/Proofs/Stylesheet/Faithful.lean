import PixelScale.Proofs.Stylesheet.Rewriting

/-!
# Reading patched stylesheets

A text that was patched is read as the revised tree if every declaration and its copies are read
from what was written for them; everything else is kept, and is read as before. Whether a
declaration is read from what was written for it depends on the change of this declaration alone. A
copy is written in the way of the declaration behind which it stands, with the property and the
mark that this one has in the text. So where the declaration got another property or another
importance, its copies are not read as they should be.

* `Word`: the texts that may be written for properties and values.
* `Declaration.Faithful`: the conditions under which a changed declaration is read.
* `parse_patch_iff`: a patched text is read as the revised tree if and only if they hold.
-/

namespace PixelScale.Stylesheet

open Text

/-! ## Words -/

/-- A text of letters, digits, hyphens and underscores. -/
def Word (t : Text) : Prop := t ≠ [] ∧ ∀ c ∈ t, Passage.isNameChar c = true

instance (t : Text) : Decidable (Word t) :=
  decidable_of_iff (t ≠ [] ∧ t.all Passage.isNameChar = true)
    (and_congr_right fun _ => List.all_eq_true)

namespace Word

variable {t : Text}

theorem not_mem (ht : Word t) {c : Char} (hc : Passage.isNameChar c = false) : c ∉ t := by
  intro hmem
  rw [ht.2 c hmem] at hc
  cases hc

theorem plain (ht : Word t) : ∀ c ∈ t, Scan.isPlain c = true :=
  fun c hc => isPlain_of_isNameChar (ht.2 c hc)

theorem trimmed (ht : Word t) : Trimmed t :=
  ⟨fun c hc => isBlank_of_isNameChar (ht.2 c (List.mem_of_mem_head? hc)),
    fun c hc => isBlank_of_isNameChar (ht.2 c (List.mem_of_mem_getLast? hc))⟩

theorem not_masked (ht : Word t) : ¬ Masked t := by
  rintro (h | h)
  · exact ht.not_mem (c := '@') (by decide) (List.mem_of_mem_head? h)
  · exact ht.not_mem (c := '/') (by decide) (h.subset (by simp))

theorem splitImportant (ht : Word t) : Statement.splitImportant t = (t, false) := by
  rw [Statement.splitImportant, splitLast_eq_none_iff.mpr (ht.not_mem (by decide))]

end Word

/-- A word can stand in place of any value. -/
theorem Word.admits {t : Text} (ht : Word t) (x : Form) : x.Admits t :=
  ⟨ht.trimmed, fun hnil => absurd hnil ht.1, fun _ => ht.splitImportant⟩

/-! ## The conditions on a change -/

/-- A change in which every new property and every new value is a word, and no parameters change. -/
def Update.InWords : Update → Prop
  | declaration old new copies =>
    (new.property = old.property ∨ Word new.property) ∧
      (new.value = old.value ∨ Word new.value) ∧ ∀ v ∈ copies, Word v
  | params old new => new = old.params

/-- The conditions under which a declaration that was read from `span` and became `new` is read from
a patched text, and its copies behind it. Written are the new form of the declaration, which
keeps what stands around the value unless the property or the importance changed, and for each
copy the old form with another value. -/
structure Declaration.Faithful (css : Text) (span : DeclarationSpan) (old new : Declaration)
    (copies : List Text) : Prop where
  /-- what is not important has no mark of importance in its value -/
  plain : new.important = false → Statement.splitImportant new.value = (new.value, false)
  /-- where there are copies, the property and the importance stay -/
  same : copies ≠ [] → new.property = old.property ∧ new.important = old.important
  /-- where there are copies, what stands in front of them lets them start a statement -/
  starts : copies ≠ [] → Masked old.property →
    ¬ Separating ((Edit.indentBefore? css span.start).getD [])
  /-- every form is a statement of its own; the last one may leave parentheses open if neither a
  semicolon nor anything but white space follows -/
  ends :
    let form (v : Text) := (slice? css span.start span.valueStart).getD [] ++ v ++
      (slice? css span.valueStop span.stop).getD []
    Scan.AllEnd (span.semicolon = none ∧ ∀ rest ∈ dropBytes? span.stop css, Blank rest)
      ((if new.property ≠ old.property ∨ new.important ≠ old.important then new.print
        else form new.value) :: copies.map form)

/-- Whether a changed declaration is read from a patched text as what it became. -/
def Update.Faithful (css : Text) : Update → Prop
  | declaration old new copies => ∀ span ∈ old.span, Declaration.Faithful css span old new copies
  | params _ _ => True

/-! ## Reading a patched text -/

theorem not_blank_of_head {t : Text} (h : t.head? = some '}') : ¬ Blank t := by
  intro hb
  exact absurd (hb _ (List.mem_of_mem_head? h)) (by decide)

/-- The conditions on a change are those on what is written for it. -/
theorem faithful_iff_lasting {x : Form} {stop : Stop} {before rest u css : Text}
    (hcss : css = before ++ x.text ++ (stop.text ++ rest)) (hx : x.Fine) {new : Declaration}
    {copies : List Text}
    (hrest : stop = .nothing →
      rest = [] ∧ u = [] ∨ rest.head? = some '}' ∧ u.head? = some '}') :
    Declaration.Faithful css
        (x.span (Place.start.after before) (stop.semicolon? (before ++ x.text).bytes))
        (x.declaration (Place.start.after before) (stop.semicolon? (before ++ x.text).bytes)) new
        copies ↔
      x.Lasting (indentBehind (before ++ x.lead)) new copies (stop = .nothing ∧ u = []) := by
  have hform : ∀ v, (slice? css
        (x.span (Place.start.after before) (stop.semicolon? (before ++ x.text).bytes)).start
        (x.span (Place.start.after before)
          (stop.semicolon? (before ++ x.text).bytes)).valueStart).getD [] ++ v ++
      (slice? css
        (x.span (Place.start.after before) (stop.semicolon? (before ++ x.text).bytes)).valueStop
        (x.span (Place.start.after before)
          (stop.semicolon? (before ++ x.text).bytes)).stop).getD [] = (x.withValue v).core := by
    intro v
    rw [Form.slice_front hcss, Form.slice_mark hcss]
    simp [Form.withValue, Form.core]
  have hindent : (Edit.indentBefore? css (x.span (Place.start.after before)
      (stop.semicolon? (before ++ x.text).bytes)).start).getD [] =
      indentBehind (before ++ x.lead) := by
    rw [Form.indentBefore?_span hcss]
    rfl
  have hdrop : dropBytes? (x.span (Place.start.after before)
      (stop.semicolon? (before ++ x.text).bytes)).stop css =
      some (x.trail ++ (stop.text ++ rest)) := by
    have := dropBytes?_append (before ++ x.lead ++ x.core) (x.trail ++ (stop.text ++ rest))
    rw [hcss]
    simpa [Form.span, Place.after, Place.start, Form.text, Form.core, Nat.add_assoc,
      show ':'.utf8Size = 1 from rfl] using this
  have hfree : ((x.span (Place.start.after before)
        (stop.semicolon? (before ++ x.text).bytes)).semicolon = none ∧
      ∀ rest' ∈ dropBytes? (x.span (Place.start.after before)
        (stop.semicolon? (before ++ x.text).bytes)).stop css, Blank rest') ↔
      (stop = .nothing ∧ u = []) := by
    rw [hdrop]
    simp only [Option.mem_def, Option.some.injEq, forall_eq', Form.span, blank_append]
    cases stop with
    | brace => simp [Stop.semicolon?, Stop.text, show isBlank '{' = false by decide]
    | semicolon => simp [Stop.semicolon?]
    | nothing =>
      rcases hrest rfl with ⟨rfl, rfl⟩ | ⟨hclose, hu⟩
      · simp [Stop.semicolon?, Stop.text, hx.trail]
      · have hne : u ≠ [] := by
          rintro rfl
          cases hu
        simp [Stop.text, hne, not_blank_of_head hclose]
  constructor
  · rintro ⟨hplain, hsame, hstarts, hends⟩
    refine ⟨hplain, hsame, ?_, ?_⟩
    · rwa [hindent] at hstarts
    · simp only [hform, hfree] at hends
      exact hends
  · rintro ⟨hplain, hsame, hstarts, hends⟩
    refine ⟨hplain, hsame, ?_, ?_⟩
    · rwa [hindent]
    · simp only [hform, hfree]
      exact hends

/-- Words may be written for what a form has. -/
theorem Form.Fine.allows {x : Form} (hx : x.Fine) {s : Scan}
    (hrun : Scan.start.run (trimBlank x.front) = some s) {new : Declaration}
    (hp : new.property = trimBlank x.front ∨ Word new.property)
    (hv : new.value = x.value ∨ Word new.value) : x.Allows new := by
  have hvalue : x.Admits new.value := by
    rcases hv with hv | hv
    · rw [hv]
      exact hx.admits
    · exact hv.admits x
  rcases hp with hp | hp
  · refine ⟨hp ▸ trimmed_trimBlank _, ?_, ⟨s, hp ▸ hrun⟩, fun hne => absurd hp hne, hvalue⟩
    rw [hp]
    intro hc
    obtain ⟨b, -, hfront⟩ := hx.exists_front
    refine hx.colon ?_
    rw [hfront]
    exact List.mem_append_left _ hc
  · exact ⟨hp.trimmed, hp.not_mem (by decide), ⟨_, Scan.run_start_plain hp.plain⟩,
      fun _ => hp.not_masked, hvalue⟩

/-- The passages that were written for a revision are read as the revision if and only if the
conditions on its changes hold. -/
theorem Spliced.row_iff {before u css : Text} {qs : List Passage} {cs : List Update}
    {ss : List Statement} (h : Spliced before qs cs ss u) (hv : Passage.Valid qs)
    (hcss : css = before ++ Passage.joined qs) (hwords : ∀ c ∈ cs, c.InWords) (p : Place) :
    (row p u).map Statement.bare = ss.map Statement.bare ↔ ∀ c ∈ cs, c.Faithful css := by
  induction h generalizing p with
  | nil => simp
  | @keep before u q qs cs ss hkept _ ih =>
    have hrest : css = before ++ q.text ++ Passage.joined qs := by
      rw [hcss]
      simp
    rw [row_kept hkept hv.1, List.map_append, Statement.map_bare_unlined,
      List.append_cancel_left_eq]
    exact ih hv.2 hrest hwords _
  | @params before name lead old trail new u stop qs cs ss head hl ht ho hnil hhead hs ih =>
    have hrest : css =
        before ++ (Passage.sign (some name) ++ (lead ++ old ++ trail) ++ stop.text) ++
          Passage.joined qs := by
      rw [hcss]
      simp [Passage.text]
    obtain ⟨⟨hb, hp, hstop⟩, hvalid⟩ := hv
    have hnew : new = old := by
      have : new = head.params := hwords _ (List.mem_cons_self)
      rw [this, ← hhead, atHead_frame hl ho ht hnil]
    subst hnew
    have hraw : ∀ c ∈ (lead ++ new ++ trail).head?, Passage.isNameChar c = false := by
      intro c hc
      refine hb.2 c ?_
      rw [List.append_assoc, List.head?_append, hc]
      rfl
    have hstmt : (stop.atRule { head with params := new }).bare =
        stop.atRule ⟨name, trimBlank (lead ++ new ++ trail), none⟩ := by
      rw [bare_atRule, ← hhead, trimBlank_frame hl ho ht]
      rfl
    rw [row_atRule hb.1 hraw (Scan.ends_of_passes hp) (hs.stop hvalid hstop), List.map_cons, hstmt,
      List.cons_inj_right, ih hvalid hrest fun c hc => hwords c (by simp [hc])]
    simp [Update.Faithful]
  | @declaration before u x stop old new copies qs cs ss hx hstop hold hspan hs ih =>
    have htext : css = before ++ x.text ++ (stop.text ++ Passage.joined qs) := by
      rw [hcss]
      simp [Passage.text, Passage.sign]
    have hrest : css = before ++ (x.text ++ stop.text) ++ Passage.joined qs := by
      rw [htext]
      simp
    obtain ⟨hq, hvalid⟩ := hv
    obtain ⟨⟨s, hrun⟩, hstarts⟩ := starts_of_fits hx hq
    obtain ⟨hp, hvalue, hcopies⟩ := hwords _ (List.mem_cons_self)
    subst hold
    obtain ⟨hnil, hclose⟩ := hs.next hvalid
    have hu : stop = .nothing → Passage.joined qs = [] ∧ u = [] ∨
        (Passage.joined qs).head? = some '}' ∧ u.head? = some '}' := by
      rintro rfl
      exact hq.2.2.imp (fun h => ⟨h, hnil h⟩) fun h => ⟨h.2, hclose h.2⟩
    have hlasting := @faithful_iff_lasting _ _ _ _ u _ htext hx new copies hu
    have hfaithful : (Update.declaration (x.declaration (Place.start.after before)
        (stop.semicolon? (before ++ x.text).bytes)) new copies).Faithful css ↔
        x.Lasting (indentBehind (before ++ x.lead)) new copies (stop = .nothing ∧ u = []) := by
      rw [← hlasting]
      exact ⟨fun h => h _ rfl, fun h span hspan => by cases hspan; exact h⟩
    rw [List.map_append, List.map_cons, Statement.map_bare_copies, List.cons_append, Statement.bare,
      row_written_iff hx hrun hstarts (blank_indentBehind _) hstop (hx.allows hrun hp hvalue)
        (fun v hv => (hcopies v hv).admits x) fun hn => (hu hn).imp And.right And.right,
      ih hvalid hrest fun c hc => hwords c (by simp [hc]),
      List.forall_mem_cons, hfaithful]

/-- A patched text is read as the revised tree, up to spans, if and only if every changed
declaration and its copies can be read from what was written for them. -/
theorem parse_patch_iff {css : Text} {sheet : Stylesheet} (h : parse css = .ok sheet)
    {cs : List Update} {ms : List Node} (hr : Revises cs sheet.nodes ms)
    (hwords : ∀ c ∈ cs, c.InWords) :
    (∃ s, parse (patch ⟨none, ms⟩ css) = .ok s ∧ s.Same ⟨none, ms⟩) ↔
      ∀ c ∈ cs, c.Faithful css := by
  obtain ⟨u, hjoined, hvalid, hu, hsome, -⟩ := exists_spliced_patch? h hr none
  have hpatch : patch ⟨none, ms⟩ css = u := by
    rw [patch, hsome]
    rfl
  rw [hpatch, ← hu.row_iff hvalid (by simp [hjoined]) hwords .start, ← exists_same_iff]
  constructor
  · rintro ⟨s, hs, hsame⟩
    exact ⟨s, hs, congrArg Stylesheet.nodes hsame⟩
  · rintro ⟨s, hs, hnodes⟩
    refine ⟨s, hs, ?_⟩
    simp only [Same, bare, hnodes, (parse_ok hs).1]

/-- A copy of a declaration whose property changed is not read back: it is written with the property
that the declaration had. -/
theorem not_parse_patch_property :
    ¬ ∃ s, parse (patch ⟨none, [.rule "a".toList
        [.declaration ⟨"left".toList, "1px".toList, false, some ⟨4, 9, 12, 12, some 12⟩⟩,
          .declaration ⟨"left".toList, "2px".toList, false, none⟩]]⟩
        "a \x7b top: 1px; \x7d".toList) = .ok s ∧
      s.Same ⟨none, [.rule "a".toList
        [.declaration ⟨"left".toList, "1px".toList, false, some ⟨4, 9, 12, 12, some 12⟩⟩,
          .declaration ⟨"left".toList, "2px".toList, false, none⟩]]⟩ := by
  have hparse : parse "a \x7b top: 1px; \x7d".toList = .ok ⟨none, [.rule "a".toList
      [.declaration ⟨"top".toList, "1px".toList, false, some ⟨4, 9, 12, 12, some 12⟩⟩]]⟩ := by
    cbv
  have hiff := parse_patch_iff hparse (.rule (@Revises.declaration [] [] [] _
      ⟨"left".toList, "1px".toList, false, some ⟨4, 9, 12, 12, some 12⟩⟩ ["2px".toList] rfl .nil)
      .nil)
    (by
      intro c hc
      obtain rfl := List.mem_singleton.mp hc
      exact ⟨.inr (by decide), .inl rfl, by
        intro v hv
        obtain rfl := List.mem_singleton.mp hv
        decide⟩)
  intro h
  have hfaithful := hiff.mp h _ List.mem_cons_self _ rfl
  exact absurd (hfaithful.same (by simp)).1 (by decide)

end PixelScale.Stylesheet
