import PixelScale.Proofs.Stylesheet.Rewriting

/-!
# Exchanging words

A word here is a text that the reader of statements passes over without noticing it: it has no
delimiters, no white space and no exclamation mark, and it cannot become a part of a mark of
importance. Two texts are alike if they differ in words only. Where a value is exchanged for one
that is alike, or the parameters of an at-rule, the patched text is cut into statements as before.
Only the name of an at-rule can be affected: it would go on with a word right behind it.

* `Alike.run`: texts that are alike lead the reader to the same state.
* `Alike.splitImportant`: there is no mark of importance in a text that is like one without.
* `Update.Gentle`: a change between texts that are alike.
* `parse_patch_of_gentle`: a text that was patched with gentle changes is read as the revised tree.
-/

namespace PixelScale.Stylesheet

open Text

/-! ## Words that go unnoticed -/

/-- A text that means nothing to the reader of statements, whatever stands around it. -/
structure Inert (t : Text) : Prop where
  ne_nil : t ≠ []
  plain : ∀ c ∈ t, Scan.isPlain c = true
  sharp : ∀ c ∈ t, isBlank c = false
  calm : '!' ∉ t
  /-- no part of a mark of importance -/
  alien : ¬ lowerAscii t <:+: "important".toList

/-- The characters with which a number can start. -/
def startsNumber (c : Char) : Bool := c.isDigit || c == '-' || c == '+' || c == '.'

/-- The second text is the first one with other words in place of some that start like numbers. -/
inductive Alike : Text → Text → Prop
  | nil : Alike [] []
  | char {t u : Text} (c : Char) : Alike t u → Alike (c :: t) (c :: u)
  | word {a b t u : Text} :
      Inert a → Inert b → (∀ c ∈ a.head?, startsNumber c = true) → Alike t u →
      Alike (a ++ t) (b ++ u)

namespace Inert

variable {t : Text}

theorem trimmed (ht : Inert t) : Trimmed t :=
  ⟨fun c hc => ht.sharp c (List.mem_of_mem_head? hc),
    fun c hc => ht.sharp c (List.mem_of_mem_getLast? hc)⟩

theorem of_chars (hne : t ≠ [])
    (ht : ∀ c ∈ t, Passage.isNameChar c = true ∨ c = '+' ∨ c = '.' ∨ c = '%')
    (halien : ¬ lowerAscii t <:+: "important".toList) : Inert t := by
  refine ⟨hne, fun c hc => ?_, fun c hc => ?_, fun hc => ?_, halien⟩
  · rcases ht c hc with hc | rfl | rfl | rfl
    · exact isPlain_of_isNameChar hc
    · rfl
    · rfl
    · rfl
  · rcases ht c hc with hc | rfl | rfl | rfl
    · exact isBlank_of_isNameChar hc
    · decide
    · decide
    · decide
  · rcases ht _ hc with hc | hc | hc | hc <;> cases hc

/-- Trimming around a word keeps it. -/
theorem infix_trimBlank (ht : Inert t) {u : Text} (h : t <:+: u) : t <:+: trimBlank u := by
  obtain ⟨a, b, rfl⟩ := h
  obtain ⟨c, ha, hblank⟩ : ∃ c, a = c ++ trimBlankLeft a ∧ Blank c := by
    obtain ⟨c, hc, heq⟩ := exists_blank_append_trimBlankLeft a
    exact ⟨c, heq, hc⟩
  obtain ⟨d, hd, hb⟩ := exists_trimBlankRight_append_blank b
  refine ⟨trimBlankLeft a, trimBlankRight b, ?_⟩
  have hleft : SharpLeft (trimBlankLeft a ++ t ++ trimBlankRight b) := by
    rw [List.append_assoc]
    exact (sharpLeft_trimBlankLeft a).append fun _ =>
      ht.trimmed.left.append fun hnil => absurd hnil ht.ne_nil
  have hright : SharpRight (trimBlankLeft a ++ t ++ trimBlankRight b) :=
    (sharpRight_trimBlankRight b).append fun _ =>
      ht.trimmed.right.append fun hnil => absurd hnil ht.ne_nil
  have hframe : a ++ t ++ b =
      c ++ (trimBlankLeft a ++ t ++ trimBlankRight b) ++ d := by
    conv => lhs; rw [ha, hb]
    simp
  rw [hframe, trimBlank_frame hblank ⟨hleft, hright⟩ hd]

end Inert

namespace Alike

variable {t u v w : Text}

theorem refl (t : Text) : Alike t t := by
  induction t with
  | nil => exact .nil
  | cons c t ih => exact .char c ih

theorem append (h : Alike t u) (h' : Alike v w) : Alike (t ++ v) (u ++ w) := by
  induction h with
  | nil => exact h'
  | char c _ ih => exact .char c ih
  | word ha hb hstart _ ih =>
    rw [List.append_assoc, List.append_assoc]
    exact .word ha hb hstart ih

theorem nil_iff (h : Alike t u) : t = [] ↔ u = [] := by
  cases h with
  | nil => rfl
  | char => simp
  | word ha hb => simp [ha.ne_nil, hb.ne_nil]

/-- The first character stays, unless a number can start with it. -/
theorem head (h : Alike t u) : u.head? = t.head? ∨ ∃ c ∈ t.head?, startsNumber c = true := by
  cases h with
  | nil => exact .inl rfl
  | char => exact .inl rfl
  | @word a b t u ha _ hstart _ =>
    obtain ⟨c, a, rfl⟩ := List.exists_cons_of_ne_nil ha.ne_nil
    exact .inr ⟨c, rfl, hstart c rfl⟩

/-- Texts that are alike lead the reader to the same state. -/
theorem run (h : Alike t u) (s : Scan) : s.run t = s.run u := by
  induction h generalizing s with
  | nil => rfl
  | char c _ ih =>
    rw [Scan.run_cons, Scan.run_cons]
    exact congrArg _ (funext ih)
  | word ha hb _ _ ih =>
    rw [Scan.run_append, Scan.run_append, Scan.run_plain s ha.plain ha.ne_nil,
      Scan.run_plain s hb.plain hb.ne_nil, Option.bind_some, Option.bind_some, ih]

theorem ends_iff (h : Alike t u) {s : Scan} {d : Nat} : s.Ends t d ↔ s.Ends u d := by
  simp only [Scan.Ends, h.run]

theorem sharpLeft (h : Alike t u) (ht : SharpLeft t) : SharpLeft u := by
  cases h with
  | nil => exact ht
  | char => exact ht
  | word _ hb => exact hb.trimmed.left.append fun hnil => absurd hnil hb.ne_nil

theorem sharpRight (h : Alike t u) (ht : SharpRight t) : SharpRight u := by
  have last : ∀ {a t : Text}, t ≠ [] → SharpRight (a ++ t) → SharpRight t := by
    intro a t hne hsharp c hc
    refine hsharp c ?_
    rwa [List.getLast?_append_of_ne_nil a hne]
  induction h with
  | nil => exact ht
  | @char t u c h ih =>
    rcases eq_or_ne t [] with rfl | hne
    · rw [h.nil_iff.mp rfl]
      exact ht
    · exact SharpRight.append (s := [c]) (ih (last (a := [c]) hne ht)) fun hnil =>
        absurd (h.nil_iff.mpr hnil) hne
  | @word a b t u ha hb _ h ih =>
    refine SharpRight.append ?_ fun _ => hb.trimmed.right
    rcases eq_or_ne t [] with rfl | hne
    · rw [h.nil_iff.mp rfl]
      exact trimmed_nil.right
    · exact ih (last hne ht)

theorem trimmed (h : Alike t u) (ht : Trimmed t) : Trimmed u :=
  ⟨h.sharpLeft ht.left, h.sharpRight ht.right⟩

/-! ## Marks of importance -/

/-- Texts that are alike are split alike at their last exclamation mark. -/
theorem splitLast (h : Alike t u) :
    Text.splitLast '!' t = none ∧ Text.splitLast '!' u = none ∨
      ∃ a b a' b', Text.splitLast '!' t = some (a, b) ∧ Text.splitLast '!' u = some (a', b') ∧
        Alike b b' := by
  simp only [splitLast_eq_none_iff, splitLast_eq_some_iff]
  induction h with
  | nil => simp
  | @char t u c h ih =>
    rcases ih with ⟨ht, hu⟩ | ⟨a, b, a', b', ⟨rfl, hb⟩, ⟨rfl, hb'⟩, halike⟩
    · by_cases hc : c = '!'
      · subst hc
        exact .inr ⟨[], t, [], u, ⟨rfl, ht⟩, ⟨rfl, hu⟩, h⟩
      · exact .inl (by simp [ht, hu, Ne.symm hc])
    · exact .inr ⟨c :: a, b, c :: a', b', ⟨rfl, hb⟩, ⟨rfl, hb'⟩, halike⟩
  | @word a₀ b₀ t u ha hb₀ _ _ ih =>
    rcases ih with ⟨ht, hu⟩ | ⟨a, b, a', b', ⟨rfl, hb⟩, ⟨rfl, hb'⟩, halike⟩
    · exact .inl (by simp [ht, hu, ha.calm, hb₀.calm])
    · exact .inr ⟨a₀ ++ a, b, b₀ ++ a', b', ⟨by simp, hb⟩, ⟨by simp, hb'⟩, halike⟩

theorem eq_or_word (h : Alike t u) : u = t ∨ ∃ a, Inert a ∧ a <:+: u := by
  induction h with
  | nil => exact .inl rfl
  | char c _ ih =>
    rcases ih with rfl | ⟨a, ha, hinfix⟩
    · exact .inl rfl
    · exact .inr ⟨a, ha, hinfix.trans (List.suffix_cons c _).isInfix⟩
  | @word a b t u _ hb _ _ _ => exact .inr ⟨b, hb, (List.prefix_append b u).isInfix⟩

/-- There is no mark of importance in a text that is like one without. -/
theorem splitImportant (h : Alike t u) (ht : Statement.splitImportant t = (t, false)) :
    Statement.splitImportant u = (u, false) := by
  rcases h.splitLast with ⟨-, hu⟩ | ⟨a, b, a', b', hta, hua, halike⟩
  · rw [Statement.splitImportant, hu]
  · have hb : lowerAscii (trimBlank b) ≠ "important".toList := by
      intro himportant
      simp only [Statement.splitImportant, hta, if_pos himportant] at ht
      cases congrArg Prod.snd ht
    have hb' : lowerAscii (trimBlank b') ≠ "important".toList := by
      rcases halike.eq_or_word with rfl | ⟨c, hc, hinfix⟩
      · exact hb
      · intro himportant
        have := (hc.infix_trimBlank hinfix).map Char.toLower
        rw [show (trimBlank b').map Char.toLower = "important".toList from himportant] at this
        exact hc.alien this
    simp only [Statement.splitImportant, hua, if_neg hb']

/-- A value can be exchanged for one that is alike. -/
theorem admits {x : Form} (hx : x.Fine) (h : Alike x.value v) : x.Admits v :=
  ⟨h.trimmed hx.value, h.nil_iff.mpr, fun hm => h.splitImportant (hx.admits.plain hm)⟩

/-- A form with such a value is read over like the form itself. -/
theorem ends_withValue {x : Form} (hx : x.Fine) (h : Alike x.value v) {d : Nat} :
    Scan.start.Ends (x.withValue v).core d ↔ Scan.start.Ends x.text d := by
  have htext : (x.withValue v).text = x.lead ++ (x.withValue v).core ++ x.trail := rfl
  have hends := (hx.withValue (h.admits hx)).ends_text (d := d)
  rw [htext, Scan.ends_append_plain (Scan.isPlain_of_blank hx.trail),
    Scan.ends_plain_append (Scan.isPlain_of_blank hx.lead)] at hends
  rw [hends, hx.ends_text]
  exact exists_congr fun s => and_congr_right fun _ => h.ends_iff.symm

end Alike

/-! ## Gentle changes -/

/-- A change of values, and of the parameters of at-rules with a given name, to others that are
alike. -/
def Update.Gentle (name : Text) : Update → Prop
  | declaration old new copies =>
    new.property = old.property ∧ new.important = old.important ∧ Alike old.value new.value ∧
      ∀ v ∈ copies, ¬ Masked old.property ∧ Alike old.value v
  | params old new => new = old.params ∨ old.name = name ∧ Alike old.params new

/-- Whether a passage can be changed gently: it leaves no parenthesis open, and no number stands
right behind the given name of an at-rule. -/
structure Passage.Clear (name : Text) (q : Passage) : Prop where
  closed : q.depth = 0
  apart : ∀ raw stop, q = .statement (some name) raw stop →
    raw.head? ≠ some '+' ∧ raw.head? ≠ some '.'

variable {name : Text}

/-- Behind the name of an at-rule, a text stays apart from it if it is exchanged for one that is
alike. -/
theorem Alike.head_apart {old new : Text} (h : Alike old new) {t : Text}
    (hname : ∀ c ∈ (old ++ t).head?, Passage.isNameChar c = false)
    (hplus : (old ++ t).head? ≠ some '+') (hpoint : (old ++ t).head? ≠ some '.') :
    ∀ c ∈ (new ++ t).head?, Passage.isNameChar c = false := by
  rcases h.head with hhead | ⟨c, hc, hstart⟩
  · intro c hc
    refine hname c ?_
    rwa [List.head?_append, hhead, ← List.head?_append] at hc
  · have hold : (old ++ t).head? = some c := by
      rw [List.head?_append, show old.head? = some c from hc]
      rfl
    have hno := hname c hold
    rw [hold] at hplus hpoint
    simp only [startsNumber, Bool.or_eq_true, beq_iff_eq] at hstart
    rcases hstart with ((hdigit | rfl) | rfl) | rfl
    · simp [Passage.isNameChar, Char.isAlphanum, hdigit] at hno
    · cases hno
    · exact absurd rfl hplus
    · exact absurd rfl hpoint

/-- A declaration that changed gently, with its copies, is read from what was written for it. -/
theorem Form.Fine.lasting {x : Form} (hx : x.Fine) {stop : Stop} {next : Text}
    (hq : (Passage.statement none x.text stop).Fits next)
    (hclear : (Passage.statement none x.text stop).depth = 0) {p : Place} {semicolon : Option Nat}
    {new : Declaration} {copies : List Text}
    (hg : (Update.declaration (x.declaration p semicolon) new copies).Gentle name) (indent : Text)
    (free : Prop) : x.Allows new ∧ x.Lasting indent new copies free := by
  obtain ⟨hproperty, himportant, hvalue, hcopies⟩ := hg
  obtain ⟨⟨s, hrun⟩, -⟩ := starts_of_fits hx hq
  have hends : Scan.start.Ends x.text 0 := by
    have := Scan.ends_of_passes hq.2.1
    rwa [show (Scan.start.halt x.text).depth = 0 from hclear] at this
  have hbase : x.base new = (x.withValue new.value).core := by
    rw [Form.base, if_neg]
    rintro (h | h)
    · exact h hproperty
    · exact h himportant
  have hadmits := hvalue.admits hx
  obtain ⟨b, -, hfront⟩ := hx.exists_front
  have hcolon : ':' ∉ new.property := by
    intro hc
    rw [show new.property = trimBlank x.front from hproperty] at hc
    refine hx.colon ?_
    rw [hfront]
    exact List.mem_append_left _ hc
  refine ⟨⟨?_, hcolon, ⟨s, ?_⟩, fun hne => absurd hproperty hne, hadmits⟩, ⟨?_, ?_, ?_, ?_⟩⟩
  · exact hproperty ▸ trimmed_trimBlank _
  · rw [hproperty]
    exact hrun
  · intro hnew
    have hmark : x.mark = [] := by
      have : (!x.mark.isEmpty) = false := himportant.symm.trans hnew
      simpa using this
    exact hadmits.plain hmark
  · exact fun _ => ⟨hproperty, himportant⟩
  · intro hne hmask
    obtain ⟨v, hv⟩ := List.exists_mem_of_ne_nil _ hne
    exact absurd hmask (hcopies v hv).1
  · have hall : ∀ t ∈ x.base new :: copies.map fun v => (x.withValue v).core,
        Scan.start.Ends t 0 := by
      rw [List.forall_mem_cons, hbase, List.forall_mem_map]
      exact ⟨(hvalue.ends_withValue hx).mpr hends,
        fun v hv => ((hcopies v hv).2.ends_withValue hx).mpr hends⟩
    exact Scan.allEnd_of_forall free hall

/-- Passages that were changed gently are read as the revision says. -/
theorem Spliced.row_of_gentle {before u : Text} {qs : List Passage} {cs : List Update}
    {ss : List Statement} (h : Spliced before qs cs ss u) (hv : Passage.Valid qs)
    (hclear : ∀ q ∈ qs, q.Clear name) (hgentle : ∀ c ∈ cs, c.Gentle name) (p : Place) :
    (row p u).map Statement.bare = ss.map Statement.bare := by
  induction h generalizing p with
  | nil => simp
  | @keep before u q qs cs ss hkept _ ih =>
    rw [row_kept hkept hv.1, List.map_append, Statement.map_bare_unlined,
      ih hv.2 (fun r hr => hclear r (by simp [hr])) hgentle]
  | @params before name' lead old trail new u stop qs cs ss head hl ht ho hnil hhead hs ih =>
    obtain ⟨⟨hb, hp, hstop⟩, hvalid⟩ := hv
    obtain ⟨hclosed, hapart⟩ := hclear _ List.mem_cons_self
    rw [atHead_frame hl ho ht hnil] at hhead
    subst hhead
    have halike : Alike old new := by
      rcases hgentle _ List.mem_cons_self with hnew | ⟨-, halike⟩
      · rw [show new = old from hnew]
        exact .refl old
      · exact halike
    have hraw : ∀ c ∈ (lead ++ old ++ trail).head?, Passage.isNameChar c = false := by
      intro c hc
      refine hb.2 c ?_
      rw [List.append_assoc, List.head?_append, hc]
      rfl
    have hraw' : ∀ c ∈ (lead ++ new ++ trail).head?, Passage.isNameChar c = false := by
      rcases hgentle _ List.mem_cons_self with hnew | ⟨hname, -⟩
      · rw [show new = old from hnew]
        exact hraw
      · obtain rfl : name' = name := hname
        obtain ⟨hplus, hpoint⟩ := hapart _ _ rfl
        cases lead with
        | nil => exact halike.head_apart hraw hplus hpoint
        | cons c lead => exact hraw
    have hends : Scan.start.Ends (lead ++ new ++ trail) 0 := by
      have hold := Scan.ends_of_passes hp
      rw [show (Scan.start.halt (lead ++ old ++ trail)).depth = 0 from hclosed] at hold
      exact ((((Alike.refl lead).append halike).append (.refl trail)).ends_iff).mp hold
    have hstop' : stop.Fits 0 (Passage.joined qs) := hclosed ▸ hstop
    rw [row_atRule hb.1 hraw' hends (hs.stop hvalid hstop'),
      ih hvalid (fun r hr => hclear r (by simp [hr])) fun c hc => hgentle c (by simp [hc]),
      trimBlank_frame hl (halike.trimmed ho) ht, List.map_cons, bare_atRule]
    rfl
  | @declaration before u x stop old new copies qs cs ss hx hstop hold hspan hs ih =>
    obtain ⟨hq, hvalid⟩ := hv
    obtain ⟨⟨s, hrun⟩, hstarts⟩ := starts_of_fits hx hq
    have hg := hgentle _ List.mem_cons_self
    subst hold
    have hcopies : ∀ v ∈ copies, x.Admits v := fun v hv => (hg.2.2.2 v hv).2.admits hx
    obtain ⟨hnil, hclose⟩ := hs.next hvalid
    have hu : stop = .nothing → u = [] ∨ u.head? = some '}' := by
      rintro rfl
      exact hq.2.2.imp hnil fun h => hclose h.2
    obtain ⟨hallows, hlasting⟩ := hx.lasting hq (hclear _ List.mem_cons_self).closed hg
      (indentBehind (before ++ x.lead)) (stop = .nothing ∧ u = [])
    rw [List.map_append, List.map_cons, Statement.map_bare_copies, List.cons_append, Statement.bare,
      row_written_iff hx hrun hstarts (blank_indentBehind _) hstop hallows hcopies hu]
    exact ⟨hlasting, ih hvalid (fun r hr => hclear r (by simp [hr]))
      (fun c hc => hgentle c (by simp [hc])) _⟩

/-- A text that was patched with gentle changes is read as the revised tree. -/
theorem parse_patch_of_gentle {css : Text} {sheet : Stylesheet} (h : parse css = .ok sheet)
    {cs : List Update} {ms : List Node} (hr : Revises cs sheet.nodes ms)
    (hclear : ∀ q ∈ Passage.ofText css, q.Clear name) (hgentle : ∀ c ∈ cs, c.Gentle name)
    (source : Option Text) :
    ∃ u s, patch? ⟨source, ms⟩ css = some u ∧ parse u = .ok s ∧
      Node.bareList s.nodes = Node.bareList ms := by
  obtain ⟨u, hjoined, hvalid, hu, hpatch, -⟩ := exists_spliced_patch? h hr source
  obtain ⟨s, hs, hsame⟩ := exists_same_iff.mpr (hu.row_of_gentle hvalid hclear hgentle .start)
  exact ⟨u, s, hpatch, hs, hsame⟩

end PixelScale.Stylesheet
