import PixelScale.Proofs.Stylesheet.Shift
import PixelScale.Proofs.Stylesheet.Splice

/-!
# Joining texts

Two texts with one behind the other are read as one sheet with the nodes of the other behind it, if
the first one ends where a statement may start. For then no passage runs over the seam, and what
is read behind the seam is read as before, only further on. The same holds for writing: an edit
stays inside of its passage, and a copy looks back no further than to the last character that is
not blank. So two changed trees with one behind the other are written as the two new texts, one
behind the other. Only a declaration at the top of the second text could look over the seam for
its indentation.

* `Closed`: texts behind which a statement may start.
* `parse_append`: two texts are read as one.
* `Spliced.shift`: what is written does not depend on what stands in front.
* `patch_append`: two changed trees are written as one.
-/

namespace PixelScale.Stylesheet

open Text

/-! ## No passage runs over the seam -/

namespace Passage

/-- Whether a passage is a statement without a semicolon or a brace of its own. -/
def isOpen : Passage → Bool
  | statement _ _ .nothing => true
  | _ => false

theorem Begins.append {name : Option Text} {t : Text} (h : Begins name t) (hne : t ≠ [])
    (hslash : t ≠ ['/']) (u : Text) : Begins name (t ++ u) := by
  obtain ⟨c, t, rfl⟩ := List.exists_cons_of_ne_nil hne
  cases name with
  | some name => exact h
  | none =>
    obtain ⟨hblank, hsemi, hclose, hat, hcomment⟩ := h
    refine ⟨hblank, hsemi, hclose, hat, ?_⟩
    rintro ⟨rfl, hstar⟩
    cases t with
    | nil => exact hslash rfl
    | cons d t => exact hcomment ⟨rfl, hstar⟩

/-- A passage that fits in front of a text fits in front of it with another one behind, unless it
is a statement that the end of the text would close. -/
theorem Fits.append {q : Passage} {next : Text} (h : q.Fits next)
    (hopen : q.isOpen = true → next ≠ []) (u : Text) : q.Fits (next ++ u) := by
  cases q with
  | space c => exact h
  | comment body => exact h
  | closing => exact h
  | statement name raw stop =>
    obtain ⟨hb, hp, hs⟩ := h
    -- the delimiter that the statement stops at
    have hmem : ∃ c ∈ raw ++ stop.text ++ next, Scan.isTerminator c = true := by
      cases stop with
      | brace => exact ⟨'{', by simp [Stop.text], rfl⟩
      | semicolon => exact ⟨';', by simp [Stop.text], rfl⟩
      | nothing =>
        rcases hs with hnil | ⟨-, hc⟩
        · exact absurd hnil (hopen rfl)
        · exact ⟨'}', List.mem_append_right _ (List.mem_of_mem_head? hc), rfl⟩
    obtain ⟨c, hc, hterm⟩ := hmem
    refine ⟨?_, hp, ?_⟩
    · rw [← List.append_assoc]
      refine hb.append (List.ne_nil_of_mem hc) (fun hslash => ?_) u
      rw [hslash, List.mem_singleton] at hc
      rw [hc] at hterm
      cases hterm
    · cases stop with
      | brace => exact hs
      | semicolon => exact hs
      | nothing =>
        obtain ⟨hd, hc⟩ := hs.resolve_left (hopen rfl)
        exact .inr ⟨hd, by rw [List.head?_append, hc]; rfl⟩

theorem joined_append (qs rs : List Passage) : joined (qs ++ rs) = joined qs ++ joined rs :=
  List.flatMap_append

/-- A row of fitting passages is read off a text, whatever follows, if no statement is open at its
end. -/
theorem row_joined_append {qs : List Passage} (h : Valid qs)
    (hclosed : ∀ q ∈ qs.getLast?, q.isOpen = false) (p : Place) (u : Text) :
    row p (joined qs ++ u) = meanings p qs ++ row (p.after (joined qs)) u := by
  induction qs generalizing p with
  | nil => rfl
  | cons q qs ih =>
    have hfits : q.Fits (joined qs ++ u) := by
      apply h.1.append
      intro hopen hnil
      cases qs with
      | nil =>
        rw [hclosed q rfl] at hopen
        cases hopen
      | cons r qs => exact text_ne_nil h.2.1 (List.append_eq_nil_iff.mp hnil).1
    have hrest : ∀ r ∈ qs.getLast?, r.isOpen = false := by
      intro r hr
      apply hclosed
      rw [List.getLast?_cons, Option.mem_def.mp hr]
      rfl
    rw [joined_cons, List.append_assoc, row_text_append hfits, ih h.2 hrest, meanings,
      List.append_assoc, Place.after_append]

end Passage

/-- A text whose last statement has a semicolon or a brace of its own or is a comment, or that has
no statement. -/
def Closed (t : Text) : Prop := ∀ q ∈ (Passage.ofText t).getLast?, q.isOpen = false

section

variable {a b : Text} {s t : Stylesheet}

/-- The statements of a text with another one behind it. -/
theorem row_append (ha : parse a = .ok s) (hclosed : Closed a) (b : Text) :
    row .start (a ++ b) =
      row .start a ++ (row .start b).map (Statement.shift (Place.start.after a)) := by
  obtain ⟨hja, hva, hra⟩ := Passage.ofText_spec (parse_ok ha).2.2
  have hjoined := Passage.row_joined_append hva hclosed .start b
  rw [hja, ← hra] at hjoined
  rw [hjoined, ← row_shift, Place.shift_start]

theorem balanced_row (h : parse a = .ok s) : Node.balanced 0 (row .start a) = true := by
  rw [parse_eq] at h
  refine (@Node.exists_ofStatementsIn_iff [] [] _).mp ?_
  cases hns : Node.ofStatements (row .start a) with
  | ok ns => exact ⟨ns, hns⟩
  | error e =>
    rw [hns] at h
    cases h

/-- A text with another one behind it is read as the one sheet with the other behind it. -/
theorem parse_append (ha : parse a = .ok s) (hb : parse b = .ok t) (hclosed : Closed a) :
    parse (a ++ b) = .ok ⟨none, s.nodes ++ Node.shiftList a.bytes t.nodes⟩ := by
  obtain ⟨-, hsa, -⟩ := parse_ok ha
  obtain ⟨-, hsb, hbad⟩ := parse_ok hb
  have hrow := row_append ha hclosed b
  have hbalanced : Node.balanced 0 (row .start (a ++ b)) = true := by
    rw [hrow, Node.balanced_append (balanced_row ha), Node.balanced_map_shift, balanced_row hb]
  obtain ⟨ns, hns⟩ := (@Node.exists_ofStatementsIn_iff [] [] _).mpr hbalanced
  have hnodes : ns = s.nodes ++ Node.shiftList a.bytes t.nodes := by
    refine Node.statementsList_injective ?_
    have hlist := Node.statementsList_of_ofStatementsIn hns
    simp only [Node.context, List.reverse_nil, Node.statementsList, List.nil_append] at hlist
    rw [hlist, hrow, List.map_append, Statement.map_unlined_shift _ hbad,
      Place.offset_after_start, ← hsa, ← hsb, Node.statementsList_append,
      Node.statementsList_shiftList]
  rw [parse_eq, show Node.ofStatements (row .start (a ++ b)) = .ok ns from hns, hnodes]
  rfl

end

/-! ## Writing further on -/

/-- An update of a text with `n` bytes in front of it. -/
def Update.shift (n : Nat) : Update → Update
  | declaration old new copies => declaration (old.shift n) (new.shift n) copies
  | params old new => params (old.shift n) new

/-- Blanks at the end are those of the last text that is not blank. -/
theorem indentBehind_append (front : Text) {t : Text} (ht : ¬ Blank t) :
    indentBehind (front ++ t) = indentBehind t := by
  have hne : trimBlankRight t ≠ [] := fun h => ht (trimBlankRight_eq_nil_iff.mp h)
  obtain ⟨b, hb, heq⟩ := exists_trimBlankRight_append_blank t
  have htrim : trimBlankRight (front ++ t) = front ++ trimBlankRight t := by
    conv => lhs; rw [heq]
    rw [← List.append_assoc, trimBlankRight_append_blank _ hb]
    exact trimBlankRight_eq_self ((sharpRight_trimBlankRight t).append fun h => absurd h hne)
  simp only [indentBehind, htrim, List.length_append, List.drop_length_add_append]

theorem Passage.meaning_shift (front p : Place) (q : Passage) :
    q.meaning (front.shift p) = (q.meaning p).map (Statement.shift front) := by
  cases q with
  | space c => rfl
  | comment body => rfl
  | closing => rfl
  | statement name raw stop =>
    have hsome := Statement.ofBody_shift front (p.after (sign name)) name raw
      (some ((p.after (sign name)).after raw).offset)
    have hnone := Statement.ofBody_shift front (p.after (sign name)) name raw none
    simp only [Option.map_some, Option.map_none] at hsome hnone
    cases stop with
    | brace =>
      simp only [meaning, ← Place.shift_after, Statement.ofHead_shift]
      rfl
    | semicolon =>
      simp only [meaning, ← Place.shift_after, Place.offset_shift, hsome]
      rfl
    | nothing =>
      simp only [meaning, ← Place.shift_after, hnone]
      rfl

/-- A passage of blanks stands for nothing that a revision would keep. -/
theorem Passage.meaning_of_blank {q : Passage} {p : Place}
    (hkept : ∀ s ∈ q.meaning p, s.isKept = true) (hb : Blank q.text) : q.meaning p = none := by
  cases q with
  | space c => rfl
  | comment body => exact absurd (hb '/' (by simp [text])) (by decide)
  | closing => exact absurd (hb '}' (by simp [text])) (by decide)
  | statement name raw stop =>
    cases stop with
    | brace => exact absurd (hb '{' (by simp [text, Stop.text])) (by decide)
    | semicolon => exact absurd (hb ';' (by simp [text, Stop.text])) (by decide)
    | nothing =>
      have hbody := hkept _ rfl
      cases name with
      | some name => cases hbody
      | none =>
        rw [Statement.ofBody] at hbody
        split at hbody <;> cases hbody

theorem Place.after_front (front before : Text) :
    Place.start.after (front ++ before) =
      (Place.start.after front).shift (Place.start.after before) := by
  rw [Place.after_append, Place.shift_after, Place.shift_start]

@[simp] theorem isKept_shift (front : Place) (s : Statement) :
    (s.shift front).isKept = s.isKept := by
  cases s with
  | opening head line => cases head <;> rfl
  | _ => rfl

namespace Form

variable (x : Form)

theorem written_shift (indent : Text) (n : Nat) (new : Declaration) (copies : List Text)
    (stop : Stop) :
    x.written indent (new.shift n) copies stop = x.written indent new copies stop := rfl

theorem declaration_shift (front before : Text) (stop : Stop) :
    x.declaration (Place.start.after (front ++ before))
        (stop.semicolon? (front ++ before ++ x.text).bytes) =
      (x.declaration (Place.start.after before)
        (stop.semicolon? (before ++ x.text).bytes)).shift front.bytes := by
  have hsemicolon : stop.semicolon? (front ++ before ++ x.text).bytes =
      (stop.semicolon? (before ++ x.text).bytes).map (front.bytes + ·) := by
    cases stop <;> simp [Stop.semicolon?]
  rw [Place.after_front, hsemicolon]
  simp [declaration, span, Declaration.shift, DeclarationSpan.shift, Nat.add_assoc]

end Form

theorem Statement.map_shift_copies (n : Nat) (d : Declaration) (copies : List Text) :
    (copies.map fun v => declaration (d.withValue v)).map (shift ⟨n, 0⟩) =
      copies.map fun v => declaration ((d.shift n).withValue v) := by
  rw [List.map_map]
  rfl

/-- What is written for passages does not depend on what stands in front of them, unless a
declaration has nothing but blanks in front of it. -/
theorem Spliced.shift {before u : Text} {qs : List Passage} {cs : List Update}
    {ss : List Statement} (h : Spliced before qs cs ss u) (front : Text)
    (hfront : Blank before → ∀ d, ss.head? ≠ some (.declaration d)) :
    Spliced (front ++ before) qs (cs.map (Update.shift front.bytes))
      (ss.map (Statement.shift ⟨front.bytes, 0⟩)) u := by
  induction h with
  | nil => exact .nil
  | @keep before u q qs cs ss hkept h ih =>
    have hrest := ih fun hb => by
      rw [blank_append] at hb
      rw [Passage.meaning_of_blank hkept hb.2] at hfront
      exact hfront hb.1
    rw [← List.append_assoc] at hrest
    have hmeaning := Passage.meaning_shift (Place.start.after front) (Place.start.after before) q
    rw [← Place.after_front] at hmeaning
    have hkept' : ∀ s ∈ q.meaning (Place.start.after (front ++ before)), s.isKept = true := by
      intro s hs
      rw [hmeaning] at hs
      obtain ⟨s', hs', rfl⟩ := Option.mem_map.mp hs
      rw [isKept_shift, hkept s' hs']
    have hbad : ∀ e, .bad e ∉ (q.meaning (Place.start.after before)).toList := by
      intro e he
      cases hkept _ (Option.mem_toList.mp he)
    have := Spliced.keep hkept' hrest
    rw [hmeaning, Option.toList_map, Statement.map_unlined_shift _ hbad,
      Place.offset_after_start] at this
    rw [List.map_append]
    exact this
  | @params before name lead old trail new u stop qs cs ss head hl ht ho hnil hhead h ih =>
    have hrest := ih fun hb => absurd (hb '@' (by simp [Passage.sign])) (by decide)
    rw [← List.append_assoc] at hrest
    have hhead' : Statement.atHead name
        (Place.start.after (front ++ before ++ Passage.sign (some name))) (lead ++ old ++ trail) =
          head.shift front.bytes := by
      rw [List.append_assoc, Place.after_front, Statement.atHead_shift, hhead,
        Place.offset_after_start]
    have hstatement : Statement.shift ⟨front.bytes, 0⟩ (stop.atRule { head with params := new }) =
        stop.atRule { head.shift front.bytes with params := new } := by
      cases stop <;> rfl
    rw [List.map_cons, List.map_cons, hstatement]
    exact .params hl ht ho hnil hhead' hrest
  | @declaration before u x stop old new copies qs cs ss hx hstop hold hspan h ih =>
    have hbefore : ¬ Blank before := fun hb => hfront hb new rfl
    have hrest := ih fun hb => absurd (blank_append.mp hb).1 hbefore
    rw [← List.append_assoc] at hrest
    have hold' := x.declaration_shift front before stop
    rw [hold] at hold'
    have hspan' : (new.shift front.bytes).span = (old.shift front.bytes).span :=
      congrArg (Option.map (DeclarationSpan.shift front.bytes)) hspan
    have hindent : indentBehind (front ++ before ++ x.lead) = indentBehind (before ++ x.lead) := by
      rw [List.append_assoc]
      exact indentBehind_append front fun hb => hbefore (blank_append.mp hb).1
    rw [List.map_append, List.map_cons, List.map_cons, Statement.map_shift_copies,
      ← x.written_shift _ front.bytes, ← hindent]
    exact .declaration hx hstop hold' hspan' hrest

theorem Spliced.append {before u u' : Text} {qs qs' : List Passage} {cs cs' : List Update}
    {ss ss' : List Statement} (h : Spliced before qs cs ss u)
    (h' : Spliced (before ++ Passage.joined qs) qs' cs' ss' u') :
    Spliced before (qs ++ qs') (cs ++ cs') (ss ++ ss') (u ++ u') := by
  induction h with
  | nil =>
    rw [Passage.joined_nil, List.append_nil] at h'
    exact h'
  | keep hkept _ ih =>
    rw [Passage.joined_cons, ← List.append_assoc] at h'
    rw [List.append_assoc, List.append_assoc]
    exact .keep hkept (ih h')
  | params hl ht ho hnil hhead _ ih =>
    rw [Passage.joined_cons, ← List.append_assoc] at h'
    rw [List.append_assoc (_ ++ _ ++ Stop.text _)]
    exact .params hl ht ho hnil hhead (ih h')
  | declaration hx hstop hold hspan _ ih =>
    rw [Passage.joined_cons, ← List.append_assoc] at h'
    rw [List.append_assoc, List.append_assoc]
    exact .declaration hx hstop hold hspan (ih h')

/-! ## Writing two trees -/

/-- A revision keeps other nodes than declarations at the start. -/
theorem Revises.head?_ne {cs : List Update} {ns ms : List Node} (h : Revises cs ns ms)
    (hns : ∀ d, ns.head? ≠ some (.declaration d)) (d : Declaration) :
    (Node.statementsList ms).head? ≠ some (.declaration d) := by
  cases h with
  | declaration => exact absurd rfl (hns _)
  | _ => exact nofun

/-- A tree that did not change leaves the text as it is. -/
theorem patch_self {a : Text} {s : Stylesheet} (h : parse a = .ok s) (source : Option Text) :
    patch ⟨source, s.nodes⟩ a = a := by
  obtain ⟨cs, hself, hnone⟩ := exists_revises_self a s.nodes
  obtain ⟨u, -, -, -, hpatch, hmade⟩ := exists_spliced_patch? h hself source
  rw [hnone] at hmade
  rw [patch, hpatch, Option.getD_some]
  exact hmade.unique .done

/-- Two changed trees with one behind the other are written as the two texts, one behind the
other. -/
theorem patch_append {a b : Text} {s t : Stylesheet} (ha : parse a = .ok s) (hb : parse b = .ok t)
    (htop : ∀ d, t.nodes.head? ≠ some (.declaration d)) {cs cs' : List Update}
    {ms ms' : List Node} (hr : Revises cs s.nodes ms) (hr' : Revises cs' t.nodes ms')
    (source : Option Text) :
    patch ⟨source, ms ++ Node.shiftList a.bytes ms'⟩ (a ++ b) =
      patch ⟨source, ms⟩ a ++ patch ⟨source, ms'⟩ b := by
  obtain ⟨u, hja, -, hu, hpatch, -⟩ := exists_spliced_patch? ha hr source
  obtain ⟨u', hjb, -, hu', hpatch', -⟩ := exists_spliced_patch? hb hr' source
  have hbehind := hu'.shift a fun _ => hr'.head?_ne htop
  rw [← Node.statementsList_shiftList, List.append_nil] at hbehind
  have hboth := hu.append (by rwa [List.nil_append, hja])
  rw [← Node.statementsList_append] at hboth
  have hjoined : a ++ b = [] ++ Passage.joined (Passage.ofText a ++ Passage.ofText b) := by
    rw [Passage.joined_append, hja, hjb, List.nil_append]
  obtain ⟨hes, hmade⟩ := hboth.edits hjoined none
  rw [List.nil_append] at hjoined
  rw [← hjoined] at hmade
  have : patch? ⟨source, ms ++ Node.shiftList a.bytes ms'⟩ (a ++ b) = some (u ++ u') := by
    rw [patch?, Edit.ofNodes?_eq_ofRow?, hes]
    exact hmade.splice?
  rw [patch, this, patch, hpatch, patch, hpatch']
  rfl

end PixelScale.Stylesheet
