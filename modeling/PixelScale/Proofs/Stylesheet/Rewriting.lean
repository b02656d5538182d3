import PixelScale.Proofs.Stylesheet.Printing
import PixelScale.Proofs.Stylesheet.Splice

/-!
# Reading what was written for a declaration

Where a declaration changed, the text has its new form and one form for each of its copies. These
are read as the changed declaration and its copies under conditions on each form alone: it must be
passed over by the reader and leave no parenthesis open, it must start where a statement can
start, and a copy must have the property and the mark of the declaration that it was copied from.
Only the last form may leave a parenthesis open, if nothing follows it.

* `row_form_iff`: when a form is read as a declaration with its value.
* `Form.Lasting`: the conditions for a declaration and its copies.
* `row_written_iff`: what was written for a declaration is read as what it should be if and only if
  these hold.
-/

namespace PixelScale.Stylesheet

open Text

/-! ## One form -/

section

variable {x : Form} {s : Scan} {p : Place} {b : Declaration} {ss : List Statement}

/-- The reader skips the blanks that separate statements. -/
theorem Form.Fine.exists_lead (hx : x.Fine) :
    ∃ a w, x.lead = a ++ w ∧ Separating a ∧ ({ x with lead := w } : Form).Fine ∧
      (∀ c ∈ w.head?, isBlankAscii c = false) ∧ (Separating x.lead ↔ w = []) := by
  have hlead : x.lead = x.lead.takeWhile isBlankAscii ++ x.lead.dropWhile isBlankAscii :=
    List.takeWhile_append_dropWhile.symm
  have ha : Separating (x.lead.takeWhile isBlankAscii) := fun _ hc => List.mem_takeWhile_imp hc
  have hw : ∀ c ∈ (x.lead.dropWhile isBlankAscii).head?, isBlankAscii c = false := by
    intro c hc
    have := List.head?_dropWhile_not isBlankAscii x.lead
    rw [hc] at this
    simpa using this
  have hblank : Blank (x.lead.dropWhile isBlankAscii) := by
    have := hx.lead
    rw [hlead] at this
    exact (blank_append.mp this).2
  refine ⟨_, _, hlead, ha, { hx with lead := hblank }, hw, ?_⟩
  conv => lhs; rw [hlead, separating_append]
  generalize x.lead.dropWhile isBlankAscii = w at hw
  constructor
  · rintro ⟨-, hsep⟩
    cases w with
    | nil => rfl
    | cons c w =>
      have := hw c rfl
      rw [(separating_cons.mp hsep).1] at this
      cases this
  · rintro rfl
    exact ⟨ha, separating_nil⟩

/-- A blank that does not separate statements begins one. -/
theorem begins_wide {c : Char} (hc : isBlank c = true) (hw : isBlankAscii c = false) (t : Text) :
    Passage.Begins none (c :: t) := by
  have hne : ∀ d, isBlank d = false → c ≠ d := by
    rintro d hd rfl
    rw [hc] at hd
    cases hd
  exact ⟨hw, hne ';' (by decide), hne '}' (by decide), hne '@' (by decide),
    fun h => hne '/' (by decide) h.1⟩

/-- A form that starts in no separating blank begins a statement, unless its property is masked. -/
theorem Form.Fine.begins_text (hx : x.Fine) (hrun : Scan.start.run (trimBlank x.front) = some s)
    (hlead : ∀ c ∈ x.lead.head?, isBlankAscii c = false)
    (hmask : Masked (trimBlank x.front) → x.lead ≠ []) (u : Text) :
    Passage.Begins none (x.text ++ u) := by
  cases hl : x.lead with
  | nil =>
    have := (hx.begins_core hrun (x.trail ++ u)).mpr fun hm => hmask hm hl
    simpa [Form.text, hl] using this
  | cons c w =>
    have hblank := hx.lead
    rw [hl] at hblank hlead
    simp only [Form.text, hl, List.cons_append]
    exact begins_wide (blank_cons.mp hblank).1 (hlead c rfl) _

/-- When a form is read as a declaration with its value. -/
theorem row_form_iff (hx : x.Fine) (hrun : Scan.start.run (trimBlank x.front) = some s) {u : Text}
    (hu : ∀ c ∈ u.head?, Scan.isTerminator c = true) (hvalue : b.value = x.value) :
    (row p (x.text ++ u)).map Statement.bare = .declaration b :: ss ↔
      b = x.bare ∧ (Masked (trimBlank x.front) → ¬ Separating x.lead) ∧
        ∃ stop next d, stop ≠ Stop.brace ∧ u = stop.text ++ next ∧ Scan.start.Ends x.text d ∧
          stop.Fits d next ∧
          (row (p.after (x.text ++ stop.text)) next).map Statement.bare = ss := by
  obtain ⟨a, w, hlead, ha, hy, hw, hsep⟩ := hx.exists_lead
  let y : Form := { x with lead := w }
  have htext : x.text = a ++ y.text := by
    simp [Form.text, Form.core, y, hlead]
  have hends : ∀ d, Scan.start.Ends y.text d ↔ Scan.start.Ends x.text d := fun d => by
    rw [hy.ends_text, hx.ends_text]
  have hrow : row p (x.text ++ u) = row (p.after a) (y.text ++ u) := by
    rw [htext, List.append_assoc, row_separating ha]
  have hplace : ∀ v, (p.after a).after (y.text ++ v) = p.after (x.text ++ v) := fun v => by
    rw [← Place.after_append, htext, List.append_assoc]
  have hbegins : ∀ v, (Masked (trimBlank x.front) → ¬ Separating x.lead) →
      Passage.Begins none (y.text ++ v) := fun v hmask =>
    hy.begins_text hrun hw (fun hm hnil => hmask hm (hsep.mpr hnil)) v
  rw [hrow]
  constructor
  · intro h
    have hmask : Masked (trimBlank x.front) → ¬ Separating x.lead := by
      intro hm hs
      obtain rfl := hsep.mp hs
      refine not_masked_of_row h (by simp) ?_
      obtain ⟨c, hc, hfront⟩ := hx.exists_front
      have : y.text ++ u = trimBlank x.front ++
          (c ++ ':' :: (x.gap ++ x.value ++ x.mark ++ x.trail ++ u)) := by
        rw [← List.append_assoc, ← hfront]
        simp [Form.text, Form.core, y]
      rw [this]
      exact hm.append _
    obtain ⟨hb, stop, next, d, hstop, hu', he, hs, hrest⟩ :=
      ends_of_row_declaration hy (hbegins u hmask) hu hvalue h
    rw [hplace] at hrest
    exact ⟨hb, hmask, stop, next, d, hstop, hu', (hends d).mp he, hs, hrest⟩
  · rintro ⟨rfl, hmask, stop, next, d, hstop, rfl, he, hs, rfl⟩
    have := @row_declaration _ hy stop hstop next d
      (by rw [List.append_assoc]; exact hbegins _ hmask) ((hends d).mpr he) hs (p.after a)
    rw [hplace] at this
    rw [← List.append_assoc]
    exact this

/-- When a form is read as a declaration with its value in front of a semicolon. -/
theorem row_form_semicolon_iff (hx : x.Fine)
    (hrun : Scan.start.run (trimBlank x.front) = some s) {u : Text} (hvalue : b.value = x.value) :
    (row p (x.text ++ [';'] ++ u)).map Statement.bare = .declaration b :: ss ↔
      (b = x.bare ∧ (Masked (trimBlank x.front) → ¬ Separating x.lead) ∧
        Scan.start.Ends x.text 0) ∧
        (row (p.after (x.text ++ [';'])) u).map Statement.bare = ss := by
  have hiff := @row_form_iff x s p b ss hx hrun (';' :: u)
    (by simp [Scan.isTerminator]) hvalue
  rw [List.append_assoc, List.singleton_append, hiff]
  constructor
  · rintro ⟨hb, hmask, stop, next, d, hstop, hu, he, hs, hrest⟩
    cases stop with
    | brace => exact absurd rfl hstop
    | semicolon =>
      cases hu
      obtain rfl : d = 0 := hs
      exact ⟨⟨hb, hmask, he⟩, hrest⟩
    | nothing =>
      rcases hs with rfl | ⟨-, hclose⟩
      · cases hu
      · rw [← show ';' :: u = next from hu] at hclose
        cases hclose
  · rintro ⟨⟨hb, hmask, he⟩, hrest⟩
    exact ⟨hb, hmask, .semicolon, u, 0, by decide, rfl, he, rfl, hrest⟩

/-- When a form is read as a declaration with its value at the end of a block or of a text. -/
theorem row_form_nothing_iff (hx : x.Fine)
    (hrun : Scan.start.run (trimBlank x.front) = some s) {u : Text}
    (hu : u = [] ∨ u.head? = some '}') (hvalue : b.value = x.value) :
    (row p (x.text ++ u)).map Statement.bare = .declaration b :: ss ↔
      (b = x.bare ∧ (Masked (trimBlank x.front) → ¬ Separating x.lead) ∧
        ∃ d, Scan.start.Ends x.text d ∧ Stop.nothing.Fits d u) ∧
        (row (p.after x.text) u).map Statement.bare = ss := by
  have hhead : ∀ c ∈ u.head?, Scan.isTerminator c = true := by
    intro c hc
    rcases hu with rfl | hu
    · cases hc
    · obtain rfl : '}' = c := by simpa [hu] using hc
      rfl
  rw [row_form_iff hx hrun hhead hvalue]
  constructor
  · rintro ⟨hb, hmask, stop, next, d, hstop, hu', he, hs, hrest⟩
    cases stop with
    | brace => exact absurd rfl hstop
    | semicolon =>
      rw [hu'] at hu
      rcases hu with hu | hu <;> cases hu
    | nothing =>
      obtain rfl : u = next := hu'
      exact ⟨⟨hb, hmask, d, he, hs⟩, by simpa [Stop.text] using hrest⟩
  · rintro ⟨⟨hb, hmask, d, he, hs⟩, hrest⟩
    exact ⟨hb, hmask, .nothing, u, d, by decide, rfl, he, hs, by simpa [Stop.text] using hrest⟩

end

/-! ## A declaration and its copies -/

/-- All texts are passed over and leave no parenthesis open, except that the last one may leave
some open if `free` holds. -/
def Scan.AllEnd (free : Prop) : List Text → Prop
  | [] => True
  | [t] => start.Ends t 0 ∨ free ∧ ∃ d, start.Ends t d
  | t :: ts => start.Ends t 0 ∧ AllEnd free ts

/-- A value that can stand in a form instead of its own. -/
structure Form.Admits (x : Form) (value : Text) : Prop where
  trimmed : Trimmed value
  nil : value = [] → x.value = []
  plain : x.mark = [] → Statement.splitImportant value = (value, false)

namespace Form

/-- The conditions under which a declaration that became `new` and its copies are read from what was
written for them: the value of the declaration has no mark of its own where there is none, each
copy has its property and its importance and starts where a statement can start, and all forms
can be read over. -/
structure Lasting (x : Form) (indent : Text) (new : Declaration) (copies : List Text)
    (free : Prop) : Prop where
  plain : new.important = false → Statement.splitImportant new.value = (new.value, false)
  same : copies ≠ [] → new.property = trimBlank x.front ∧ new.important = !x.mark.isEmpty
  starts : copies ≠ [] → Masked (trimBlank x.front) → ¬ Separating indent
  ends : Scan.AllEnd free (x.base new :: copies.map fun v => (x.withValue v).core)

/-- The form of a copy. -/
def copy (x : Form) (indent value : Text) : Form :=
  { x.withValue value with lead := indent, trail := [] }

/-- The form of what is written over a declaration. -/
def revised (x : Form) (new : Declaration) : Form :=
  if new.property ≠ trimBlank x.front ∨ new.important ≠ !x.mark.isEmpty then
    { new.form with lead := x.lead }
  else { x.withValue new.value with trail := [] }

def withTrail (x : Form) (trail : Text) : Form := { x with trail := x.trail ++ trail }

variable {x : Form} {indent : Text} {new : Declaration}

theorem Fine.admits (hx : x.Fine) : x.Admits x.value := by
  refine ⟨hx.value, id, fun hnil => ?_⟩
  rcases hx.mark with ⟨hm, -⟩ | ⟨-, hv, -⟩
  · exact absurd hnil hm.ne_nil
  · exact hv

theorem Fine.withValue (hx : x.Fine) {v : Text} (hv : x.Admits v) : (x.withValue v).Fine := by
  refine { hx with value := hv.trimmed, mark := ?_ }
  rcases hx.mark with ⟨hm, hsharp⟩ | ⟨hm, -, hgap⟩
  · exact .inl ⟨hm, fun hnil => hsharp (hv.nil hnil)⟩
  · exact .inr ⟨hm, hv.plain hm, fun hnil => hgap (hv.nil hnil)⟩

theorem Fine.copy (hx : x.Fine) {v : Text} (hv : x.Admits v) (hi : Blank indent) :
    (x.copy indent v).Fine :=
  { hx.withValue hv with lead := hi, trail := blank_nil }

theorem Fine.withTrail (hx : x.Fine) {t : Text} (ht : Blank t) : (x.withTrail t).Fine :=
  { hx with trail := blank_append.mpr ⟨hx.trail, ht⟩ }

@[simp] theorem text_copy (x : Form) (indent v : Text) :
    (x.copy indent v).text = indent ++ (x.withValue v).core := by
  simp [copy, text, core]

@[simp] theorem text_withTrail (x : Form) (t : Text) : (x.withTrail t).text = x.text ++ t := by
  simp [withTrail, text, core]

theorem text_revised (x : Form) (new : Declaration) :
    (x.revised new).text = x.lead ++ x.base new := by
  unfold revised base
  split
  · have := new.text_form
    simp only [text, Declaration.lead_form, List.nil_append, core] at this ⊢
    rw [List.append_assoc, this]
  · simp [text, core, Form.withValue]

@[simp] theorem lead_revised (x : Form) (new : Declaration) : (x.revised new).lead = x.lead := by
  unfold revised
  split <;> rfl

@[simp] theorem value_revised (x : Form) (new : Declaration) :
    (x.revised new).value = new.value := by
  unfold revised
  split
  · exact new.value_form
  · rfl

/-- What a declaration may become: with its property or with another one that can be read, and with
a value that can stand in place of its own. -/
structure Allows (x : Form) (new : Declaration) : Prop where
  trimmed : Trimmed new.property
  colon : ':' ∉ new.property
  passes : ∃ s, Scan.start.run new.property = some s
  starts : new.property ≠ trimBlank x.front → ¬ Masked new.property
  value : x.Admits new.value

theorem front_revised (x : Form) {new : Declaration} (hp : Trimmed new.property) :
    trimBlank (x.revised new).front = new.property := by
  unfold revised
  split
  · rw [Declaration.front_form, trimBlank_eq_self hp]
  · rename_i hkeep
    simp only [ne_eq, not_or, not_not] at hkeep
    exact hkeep.1.symm

theorem bare_revised (x : Form) {new : Declaration} (hp : Trimmed new.property) :
    (x.revised new).bare = new.bare := by
  unfold revised
  split
  · exact new.bare_form hp
  · rename_i hkeep
    simp only [ne_eq, not_or, not_not] at hkeep
    simp only [bare, Declaration.bare, Form.withValue, hkeep]

theorem Fine.revised (hx : x.Fine) (hnew : x.Allows new)
    (hplain : new.important = false → Statement.splitImportant new.value = (new.value, false)) :
    (x.revised new).Fine := by
  unfold Form.revised
  split
  · exact { Declaration.form_fine hnew.trimmed.left hnew.colon hnew.value.trimmed hplain with
      lead := hx.lead }
  · exact { hx.withValue hnew.value with trail := blank_nil }

end Form

namespace Scan

theorem allEnd_cons_cons {free : Prop} {t u : Text} {ts : List Text} :
    AllEnd free (t :: u :: ts) ↔ start.Ends t 0 ∧ AllEnd free (u :: ts) := Iff.rfl

theorem allEnd_cons_congr {free : Prop} {t u : Text} {ts : List Text}
    (h : ∀ d, start.Ends t d ↔ start.Ends u d) :
    AllEnd free (t :: ts) ↔ AllEnd free (u :: ts) := by
  cases ts with
  | nil => simp only [AllEnd, h]
  | cons u ts => simp only [AllEnd, h]

theorem allEnd_of_forall (free : Prop) {ts : List Text} (h : ∀ t ∈ ts, start.Ends t 0) :
    AllEnd free ts := by
  induction ts with
  | nil => trivial
  | cons t ts ih =>
    obtain ⟨ht, hts⟩ := List.forall_mem_cons.mp h
    cases ts with
    | nil => exact .inl ht
    | cons u ts => exact ⟨ht, ih hts⟩

theorem allEnd_iff_of_not {free : Prop} (hfree : ¬ free) {ts : List Text} :
    AllEnd free ts ↔ ∀ t ∈ ts, start.Ends t 0 := by
  induction ts with
  | nil => simp [AllEnd]
  | cons t ts ih =>
    cases ts with
    | nil => simp [AllEnd, hfree]
    | cons u ts =>
      rw [AllEnd, ih, List.forall_mem_cons (a := t)]
      simp

end Scan

/-- What is read as a declaration has a form. -/
theorem exists_form_of_row {t : Text} {p : Place} {b : Declaration} {ss : List Statement}
    (h : (row p t).map Statement.bare = .declaration b :: ss) :
    ∃ x : Form, x.Fine ∧ x.bare = b := by
  induction hn : t.length using Nat.strong_induction_on generalizing p t with
  | _ n ih =>
    obtain ⟨q, u, hq, rfl, hrow⟩ := exists_fits_of_row h (by simp)
    have hlen : u.length < (q.text ++ u).length := by
      have := List.length_pos_iff.mpr (Passage.text_ne_nil hq)
      rw [List.length_append]
      omega
    cases q with
    | space c =>
      exact ih u.length (by omega) (by simpa [Passage.meaning] using hrow) rfl
    | comment body => cases (List.cons.inj hrow).1
    | closing => cases (List.cons.inj hrow).1
    | statement name raw stop =>
      cases name with
      | some name => cases stop <;> cases (List.cons.inj hrow).1
      | none =>
        obtain ⟨s, hs, hbare⟩ : ∃ s, (Passage.statement none raw stop).meaning p = some s ∧
            s.bare = .declaration b := by
          cases stop <;> exact ⟨_, rfl, (List.cons.inj hrow).1⟩
        obtain ⟨-, x, hx, -, hb⟩ := exists_form_of_meaning hs hbare
        exact ⟨x, hx, hb⟩

theorem Form.Fine.plain {x : Form} (hx : x.Fine) (h : x.bare.important = false) :
    Statement.splitImportant x.value = (x.value, false) := by
  rcases hx.mark with ⟨hm, -⟩ | ⟨-, hv, -⟩
  · simp [Form.bare, hm.ne_nil] at h
  · exact hv

section

variable {x : Form} {s : Scan} {indent : Text} {new : Declaration} {u : Text} {p : Place}
  {ss : List Statement}

/-- Copies in front of their semicolons. -/
theorem row_copies_iff (hx : x.Fine) (hrun : Scan.start.run (trimBlank x.front) = some s)
    (hi : Blank indent) {copies : List Text} (hc : ∀ v ∈ copies, x.Admits v) :
    (row p ((copies.flatMap fun v => indent ++ (x.withValue v).core ++ [';']) ++ u)).map
        Statement.bare = (copies.map fun v => .declaration (new.withValue v)) ++ ss ↔
      (∀ v ∈ copies, new.withValue v = (x.copy indent v).bare ∧
        (Masked (trimBlank x.front) → ¬ Separating indent) ∧
        Scan.start.Ends (x.withValue v).core 0) ∧
      (row (p.after (copies.flatMap fun v => indent ++ (x.withValue v).core ++ [';'])) u).map
        Statement.bare = ss := by
  induction copies generalizing p with
  | nil => simp
  | cons v copies ih =>
    have hform := @row_form_semicolon_iff _ s p (new.withValue v)
      ((copies.map fun v => .declaration (new.withValue v)) ++ ss)
      (hx.copy (hc v (by simp)) hi) hrun
      ((copies.flatMap fun v => indent ++ (x.withValue v).core ++ [';']) ++ u) rfl
    rw [Form.text_copy, Scan.ends_plain_append (Scan.isPlain_of_blank hi),
      ih fun w hw => hc w (by simp [hw])] at hform
    rw [List.flatMap_cons, List.append_assoc, List.map_cons, List.cons_append, hform,
      List.forall_mem_cons]
    simp only [Place.after_append]
    exact and_assoc.symm

/-- A form and copies with semicolons between them. -/
theorem row_chain_iff (hx : x.Fine) (hrun : Scan.start.run (trimBlank x.front) = some s)
    (hi : Blank indent) {copies : List Text} (hc : ∀ v ∈ copies, x.Admits v) {trail : Text}
    (ht : Blank trail) (hu : u = [] ∨ u.head? = some '}') {y : Form} (hy : y.Fine) {s' : Scan}
    (hrun' : Scan.start.run (trimBlank y.front) = some s') {b : Declaration}
    (hb : b.value = y.value) :
    (row p (y.text ++ (copies.flatMap fun v => ';' :: (indent ++ (x.withValue v).core)) ++ trail ++
        u)).map Statement.bare =
          .declaration b :: ((copies.map fun v => .declaration (new.withValue v)) ++ ss) ↔
      ((b = y.bare ∧ (Masked (trimBlank y.front) → ¬ Separating y.lead)) ∧
        (∀ v ∈ copies, new.withValue v = (x.copy indent v).bare ∧
          (Masked (trimBlank x.front) → ¬ Separating indent)) ∧
        Scan.AllEnd (u = []) (y.text :: copies.map fun v => (x.withValue v).core)) ∧
      (row (p.after (y.text ++
        (copies.flatMap fun v => ';' :: (indent ++ (x.withValue v).core)) ++ trail)) u).map
          Statement.bare = ss := by
  induction copies generalizing p y s' b with
  | nil =>
    have hform := @row_form_nothing_iff _ _ p b ss (hy.withTrail ht) hrun' u hu hb
    have hends : ∀ d, Scan.start.Ends (y.text ++ trail) d ↔ Scan.start.Ends y.text d := fun d =>
      Scan.ends_append_plain (Scan.isPlain_of_blank ht)
    have hlast : (∃ d, Scan.start.Ends (y.text ++ trail) d ∧ Stop.nothing.Fits d u) ↔
        Scan.AllEnd (u = []) [y.text] := by
      simp only [hends, Scan.AllEnd, Stop.Fits]
      constructor
      · rintro ⟨d, he, rfl | ⟨rfl, -⟩⟩
        · exact .inr ⟨rfl, d, he⟩
        · exact .inl he
      · rintro (he | ⟨rfl, d, he⟩)
        · exact ⟨0, he, hu.imp id fun h => ⟨rfl, h⟩⟩
        · exact ⟨d, he, .inl rfl⟩
    rw [Form.text_withTrail, hlast] at hform
    simp only [List.flatMap_nil, List.append_nil, List.map_nil, List.nil_append,
      List.not_mem_nil, false_implies, implies_true, true_and]
    rw [hform, and_assoc (a := b = y.bare)]
    rfl
  | cons v copies ih =>
    have htext : y.text ++
        ((v :: copies).flatMap fun v => ';' :: (indent ++ (x.withValue v).core)) ++ trail ++ u =
          y.text ++ [';'] ++ ((x.copy indent v).text ++
            (copies.flatMap fun v => ';' :: (indent ++ (x.withValue v).core)) ++ trail ++ u) := by
      simp
    have hplace : p.after (y.text ++
        ((v :: copies).flatMap fun v => ';' :: (indent ++ (x.withValue v).core)) ++ trail) =
        (p.after (y.text ++ [';'])).after ((x.copy indent v).text ++
          (copies.flatMap fun v => ';' :: (indent ++ (x.withValue v).core)) ++ trail) := by
      rw [← Place.after_append]
      simp
    have hrest := ih (p := p.after (y.text ++ [';'])) (fun w hw => hc w (by simp [hw]))
      (hx.copy (hc v (by simp)) hi) hrun (b := new.withValue v) rfl
    rw [htext, hplace, List.map_cons, List.cons_append,
      row_form_semicolon_iff hy hrun' hb, hrest,
      Scan.allEnd_cons_congr (u := (x.withValue v).core) fun d => by
        rw [Form.text_copy, Scan.ends_plain_append (Scan.isPlain_of_blank hi)],
      List.forall_mem_cons, List.map_cons, Scan.allEnd_cons_cons]
    constructor
    · rintro ⟨⟨hb, hmask, he⟩, ⟨hv, hcopies, hall⟩, hrow⟩
      exact ⟨⟨⟨hb, hmask⟩, ⟨hv, hcopies⟩, he, hall⟩, hrow⟩
    · rintro ⟨⟨⟨hb, hmask⟩, ⟨hv, hcopies⟩, he, hall⟩, hrow⟩
      exact ⟨⟨hb, hmask, he⟩, ⟨hv, hcopies, hall⟩, hrow⟩

/-- What is read as a declaration that is not important has no mark of importance in its value. -/
theorem plain_of_row {t : Text} {b : Declaration} (h : (row p t).map Statement.bare =
    .declaration b :: ss) (himportant : b.important = false) :
    Statement.splitImportant b.value = (b.value, false) := by
  obtain ⟨y, hy, rfl⟩ := exists_form_of_row h
  exact hy.plain himportant

/-- The conditions for a declaration and its copies, with those for the copies one by one. -/
theorem Form.lasting_iff {copies : List Text} {free : Prop}
    (hplain : new.important = false →
      Statement.splitImportant new.value = (new.value, false)) :
    x.Lasting indent new copies free ↔
      (∀ v ∈ copies, new.withValue v = (x.copy indent v).bare ∧
        (Masked (trimBlank x.front) → ¬ Separating indent)) ∧
      Scan.AllEnd free (x.base new :: copies.map fun v => (x.withValue v).core) := by
  have hcopy : ∀ v, new.withValue v = (x.copy indent v).bare ↔
      new.property = trimBlank x.front ∧ new.important = !x.mark.isEmpty := by
    intro v
    simp [Declaration.withValue, Form.bare, Form.copy, Form.withValue]
  constructor
  · rintro ⟨-, hsame, hmasked, hends⟩
    refine ⟨fun v hv => ?_, hends⟩
    have hne : copies ≠ [] := List.ne_nil_of_mem hv
    exact ⟨(hcopy v).mpr (hsame hne), hmasked hne⟩
  · rintro ⟨hall, hends⟩
    refine ⟨hplain, fun hne => ?_, fun hne => ?_, hends⟩
    · obtain ⟨v, hv⟩ := List.exists_mem_of_ne_nil _ hne
      exact (hcopy v).mp (hall v hv).1
    · obtain ⟨v, hv⟩ := List.exists_mem_of_ne_nil _ hne
      exact (hall v hv).2

/-- What was written for a declaration and its copies is read as the declaration that it became and
the copies if and only if the conditions for it hold. -/
theorem row_written_iff (hx : x.Fine) (hrun : Scan.start.run (trimBlank x.front) = some s)
    (hstarts : Masked (trimBlank x.front) → ¬ Separating x.lead) (hi : Blank indent) {stop : Stop}
    (hstop : stop ≠ .brace) (hnew : x.Allows new) {copies : List Text}
    (hc : ∀ v ∈ copies, x.Admits v) (hu : stop = .nothing → u = [] ∨ u.head? = some '}') :
    (row p (x.written indent new copies stop ++ u)).map Statement.bare =
        .declaration new.bare :: ((copies.map fun v => .declaration (new.withValue v)) ++ ss) ↔
      x.Lasting indent new copies (stop = .nothing ∧ u = []) ∧
        (row (p.after (x.written indent new copies stop)) u).map Statement.bare = ss := by
  by_cases hplain : new.important = false →
      Statement.splitImportant new.value = (new.value, false)
  swap
  · exact iff_of_false (fun h => hplain (plain_of_row (b := new.bare) h)) fun h => hplain h.1.plain
  have hy := hx.revised hnew hplain
  have hbare := (x.bare_revised hnew.trimmed).symm
  have hfront := x.front_revised hnew.trimmed
  have hvalue : new.bare.value = (x.revised new).value := (x.value_revised new).symm
  obtain ⟨s', hrun'⟩ := hnew.passes
  rw [← hfront] at hrun'
  -- the form of the declaration itself starts where the declaration started
  have hmask : Masked (trimBlank (x.revised new).front) → ¬ Separating (x.revised new).lead := by
    rw [hfront, Form.lead_revised]
    intro hm
    by_cases hkeep : new.property = trimBlank x.front
    · exact hstarts (hkeep ▸ hm)
    · exact absurd hm (hnew.starts hkeep)
  have hbase : ∀ d, Scan.start.Ends (x.revised new).text d ↔ Scan.start.Ends (x.base new) d := by
    intro d
    rw [Form.text_revised, Scan.ends_plain_append (Scan.isPlain_of_blank hx.lead)]
  rw [Form.lasting_iff hplain]
  cases stop with
  | brace => exact absurd rfl hstop
  | semicolon =>
    have hends : ∀ d, Scan.start.Ends ((x.revised new).withTrail x.trail).text d ↔
        Scan.start.Ends (x.base new) d := by
      intro d
      rw [Form.text_withTrail, Scan.ends_append_plain (Scan.isPlain_of_blank hx.trail), hbase]
    have htext : x.written indent new copies .semicolon =
        ((x.revised new).withTrail x.trail).text ++ [';'] ++
          copies.flatMap fun v => indent ++ (x.withValue v).core ++ [';'] := by
      simp [Form.written, Form.text_revised, Stop.text]
    rw [htext, List.append_assoc, row_form_semicolon_iff (hy.withTrail hx.trail) hrun' hvalue,
      hends, row_copies_iff hx hrun hi hc, Scan.allEnd_iff_of_not (by simp),
      List.forall_mem_cons, List.forall_mem_map]
    simp only [Place.after_append]
    constructor
    · rintro ⟨⟨-, -, he⟩, hall, hrow⟩
      exact ⟨⟨fun v hv => ⟨(hall v hv).1, (hall v hv).2.1⟩, he, fun v hv => (hall v hv).2.2⟩, hrow⟩
    · rintro ⟨⟨hall, he, hends⟩, hrow⟩
      exact ⟨⟨hbare, hmask, he⟩, fun v hv => ⟨(hall v hv).1, (hall v hv).2, hends v hv⟩, hrow⟩
  | nothing =>
    have htext : x.written indent new copies .nothing = (x.revised new).text ++
        (copies.flatMap fun v => ';' :: (indent ++ (x.withValue v).core)) ++ x.trail := by
      simp [Form.written, Form.text_revised]
    rw [htext, row_chain_iff hx hrun hi hc hx.trail (hu rfl) hy hrun' hvalue,
      Scan.allEnd_cons_congr hbase]
    simp only [true_and]
    constructor
    · rintro ⟨⟨-, hall, hends⟩, hrow⟩
      exact ⟨⟨hall, hends⟩, hrow⟩
    · rintro ⟨⟨hall, hends⟩, hrow⟩
      exact ⟨⟨⟨hbare, hmask⟩, hall, hends⟩, hrow⟩

end

/-! ## The other passages -/

/-- The start of a rule begins in front of any text. -/
theorem begins_brace {raw t u : Text} (h : Passage.Begins none (raw ++ '{' :: t)) :
    Passage.Begins none (raw ++ '{' :: u) := by
  cases raw with
  | nil =>
    obtain ⟨hblank, hsemi, hclose, hat, -⟩ := h
    exact ⟨hblank, hsemi, hclose, hat, by simp⟩
  | cons c raw =>
    obtain ⟨hblank, hsemi, hclose, hat, hcomment⟩ := h
    refine ⟨hblank, hsemi, hclose, hat, ?_⟩
    cases raw with
    | nil => simp
    | cons d raw => exact hcomment

/-- What a revision keeps is read in front of any text. -/
theorem row_kept {q : Passage} {p₀ : Place} (hk : ∀ s ∈ q.meaning p₀, s.isKept = true) {next : Text}
    (hq : q.Fits next) (p : Place) (t : Text) :
    (row p (q.text ++ t)).map Statement.bare =
      (q.meaning p₀).toList.map Statement.bare ++
        (row (p.after q.text) t).map Statement.bare := by
  cases q with
  | space c =>
    rw [Passage.row_text_append (q := .space c) (u := t) hq]
    rfl
  | comment body =>
    rw [Passage.row_text_append (q := .comment body) (u := t) hq]
    rfl
  | closing =>
    rw [Passage.row_text_append (q := .closing) trivial]
    rfl
  | statement name raw stop =>
    cases name with
    | some name =>
      cases stop with
      | brace => cases hk _ rfl
      | semicolon => cases hk _ rfl
      | nothing => cases hk _ rfl
    | none =>
      have body : ∀ {semicolon}, (Statement.ofBody none p₀ raw semicolon).isKept = false := by
        intro semicolon
        unfold Statement.ofBody
        dsimp only
        split <;> rfl
      cases stop with
      | brace =>
        obtain ⟨hb, hp, hs⟩ := hq
        have hb' : Passage.Begins none (raw ++ '{' :: t) := by
          refine begins_brace (t := next) ?_
          simpa [Stop.text] using hb
        have hfits : (Passage.statement none raw .brace).Fits t :=
          ⟨by simpa [Stop.text] using hb', hp, hs⟩
        rw [Passage.row_text_append hfits]
        rfl
      | semicolon =>
        have := hk _ rfl
        rw [Passage.sign, Place.after_nil, body] at this
        cases this
      | nothing =>
        have := hk _ rfl
        rw [Passage.sign, Place.after_nil, body] at this
        cases this

/-- A name ends in front of a raw text that does not go on with it. -/
theorem begins_name {name raw u : Text} {stop : Stop} {d : Nat}
    (hn : ∀ c ∈ name, Passage.isNameChar c = true)
    (hraw : ∀ c ∈ raw.head?, Passage.isNameChar c = false) (hs : stop.Fits d u) :
    Passage.Begins (some name) (raw ++ stop.text ++ u) := by
  refine ⟨hn, fun c hc => ?_⟩
  cases raw with
  | cons e raw => exact hraw c hc
  | nil =>
    have hterm := hs.head c hc
    have : c = ';' ∨ c = '{' ∨ c = '}' := by
      simpa [Scan.isTerminator, or_assoc] using hterm
    rcases this with rfl | rfl | rfl <;> rfl

/-- An at-rule is read off its name and its raw text. -/
theorem row_atRule {name raw : Text} {stop : Stop} {next : Text} {d : Nat}
    (hn : ∀ c ∈ name, Passage.isNameChar c = true)
    (hraw : ∀ c ∈ raw.head?, Passage.isNameChar c = false) (he : Scan.start.Ends raw d)
    (hs : stop.Fits d next) (p : Place) :
    (row p (Passage.sign (some name) ++ raw ++ stop.text ++ next)).map Statement.bare =
      (stop.atRule ⟨name, trimBlank raw, none⟩) ::
        (row (p.after (Passage.sign (some name) ++ raw ++ stop.text)) next).map Statement.bare := by
  rw [row_statement (begins_name hn hraw hs) he hs p]
  cases stop <;> rfl

@[simp] theorem bare_atRule (stop : Stop) (head : AtHead) :
    (stop.atRule head).bare = stop.atRule head.bare := by
  cases stop <;> rfl

/-- The new text goes on as the old one did. -/
theorem Spliced.next {before u : Text} {qs : List Passage} {cs : List Update}
    {ss : List Statement} (h : Spliced before qs cs ss u) (hv : Passage.Valid qs) :
    (Passage.joined qs = [] → u = []) ∧
      ((Passage.joined qs).head? = some '}' → u.head? = some '}') := by
  cases h with
  | nil => exact ⟨id, id⟩
  | @keep _ u q qs cs ss _ _ =>
    have hne := Passage.text_ne_nil hv.1
    obtain ⟨c, t, ht⟩ := List.exists_cons_of_ne_nil hne
    rw [Passage.joined_cons, ht]
    refine ⟨fun hnil => ?_, id⟩
    cases hnil
  | params => simp [Passage.text, Passage.sign]
  | @declaration _ u x stop old new copies qs cs ss =>
    obtain ⟨hb, -⟩ := hv.1
    have htext : Passage.joined (.statement none x.text stop :: qs) =
        x.text ++ stop.text ++ Passage.joined qs := rfl
    rw [htext]
    generalize x.text ++ stop.text ++ Passage.joined qs = t at hb
    cases t with
    | nil => cases hb
    | cons c t =>
      refine ⟨fun hnil => ?_, fun hc => absurd (by simpa using hc) hb.2.2.1⟩
      cases hnil

/-- Where a statement ended without a delimiter of its own, it does so in the new text. -/
theorem Spliced.stop {before u : Text} {qs : List Passage} {cs : List Update}
    {ss : List Statement} (h : Spliced before qs cs ss u) (hv : Passage.Valid qs) {stop : Stop}
    {d : Nat} (hs : stop.Fits d (Passage.joined qs)) : stop.Fits d u := by
  obtain ⟨hnil, hclose⟩ := h.next hv
  cases stop with
  | brace => exact hs
  | semicolon => exact hs
  | nothing => exact hs.imp hnil fun hs => ⟨hs.1, hclose hs.2⟩

/-- Where a declaration stands, it starts a statement. -/
theorem starts_of_fits {x : Form} (hx : x.Fine) {stop : Stop} {next : Text}
    (hq : (Passage.statement none x.text stop).Fits next) :
    (∃ s, Scan.start.run (trimBlank x.front) = some s) ∧
      (Masked (trimBlank x.front) → ¬ Separating x.lead) := by
  obtain ⟨hb, hp, -⟩ := hq
  obtain ⟨s, hrun, -⟩ := hx.ends_text.mp (Scan.ends_of_passes hp)
  refine ⟨⟨s, hrun⟩, fun hmask hsep => ?_⟩
  have hlead : x.lead = [] := by
    cases hl : x.lead with
    | nil => rfl
    | cons c lead =>
      rw [hl] at hsep
      have hc : isBlankAscii c = false := by
        rw [Form.text, hl] at hb
        exact hb.1
      rw [(separating_cons.mp hsep).1] at hc
      cases hc
  rw [Form.text, hlead, List.nil_append, List.append_assoc, List.append_assoc] at hb
  exact (hx.begins_core hrun _).mp hb hmask

end PixelScale.Stylesheet
