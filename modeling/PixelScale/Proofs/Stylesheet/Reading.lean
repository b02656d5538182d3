import PixelScale.Proofs.Stylesheet.Form
import PixelScale.Proofs.Stylesheet.Row

/-!
# Reading one statement

What the reader makes of the text of one statement in front of any other text, up to spans. A text
that is laid out as a declaration is read as that declaration unless its first characters give it
another meaning, its value ends the statement early, or its parentheses keep the statement from
ending. Nothing else can be read as the same declaration: a statement that ends elsewhere has
more or fewer delimiters in its value.

* `Masked`: texts that cannot start a statement.
* `row_declaration`: a form is read as its declaration.
* `ends_of_row_declaration`: what is read as a given declaration ends where its form ends.
* `ends_of_row_atStatement`: the same for at-rules without a block.
-/

namespace PixelScale.Stylesheet

open Text

/-- A text that would be taken for an at-rule or for a comment where a statement starts. -/
def Masked (t : Text) : Prop := t.head? = some '@' ∨ ['/', '*'] <+: t

instance (t : Text) : Decidable (Masked t) := inferInstanceAs (Decidable (_ ∨ _))

namespace Statement

/-- The selector or the property that a statement starts with. -/
def label? : Statement → Option Text
  | declaration d => some d.property
  | opening (.rule selector) _ => some selector
  | _ => none

@[simp] theorem label?_declaration (d : Declaration) :
    (declaration d).label? = some d.property := rfl

@[simp] theorem label?_rule (selector : Text) (line : Nat) :
    (opening (.rule selector) line).label? = some selector := rfl

@[simp] theorem label?_atRule (head : AtHead) (line : Nat) :
    (opening (.atRule head) line).label? = none := rfl

@[simp] theorem label?_atStatement (head : AtHead) : (atStatement head).label? = none := rfl

@[simp] theorem label?_comment (text : Text) : (comment text).label? = none := rfl

@[simp] theorem label?_closing (line : Nat) : (closing line).label? = none := rfl

@[simp] theorem label?_unlined (s : Statement) : s.unlined.label? = s.label? := by
  cases s with
  | opening head line => cases head <;> rfl
  | _ => rfl

end Statement

/-- A text of blanks that separate statements. -/
def Separating (t : Text) : Prop := ∀ c ∈ t, isBlankAscii c = true

@[simp] theorem separating_nil : Separating [] := by simp [Separating]

@[simp] theorem separating_cons {c : Char} {t : Text} :
    Separating (c :: t) ↔ isBlankAscii c = true ∧ Separating t := by
  simp [Separating]

@[simp] theorem separating_append {s t : Text} :
    Separating (s ++ t) ↔ Separating s ∧ Separating t := by
  simp only [Separating, List.mem_append, or_imp, forall_and]

/-- Blanks between statements are skipped. -/
theorem row_separating {b : Text} (hb : Separating b) (p : Place) (t : Text) :
    row p (b ++ t) = row (p.after b) t := by
  induction b generalizing p with
  | nil => rfl
  | cons c b ih =>
    obtain ⟨hc, hb⟩ := separating_cons.mp hb
    have := Passage.row_text_append (q := .space c) (u := b ++ t) (.inl hc) p
    simp only [Passage.text, Passage.meaning, Option.toList_none, List.nil_append] at this
    rw [List.cons_append, show c :: (b ++ t) = [c] ++ (b ++ t) from rfl, this, ih hb,
      ← Place.after_append]
    rfl

/-! ## How a statement begins -/

theorem isTerminator_of_run {c : Char} {t : Text} {s : Scan}
    (h : Scan.start.run (c :: t) = some s) : Scan.isTerminator c = false := by
  by_contra hc
  have hstep : Scan.start.step c = none :=
    Scan.step_eq_none_iff.mpr ⟨rfl, rfl, by simpa using hc⟩
  rw [Scan.run_cons, hstep] at h
  cases h

/-- A text that the reader passes over begins a statement unless it is masked. -/
theorem begins_append {t u : Text} {s : Scan} {c : Char} (hne : t ≠ []) (hsharp : SharpLeft t)
    (hrun : Scan.start.run t = some s) (hc : c ≠ '*') :
    Passage.Begins none (t ++ c :: u) ↔ ¬ Masked t := by
  obtain ⟨d, t, rfl⟩ := List.exists_cons_of_ne_nil hne
  have hterm := isTerminator_of_run hrun
  have hblank : isBlankAscii d = false := by
    cases hd : isBlankAscii d with
    | false => rfl
    | true =>
      have := isBlank_of_isBlankAscii hd
      rw [sharpLeft_cons.mp hsharp] at this
      cases this
  have hsemi : d ≠ ';' := by
    rintro rfl
    cases hterm
  have hclose : d ≠ '}' := by
    rintro rfl
    cases hterm
  have hstar : (t ++ c :: u).head? = some '*' ↔ t.head? = some '*' := by
    cases t <;> simp [hc]
  have hprefix : ['/', '*'] <+: d :: t ↔ d = '/' ∧ t.head? = some '*' := by
    cases t <;> simp [List.cons_prefix_cons, eq_comm]
  simp only [List.cons_append, Passage.Begins, hblank, hsemi, hclose, hstar, Masked, hprefix,
    List.head?_cons, Option.some.injEq, ne_eq, not_false_eq_true, true_and, not_or]

@[simp] theorem not_masked_nil : ¬ Masked [] := by simp [Masked]

theorem Masked.append {t : Text} (h : Masked t) (u : Text) : Masked (t ++ u) := by
  rcases h with h | h
  · exact .inl (by rw [List.head?_append, h]; rfl)
  · exact .inr (h.trans (List.prefix_append t u))

theorem begins_colon (u : Text) : Passage.Begins none (':' :: u) :=
  ⟨rfl, by decide, by decide, by decide, by simp⟩

/-- What follows the white space in front of a declaration begins a statement unless the property
is masked. -/
theorem Form.Fine.begins_core {x : Form} (hx : x.Fine) {s : Scan}
    (hrun : Scan.start.run (trimBlank x.front) = some s) (u : Text) :
    Passage.Begins none (x.core ++ u) ↔ ¬ Masked (trimBlank x.front) := by
  obtain ⟨b, hb, hfront⟩ := hx.exists_front
  have hcore : x.core ++ u =
      trimBlank x.front ++ (b ++ ':' :: (x.gap ++ x.value ++ x.mark ++ u)) := by
    rw [← List.append_assoc, ← hfront]
    simp [Form.core]
  rw [hcore]
  rcases eq_or_ne (trimBlank x.front) [] with hnil | hne
  · have hsharp := hx.front
    rw [hfront, hnil, List.nil_append] at hsharp
    rw [hnil, hb.eq_nil_of_sharpLeft hsharp]
    exact iff_of_true (begins_colon _) not_masked_nil
  · have hsharp := (trimmed_trimBlank x.front).left
    cases b with
    | nil => exact begins_append hne hsharp hrun (by decide)
    | cons c b =>
      have hc : c ≠ '*' := by
        rintro rfl
        exact absurd (blank_cons.mp hb).1 (by decide)
      exact begins_append hne hsharp hrun hc

/-- The first passage of a text that begins a statement is a statement. -/
theorem fits_of_begins {name : Option Text} {t : Text} (hb : Passage.Begins name t) {q : Passage}
    {u : Text} (hq : q.Fits u) (ht : Passage.sign name ++ t = q.text ++ u) :
    ∃ raw stop, q = .statement name raw stop := by
  cases name with
  | none =>
    cases t with
    | nil => cases hb
    | cons c t =>
      obtain ⟨hblank, hsemi, hclose, hat, hcomment⟩ := hb
      cases q with
      | space d =>
        obtain ⟨rfl, -⟩ : c = d ∧ t = u := by simpa [Passage.sign, Passage.text] using ht
        rcases hq with hd | hd
        · rw [hblank] at hd
          cases hd
        · exact absurd hd hsemi
      | comment body =>
        obtain ⟨rfl, rfl⟩ : c = '/' ∧ t = '*' :: (body ++ '*' :: '/' :: u) := by
          simpa [Passage.sign, Passage.text] using ht
        exact absurd ⟨rfl, rfl⟩ hcomment
      | closing =>
        obtain ⟨rfl, -⟩ : c = '}' ∧ t = u := by simpa [Passage.sign, Passage.text] using ht
        exact absurd rfl hclose
      | statement name raw stop =>
        cases name with
        | none => exact ⟨raw, stop, rfl⟩
        | some name =>
          obtain ⟨rfl, -⟩ : c = '@' ∧ _ := by simpa [Passage.sign, Passage.text] using ht
          exact absurd rfl hat
  | some name =>
    cases q with
    | space d =>
      obtain ⟨rfl, -⟩ : '@' = d ∧ _ := by simpa [Passage.sign, Passage.text] using ht
      rcases hq with hd | hd <;> cases hd
    | comment body => simp [Passage.sign, Passage.text] at ht
    | closing => simp [Passage.sign, Passage.text] at ht
    | statement name' raw stop =>
      cases name' with
      | none =>
        obtain ⟨hb', -⟩ := hq
        have ht' : raw ++ stop.text ++ u = '@' :: (name ++ t) := by
          simpa [Passage.sign, Passage.text] using ht.symm
        rw [ht'] at hb'
        exact absurd rfl hb'.2.2.2.1
      | some name' =>
        obtain ⟨hname, hhead⟩ := hb
        obtain ⟨⟨hname', hhead'⟩, -⟩ := hq
        have ht' : name ++ t = name' ++ (raw ++ stop.text ++ u) := by
          simpa [Passage.sign, Passage.text] using ht
        -- both names end where the first character stands that belongs to no name
        have take : ∀ {n r : Text}, (∀ c ∈ n, Passage.isNameChar c = true) →
            (∀ c ∈ r.head?, Passage.isNameChar c = false) →
            (n ++ r).takeWhile Passage.isNameChar = n := by
          intro n r hn hr
          rw [List.takeWhile_append_of_pos hn]
          cases r <;> simp_all
        have hsame : name = name' := by
          rw [← take hname hhead, ht', take hname' hhead']
        exact ⟨raw, stop, by rw [hsame]⟩

/-! ## Declarations -/

/-- The declaration that a form stands for, without its span. -/
def Form.bare (x : Form) : Declaration := ⟨trimBlank x.front, x.value, !x.mark.isEmpty, none⟩

/-- A statement is read off a text. -/
theorem row_statement {name : Option Text} {raw : Text} {stop : Stop} {next : Text} {d : Nat}
    (hb : Passage.Begins name (raw ++ stop.text ++ next)) (he : Scan.start.Ends raw d)
    (hs : stop.Fits d next) (p : Place) :
    row p (Passage.sign name ++ raw ++ stop.text ++ next) =
      ((Passage.statement name raw stop).meaning p).toList ++
        row (p.after (Passage.statement name raw stop).text) next := by
  obtain ⟨hp, rfl⟩ := Scan.passes_of_ends he
  exact Passage.row_text_append (q := .statement name raw stop) ⟨hb, hp, hs⟩ p

theorem Form.Fine.bare_ofBody {x : Form} (hx : x.Fine) (p : Place) (semicolon : Option Nat) :
    (Statement.ofBody none p x.text semicolon).bare = .declaration x.bare := by
  simp only [Statement.ofBody, hx.declaration?_text]
  rfl

/-- A form is read as its declaration. -/
theorem row_declaration {x : Form} (hx : x.Fine) {stop : Stop} (hstop : stop ≠ .brace)
    {next : Text} {d : Nat} (hb : Passage.Begins none (x.text ++ stop.text ++ next))
    (he : Scan.start.Ends x.text d) (hs : stop.Fits d next) (p : Place) :
    (row p (x.text ++ stop.text ++ next)).map Statement.bare =
      .declaration x.bare :: (row (p.after (x.text ++ stop.text)) next).map Statement.bare := by
  have h := row_statement hb he hs p
  simp only [Passage.sign, List.nil_append, Passage.text] at h
  rw [h]
  cases stop with
  | brace => exact absurd rfl hstop
  | semicolon => simp [Passage.meaning, Passage.sign, hx.bare_ofBody]
  | nothing => simp [Passage.meaning, Passage.sign, hx.bare_ofBody]

/-- What is read as a declaration has a form. -/
theorem exists_form_of_meaning {raw : Text} {stop : Stop} {p : Place} {s : Statement}
    {b : Declaration} (h : (Passage.statement none raw stop).meaning p = some s)
    (hs : s.bare = .declaration b) :
    stop ≠ .brace ∧ ∃ x : Form, x.Fine ∧ x.text = raw ∧ x.bare = b := by
  have body : ∀ semicolon, s = Statement.ofBody none p raw semicolon →
      ∃ x : Form, x.Fine ∧ x.text = raw ∧ x.bare = b := by
    rintro semicolon rfl
    cases hd : Statement.declaration? p raw semicolon with
    | error e => simp [Statement.ofBody, hd, Statement.bare] at hs
    | ok d =>
      obtain ⟨x, hx, rfl⟩ := Form.exists_form hd
      refine ⟨x, hx, rfl, ?_⟩
      rw [hx.bare_ofBody] at hs
      cases hs
      rfl
  cases stop with
  | brace =>
    cases h
    cases hs
  | semicolon =>
    cases h
    exact ⟨by decide, body _ rfl⟩
  | nothing =>
    cases h
    exact ⟨by decide, body _ rfl⟩

/-- What is read as a statement that can be read comes from the first passage. -/
theorem exists_fits_of_row {p : Place} {t : Text} {s : Statement} {ss : List Statement}
    (h : (row p t).map Statement.bare = s :: ss) (hs : ∀ e, s ≠ .bad e) :
    ∃ (q : Passage) (u : Text), q.Fits u ∧ t = q.text ++ u ∧
      (q.meaning p).toList.map Statement.bare ++
        (row (p.after q.text) u).map Statement.bare = s :: ss := by
  have hne : t ≠ [] := by
    rintro rfl
    simp at h
  rcases Passage.fits_or_bad hne with ⟨q, u, hq, rfl⟩ | hbad
  · refine ⟨q, u, hq, rfl, ?_⟩
    rw [Passage.row_text_append hq] at h
    simpa using h
  · obtain ⟨e, ss', hrow⟩ := hbad p
    rw [hrow] at h
    cases h
    exact absurd rfl (hs _)

/-- What is read as a declaration or as the start of a rule is not masked. -/
theorem not_masked_of_row {p : Place} {t : Text} {ss : List Statement} {s : Statement}
    (h : (row p t).map Statement.bare = s :: ss)
    (hs : s.label? ≠ none) : ¬ Masked t := by
  intro hmask
  obtain ⟨q, u, hq, rfl, hrow⟩ := exists_fits_of_row h (by
    rintro e rfl
    exact hs rfl)
  cases q with
  | space c =>
    have hc : isBlankAscii c = true ∨ c = ';' := hq
    rcases hmask with hm | hm
    · obtain rfl : c = '@' := by simpa [Passage.text] using hm
      simp [isBlankAscii] at hc
    · obtain ⟨rfl, -⟩ : '/' = c ∧ _ := by simpa [Passage.text, List.cons_prefix_cons] using hm
      simp [isBlankAscii] at hc
  | comment body =>
    obtain ⟨rfl, -⟩ : Statement.comment body = s ∧ _ := by
      simpa [Passage.meaning, Statement.bare] using hrow
    exact hs rfl
  | closing =>
    rcases hmask with hm | hm <;> simp [Passage.text] at hm
  | statement name raw stop =>
    cases name with
    | none =>
      obtain ⟨hb, -⟩ := hq
      have htext : (Passage.statement none raw stop).text ++ u = raw ++ stop.text ++ u := rfl
      rw [htext] at hmask
      generalize raw ++ stop.text ++ u = v at hb hmask
      cases v with
      | nil => exact hb
      | cons c v =>
        rcases hmask with hm | hm
        · exact hb.2.2.2.1 (by simpa using hm)
        · cases v with
          | nil => simp at hm
          | cons d v =>
            obtain ⟨rfl, rfl⟩ : '/' = c ∧ '*' = d := by simpa [List.cons_prefix_cons] using hm
            exact hb.2.2.2.2 ⟨rfl, rfl⟩
    | some name =>
      cases stop with
      | brace =>
        obtain ⟨rfl, -⟩ := List.cons.inj hrow
        exact hs rfl
      | semicolon =>
        obtain ⟨rfl, -⟩ := List.cons.inj hrow
        exact hs rfl
      | nothing =>
        obtain ⟨rfl, -⟩ := List.cons.inj hrow
        exact hs rfl

/-- Two texts in front of one text that goes on with a delimiter behind the first of them are the
same if they have the same delimiters. -/
theorem eq_of_count {a b u v : Text} (h : a ++ u = b ++ v)
    (hu : ∀ c ∈ u.head?, Scan.isTerminator c = true)
    (hv : ∀ c ∈ v.head?, Scan.isTerminator c = true)
    (hcount : ∀ c r, Scan.isTerminator c = true → a ≠ b ++ c :: r ∧ b ≠ a ++ c :: r) : a = b := by
  rcases List.append_eq_append_iff.mp h with ⟨r, hb, hu'⟩ | ⟨r, ha, hv'⟩
  · cases r with
    | nil => simpa using hb.symm
    | cons c r => exact absurd hb (hcount c r (hu c (by simp [hu']))).2
  · cases r with
    | nil => simpa using ha
    | cons c r => exact absurd ha (hcount c r (hv c (by simp [hv']))).1

theorem isPlain_of_isNameChar {c : Char} (h : Passage.isNameChar c = true) :
    Scan.isPlain c = true := by
  by_contra hp
  rcases Scan.of_isPlain_eq_false (by simpa using hp) with
    rfl | rfl | rfl | rfl | rfl | rfl | rfl | rfl | rfl | rfl <;>
    cases h

theorem isBlank_of_isNameChar {c : Char} (h : Passage.isNameChar c = true) : isBlank c = false := by
  have hc : c.toNat = 45 ∨ c.toNat = 95 ∨ 48 ≤ c.toNat ∧ c.toNat ≤ 122 := by
    simp only [Passage.isNameChar, Char.isAlphanum, Char.isAlpha, Char.isUpper, Char.isLower,
      Char.isDigit, Bool.or_eq_true, Bool.and_eq_true, decide_eq_true_eq, beq_iff_eq,
      UInt32.le_iff_toNat_le, ge_iff_le] at h
    rcases h with ((((h | h) | h) | rfl) | rfl)
    · exact .inr (.inr ⟨le_trans (by decide) h.1, le_trans h.2 (by decide)⟩)
    · exact .inr (.inr ⟨le_trans (by decide) h.1, le_trans h.2 (by decide)⟩)
    · exact .inr (.inr ⟨le_trans (by decide) h.1, le_trans h.2 (by decide)⟩)
    · exact .inl rfl
    · exact .inr (.inl rfl)
  simp only [isBlank, blanks, Ranges.has, List.any_cons, List.any_nil, Bool.or_false,
    Bool.or_eq_false_iff, Bool.and_eq_false_imp, decide_eq_true_eq, decide_eq_false_iff_not]
  omega

theorem isPlain_of_isTerminator {c : Char} (h : Scan.isTerminator c = true) :
    Scan.isPlain c = false := by
  simp [Scan.isPlain, h]

/-- What stops a statement is a delimiter. -/
theorem Stop.Fits.head {stop : Stop} {d : Nat} {u : Text} (h : stop.Fits d u) :
    ∀ c ∈ (stop.text ++ u).head?, Scan.isTerminator c = true := by
  intro c hc
  cases stop with
  | brace =>
    cases hc
    rfl
  | semicolon =>
    cases hc
    rfl
  | nothing =>
    rcases h with rfl | ⟨-, hclose⟩
    · cases hc
    · obtain rfl : '}' = c := by simpa [Stop.text, hclose] using hc
      rfl

/-- Of two forms with the same value, none goes on behind the other with a delimiter. -/
theorem Form.ne_append_terminator {x y : Form} (hx : x.Fine) (hy : y.Fine)
    (hvalue : y.value = x.value) {c : Char} (hc : Scan.isTerminator c = true) (r : Text) :
    x.text ≠ y.text ++ c :: r := by
  intro h
  have hcolon : ':' ∉ y.lead ++ y.front := by
    simp [Form.colon_not_mem_of_blank hy.lead, hy.colon]
  have hy' : y.text = (y.lead ++ y.front) ++ ':' :: (y.gap ++ y.value ++ y.mark ++ y.trail) := by
    simp [Form.text, Form.core]
  have hx' : x.text = (y.lead ++ y.front) ++
      ':' :: (y.gap ++ y.value ++ y.mark ++ y.trail ++ c :: r) := by
    rw [h, hy']
    simp
  have hplain := isPlain_of_isTerminator hc
  have h₁ := hy.count_value hcolon hy' hplain
  have h₂ := hx.count_value hcolon hx' hplain
  rw [List.count_append, List.count_cons_self, h₁, hvalue] at h₂
  omega

theorem Form.Fine.bare_eq {x y : Form} (hx : x.Fine) (hy : y.Fine) (h : x.text = y.text) :
    x.bare = y.bare := by
  have hxb := hx.bare_ofBody .start none
  rw [h, hy.bare_ofBody] at hxb
  exact (Statement.declaration.inj hxb).symm

/-- What is read as a declaration with the value of a form is the declaration of this form, and
it ends where the form ends. -/
theorem ends_of_row_declaration {x : Form} (hx : x.Fine) {u : Text}
    (hb : Passage.Begins none (x.text ++ u)) (hu : ∀ c ∈ u.head?, Scan.isTerminator c = true)
    {p : Place} {b : Declaration} (hvalue : b.value = x.value) {ss : List Statement}
    (h : (row p (x.text ++ u)).map Statement.bare = .declaration b :: ss) :
    b = x.bare ∧ ∃ stop next d, stop ≠ Stop.brace ∧ u = stop.text ++ next ∧
      Scan.start.Ends x.text d ∧ stop.Fits d next ∧
      (row (p.after (x.text ++ stop.text)) next).map Statement.bare = ss := by
  obtain ⟨q, next, hq, htext, hrow⟩ := exists_fits_of_row h (by simp)
  obtain ⟨raw, stop, rfl⟩ := fits_of_begins hb hq htext
  obtain ⟨-, hp, hs⟩ := hq
  obtain ⟨s, hs', hbare⟩ : ∃ s, (Passage.statement none raw stop).meaning p = some s ∧
      s.bare = .declaration b ∧
      (row (p.after (raw ++ stop.text)) next).map Statement.bare = ss := by
    cases stop <;>
    · refine ⟨_, rfl, ?_⟩
      simpa [Passage.meaning, Passage.text, Passage.sign] using hrow
  obtain ⟨hstop, y, hy, rfl, rfl⟩ := exists_form_of_meaning hs' hbare.1
  have hvalue' : y.value = x.value := hvalue
  have htext' : x.text ++ u = y.text ++ (stop.text ++ next) := by
    simpa [Passage.sign, Passage.text] using htext
  have heq : x.text = y.text := eq_of_count htext' hu hs.head fun c r hc =>
    ⟨Form.ne_append_terminator hx hy hvalue' hc r,
      Form.ne_append_terminator hy hx hvalue'.symm hc r⟩
  refine ⟨hy.bare_eq hx heq.symm, ?_⟩
  rw [heq] at htext' ⊢
  exact ⟨stop, next, _, hstop, List.append_cancel_left htext', Scan.ends_of_passes hp, hs, hbare.2⟩

/-! ## At-rules without a block -/

/-- The parameters of an at-rule are read off its raw text. -/
theorem Statement.bare_atHead (name : Text) (p : Place) (raw : Text) :
    (Statement.atHead name p raw).bare = ⟨name, trimBlank raw, none⟩ := rfl

theorem count_trimBlank (t : Text) {c : Char} (hc : Scan.isPlain c = false) :
    (trimBlank t).count c = t.count c := by
  obtain ⟨a, b, ha, hb, heq, -⟩ := exists_frame t
  conv => rhs; rw [heq]
  simp [Scan.count_plain (Scan.isPlain_of_blank ha) hc,
    Scan.count_plain (Scan.isPlain_of_blank hb) hc]

/-- What is read as an at-rule without a block ends where its parameters end. -/
theorem ends_of_row_atStatement {name raw u : Text}
    (hb : Passage.Begins (some name) (raw ++ u))
    (hu : ∀ c ∈ u.head?, Scan.isTerminator c = true) {p : Place} {ss : List Statement}
    (h : (row p (Passage.sign (some name) ++ raw ++ u)).map Statement.bare =
      .atStatement ⟨name, trimBlank raw, none⟩ :: ss) :
    ∃ stop next d, stop ≠ Stop.brace ∧ u = stop.text ++ next ∧ Scan.start.Ends raw d ∧
      stop.Fits d next ∧
      (row (p.after (Passage.sign (some name) ++ raw ++ stop.text)) next).map Statement.bare =
        ss := by
  obtain ⟨q, next, hq, htext, hrow⟩ := exists_fits_of_row h (by simp)
  rw [List.append_assoc] at htext
  obtain ⟨raw', stop, rfl⟩ := fits_of_begins hb hq htext
  obtain ⟨-, hp, hs⟩ := hq
  obtain ⟨hstop, hparams, hrest⟩ : stop ≠ .brace ∧ trimBlank raw' = trimBlank raw ∧
      (row (p.after (Passage.sign (some name) ++ raw' ++ stop.text)) next).map Statement.bare =
        ss := by
    cases stop with
    | brace => simp [Passage.meaning, Statement.bare] at hrow
    | semicolon =>
      simpa [Passage.meaning, Passage.text, Statement.ofBody, Statement.bare,
        Statement.bare_atHead] using hrow
    | nothing =>
      simpa [Passage.meaning, Passage.text, Statement.ofBody, Statement.bare,
        Statement.bare_atHead] using hrow
  have htext' : raw ++ u = raw' ++ (stop.text ++ next) := by
    simpa [Passage.text] using htext
  have hne : ∀ {a b : Text}, trimBlank a = trimBlank b → ∀ c r, Scan.isTerminator c = true →
      a ≠ b ++ c :: r := by
    intro a b hab c r hc heq
    have hplain := isPlain_of_isTerminator hc
    have hcount := count_trimBlank a hplain
    rw [hab, count_trimBlank b hplain, heq, List.count_append, List.count_cons_self] at hcount
    omega
  have heq : raw = raw' := eq_of_count htext' hu hs.head fun c r hc =>
    ⟨hne hparams.symm c r hc, hne hparams c r hc⟩
  rw [heq] at htext' ⊢
  exact ⟨stop, next, _, hstop, List.append_cancel_left htext', Scan.ends_of_passes hp, hs, hrest⟩

end PixelScale.Stylesheet
