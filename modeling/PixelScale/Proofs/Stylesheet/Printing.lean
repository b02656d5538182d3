import PixelScale.Proofs.Stylesheet.Reading
import PixelScale.Stylesheet.Printer

/-!
# Reading printed stylesheets

The printed form of a tree spells the statements of the tree one after another, each with the same
spaces, and separates them by line feeds and indentation. Printing a tree that was read therefore
gives a text with this tree again, unless one of two things happens. A statement that ran into the
end of the text inside of a parenthesis takes in what is printed behind it. And a selector or a
property that looks like an at-rule or a comment, and was not taken for one because white space
stood in front of it that does not separate statements, is taken for one without it.

* `Spelled`: a text that spells a row of statements.
* `row_print_iff`: when one printed statement is read as itself.
* `parse_print_iff`: when the printed form of a tree has this tree.
-/

namespace PixelScale.Stylesheet

open Text

/-! ## Selectors and properties of a tree -/

namespace Node

mutual

/-- The selectors of the rules of a node, in document order. -/
def selectors : Node → List Text
  | rule selector nodes => selector :: selectorsList nodes
  | atRule _ nodes => selectorsList nodes
  | atStatement _ => []
  | declaration _ => []
  | comment _ => []

def selectorsList : List Node → List Text
  | [] => []
  | n :: ns => selectors n ++ selectorsList ns

end

end Node

namespace Statement

/-- A statement as it is printed. -/
def print : Statement → Text
  | comment text => "/*".toList ++ text ++ "*/".toList
  | declaration d => d.print ++ [';']
  | atStatement head => head.print ++ [';']
  | opening (.rule selector) _ => selector ++ " \x7b".toList
  | opening (.atRule head) _ => head.print ++ " \x7b".toList
  | closing _ => "\x7d".toList
  | bad _ => []

theorem print_unlined (s : Statement) : s.unlined.print = s.print := by
  cases s with
  | opening head line => cases head <;> rfl
  | _ => rfl

end Statement

namespace Node

open Statement

mutual

theorem labels_statements (n : Node) :
    ∀ l, (∃ s ∈ n.statements, s.label? = some l) ↔
      l ∈ n.selectors ∨ ∃ d ∈ n.declarations, d.property = l := by
  intro l
  cases n with
  | rule selector nodes =>
    have ih := labels_statementsList nodes l
    simp [statements, selectors, declarations, or_assoc, ih, eq_comm (a := selector)]
  | atRule head nodes =>
    have ih := labels_statementsList nodes l
    simp [statements, selectors, declarations, ih]
  | atStatement head => simp [statements, selectors, declarations]
  | declaration d => simp [statements, selectors, declarations]
  | comment text => simp [statements, selectors, declarations]

/-- The labels of the statements of a tree are its selectors and properties. -/
theorem labels_statementsList (ns : List Node) :
    ∀ l, (∃ s ∈ statementsList ns, s.label? = some l) ↔
      l ∈ selectorsList ns ∨ ∃ d ∈ declarationsList ns, d.property = l := by
  intro l
  cases ns with
  | nil => simp [statementsList, selectorsList, declarationsList]
  | cons n ns =>
    have hn := labels_statements n l
    have hns := labels_statementsList ns l
    simp only [statementsList, selectorsList, declarationsList, List.mem_append, or_and_right,
      exists_or, hn, hns]
    exact or_or_or_comm

end

end Node

/-! ## Spelling -/

/-- A text that spells statements one after another, with blanks around them. -/
inductive Spelled : List Statement → Text → Prop
  | nil {b : Text} : Separating b → Spelled [] b
  | cons {s : Statement} {ss : List Statement} {b t : Text} :
      Separating b → Spelled ss t → Spelled (s :: ss) (b ++ (s.print ++ t))

theorem Spelled.blanks {ss : List Statement} {b t : Text} (hb : Separating b) (h : Spelled ss t) :
    Spelled ss (b ++ t) := by
  cases h with
  | nil hb' => exact .nil (separating_append.mpr ⟨hb, hb'⟩)
  | cons hb' h' =>
    rw [← List.append_assoc]
    exact .cons (separating_append.mpr ⟨hb, hb'⟩) h'

theorem Spelled.append {ss ss' : List Statement} {t t' : Text} (h : Spelled ss t)
    (h' : Spelled ss' t') : Spelled (ss ++ ss') (t ++ t') := by
  induction h with
  | nil hb => exact h'.blanks hb
  | cons hb _ ih =>
    rw [List.append_assoc, List.append_assoc]
    exact .cons hb ih

theorem spelled_line {s : Statement} {b : Text} (hb : Separating b) :
    Spelled [s] (b ++ s.print ++ ['\n']) := by
  rw [List.append_assoc]
  exact .cons hb (.nil (by simp [isBlankAscii]))

namespace Node

theorem separating_indent (depth : Nat) : Separating (indent depth) := by
  intro c hc
  rw [(List.mem_replicate.mp hc).2]
  rfl

mutual

theorem spelled_print (depth : Nat) (n : Node) : Spelled n.statements (n.print depth) := by
  have hi := separating_indent depth
  cases n with
  | rule selector nodes =>
    have := ((spelled_line (s := .opening (.rule selector) 0) hi).append
      (spelled_printList (depth + 1) nodes)).append (spelled_line (s := .closing 0) hi)
    simpa [print, statements, Statement.print] using this
  | atRule head nodes =>
    have := ((spelled_line (s := .opening (.atRule head) 0) hi).append
      (spelled_printList (depth + 1) nodes)).append (spelled_line (s := .closing 0) hi)
    simpa [print, statements, Statement.print] using this
  | atStatement head =>
    have := spelled_line (s := .atStatement head) hi
    simpa [print, statements, Statement.print] using this
  | declaration d =>
    have := spelled_line (s := .declaration d) hi
    simpa [print, statements, Statement.print] using this
  | comment text =>
    have := spelled_line (s := .comment text) hi
    simpa [print, statements, Statement.print] using this

theorem spelled_printList (depth : Nat) (ns : List Node) :
    Spelled (statementsList ns) (printList depth ns) := by
  cases ns with
  | nil => exact .nil separating_nil
  | cons n ns => exact (spelled_print depth n).append (spelled_printList depth ns)

end

theorem spelled_printTop (last : Option Node) (ns : List Node) :
    Spelled (statementsList ns) (printTop last ns) := by
  induction ns generalizing last with
  | nil => exact .nil separating_nil
  | cons n ns ih =>
    rw [printTop, statementsList]
    refine Spelled.append (Spelled.blanks ?_ (spelled_print 0 n)) (ih (some n))
    split <;> simp [isBlankAscii]

end Node

/-- The printed form of a sheet spells its statements. -/
theorem spelled_sheet (s : Stylesheet) : Spelled (Node.statementsList s.nodes) s.print :=
  Node.spelled_printTop none s.nodes

/-! ## The form of printed declarations -/

/-- The form in which a declaration is printed. Where there is no value, the blank behind the
colon is not in front of anything. -/
def Declaration.form (d : Declaration) : Form :=
  if d.value = [] then
    if d.important then ⟨[], d.property, "  ".toList, [], "!important".toList, []⟩
    else ⟨[], d.property, [], [], [], " ".toList⟩
  else ⟨[], d.property, " ".toList, d.value, d.mark, []⟩

namespace Declaration

variable (d : Declaration)

theorem text_form : d.form.text = d.print := by
  unfold form
  split
  · rename_i hv
    split <;> simp_all [Form.text, Form.core, print, mark]
  · simp [Form.text, Form.core, print]

@[simp] theorem front_form : d.form.front = d.property := by
  unfold form
  split
  · split <;> rfl
  · rfl

@[simp] theorem value_form : d.form.value = d.value := by
  unfold form
  split
  · rename_i hv
    split <;> exact hv.symm
  · rfl

@[simp] theorem lead_form : d.form.lead = [] := by
  unfold form
  split
  · split <;> rfl
  · rfl

theorem core_form (u : Text) : d.form.text ++ u = d.form.core ++ (d.form.trail ++ u) := by
  simp [Form.text]

variable {d}

/-- A declaration is read from its printed form if its parts could have been read. -/
theorem form_fine (hp : SharpLeft d.property) (hc : ':' ∉ d.property) (hv : Trimmed d.value)
    (hi : d.important = false → Statement.splitImportant d.value = (d.value, false)) :
    d.form.Fine := by
  have one : Blank " ".toList := by decide
  have two : Blank "  ".toList := by decide
  have word : SharpLeft "!important".toList := by decide
  unfold form
  split
  · split
    · exact ⟨blank_nil, hp, hc, two, trimmed_nil, .inl ⟨isMark_bare, fun _ => word⟩, blank_nil⟩
    · exact ⟨blank_nil, hp, hc, blank_nil, trimmed_nil, .inr ⟨rfl, rfl, fun _ => rfl⟩, one⟩
  · rename_i hne
    refine ⟨blank_nil, hp, hc, one, hv, ?_, blank_nil⟩
    cases h : d.important with
    | true =>
      refine .inl ⟨?_, fun hnil => absurd hnil hne⟩
      rw [mark, if_pos h]
      exact isMark_print
    | false => exact .inr ⟨by simp [mark, h], hi h, fun hnil => absurd hnil hne⟩

theorem bare_form (hp : Trimmed d.property) : d.form.bare = d.bare := by
  have hmark : (!d.form.mark.isEmpty) = d.important := by
    unfold form mark
    cases d.important <;> split <;> rfl
  rw [Form.bare, front_form, value_form, trimBlank_eq_self hp, hmark]
  rfl

end Declaration

/-- What is read from a form is printed in a form with the same parts. -/
theorem Form.Fine.form_bare {x : Form} (hx : x.Fine) :
    x.bare.form.Fine ∧ x.bare.form.bare = x.bare := by
  refine ⟨Declaration.form_fine (trimmed_trimBlank _).left ?_ hx.value ?_,
    Declaration.bare_form (trimmed_trimBlank _)⟩
  · intro hc
    obtain ⟨a, b, -, -, heq, -⟩ := exists_frame x.front
    refine hx.colon ?_
    rw [heq]
    simp [show ':' ∈ trimBlank x.front from hc]
  · intro himp
    rcases hx.mark with ⟨hm, -⟩ | ⟨-, hv, -⟩
    · simp [bare, hm.ne_nil] at himp
    · exact hv

theorem Form.Fine.ends_print {x : Form} (hx : x.Fine) {d : Nat} :
    Scan.start.Ends x.bare.print d ↔ Scan.start.Ends x.text d := by
  rw [← Declaration.text_form, hx.form_bare.1.ends_text, hx.ends_text, Declaration.front_form,
    Declaration.value_form, bare, trimBlank_eq_self (trimmed_trimBlank x.front)]

/-! ## What is known of a statement that was read -/

/-- What a statement can be that was read from a text, with the number of parentheses that it
leaves open. -/
inductive Statement.Readable : Statement → Nat → Prop
  | comment {body : Text} :
      Passage.endComment? (body ++ ['*', '/']) = some (body, []) → Readable (.comment body) 0
  | closing {line : Nat} : Readable (.closing line) 0
  | rule {selector : Text} {line : Nat} :
      Trimmed selector → Scan.start.Ends selector 0 → Readable (.opening (.rule selector) line) 0
  | atRule {head : AtHead} {line : Nat} :
      (∀ c ∈ head.name, Passage.isNameChar c = true) → Trimmed head.params →
      Scan.start.Ends head.params 0 → Readable (.opening (.atRule head) line) 0
  | declaration {x : Form} {b : Declaration} {d : Nat} :
      x.Fine → Scan.start.Ends x.text d → b.bare = x.bare → Readable (.declaration b) d
  | atStatement {head : AtHead} {d : Nat} :
      (∀ c ∈ head.name, Passage.isNameChar c = true) → Trimmed head.params →
      Scan.start.Ends head.params d → Readable (.atStatement head) d

theorem readable_ofBody {name : Option Text} {raw : Text} {d : Nat} (p : Place)
    (semicolon : Option Nat) (he : Scan.start.Ends raw d)
    (hn : ∀ n ∈ name, ∀ c ∈ n, Passage.isNameChar c = true)
    (hbad : ∀ e, Statement.ofBody name p raw semicolon ≠ .bad e) :
    (Statement.ofBody name p raw semicolon).Readable d := by
  cases name with
  | some name =>
    exact .atStatement (hn name rfl) (trimmed_trimBlank raw) (Scan.ends_trimBlank.mpr he)
  | none =>
    cases hd : Statement.declaration? p raw semicolon with
    | error e => exact absurd (by simp [Statement.ofBody, hd]) (hbad e)
    | ok b =>
      obtain ⟨x, hx, rfl⟩ := Form.exists_form hd
      simp only [Statement.ofBody, hx.declaration?_text]
      exact .declaration hx he rfl

/-- What a fitting passage stands for could be read. -/
theorem readable_meaning {q : Passage} {u : Text} (hq : q.Fits u) {p : Place} {s : Statement}
    (hs : q.meaning p = some s) (hbad : ∀ e, s ≠ .bad e) : s.Readable q.depth := by
  cases q with
  | space c => cases hs
  | comment body =>
    cases hs
    exact .comment hq
  | closing =>
    cases hs
    exact .closing
  | statement name raw stop =>
    obtain ⟨hb, hp, hstop⟩ := hq
    have he := Scan.ends_of_passes hp
    have hn : ∀ n ∈ name, ∀ c ∈ n, Passage.isNameChar c = true := by
      rintro n rfl
      exact hb.1
    cases stop with
    | brace =>
      cases hs
      have hd : (Scan.start.halt raw).depth = 0 := hstop
      rw [hd] at he
      rw [show (Passage.statement name raw .brace).depth = 0 from hd]
      cases name with
      | none => exact .rule (trimmed_trimBlank raw) (Scan.ends_trimBlank.mpr he)
      | some name =>
        exact .atRule (hn name rfl) (trimmed_trimBlank raw) (Scan.ends_trimBlank.mpr he)
    | semicolon =>
      cases hs
      exact readable_ofBody _ _ he hn hbad
    | nothing =>
      cases hs
      exact readable_ofBody _ _ he hn hbad

/-! ## Reading one printed statement -/

section

variable {p : Place} {t : Text} {ss : List Statement}

/-- The start of a rule is read as such unless its selector is masked. -/
theorem row_print_rule {selector : Text} (ht : Trimmed selector)
    (he : Scan.start.Ends selector 0) :
    (row p (selector ++ " \x7b".toList ++ t)).map Statement.bare =
        .opening (.rule selector) 0 :: ss ↔
      ¬ Masked selector ∧
        (row (p.after (selector ++ " \x7b".toList)) t).map Statement.bare = ss := by
  have hread : ¬ Masked selector →
      (row p (selector ++ " \x7b".toList ++ t)).map Statement.bare =
        .opening (.rule selector) 0 ::
          (row (p.after (selector ++ " \x7b".toList)) t).map Statement.bare := by
    intro hmask
    rcases eq_or_ne selector [] with rfl | hne
    · have hskip := row_separating (b := [' ']) (by simp [isBlankAscii]) p ('{' :: t)
      have hbrace := @row_statement none [] .brace t 0
        (by simp [Stop.text, Passage.Begins, isBlankAscii]) he rfl (p.after [' '])
      simp only [Passage.sign, Passage.text, Stop.text, List.nil_append, List.cons_append,
        ← Place.after_append] at hskip hbrace
      rw [show [] ++ " \x7b".toList ++ t = ' ' :: '{' :: t from rfl, hskip, hbrace]
      rfl
    · obtain ⟨s, hrun, -⟩ := id he
      have hb : Passage.Begins none (selector ++ [' '] ++ Stop.brace.text ++ t) := by
        simpa [Stop.text] using
          (begins_append (u := '{' :: t) hne ht.left hrun (by decide)).mpr hmask
      have hends : Scan.start.Ends (selector ++ [' ']) 0 :=
        (Scan.ends_append_plain (by simp; decide)).mpr he
      have := row_statement hb hends rfl p
      simp [Passage.sign, Passage.text, Stop.text] at this
      rw [show selector ++ " \x7b".toList ++ t = selector ++ ' ' :: '{' :: t by simp, this]
      have htrim : trimBlank (selector ++ [' ']) = selector := by
        simpa using trimBlank_frame blank_nil ht (by decide : Blank [' '])
      simp [Passage.meaning, Statement.ofHead, Statement.bare, Head.bare, Passage.sign, htrim]
  constructor
  · intro h
    have hmask : ¬ Masked selector := fun hm =>
      not_masked_of_row h (by simp) ((hm.append _).append t)
    rw [hread hmask] at h
    exact ⟨hmask, (List.cons.inj h).2⟩
  · rintro ⟨hmask, rfl⟩
    exact hread hmask

/-- An at-rule is printed as its name and a raw text with the same parameters. -/
theorem exists_print_atHead (head : AtHead) :
    ∃ raw, head.print = Passage.sign (some head.name) ++ raw ∧
      trimBlank raw = trimBlank head.params ∧
      (∀ c ∈ raw.head?, Passage.isNameChar c = false) ∧
      ∀ d, Scan.start.Ends raw d ↔ Scan.start.Ends head.params d := by
  rcases eq_or_ne head.params [] with hnil | hne
  · refine ⟨[], by simp [AtHead.print, Passage.sign, hnil], by rw [hnil], by simp, fun d => ?_⟩
    rw [hnil]
  · refine ⟨' ' :: head.params, by simp [AtHead.print, Passage.sign, hne], ?_, ?_, fun d => ?_⟩
    · rw [trimBlank_eq, trimBlank_eq, show ' ' :: head.params = [' '] ++ head.params from rfl,
        trimBlankLeft_blank_append (by decide)]
    · intro c hc
      cases hc
      decide
    · exact Scan.ends_plain_append (t := [' ']) (by simp; decide)

/-- The start of an at-rule is read as such. -/
theorem row_print_atRule {head : AtHead} (hn : ∀ c ∈ head.name, Passage.isNameChar c = true)
    (hp : Trimmed head.params) (he : Scan.start.Ends head.params 0) :
    (row p (head.print ++ " \x7b".toList ++ t)).map Statement.bare =
      .opening (.atRule head.bare) 0 ::
        (row (p.after (head.print ++ " \x7b".toList)) t).map Statement.bare := by
  obtain ⟨raw, hprint, htrim, hhead, hends⟩ := exists_print_atHead head
  have hb : Passage.Begins (some head.name) (raw ++ [' '] ++ Stop.brace.text ++ t) := by
    refine ⟨hn, fun c hc => ?_⟩
    cases raw with
    | nil =>
      cases hc
      decide
    | cons d raw => exact hhead c hc
  have he' : Scan.start.Ends (raw ++ [' ']) 0 :=
    (Scan.ends_append_plain (by simp; decide)).mpr ((hends 0).mpr he)
  have hparams : trimBlank (raw ++ [' ']) = head.params := by
    obtain ⟨a, b, ha, hb, heq, -⟩ := exists_frame raw
    rw [htrim, trimBlank_eq_self hp] at heq
    rw [heq, List.append_assoc]
    exact trimBlank_frame ha hp (blank_append.mpr ⟨hb, by decide⟩)
  have hrow := row_statement hb he' rfl p
  have hleft : Passage.sign (some head.name) ++ (raw ++ [' ']) ++ Stop.brace.text ++ t =
      head.print ++ " \x7b".toList ++ t := by
    simp [hprint, Stop.text]
  have htext : (Passage.statement (some head.name) (raw ++ [' ']) .brace).text =
      head.print ++ " \x7b".toList := by
    simp [hprint, Passage.text, Stop.text]
  rw [hleft, htext] at hrow
  rw [hrow]
  simp only [Passage.meaning, Option.toList_some, List.cons_append, List.nil_append, List.map_cons,
    Statement.ofHead, Statement.bare, Head.bare, Statement.bare_atHead, hparams]
  rfl

/-- An at-rule without a block is read as such unless it leaves a parenthesis open. -/
theorem row_print_atStatement {head : AtHead} (hn : ∀ c ∈ head.name, Passage.isNameChar c = true)
    (hp : Trimmed head.params) :
    (row p (head.print ++ [';'] ++ t)).map Statement.bare = .atStatement head.bare :: ss ↔
      Scan.start.Ends head.params 0 ∧
        (row (p.after (head.print ++ [';'])) t).map Statement.bare = ss := by
  obtain ⟨raw, hprint, htrim, hhead, hends⟩ := exists_print_atHead head
  rw [trimBlank_eq_self hp] at htrim
  have hb : Passage.Begins (some head.name) (raw ++ Stop.semicolon.text ++ t) := by
    refine ⟨hn, fun c hc => ?_⟩
    cases raw with
    | nil =>
      cases hc
      decide
    | cons d raw => exact hhead c hc
  rw [hprint]
  constructor
  · intro h
    have h' : (row p (Passage.sign (some head.name) ++ raw ++ (';' :: t))).map Statement.bare =
        .atStatement ⟨head.name, trimBlank raw, none⟩ :: ss := by
      rw [htrim, List.append_cons]
      exact h
    obtain ⟨stop, next, d, -, hu, he, hs, hrow⟩ := ends_of_row_atStatement
      (by simpa [Stop.text] using hb) (by simp [Scan.isTerminator]) h'
    cases stop with
    | brace => cases hu
    | semicolon =>
      cases hu
      obtain rfl : d = 0 := hs
      exact ⟨(hends 0).mp he, by simpa [Stop.text] using hrow⟩
    | nothing =>
      rcases hs with rfl | ⟨-, hclose⟩
      · cases hu
      · rw [← show ';' :: t = next from hu] at hclose
        cases hclose
  · rintro ⟨he, rfl⟩
    have hrow := row_statement hb ((hends 0).mpr he) rfl p
    simp only [Passage.text, Stop.text] at hrow
    rw [hrow]
    simp only [Passage.meaning, Option.toList_some, List.cons_append, List.nil_append,
      List.map_cons, Statement.ofBody, Statement.bare, Statement.bare_atHead, htrim]
    rfl

/-- A declaration is read as such unless its property is masked or it leaves a parenthesis open. -/
theorem row_print_declaration {x : Form} (hx : x.Fine) {d : Nat} (he : Scan.start.Ends x.text d) :
    (row p (x.bare.print ++ [';'] ++ t)).map Statement.bare = .declaration x.bare :: ss ↔
      (d = 0 ∧ ¬ Masked x.bare.property) ∧
        (row (p.after (x.bare.print ++ [';'])) t).map Statement.bare = ss := by
  obtain ⟨hy, hyx⟩ := hx.form_bare
  have hends := hx.ends_print.mpr he
  have htext := x.bare.text_form
  have hbegins : ∀ u, Passage.Begins none (x.bare.print ++ u) ↔ ¬ Masked x.bare.property := by
    intro u
    rw [← htext] at hends
    obtain ⟨s, hrun, -⟩ := hy.ends_text.mp hends
    rw [← htext, Declaration.core_form, hy.begins_core hrun, Declaration.front_form, Form.bare,
      trimBlank_eq_self (trimmed_trimBlank x.front)]
  constructor
  · intro h
    have hmask : ¬ Masked x.bare.property := by
      intro hm
      refine not_masked_of_row h (by simp) ?_
      simp only [Declaration.print, List.append_assoc]
      exact hm.append _
    have h' : (row p (x.bare.form.text ++ (';' :: t))).map Statement.bare =
        .declaration x.bare.form.bare :: ss := by
      rw [htext, hyx]
      simpa using h
    obtain ⟨-, stop, next, e, -, hu, he', hs, hrow⟩ := ends_of_row_declaration hy
      (by rw [htext, hbegins]; exact hmask) (by simp [Scan.isTerminator]) rfl h'
    rw [htext] at he' hrow
    obtain rfl := hends.unique he'
    cases stop with
    | brace => cases hu
    | semicolon =>
      cases hu
      exact ⟨⟨hs, hmask⟩, by simpa [Stop.text] using hrow⟩
    | nothing =>
      rcases hs with rfl | ⟨-, hclose⟩
      · cases hu
      · rw [← show ';' :: t = next from hu] at hclose
        cases hclose
  · rintro ⟨⟨rfl, hmask⟩, rfl⟩
    have hrow := @row_declaration _ hy .semicolon (by decide) t 0
      (by rw [htext, List.append_assoc, hbegins]; exact hmask) (by rwa [htext]) rfl p
    rw [htext, hyx] at hrow
    exact hrow

/-- When a statement is read from its printed form: it left no parenthesis open where it stood, and
what it starts with is not masked. -/
theorem row_print_iff {s : Statement} {d : Nat} (hs : s.Readable d) :
    (row p (s.print ++ t)).map Statement.bare = s.bare :: ss ↔
      (d = 0 ∧ ∀ l ∈ s.label?, ¬ Masked l) ∧
        (row (p.after s.print) t).map Statement.bare = ss := by
  cases hs with
  | @comment body hbody =>
    have hrow := Passage.row_text_append (q := .comment body) (u := t) hbody p
    have htext : (Statement.comment body).print = (Passage.comment body).text := by
      simp [Statement.print, Passage.text]
    rw [htext, hrow]
    simp [Passage.meaning, Statement.bare]
  | @closing line =>
    have hrow := Passage.row_text_append (q := .closing) (u := t) trivial p
    rw [show (Statement.closing line).print = Passage.closing.text from rfl, hrow]
    simp [Passage.meaning, Statement.bare]
  | @rule selector line ht he =>
    have hiff := @row_print_rule p t ss _ ht he
    simpa [Statement.print, Statement.bare, Head.bare] using hiff
  | @atRule head line hn hp he =>
    have hrow := row_print_atRule (p := p) (t := t) hn hp he
    rw [show (Statement.opening (.atRule head) line).print = head.print ++ " \x7b".toList from rfl,
      hrow]
    simp [Statement.bare, Head.bare]
  | @declaration x b d hx he hb =>
    have hiff := @row_print_declaration p t ss _ hx _ he
    have hlabel : (∀ l ∈ (Statement.declaration b).label?, ¬ Masked l) ↔
        ¬ Masked x.bare.property := by
      rw [← hb]
      simp [Declaration.bare]
    rw [hlabel]
    rw [← hb] at hiff ⊢
    exact hiff
  | @atStatement head d hn hp he =>
    have hiff := @row_print_atStatement p t ss _ hn hp
    have hzero : Scan.start.Ends head.params 0 ↔ d = 0 := ⟨fun h => he.unique h, fun h => h ▸ he⟩
    have hlabel : ∀ l ∈ (Statement.atStatement head).label?, ¬ Masked l := by simp
    rw [hzero] at hiff
    rw [and_iff_left hlabel]
    exact hiff

end

/-! ## Reading a printed sheet -/

/-- When a row of passages is read again from a text that spells its statements. -/
theorem row_spelled_iff {qs : List Passage} (hv : Passage.Valid qs) {p₀ : Place}
    (hbad : ∀ e, .bad e ∉ Passage.meanings p₀ qs) {t : Text}
    (ht : Spelled ((Passage.meanings p₀ qs).map Statement.unlined) t) (p : Place) :
    (row p t).map Statement.bare = (Passage.meanings p₀ qs).map Statement.bare ↔
      (∀ q ∈ qs, q.depth = 0) ∧
        ∀ s ∈ Passage.meanings p₀ qs, ∀ l ∈ s.label?, ¬ Masked l := by
  induction qs generalizing p₀ t p with
  | nil =>
    generalize hss : (Passage.meanings p₀ []).map Statement.unlined = ss at ht
    cases ht with
    | nil hb =>
      have hrow := row_separating hb p []
      rw [List.append_nil, row_nil] at hrow
      simp [hrow, Passage.meanings]
    | cons => cases hss
  | cons q qs ih =>
    obtain ⟨hq, hqs⟩ := hv
    cases hm : q.meaning p₀ with
    | none =>
      have hmeanings : Passage.meanings p₀ (q :: qs) = Passage.meanings (p₀.after q.text) qs := by
        simp [Passage.meanings, hm]
      have hdepth : q.depth = 0 := by
        cases q with
        | statement name raw stop => cases stop <;> cases hm
        | _ => rfl
      rw [hmeanings] at hbad ht ⊢
      rw [ih hqs hbad ht p]
      simp [hdepth]
    | some s =>
      have hmeanings : Passage.meanings p₀ (q :: qs) =
          s :: Passage.meanings (p₀.after q.text) qs := by
        simp [Passage.meanings, hm]
      rw [hmeanings] at hbad ht ⊢
      simp only [List.mem_cons, not_or, forall_and] at hbad
      have hread := readable_meaning hq hm fun e he => hbad.1 e he.symm
      generalize hss : (s :: Passage.meanings (p₀.after q.text) qs).map Statement.unlined = ss
        at ht
      cases ht with
      | nil => cases hss
      | @cons s' ss' b t' hb ht' =>
        obtain ⟨rfl, rfl⟩ := List.cons.inj hss
        rw [row_separating hb, s.print_unlined, List.map_cons, row_print_iff hread, ih hqs hbad.2 ht']
        simp only [List.mem_cons, forall_eq_or_imp]
        tauto

namespace Node

mutual

theorem print_bare (depth : Nat) (n : Node) : n.bare.print depth = n.print depth := by
  cases n with
  | rule selector nodes => simp only [bare, print, printList_bareList]
  | atRule head nodes => simp only [bare, print, printList_bareList]; rfl
  | _ => rfl

theorem printList_bareList (depth : Nat) (ns : List Node) :
    printList depth (bareList ns) = printList depth ns := by
  cases ns with
  | nil => rfl
  | cons n ns => simp only [bareList, printList, print_bare, printList_bareList]

end

theorem printTop_bareList (last : Option Node) (ns : List Node) :
    printTop (last.map bare) (bareList ns) = printTop last ns := by
  have isBlock_bare : ∀ n : Node, n.bare.isBlock = n.isBlock := fun n => by cases n <;> rfl
  induction ns generalizing last with
  | nil => rfl
  | cons n ns ih =>
    have := ih (some n)
    simp only [Option.map_some] at this
    cases last <;> simp [bareList, printTop, this, print_bare, isBlock_bare]

end Node

/-- The printed form does not depend on spans. -/
theorem Same.print_eq {s t : Stylesheet} (h : s.Same t) : s.print = t.print := by
  have hnodes : Node.bareList s.nodes = Node.bareList t.nodes := congrArg Stylesheet.nodes h
  have hs := Node.printTop_bareList none s.nodes
  rw [Option.map_none, hnodes] at hs
  exact hs.symm.trans (Node.printTop_bareList none t.nodes)

/-- The printed form of a tree has this tree, and is its own printed form, if and only if no
statement of the text ended inside of a parenthesis and no selector and no property is masked. -/
theorem parse_print_iff {css : Text} {t : Stylesheet} (h : parse css = .ok t) :
    (∃ s, parse t.print = .ok s ∧ s.Same t ∧ s.print = t.print) ↔
      (∀ q ∈ Passage.ofText css, q.depth = 0) ∧
        (∀ selector ∈ Node.selectorsList t.nodes, ¬ Masked selector) ∧
        ∀ d ∈ t.declarations, ¬ Masked d.property := by
  obtain ⟨hsource, hrow, hbad⟩ := parse_ok h
  obtain ⟨-, hvalid, hmeanings⟩ := Passage.ofText_spec hbad
  rw [hmeanings] at hrow hbad
  have hspelled := spelled_sheet t
  rw [hrow] at hspelled
  have hlabels : (∀ s ∈ Passage.meanings .start (Passage.ofText css), ∀ l ∈ s.label?, ¬ Masked l) ↔
      (∀ selector ∈ Node.selectorsList t.nodes, ¬ Masked selector) ∧
        ∀ d ∈ t.declarations, ¬ Masked d.property := by
    have := Node.labels_statementsList t.nodes
    rw [hrow] at this
    simp only [List.mem_map, exists_exists_and_eq_and, Statement.label?_unlined] at this
    constructor
    · intro hs
      refine ⟨fun l hl => ?_, fun d hd => ?_⟩
      · obtain ⟨s, hmem, hlabel⟩ := (this l).mpr (.inl hl)
        exact hs s hmem l hlabel
      · obtain ⟨s, hmem, hlabel⟩ := (this d.property).mpr (.inr ⟨d, hd, rfl⟩)
        exact hs s hmem _ hlabel
    · rintro ⟨hsel, hdecl⟩ s hmem l hlabel
      rcases (this l).mp ⟨s, hmem, hlabel⟩ with hl | ⟨d, hd, rfl⟩
      · exact hsel l hl
      · exact hdecl d hd
  have hunlined : (Node.statementsList t.nodes).map Statement.bare =
      (Passage.meanings .start (Passage.ofText css)).map Statement.bare := by
    rw [hrow, Statement.map_bare_unlined]
  rw [← hlabels, ← row_spelled_iff hvalid hbad hspelled .start, ← hunlined, ← exists_same_iff]
  constructor
  · rintro ⟨s, hs, hsame, -⟩
    exact ⟨s, hs, congrArg Stylesheet.nodes hsame⟩
  · rintro ⟨s, hs, hnodes⟩
    have hsame : s.Same t := by
      simp only [Same, bare, hnodes, (parse_ok hs).1, hsource]
    exact ⟨s, hs, hsame, hsame.print_eq⟩

/-- A parenthesis that stays open takes in the semicolon that is printed behind it. -/
theorem parse_print_parenthesis :
    (∃ t, parse "top: (1px)".toList = .ok t ∧
      ∃ s, parse t.print = .ok s ∧ s.Same t ∧ s.print = t.print) ∧
    ∃ t, parse "top: (1px".toList = .ok t ∧
      ¬ ∃ s, parse t.print = .ok s ∧ s.Same t ∧ s.print = t.print := by
  have hclosed : parse "top: (1px)".toList = .ok ⟨none, [.declaration
      ⟨"top".toList, "(1px)".toList, false, some ⟨0, 5, 10, 10, none⟩⟩]⟩ := by
    cbv
  have hopen : parse "top: (1px".toList = .ok ⟨none, [.declaration
      ⟨"top".toList, "(1px".toList, false, some ⟨0, 5, 9, 9, none⟩⟩]⟩ := by
    cbv
  have hpassages : Passage.ofText "top: (1px)".toList =
      [.statement none "top: (1px)".toList .nothing] := by
    cbv
  have hpassages' : Passage.ofText "top: (1px".toList =
      [.statement none "top: (1px".toList .nothing] := by
    cbv
  refine ⟨⟨_, hclosed, (parse_print_iff hclosed).mpr ⟨?_, ?_, ?_⟩⟩, _, hopen, fun h => ?_⟩
  · rw [hpassages]
    exact List.forall_mem_singleton.mpr (by decide)
  · intro selector hs
    cases hs
  · exact List.forall_mem_singleton.mpr (by decide)
  · have := ((parse_print_iff hopen).mp h).1
    rw [hpassages'] at this
    exact absurd (this _ List.mem_cons_self) (by decide)

end PixelScale.Stylesheet
