import PixelScale.Proofs.Stylesheet.Joining

/-!
# Reading on behind a text

Behind a text whose last statement is closed, reading goes on as if the text were not there. All of
its blocks are closed, so what follows is read at the top again, and whether that succeeds does not
depend on the nodes in front. Only places count what is in front: a span its bytes, and the line of
an error its line feeds.

A text that is not closed has no such law. With `top: 1px` in front, the text `a { }` is not read as
a rule but goes on with the declaration.

* `Node.ofStatementsIn_append`: behind a row with a tree, reading goes on with that tree.
* `Node.ofStatementsIn_shift_error`: an error is found again further on.
* `parse_closed_append`: what becomes of a text, or of its error, behind a closed one.
-/

namespace PixelScale.Stylesheet

namespace Node

/-- Behind a row that has a tree, reading goes on with that tree. -/
theorem ofStatementsIn_append {frames : List Frame} {earlier ns : List Node} {ss : List Statement}
    (h : ofStatementsIn frames earlier ss = .ok ns) (ts : List Statement) :
    ofStatementsIn frames earlier (ss ++ ts) = ofStatementsIn [] ns.reverse ts := by
  fun_induction ofStatementsIn frames earlier ss with
  | case1 earlier =>
    cases h
    rw [List.reverse_reverse, List.nil_append]
  | case2 => cases h
  | case7 => cases h
  | case9 => cases h
  | _ =>
    rename_i ih
    rw [List.cons_append, ofStatementsIn]
    exact ih h

/-- An error is found again further on, whatever nodes are in front. -/
theorem ofStatementsIn_shift_error {front : Place} {frames frames' : List Frame}
    {earlier : List Node} {ss : List Statement} {e : SyntaxError}
    (hlines : frames'.map Frame.line = frames.map fun frame => front.feeds + frame.line)
    (h : ofStatementsIn frames earlier ss = .error e) (earlier' : List Node) :
    ofStatementsIn frames' earlier' (ss.map (Statement.shift front)) =
      .error (e.shift front.feeds) := by
  fun_induction ofStatementsIn frames earlier ss generalizing frames' earlier' with
  | case1 => cases h
  | case2 frame frames earlier =>
    cases h
    obtain ⟨frame', frames', rfl, hline, -⟩ := List.map_eq_cons_iff.mp hlines
    rw [List.map_nil, ofStatementsIn, hline]
    rfl
  | case3 frames earlier ss text ih =>
    rw [List.map_cons, Statement.shift, ofStatementsIn]
    exact ih hlines h _
  | case4 frames earlier ss d ih =>
    rw [List.map_cons, Statement.shift, ofStatementsIn]
    exact ih hlines h _
  | case5 frames earlier ss head ih =>
    rw [List.map_cons, Statement.shift, ofStatementsIn]
    exact ih hlines h _
  | case6 frames earlier ss head line ih =>
    rw [List.map_cons, Statement.shift, ofStatementsIn]
    apply ih _ h
    rw [List.map_cons, List.map_cons, hlines]
  | case7 earlier ss line =>
    cases h
    rw [List.map_eq_nil_iff.mp hlines, List.map_cons, Statement.shift, ofStatementsIn]
    rfl
  | case8 earlier ss line frame frames ih =>
    obtain ⟨frame', frames', rfl, -, hrest⟩ := List.map_eq_cons_iff.mp hlines
    rw [List.map_cons, Statement.shift, ofStatementsIn]
    exact ih hrest h _
  | case9 frames earlier ss e' =>
    cases h
    rw [List.map_cons, Statement.shift, ofStatementsIn]

end Node

section

variable {a b : Text} {s : Stylesheet}

theorem feeds_after_start (t : Text) : (Place.start.after t).feeds = t.count '\n' := by
  simp [Place.after, Place.start]

theorem ofStatements_of_parse (ha : parse a = .ok s) :
    Node.ofStatementsIn [] [] (row .start a) = .ok s.nodes := by
  rw [parse_eq] at ha
  cases hns : Node.ofStatements (row .start a) with
  | ok ns =>
    rw [hns] at ha
    cases ha
    exact hns
  | error e =>
    rw [hns] at ha
    cases ha

theorem ofStatements_of_parse_error {e : SyntaxError} (hb : parse b = .error e) :
    Node.ofStatementsIn [] [] (row .start b) = .error e := by
  rw [parse_eq] at hb
  cases hns : Node.ofStatements (row .start b) with
  | ok ns =>
    rw [hns] at hb
    cases hb
  | error e' =>
    rw [hns] at hb
    cases hb
    exact hns

/-- An error of a text is the error behind a closed one, on a later line. -/
theorem parse_append_error {e : SyntaxError} (ha : parse a = .ok s) (hclosed : Closed a)
    (hb : parse b = .error e) : parse (a ++ b) = .error (e.shift (a.count '\n')) := by
  have hread : Node.ofStatements (row .start (a ++ b)) = .error (e.shift (a.count '\n')) := by
    rw [Node.ofStatements, row_append ha hclosed b,
      Node.ofStatementsIn_append (ofStatements_of_parse ha), ← feeds_after_start]
    exact Node.ofStatementsIn_shift_error rfl (ofStatements_of_parse_error hb) _
  rw [parse_eq, hread]
  rfl

/-- Behind a text whose last statement is closed, a text is read as it is alone: its nodes follow,
moved by the bytes in front, or its error is the error, moved by the line feeds in front. -/
theorem parse_closed_append (ha : parse a = .ok s) (hclosed : Closed a) (b : Text) :
    (∀ t, parse b = .ok t →
      parse (a ++ b) = .ok ⟨none, s.nodes ++ Node.shiftList a.bytes t.nodes⟩) ∧
    ∀ e, parse b = .error e → parse (a ++ b) = .error (e.shift (a.count '\n')) :=
  ⟨fun _ hb => parse_append ha hb hclosed, fun _ hb => parse_append_error ha hclosed hb⟩

/-- Behind a rule on two lines, a second rule and a statement without a colon. -/
theorem parse_closed_append_rule :
    parse ("a \x7b\n \x7d".toList ++ "é \x7b top: 1px; \x7d".toList) =
      .ok ⟨none, [.rule "a".toList [], .rule "é".toList [.declaration
        ⟨"top".toList, "1px".toList, false, some ⟨11, 16, 19, 19, some 19⟩⟩]]⟩ ∧
    parse ("a \x7b\n \x7d".toList ++ "\n oops;".toList) =
      .error (.missingColon 3 "oops".toList) := by
  have ha : parse "a \x7b\n \x7d".toList = .ok ⟨none, [.rule "a".toList []]⟩ := by
    cbv
  have hclosed : Closed "a \x7b\n \x7d".toList := by
    have hpassages : Passage.ofText "a \x7b\n \x7d".toList =
        [.statement none "a ".toList .brace, .space '\n', .space ' ', .closing] := by
      cbv
    rw [Closed, hpassages]
    intro q hq
    cases hq
    rfl
  constructor
  · have hb : parse "é \x7b top: 1px; \x7d".toList = .ok ⟨none, [.rule "é".toList [.declaration
        ⟨"top".toList, "1px".toList, false, some ⟨5, 10, 13, 13, some 13⟩⟩]]⟩ := by
      cbv
    exact (parse_closed_append ha hclosed _).1 _ hb
  · exact (parse_closed_append ha hclosed _).2 (.missingColon 2 "oops".toList) (by cbv)

end

end PixelScale.Stylesheet
