import PixelScale.Proofs.Stylesheet.Passage
import PixelScale.Stylesheet.Parser

/-!
# Trees and rows of statements

A tree stands for a row of statements, and reading that row gives the tree back. So a text has a
given tree exactly if its statements are those of the tree, and this can be checked statement by
statement, without regard to blocks. Lines and spans differ between the text and the tree and are
left out of the comparison.

* `ofStatements_statementsList`: reading the row of a tree.
* `parse_ok`: the statements of a text with a tree are those of the tree.
* `exists_same_iff`: a text has a given tree up to spans if and only if its statements are those of
  the tree up to spans and lines.
-/

namespace PixelScale.Stylesheet

open Text

namespace Head

/-- What a block belongs to, without spans. -/
def bare : Head → Head
  | rule selector => rule selector
  | atRule head => atRule head.bare

end Head

namespace Statement

/-- A statement without its line. -/
def unlined : Statement → Statement
  | opening head _ => opening head 0
  | closing _ => closing 0
  | s => s

/-- A statement without its line and its spans. Statements that cannot be read are not told
apart. -/
def bare : Statement → Statement
  | comment text => comment text
  | declaration d => declaration d.bare
  | atStatement head => atStatement head.bare
  | opening head _ => opening head.bare 0
  | closing _ => closing 0
  | bad _ => bad (.unclosedBlock 0)

@[simp] theorem bare_unlined (s : Statement) : s.unlined.bare = s.bare := by
  cases s <;> rfl

theorem map_bare_unlined (ss : List Statement) :
    (ss.map unlined).map bare = ss.map bare := by
  rw [List.map_map]
  exact List.map_congr_left fun s _ => bare_unlined s

end Statement

namespace Node

open Statement

theorem exists_declaration_or (n : Node) :
    (∃ d, n = .declaration d) ∨ ∀ d, n ≠ .declaration d := by
  cases n with
  | declaration d => exact .inl ⟨d, rfl⟩
  | _ => exact .inr fun _ => nofun

/-! ## The row of a tree -/

mutual

theorem statements_bare (n : Node) : n.bare.statements = n.statements.map Statement.bare := by
  cases n with
  | rule selector nodes =>
    simp [Node.bare, statements, Statement.bare, Head.bare, statementsList_bareList nodes]
  | atRule head nodes =>
    simp [Node.bare, statements, Statement.bare, Head.bare, statementsList_bareList nodes]
  | atStatement head => rfl
  | declaration d => rfl
  | comment text => rfl

theorem statementsList_bareList (ns : List Node) :
    statementsList (bareList ns) = (statementsList ns).map Statement.bare := by
  cases ns with
  | nil => rfl
  | cons n ns =>
    simp [bareList, statementsList, statements_bare n, statementsList_bareList ns]

end

mutual

/-- The row of a node has no lines, and no statement in it that cannot be read. -/
theorem unlined_of_mem_statements (n : Node) :
    ∀ s ∈ n.statements, s.unlined = s ∧ ∀ e, s ≠ .bad e := by
  intro s hs
  cases n with
  | rule selector nodes =>
    simp only [statements, List.mem_cons, List.mem_append, List.not_mem_nil, or_false] at hs
    rcases hs with rfl | hs | rfl
    · simp [unlined]
    · exact unlined_of_mem_statementsList nodes s hs
    · simp [unlined]
  | atRule head nodes =>
    simp only [statements, List.mem_cons, List.mem_append, List.not_mem_nil, or_false] at hs
    rcases hs with rfl | hs | rfl
    · simp [unlined]
    · exact unlined_of_mem_statementsList nodes s hs
    · simp [unlined]
  | atStatement head =>
    obtain rfl := List.mem_singleton.mp hs
    simp [unlined]
  | declaration d =>
    obtain rfl := List.mem_singleton.mp hs
    simp [unlined]
  | comment text =>
    obtain rfl := List.mem_singleton.mp hs
    simp [unlined]

theorem unlined_of_mem_statementsList (ns : List Node) :
    ∀ s ∈ statementsList ns, s.unlined = s ∧ ∀ e, s ≠ .bad e := by
  cases ns with
  | nil => simp [statementsList]
  | cons n ns =>
    intro s hs
    rcases List.mem_append.mp hs with hs | hs
    · exact unlined_of_mem_statements n s hs
    · exact unlined_of_mem_statementsList ns s hs

end

theorem statementsList_append (ns ms : List Node) :
    statementsList (ns ++ ms) = statementsList ns ++ statementsList ms := by
  induction ns with
  | nil => rfl
  | cons n ns ih => simp [statementsList, ih]

/-! ## Reading the row of a tree -/

mutual

theorem ofStatementsIn_statements (n : Node) (frames : List Frame) (earlier : List Node)
    (rest : List Statement) :
    ofStatementsIn frames earlier (n.statements ++ rest) =
      ofStatementsIn frames (n :: earlier) rest := by
  cases n with
  | rule selector nodes =>
    simp only [statements, List.cons_append, List.append_assoc, ofStatementsIn]
    rw [ofStatementsIn_statementsList nodes]
    simp [ofStatementsIn, Head.node]
  | atRule head nodes =>
    simp only [statements, List.cons_append, List.append_assoc, ofStatementsIn]
    rw [ofStatementsIn_statementsList nodes]
    simp [ofStatementsIn, Head.node]
  | atStatement head => simp [statements, ofStatementsIn]
  | declaration d => simp [statements, ofStatementsIn]
  | comment text => simp [statements, ofStatementsIn]

theorem ofStatementsIn_statementsList (ns : List Node) (frames : List Frame) (earlier : List Node)
    (rest : List Statement) :
    ofStatementsIn frames earlier (statementsList ns ++ rest) =
      ofStatementsIn frames (ns.reverse ++ earlier) rest := by
  cases ns with
  | nil => rfl
  | cons n ns =>
    simp only [statementsList, List.append_assoc]
    rw [ofStatementsIn_statements n, ofStatementsIn_statementsList ns]
    simp

end

/-- Reading the row of a tree gives the tree. -/
theorem ofStatements_statementsList (ns : List Node) :
    ofStatements (statementsList ns) = .ok ns := by
  have := ofStatementsIn_statementsList ns [] [] []
  simpa [ofStatements, ofStatementsIn] using this

theorem statementsList_injective {ns ms : List Node}
    (h : statementsList ns = statementsList ms) : ns = ms := by
  have := ofStatements_statementsList ns
  rw [h, ofStatements_statementsList ms] at this
  cases this
  rfl

/-- The statements that were read up to a point inside of the given frames. -/
def context : List Frame → List Node → List Statement
  | [], earlier => statementsList earlier.reverse
  | frame :: frames, earlier =>
    context frames frame.earlier ++ .opening frame.head 0 :: statementsList earlier.reverse

theorem context_cons (frames : List Frame) (n : Node) (earlier : List Node) :
    context frames (n :: earlier) = context frames earlier ++ n.statements := by
  cases frames <;> simp [context, statementsList_append, statementsList]

/-- What was read and what is still to be read make up the row of the tree. -/
theorem statementsList_of_ofStatementsIn {frames : List Frame} {earlier : List Node}
    {ss : List Statement} {ns : List Node} (h : ofStatementsIn frames earlier ss = .ok ns) :
    statementsList ns = context frames earlier ++ ss.map unlined := by
  fun_induction ofStatementsIn frames earlier ss with
  | case1 earlier =>
    cases h
    simp [context]
  | case2 => cases h
  | case3 frames earlier ss text ih => simpa [context_cons, statements, unlined] using ih h
  | case4 frames earlier ss d ih => simpa [context_cons, statements, unlined] using ih h
  | case5 frames earlier ss head ih => simpa [context_cons, statements, unlined] using ih h
  | case6 frames earlier ss head line ih =>
    simpa [context, statementsList, unlined] using ih h
  | case7 => cases h
  | case8 earlier ss line frame frames ih =>
    obtain ⟨head, line', before⟩ := frame
    rw [ih h, context_cons]
    cases head <;> simp [context, Head.node, statements, unlined]
  | case9 => cases h

/-! ## Rows that have a tree -/

/-- Whether the blocks of a row are closed, `depth` of them being open, and all of its statements
can be read. -/
def balanced : Nat → List Statement → Bool
  | depth, [] => depth == 0
  | depth, .opening _ _ :: ss => balanced (depth + 1) ss
  | depth + 1, .closing _ :: ss => balanced depth ss
  | 0, .closing _ :: _ => false
  | _, .bad _ :: _ => false
  | depth, .comment _ :: ss | depth, .declaration _ :: ss | depth, .atStatement _ :: ss =>
    balanced depth ss

theorem exists_ofStatementsIn_iff {frames : List Frame} {earlier : List Node}
    {ss : List Statement} :
    (∃ ns, ofStatementsIn frames earlier ss = .ok ns) ↔ balanced frames.length ss = true := by
  fun_induction ofStatementsIn frames earlier ss with
  | case1 earlier => simp [balanced]
  | case2 frame frames earlier => simp [balanced]
  | case3 frames earlier ss text ih => rw [ih, balanced]
  | case4 frames earlier ss d ih => rw [ih, balanced]
  | case5 frames earlier ss head ih => rw [ih, balanced]
  | case6 frames earlier ss head line ih => rw [ih, List.length_cons, balanced]
  | case7 earlier ss line => simp [balanced]
  | case8 earlier ss line frame frames ih => rw [ih, List.length_cons, balanced]
  | case9 frames earlier ss e => simp [balanced]

/-- Whether a row has a tree does not depend on its lines and spans. -/
theorem balanced_map_bare (depth : Nat) (ss : List Statement) :
    balanced depth (ss.map Statement.bare) = balanced depth ss := by
  fun_induction balanced depth ss with
  | case1 => rfl
  | case2 depth head line ss ih => simpa [Statement.bare, balanced] using ih
  | case3 depth line ss ih => simpa [Statement.bare, balanced] using ih
  | case4 => rfl
  | case5 => simp [Statement.bare, balanced]
  | case6 depth text ss ih => simpa [Statement.bare, balanced] using ih
  | case7 depth d ss ih => simpa [Statement.bare, balanced] using ih
  | case8 depth head ss ih => simpa [Statement.bare, balanced] using ih

theorem bare_of_ofStatements {ss : List Statement} {ns : List Node}
    (h : ofStatements ss = .ok ns) :
    (statementsList ns).map Statement.bare = ss.map Statement.bare := by
  have := statementsList_of_ofStatementsIn h
  simp only [context, List.reverse_nil, statementsList, List.nil_append] at this
  rw [this, map_bare_unlined]

end Node

open Node

/-! ## Texts that have a tree -/

theorem parse_eq (t : Text) :
    parse t = (ofStatements (row .start t)).map fun nodes => ⟨none, nodes⟩ := rfl

/-- The statements of a text with a tree are those of the tree. -/
theorem parse_ok {t : Text} {s : Stylesheet} (h : parse t = .ok s) :
    s.source = none ∧ statementsList s.nodes = (row .start t).map Statement.unlined ∧
      ∀ e, .bad e ∉ row .start t := by
  rw [parse_eq] at h
  cases hns : ofStatements (row .start t) with
  | error e =>
    rw [hns] at h
    cases h
  | ok ns =>
    rw [hns] at h
    cases h
    have hrow := statementsList_of_ofStatementsIn hns
    simp only [context, List.reverse_nil, statementsList, List.nil_append] at hrow
    refine ⟨rfl, hrow, fun e he => ?_⟩
    have hmem : Statement.unlined (.bad e) ∈ statementsList ns := by
      rw [hrow]
      exact List.mem_map_of_mem he
    exact (unlined_of_mem_statementsList ns _ hmem).2 e rfl

/-- A text has a given tree, up to spans, if and only if its statements are those of the tree. -/
theorem exists_same_iff {t : Text} {ns : List Node} :
    (∃ s, parse t = .ok s ∧ bareList s.nodes = bareList ns) ↔
      (row .start t).map Statement.bare = (statementsList ns).map Statement.bare := by
  constructor
  · rintro ⟨s, hs, hbare⟩
    obtain ⟨-, hrow, -⟩ := parse_ok hs
    have := congrArg (List.map Statement.bare) hrow
    rw [← statementsList_bareList, ← hbare, statementsList_bareList, this,
      Statement.map_bare_unlined]
  · intro h
    have hbal : balanced 0 (statementsList ns) = true :=
      (@exists_ofStatementsIn_iff [] [] _).mp ⟨ns, ofStatements_statementsList ns⟩
    rw [← balanced_map_bare, ← h, balanced_map_bare] at hbal
    obtain ⟨ms, hms⟩ := (@exists_ofStatementsIn_iff [] [] _).mpr hbal
    refine ⟨⟨none, ms⟩, by rw [parse_eq, show ofStatements (row .start t) = .ok ms from hms]; rfl,
      statementsList_injective ?_⟩
    rw [statementsList_bareList, statementsList_bareList, bare_of_ofStatements hms, h]

end PixelScale.Stylesheet
