import PixelScale.Proofs.Stylesheet.Splice

/-!
# Exact spans

The span of a declaration cuts its parts out of the text it was read from, and the span of an
at-rule its parameters. The value starts behind the colon and the white space there, also if there
is no value. Between the end of a declaration and the delimiter that ends it there is nothing but
white space.

No two spans of a text meet. Every statement has a delimiter of its own, or else the text ends
there or a brace closes the block it is in, and no span reaches over a delimiter. Rules and
comments have no span.

* `DeclarationSpan.Exact`, `AtHead.Exact`: spans that cut out what they should.
* `Node.spans`: all spans of a tree, in document order.
* `Passage.exact_meanings`, `Passage.spans_meanings`: the spans of a row of passages.
* `parse_spans`: the spans of a text that is read are exact, and one behind the other.
-/

namespace PixelScale.Stylesheet

open Text

/-- A mark of importance in any case, with white space around its exclamation mark. -/
def MarksImportance (t : Text) : Prop :=
  ∃ before behind word, t = before ++ '!' :: (behind ++ word) ∧ Blank before ∧ Blank behind ∧
    lowerAscii word = "important".toList

theorem IsMark.marksImportance {t : Text} (h : IsMark t) : MarksImportance t := by
  obtain ⟨front, back, rfl, hfront, hsharp, hword⟩ := h
  obtain ⟨behind, hbehind, hback⟩ := exists_blank_append_trimBlankLeft back
  have hright : SharpRight (trimBlankLeft back) := by
    intro c hc
    have hne : trimBlankLeft back ≠ [] := by
      intro hnil
      rw [hnil] at hc
      cases hc
    apply hsharp
    rw [hback, List.getLast?_append_of_ne_nil _ hne]
    exact hc
  rw [trimBlank_eq, trimBlankRight_eq_self hright] at hword
  refine ⟨front, behind, trimBlankLeft back, ?_, hfront, hbehind, hword⟩
  rw [← hback]

/-- Whether a text ends a declaration, with a semicolon at the given offset or without one. -/
def EndsDeclaration (offset : Nat) (t : Text) (semicolon : Option Nat) : Prop :=
  t.head? = some ';' ∧ semicolon = some offset ∨
    (t = [] ∨ t.head? = some '}') ∧ semicolon = none

/-- A span that cuts a declaration out of a text, part by part. -/
structure DeclarationSpan.Exact (css : Text) (d : Declaration) (span : DeclarationSpan) :
    Prop where
  ordered : span.start ≤ span.valueStart ∧ span.valueStart ≤ span.valueStop ∧
    span.valueStop ≤ span.stop ∧ span.stop ≤ css.bytes
  property : ∃ front gap, slice? css span.start span.valueStart = some (front ++ ':' :: gap) ∧
    ':' ∉ front ∧ trimBlank front = d.property ∧ Blank gap
  value : slice? css span.valueStart span.valueStop = some d.value
  mark : ∃ mark, slice? css span.valueStop span.stop = some mark ∧
    if d.important then MarksImportance mark else mark = []
  behind : ∃ blank rest, dropBytes? span.stop css = some (blank ++ rest) ∧ Blank blank ∧
    EndsDeclaration (span.stop + blank.bytes) rest span.semicolon

/-- A declaration with a span that cuts it out of a text. -/
def Declaration.Exact (css : Text) (d : Declaration) : Prop :=
  ∃ span, d.span = some span ∧ span.Exact css d

/-- An at-rule with a span that cuts its parameters out of a text. -/
def AtHead.Exact (css : Text) (head : AtHead) : Prop :=
  ∃ span, head.span = some span ∧ slice? css span.start span.stop = some head.params

/-- Where a declaration stood as a whole. -/
def DeclarationSpan.whole (span : DeclarationSpan) : Span := ⟨span.start, span.stop⟩

namespace Node

mutual

/-- The spans of a node in document order, of whole declarations and of the parameters of
at-rules. -/
def spans : Node → List Span
  | rule _ nodes => spansList nodes
  | atRule head nodes => head.span.toList ++ spansList nodes
  | atStatement head => head.span.toList
  | declaration d => (d.span.map DeclarationSpan.whole).toList
  | comment _ => []

def spansList : List Node → List Span
  | [] => []
  | n :: ns => spans n ++ spansList ns

end

end Node

/-! ## Spans of statements -/

namespace Statement

def span? : Statement → Option Span
  | declaration d => d.span.map DeclarationSpan.whole
  | atStatement head => head.span
  | opening (.atRule head) _ => head.span
  | _ => none

/-- Whether the span of a statement, if it has one, cuts out what it should. -/
def Exact (css : Text) : Statement → Prop
  | declaration d => d.Exact css
  | atStatement head => head.Exact css
  | opening (.atRule head) _ => head.Exact css
  | _ => True

@[simp] theorem span?_unlined (s : Statement) : s.unlined.span? = s.span? := by
  cases s with
  | opening head line => cases head <;> rfl
  | _ => rfl

theorem exact_unlined {css : Text} {s : Statement} : s.unlined.Exact css ↔ s.Exact css := by
  cases s with
  | opening head line => cases head <;> rfl
  | _ => rfl

end Statement

namespace Node

mutual

theorem spans_eq (n : Node) : n.spans = n.statements.filterMap Statement.span? := by
  cases n with
  | rule selector nodes =>
    rw [spans, spansList_eq nodes, statements, List.filterMap_cons_none rfl,
      List.filterMap_append, List.filterMap_cons_none rfl, List.filterMap_nil, List.append_nil]
  | atRule head nodes =>
    cases hspan : head.span <;> simp [spans, statements, Statement.span?, spansList_eq nodes, hspan]
  | atStatement head =>
    cases hspan : head.span <;> simp [spans, statements, Statement.span?, hspan]
  | declaration d =>
    cases hspan : d.span <;> simp [spans, statements, Statement.span?, hspan]
  | comment text => rfl

/-- The spans of a tree are those of its statements. -/
theorem spansList_eq (ns : List Node) :
    spansList ns = (statementsList ns).filterMap Statement.span? := by
  cases ns with
  | nil => rfl
  | cons n ns => rw [spansList, statementsList, List.filterMap_append, spans_eq n, spansList_eq ns]

end

mutual

theorem exact_declarations {css : Text} (n : Node) (h : ∀ s ∈ n.statements, s.Exact css) :
    ∀ d ∈ n.declarations, d.Exact css := by
  cases n with
  | rule selector nodes =>
    exact exact_declarationsList nodes fun s hs => h s (by simp [statements, hs])
  | atRule head nodes =>
    exact exact_declarationsList nodes fun s hs => h s (by simp [statements, hs])
  | atStatement head => exact nofun
  | declaration d =>
    intro d' hd
    obtain rfl := List.mem_singleton.mp hd
    exact h _ List.mem_cons_self
  | comment text => exact nofun

/-- The declarations of a tree are cut out if its statements are. -/
theorem exact_declarationsList {css : Text} (ns : List Node)
    (h : ∀ s ∈ statementsList ns, s.Exact css) : ∀ d ∈ declarationsList ns, d.Exact css := by
  cases ns with
  | nil => exact nofun
  | cons n ns =>
    intro d hd
    rcases List.mem_append.mp hd with hd | hd
    · exact exact_declarations n (fun s hs => h s (List.mem_append_left _ hs)) d hd
    · exact exact_declarationsList ns (fun s hs => h s (List.mem_append_right _ hs)) d hd

end

mutual

theorem exact_atRules {css : Text} (n : Node) (h : ∀ s ∈ n.statements, s.Exact css) :
    ∀ r ∈ n.atRules, r.1.Exact css := by
  cases n with
  | rule selector nodes =>
    exact exact_atRulesList nodes fun s hs => h s (by simp [statements, hs])
  | atRule head nodes =>
    intro r hr
    rcases List.mem_cons.mp hr with rfl | hr
    · exact h _ List.mem_cons_self
    · exact exact_atRulesList nodes (fun s hs => h s (by simp [statements, hs])) r hr
  | atStatement head =>
    intro r hr
    obtain rfl := List.mem_singleton.mp hr
    exact h _ List.mem_cons_self
  | declaration d => exact nofun
  | comment text => exact nofun

/-- The parameters of a tree are cut out if its statements are. -/
theorem exact_atRulesList {css : Text} (ns : List Node)
    (h : ∀ s ∈ statementsList ns, s.Exact css) : ∀ r ∈ atRulesList ns, r.1.Exact css := by
  cases ns with
  | nil => exact nofun
  | cons n ns =>
    intro r hr
    rcases List.mem_append.mp hr with hr | hr
    · exact exact_atRules n (fun s hs => h s (List.mem_append_left _ hs)) r hr
    · exact exact_atRulesList ns (fun s hs => h s (List.mem_append_right _ hs)) r hr

end

end Node

/-! ## Spans of passages -/

/-- What is behind a cut is found where it stands. -/
theorem dropBytes?_eq {css s t : Text} {n : Nat} (h : css = s ++ t) (hn : n = s.bytes) :
    dropBytes? n css = some t := by
  rw [h, hn]
  exact dropBytes?_append s t

section

variable {css before next : Text}

/-- The span of a form cuts its parts out. -/
theorem Form.Fine.exact_span {x : Form} (hx : x.Fine) {stop : Stop} {depth : Nat}
    (hstop : stop ≠ .brace) (hfits : stop.Fits depth next)
    (hcss : css = before ++ x.text ++ (stop.text ++ next)) :
    (x.declaration (Place.start.after before) (stop.semicolon? (before ++ x.text).bytes)).Exact
      css := by
  refine ⟨_, rfl, ?_, ?_, ?_, ?_, ?_⟩
  · have hbytes : css.bytes = before.bytes + (x.lead.bytes + (x.front.bytes + (1 +
        (x.gap.bytes + x.value.bytes + x.mark.bytes))) + x.trail.bytes) +
          (stop.text ++ next).bytes := by
      rw [hcss]
      simp [Form.text, Form.core, show ':'.utf8Size = 1 from rfl, Nat.add_assoc]
    simp only [Form.span, Place.after, Place.start]
    omega
  · exact ⟨x.front, x.gap, Form.slice_front hcss _, hx.colon, rfl, hx.gap⟩
  · exact Form.slice_value hcss _
  · refine ⟨x.mark, Form.slice_mark hcss _, ?_⟩
    rcases hx.mark with ⟨hm, -⟩ | ⟨hm, -⟩
    · rw [Form.declaration, List.isEmpty_eq_false_iff.mpr hm.ne_nil]
      exact hm.marksImportance
    · rw [Form.declaration, hm]
      rfl
  · have hstart : (x.span (Place.start.after before)
        (stop.semicolon? (before ++ x.text).bytes)).stop = (before ++ (x.lead ++ x.core)).bytes := by
      simp only [Form.span, Form.core, Place.after, Place.start, bytes_append, bytes_cons,
        show ':'.utf8Size = 1 from rfl]
      omega
    refine ⟨x.trail, stop.text ++ next, dropBytes?_eq ?_ hstart, hx.trail, ?_⟩
    · rw [hcss, Form.text]
      simp only [List.append_assoc]
    · cases stop with
      | brace => exact absurd rfl hstop
      | semicolon =>
        left
        refine ⟨rfl, ?_⟩
        rw [hstart]
        simp [Form.span, Stop.semicolon?, Form.text, Nat.add_assoc]
      | nothing =>
        right
        refine ⟨?_, rfl⟩
        rcases hfits with hnil | ⟨-, hclose⟩
        · exact .inl hnil
        · exact .inr hclose

/-- A span inside of the given bounds. -/
structure Span.Within (first last : Nat) (span : Span) : Prop where
  first : first ≤ span.start
  ordered : span.start ≤ span.stop
  last : span.stop ≤ last

theorem Span.Within.mono {first last first' last' : Nat} {span : Span}
    (h : span.Within first last) (hfirst : first' ≤ first) (hlast : last ≤ last') :
    span.Within first' last' :=
  ⟨Nat.le_trans hfirst h.first, h.ordered, Nat.le_trans h.last hlast⟩

/-- The span of parameters cuts them out of the raw text of their at-rule. -/
theorem exact_atHead (name raw : Text) (hcss : css = before ++ raw ++ next) :
    (Statement.atHead name (Place.start.after before) raw).Exact css ∧
      ∀ span ∈ (Statement.atHead name (Place.start.after before) raw).span,
        span.Within before.bytes (before ++ raw).bytes := by
  obtain ⟨lead, trail, hlead, htrail, hraw, -, hnil⟩ := exists_frame raw
  have hold := trimmed_trimBlank raw
  generalize trimBlank raw = old at hold hraw hnil
  subst hraw
  rw [atHead_frame hlead hold htrail hnil]
  constructor
  · refine ⟨_, rfl, slice?_eq (r := before ++ lead) (t := trail ++ next) ?_ ?_ rfl⟩
    · rw [hcss]
      simp only [List.append_assoc]
    · simp [Place.after, Place.start]
  · intro span hspan
    obtain rfl := Option.some.inj hspan
    constructor <;> simp only [Place.after, Place.start, bytes_append] <;> omega

theorem Stop.exact_atRule (stop : Stop) (head : AtHead) :
    (stop.atRule head).Exact css ↔ head.Exact css := by
  cases stop <;> rfl

theorem Stop.span?_atRule (stop : Stop) (head : AtHead) :
    (stop.atRule head).span? = head.span := by
  cases stop <;> rfl

/-- What a passage stands for is cut out, inside of the passage. Only where the text or a block ends
may the span end with the passage. -/
theorem Passage.exact_meaning {q : Passage} {s : Statement} (hq : q.Fits next)
    (hcss : css = before ++ q.text ++ next) (hs : q.meaning (Place.start.after before) = some s)
    (hgood : ∀ e, s ≠ .bad e) :
    s.Exact css ∧ ∀ span ∈ s.span?, span.Within before.bytes (before ++ q.text).bytes ∧
      (span.stop < (before ++ q.text).bytes ∨ next = [] ∨ next.head? = some '}') := by
  cases q with
  | space c => cases hs
  | comment body =>
    cases hs
    exact ⟨trivial, fun _ hspan => absurd hspan (Option.not_mem_none _)⟩
  | closing =>
    cases hs
    exact ⟨trivial, fun _ hspan => absurd hspan (Option.not_mem_none _)⟩
  | statement name raw stop =>
    obtain ⟨-, -, hfits⟩ := hq
    -- the delimiter lies between the raw text and what follows
    have hdelimiter : ∀ {n : Nat}, n ≤ (before ++ sign name ++ raw).bytes →
        n < (before ++ (statement name raw stop).text).bytes ∨ next = [] ∨
          next.head? = some '}' := by
      intro n hn
      cases stop with
      | nothing =>
        rcases hfits with hnil | ⟨-, hclose⟩
        · exact .inr (.inl hnil)
        · exact .inr (.inr hclose)
      | _ =>
        left
        simp only [text, Stop.text, bytes_append, bytes_cons, bytes_nil] at hn ⊢
        have := Char.utf8Size_pos '{'
        have := Char.utf8Size_pos ';'
        omega
    have htext : (before ++ sign name ++ raw).bytes ≤
        (before ++ (statement name raw stop).text).bytes := by
      simp only [text, bytes_append]
      omega
    cases name with
    | some name =>
      have hmeaning := meaning_atRule before name raw stop
      rw [hs] at hmeaning
      have hunlined : s.unlined = stop.atRule (Statement.atHead name
          (Place.start.after (before ++ sign (some name))) raw) := List.singleton_inj.mp hmeaning
      have hframe : css = (before ++ sign (some name)) ++ raw ++ (stop.text ++ next) := by
        rw [hcss]
        simp [text]
      obtain ⟨hexact, hwithin⟩ := exact_atHead name raw hframe
      rw [← Statement.exact_unlined, ← Statement.span?_unlined, hunlined, Stop.exact_atRule,
        Stop.span?_atRule]
      refine ⟨hexact, fun span hspan => ?_⟩
      have hspan := hwithin span hspan
      refine ⟨hspan.mono ?_ htext, hdelimiter hspan.last⟩
      rw [bytes_append]
      omega
    | none =>
      by_cases hstop : stop = .brace
      · subst hstop
        cases hs
        exact ⟨trivial, fun _ hspan => absurd hspan (Option.not_mem_none _)⟩
      · rw [meaning_declaration before raw hstop] at hs
        cases hd : Statement.declaration? (Place.start.after before) raw
            (stop.semicolon? (before ++ raw).bytes) with
        | error e =>
          rw [Statement.ofBody, hd] at hs
          exact absurd (Option.some.inj hs).symm (hgood e)
        | ok d =>
          obtain ⟨x, hx, rfl⟩ := Form.exists_form hd
          simp only [Statement.ofBody, hx.declaration?_text, Option.some.injEq] at hs
          subst hs
          refine ⟨hx.exact_span hstop hfits (by rw [hcss]; simp [text, sign]), ?_⟩
          intro span hspan
          obtain rfl := Option.some.inj hspan
          have hlast : (x.span (Place.start.after before)
              (stop.semicolon? (before ++ x.text).bytes)).whole.stop ≤
                (before ++ sign none ++ x.text).bytes := by
            simp only [DeclarationSpan.whole, Form.span, Form.text, Form.core, sign, Place.after,
              Place.start, bytes_append, bytes_cons, bytes_nil, show ':'.utf8Size = 1 from rfl]
            omega
          refine ⟨⟨?_, ?_, Nat.le_trans hlast htext⟩, hdelimiter hlast⟩ <;>
            simp only [DeclarationSpan.whole, Form.span, Place.after, Place.start] <;> omega

/-- A row in front of which a block closes starts with the brace that closes it. -/
theorem Passage.eq_closing_of_head {q : Passage} (hq : q.Fits next)
    (hhead : (q.text ++ next).head? = some '}') : q = .closing := by
  cases q with
  | space c =>
    obtain rfl := Option.some.inj hhead
    rcases hq with hblank | hsemi
    · exact absurd hblank (by decide)
    · exact absurd hsemi (by decide)
  | comment body => exact absurd (Option.some.inj hhead) (by decide)
  | closing => rfl
  | statement name raw stop =>
    cases name with
    | some name => exact absurd (Option.some.inj hhead) (by decide)
    | none =>
      obtain ⟨hb, -⟩ := hq
      obtain ⟨u, hu⟩ := List.head?_eq_some_iff.mp hhead
      change raw ++ stop.text ++ next = '}' :: u at hu
      rw [hu] at hb
      exact absurd rfl hb.2.2.1

end

/-- Spans one behind the other, with something between them. -/
def Increasing (spans : List Span) : Prop :=
  spans.Pairwise fun a b => a.stop < b.start

namespace Passage

theorem meanings_cons (before : Text) (q : Passage) (qs : List Passage) :
    meanings (Place.start.after before) (q :: qs) =
      (q.meaning (Place.start.after before)).toList ++
        meanings (Place.start.after (before ++ q.text)) qs := by
  rw [meanings, Place.after_append]

/-- The statements of a row of passages are cut out of the text. -/
theorem exact_meanings {css before : Text} {qs : List Passage} (hv : Valid qs)
    (hcss : css = before ++ joined qs)
    (hgood : ∀ e, .bad e ∉ meanings (Place.start.after before) qs) :
    ∀ s ∈ meanings (Place.start.after before) qs, s.Exact css := by
  induction qs generalizing before with
  | nil => exact nofun
  | cons q qs ih =>
    rw [meanings_cons] at hgood ⊢
    rw [joined_cons, ← List.append_assoc] at hcss
    intro s hs
    rcases List.mem_append.mp hs with hs | hs
    · refine (exact_meaning hv.1 hcss (Option.mem_toList.mp hs) fun e he => ?_).1
      subst he
      exact hgood e (List.mem_append_left _ hs)
    · exact ih hv.2 hcss (fun e he => hgood e (List.mem_append_right _ he)) s hs

/-- The spans of a row of passages are one behind the other, and behind the text in front. A brace
that closes a block is in front of all that follows. -/
theorem spans_meanings {before : Text} {qs : List Passage} (hv : Valid qs)
    (hgood : ∀ e, .bad e ∉ meanings (Place.start.after before) qs) :
    Increasing ((meanings (Place.start.after before) qs).filterMap Statement.span?) ∧
      ∀ span ∈ (meanings (Place.start.after before) qs).filterMap Statement.span?,
        span.Within before.bytes (before ++ joined qs).bytes ∧
          ((joined qs).head? = some '}' → before.bytes < span.start) := by
  induction qs generalizing before with
  | nil => exact ⟨.nil, nofun⟩
  | cons q qs ih =>
    rw [meanings_cons] at hgood
    obtain ⟨hincreasing, hrest⟩ := ih hv.2 fun e he => hgood e (List.mem_append_right _ he)
    -- the passage has one span at the most
    have hfirst : ∀ span ∈ (q.meaning (Place.start.after before)).toList.filterMap Statement.span?,
        span.Within before.bytes (before ++ q.text).bytes ∧ (span.stop < (before ++ q.text).bytes ∨
          joined qs = [] ∨ (joined qs).head? = some '}') := by
      intro span hspan
      obtain ⟨s, hs, hspan⟩ := List.mem_filterMap.mp hspan
      refine (exact_meaning hv.1 rfl (Option.mem_toList.mp hs) fun e he => ?_).2 span hspan
      subst he
      exact hgood e (List.mem_append_left _ hs)
    have hone : Increasing
        ((q.meaning (Place.start.after before)).toList.filterMap Statement.span?) := by
      cases q.meaning (Place.start.after before) with
      | none => exact .nil
      | some s => cases h : s.span? <;> simp [Increasing, h]
    have hpos : before.bytes < (before ++ q.text).bytes := by
      obtain ⟨c, t, ht⟩ := List.exists_cons_of_ne_nil (text_ne_nil hv.1)
      have := c.utf8Size_pos
      rw [ht, bytes_append, bytes_cons]
      omega
    rw [meanings_cons, List.filterMap_append, joined_cons, ← List.append_assoc]
    constructor
    · apply List.pairwise_append.mpr
      refine ⟨hone, hincreasing, fun a ha b hb => ?_⟩
      obtain ⟨hwithin, hstrict⟩ := hfirst a ha
      obtain ⟨hwithin', hbrace⟩ := hrest b hb
      rcases hstrict with hlt | hnil | hhead
      · exact Nat.lt_of_lt_of_le hlt hwithin'.first
      · cases qs with
        | nil => cases hb
        | cons r qs => exact absurd (List.append_eq_nil_iff.mp hnil).1 (text_ne_nil hv.2.1)
      · exact Nat.lt_of_le_of_lt hwithin.last (hbrace hhead)
    · intro span hspan
      rcases List.mem_append.mp hspan with hspan | hspan
      · refine ⟨(hfirst span hspan).1.mono (Nat.le_refl _) ?_, fun hhead => ?_⟩
        · rw [bytes_append _ (joined qs)]
          exact Nat.le_add_right _ _
        · rw [eq_closing_of_head hv.1 hhead] at hspan
          cases hspan
      · obtain ⟨hwithin, -⟩ := hrest span hspan
        exact ⟨hwithin.mono (Nat.le_of_lt hpos) (Nat.le_refl _),
          fun _ => Nat.lt_of_lt_of_le hpos hwithin.first⟩

end Passage

/-! ## Spans of a text -/

/-- The declarations and the parameters of a text are where their spans say, and these spans are one
behind the other in document order. -/
theorem parse_spans {css : Text} {s : Stylesheet} (h : parse css = .ok s) :
    (∀ d ∈ s.declarations, d.Exact css) ∧ (∀ r ∈ Node.atRulesList s.nodes, r.1.Exact css) ∧
      Increasing (Node.spansList s.nodes) ∧
      ∀ span ∈ Node.spansList s.nodes, span.Within 0 css.bytes := by
  obtain ⟨-, hstatements, hbad⟩ := parse_ok h
  obtain ⟨hjoined, hv, hrow⟩ := Passage.ofText_spec hbad
  have hgood : ∀ e, .bad e ∉ Passage.meanings (Place.start.after []) (Passage.ofText css) := by
    change ∀ e, .bad e ∉ Passage.meanings Place.start (Passage.ofText css)
    rwa [← hrow]
  have hcss : css = [] ++ Passage.joined (Passage.ofText css) := hjoined.symm
  have hexact : ∀ x ∈ Node.statementsList s.nodes, x.Exact css := by
    intro x hx
    rw [hstatements, hrow] at hx
    obtain ⟨y, hy, rfl⟩ := List.mem_map.mp hx
    rw [Statement.exact_unlined]
    exact Passage.exact_meanings hv hcss hgood y hy
  have hspans : Node.spansList s.nodes =
      (Passage.meanings (Place.start.after []) (Passage.ofText css)).filterMap Statement.span? := by
    rw [Node.spansList_eq, hstatements, hrow, List.filterMap_map]
    exact List.filterMap_congr fun s _ => Statement.span?_unlined s
  obtain ⟨hincreasing, hwithin⟩ := Passage.spans_meanings hv hgood
  rw [List.nil_append, hjoined] at hwithin
  rw [hspans]
  exact ⟨Node.exact_declarationsList _ hexact, Node.exact_atRulesList _ hexact, hincreasing,
    fun span hspan => (hwithin span hspan).1⟩

/-- A value with white space around it, and an empty one in front of a brace. -/
theorem parse_spans_media :
    ∃ s, parse "@m w \x7b é : 1 ;b:\x7d".toList = .ok s ∧
      Node.spansList s.nodes = [⟨3, 4⟩, ⟨7, 13⟩, ⟨15, 17⟩] ∧
      (∀ d ∈ s.declarations, d.Exact "@m w \x7b é : 1 ;b:\x7d".toList) ∧
      (∀ r ∈ Node.atRulesList s.nodes, r.1.Exact "@m w \x7b é : 1 ;b:\x7d".toList) ∧
      Increasing (Node.spansList s.nodes) ∧
      ∀ span ∈ Node.spansList s.nodes, span.Within 0 (bytes "@m w \x7b é : 1 ;b:\x7d".toList) := by
  have hparse : parse "@m w \x7b é : 1 ;b:\x7d".toList =
      .ok ⟨none, [.atRule ⟨"m".toList, "w".toList, some ⟨3, 4⟩⟩
        [.declaration ⟨"é".toList, "1".toList, false, some ⟨7, 12, 13, 13, some 14⟩⟩,
          .declaration ⟨"b".toList, [], false, some ⟨15, 17, 17, 17, none⟩⟩]]⟩ := by
    cbv
  exact ⟨_, hparse, rfl, parse_spans hparse⟩

end PixelScale.Stylesheet
