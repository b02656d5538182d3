import PixelScale.Proofs.Text.LineEnds
import PixelScale.Proofs.Transform.Comments

/-!
# Line ends after a run

A run keeps the line ends of a text in everything that it keeps, and a converted value has those of
the value that was read, if the unit has no line feed in it. This leaves the copies. A copy has in
front of it the white space of the declaration behind which it is written, from the last line feed
on. Where lines end in a carriage return and a line feed, the carriage return is left behind. So
every copy on a line of its own begins with a bare line feed, and there are no other ones.

* `Pixel.Respelled.gains`: a conversion makes no bare line feeds.
* `Stylesheet.copyLines`: the number of copies on lines of their own.
* `Spliced.gains`: what is written has a bare line feed for every such copy.
* `OptionSet.convert_lineEnds`: the bare line feeds of a converted text.
-/

namespace PixelScale

open Stylesheet Text

/-! ## Converted values -/

namespace Pixel

/-- The built-in conversion with a unit that has no line feed in it. -/
def Converter.SingleLine : Converter → Prop
  | .builtin _ _ _ unit => '\n' ∉ unit
  | .custom _ => False

theorem lineFeed_not_mem_write (x : Float) : '\n' ∉ Layout.inText.write x := by
  intro hmem
  rcases Layout.mem_write x with hpart | hword
  · exact absurd (hpart.part _ hmem) (by decide)
  · have hwords : ∀ w ∈ ["NaN".toList, "inf".toList, "-inf".toList], '\n' ∉ w := by decide
    exact hwords _ hword hmem

variable {k : Converter}

theorem Converter.SingleLine.not_mem_literal (hk : k.SingleLine) {n : Text}
    (hn : Segment.IsNumber n) : '\n' ∉ k.literal n := by
  have hkept : '\n' ∉ n ++ Segment.pxSuffix := by
    intro hmem
    rcases List.mem_append.mp hmem with hmem | hmem
    · exact absurd (hn.2 _ hmem) (by decide)
    · exact absurd hmem (by decide)
  cases k with
  | custom write => exact hk.elim
  | builtin rootValue unitPrecision minPixelValue unit =>
    unfold literal
    cases Numeral.toFloat? n with
    | none => exact hkept
    | some x =>
      simp only [Option.bind_some, pixels?, builtin?]
      split
      · exact hkept
      split
      · change '\n' ∉ ['0']
        decide
      · exact List.not_mem_append (lineFeed_not_mem_write _) hk

/-- A conversion makes no bare line feeds. -/
theorem Respelled.gains (hk : k.SingleLine) {t u : Text} (h : Respelled k t u) : Gains 0 t u := by
  induction h with
  | nil => exact .refl []
  | @char c t u _ ih => exact (Gains.refl [c]).append ih
  | @pixels n t u hn _ ih =>
    refine Gains.append (n := 0) (.of_endsReturn_eq_false (fun r => ?_) fun r => ?_) ih
    · rw [Segment.text, endsReturn_append]
      rfl
    · exact bareFeeds_of_not_mem (hk.not_mem_literal hn)

end Pixel

namespace Stylesheet

/-! ## Copies -/

/-- Whether the white space in front of a declaration has a line feed in it. -/
def ownLine (css : Text) (span : DeclarationSpan) : Bool :=
  (takeBytes? span.start css).any fun front => '\n' ∈ front.drop (trimBlankRight front).length

/-- The number of copies on lines of their own. They are written behind the last declaration that
was read, and `own` tells whether this one has a line of its own. -/
def copyLines (css : Text) (own : Bool) : List Declaration → Nat
  | [] => 0
  | d :: ds =>
    match d.span with
    | some span => copyLines css (ownLine css span) ds
    | none => own.toNat + copyLines css own ds

/-- A separator in front of each text or behind each. -/
theorem cons_flatMap_concat {α : Type} (c : Char) (f : α → Text) (as : List α) :
    c :: as.flatMap (fun a => f a ++ [c]) = as.flatMap (fun a => c :: f a) ++ [c] := by
  induction as with
  | nil => rfl
  | cons a as ih =>
    rw [List.flatMap_cons, List.flatMap_cons, List.append_assoc, List.append_assoc, ← ih]
    rfl

/-- What is written in front of a copy has one bare line feed, or none. -/
theorem bareFeeds_indentBehind (front : Text) :
    bareFeeds false (indentBehind front) =
      (decide ('\n' ∈ front.drop (trimBlankRight front).length)).toNat := by
  cases hsplit : splitLast '\n' (front.drop (trimBlankRight front).length) with
  | none =>
    have hnone := splitLast_eq_none_iff.mp hsplit
    simp only [indentBehind, hsplit]
    rw [bareFeeds_of_not_mem hnone, decide_eq_false hnone]
    rfl
  | some r =>
    obtain ⟨a, behind⟩ := r
    obtain ⟨heq, hrest⟩ := splitLast_eq_some_iff.mp hsplit
    simp only [indentBehind, hsplit]
    rw [bareFeeds, bareFeeds_of_not_mem hrest, decide_eq_true (by simp [heq])]
    rfl

namespace Form

variable {x : Form}

/-- The copies of a declaration have a bare line feed in front if this has a line of its own. -/
theorem bareFeeds_indentBehind_span {css before rest : Text} (h : css = before ++ x.text ++ rest)
    (semicolon : Option Nat) :
    bareFeeds false (indentBehind (before ++ x.lead)) =
      (ownLine css (x.span (Place.start.after before) semicolon)).toNat := by
  have htake : takeBytes? (x.span (Place.start.after before) semicolon).start css =
      some (before ++ x.lead) := by
    have := takeBytes?_append (before ++ x.lead) (x.core ++ x.trail ++ rest)
    rw [h]
    simpa [span, Place.after, Place.start, text] using this
  rw [bareFeeds_indentBehind, ownLine, htake, Option.any_some]

theorem gains_core {v : Text} (h : Gains 0 x.value v) : Gains 0 x.core (x.withValue v).core :=
  (Gains.refl x.front).append ((Gains.refl [':']).append
    (((Gains.refl x.gap).append h).append (Gains.refl x.mark)))

theorem bareFeeds_copies (indent : Text) (hcore : bareFeeds false x.core = 0)
    {copies : List Text} (hcopies : ∀ v ∈ copies, Gains 0 x.value v) (r : Bool) :
    bareFeeds r (copies.flatMap fun v => ';' :: (indent ++ (x.withValue v).core)) =
      copies.length * bareFeeds false indent := by
  induction copies generalizing r with
  | nil => exact (Nat.zero_mul _).symm
  | cons v copies ih =>
    obtain ⟨hv, hcopies⟩ := List.forall_mem_cons.mp hcopies
    have hone : bareFeeds r (';' :: (indent ++ (x.withValue v).core)) = bareFeeds false indent := by
      rw [bareFeeds, if_neg (by simp), Nat.zero_add, show (';' == '\r') = false from rfl,
        bareFeeds_append, (gains_core hv false _ (by simp) hcore).1, Nat.add_zero]
    rw [List.flatMap_cons, bareFeeds_append, hone, ih hcopies, List.length_cons, Nat.succ_mul,
      Nat.add_comm]

/-- What is written for a declaration has the bare line feeds of the white space in front of its
copies. -/
theorem Fine.gains_written (hx : x.Fine) (indent : Text) {new : Declaration}
    (hbase : Gains 0 x.core (x.base new)) {copies : List Text}
    (hcopies : ∀ v ∈ copies, Gains 0 x.value v) {stop : Stop} (hstop : stop ≠ .brace) :
    Gains (copies.length * bareFeeds false indent) (x.text ++ stop.text)
      (x.written indent new copies stop) := by
  refine .of_bareFeeds_eq_zero fun r hbare => ?_
  -- the copies stand elsewhere, but what is in front of the property does not count for it
  have hcore : bareFeeds false x.core = 0 := by
    rw [hx.core_trimmed.left.bareFeeds_eq false (endsReturn r x.lead)]
    simp only [text, bareFeeds_append, Nat.add_eq_zero_iff] at hbare
    exact hbare.1.1.2
  have hall := bareFeeds_copies indent hcore hcopies
  generalize copies.length * bareFeeds false indent = n at hall ⊢
  have hends : ∀ r, endsReturn r x.core = false :=
    hx.core_trimmed.right.endsReturn_eq_false (by simp [core])
  cases stop with
  | brace => exact absurd rfl hstop
  | semicolon =>
    have hcopied : Gains n [';']
        (';' :: copies.flatMap (fun v => indent ++ (x.withValue v).core ++ [';'])) := by
      refine .of_endsReturn_eq_false (fun _ => rfl) fun r => ?_
      rw [cons_flatMap_concat, bareFeeds_append, hall]
      rfl
    have := (((Gains.refl x.lead).append hbase).append (Gains.refl x.trail)).append hcopied
    simpa [text, written, Stop.text] using this
  | nothing =>
    have hcopied : Gains n x.core
        (x.base new ++ copies.flatMap fun v => ';' :: (indent ++ (x.withValue v).core)) := by
      intro r r' hr hbare
      obtain ⟨hzero, -⟩ := hbase r r' hr hbare
      refine ⟨?_, fun h => absurd h (by simp [hends r])⟩
      rw [bareFeeds_append, hzero, hall, Nat.zero_add]
    have := ((Gains.refl x.lead).append hcopied).append (Gains.refl x.trail)
    simpa [text, written, Stop.text] using this

end Form

/-! ## Changes of a text -/

def Statement.declared? : Statement → Option Declaration
  | declaration d => some d
  | _ => none

namespace Node

mutual

theorem declarations_eq (n : Node) :
    n.declarations = n.statements.filterMap Statement.declared? := by
  cases n with
  | rule selector nodes =>
    rw [declarations, declarationsList_eq nodes, statements, List.filterMap_cons_none rfl,
      List.filterMap_append, List.filterMap_cons_none rfl, List.filterMap_nil, List.append_nil]
  | atRule head nodes =>
    rw [declarations, declarationsList_eq nodes, statements, List.filterMap_cons_none rfl,
      List.filterMap_append, List.filterMap_cons_none rfl, List.filterMap_nil, List.append_nil]
  | _ => rfl

/-- The declarations of a tree are those among its statements. -/
theorem declarationsList_eq (ns : List Node) :
    declarationsList ns = (statementsList ns).filterMap Statement.declared? := by
  cases ns with
  | nil => rfl
  | cons n ns =>
    rw [declarationsList, statementsList, List.filterMap_append, declarations_eq n,
      declarationsList_eq ns]

end

end Node

/-- What a run may make of a declaration or of parameters: their text with pixel lengths
converted. -/
def Update.Respells (k : Pixel.Converter) : Update → Prop
  | declaration old new copies =>
    new.property = old.property ∧ new.important = old.important ∧
      Pixel.Respelled k old.value new.value ∧ ∀ v ∈ copies, Pixel.Respelled k old.value v
  | params old new => Pixel.Respelled k old.params new

theorem Update.Converts.respells {k : Pixel.Converter} {c : Update} (h : c.Converts k)
    (name : Text) : c.Respells k ∧ (c.mapParams name k.value).Respells k := by
  cases c with
  | declaration old new copies =>
    obtain ⟨hnew, hcopies⟩ := h
    have hvalue := k.respelled_replaceAll old.value
    have hall : (Update.declaration old new copies).Respells k := by
      refine ⟨?_, ?_, ?_, fun v hv => hcopies v hv ▸ hvalue⟩
      · rcases hnew with rfl | rfl <;> rfl
      · rcases hnew with rfl | rfl <;> rfl
      · rcases hnew with rfl | rfl
        · exact .refl k _
        · exact hvalue
    exact ⟨hall, hall⟩
  | params old new =>
    obtain rfl : new = old.params := h
    refine ⟨.refl k _, ?_⟩
    change Pixel.Respelled k old.params (if old.name = name then k.value old.params else old.params)
    split
    · exact k.respelled_value old.params
    · exact .refl k _

/-- The copies on lines of their own that a change asks for. -/
def Update.copyLines (css : Text) : Update → Nat
  | declaration old _ copies => copies.length * (old.span.any (ownLine css)).toNat
  | params _ _ => 0

/-- A declaration and its copies in front of others. -/
theorem copyLines_copies (css : Text) (own : Bool) (d : Declaration) (copies : List Text)
    (ds : List Declaration) :
    copyLines css own (copies.map d.withValue ++ ds) =
      copies.length * own.toNat + copyLines css own ds := by
  induction copies with
  | nil => rw [List.map_nil, List.nil_append, List.length_nil, Nat.zero_mul, Nat.zero_add]
  | cons v copies ih =>
    rw [List.map_cons, List.cons_append, copyLines, Declaration.withValue]
    dsimp only
    rw [ih, List.length_cons, Nat.succ_mul]
    omega

variable {css before u : Text} {qs : List Passage} {cs : List Update} {ss : List Statement}

/-- The copies on lines of their own are those of the changes. -/
theorem Spliced.copyLines_eq (h : Spliced before qs cs ss u) (css : Text) (own : Bool) :
    copyLines css own (ss.filterMap Statement.declared?) =
      (cs.map (Update.copyLines css)).sum := by
  induction h generalizing own with
  | nil => rfl
  | @keep before u q qs cs ss hkept _ ih =>
    cases hm : q.meaning (Place.start.after before) with
    | none => exact ih own
    | some s =>
      have hnone : s.unlined.declared? = none := by
        have hs := hkept s hm
        cases s with
        | declaration d => cases hs
        | opening head line => cases head <;> rfl
        | _ => rfl
      rw [Option.toList_some, List.map_singleton, List.singleton_append,
        List.filterMap_cons_none hnone, ih]
  | @params before name lead old trail new u stop qs cs ss head _ _ _ _ _ _ ih =>
    have hnone : (stop.atRule { head with params := new }).declared? = none := by
      cases stop <;> rfl
    rw [List.filterMap_cons_none hnone, ih, List.map_cons, List.sum_cons, Update.copyLines,
      Nat.zero_add]
  | @declaration before u x stop old new copies qs cs ss hx hstop hold hspan _ ih =>
    subst hold
    have hcopies : (copies.map fun v => Statement.declaration (new.withValue v)).filterMap
        Statement.declared? = copies.map new.withValue := by
      rw [List.filterMap_map]
      exact congrFun List.filterMap_eq_map _
    have hfirst : (Statement.declaration new).declared? = some new := rfl
    rw [List.cons_append, List.filterMap_cons_some hfirst, List.filterMap_append, hcopies,
      copyLines, hspan]
    dsimp only [Form.declaration]
    rw [copyLines_copies, ih, List.map_cons, List.sum_cons]
    rfl

/-- What is written into a text has a bare line feed for every copy on a line of its own. -/
theorem Spliced.gains {k : Pixel.Converter} (hk : k.SingleLine) (h : Spliced before qs cs ss u)
    (hcss : css = before ++ Passage.joined qs) (hcs : ∀ c ∈ cs, c.Respells k) :
    Gains (cs.map (Update.copyLines css)).sum (Passage.joined qs) u := by
  induction h with
  | nil => exact .refl []
  | @keep before u q qs cs ss hkept _ ih =>
    have hrest : css = before ++ q.text ++ Passage.joined qs := by
      rw [hcss]
      simp
    have := (Gains.refl q.text).append (ih hrest hcs)
    rwa [Nat.zero_add] at this
  | @params before name lead old trail new u stop qs cs ss head hl ht ho hnil hhead _ ih =>
    obtain ⟨hchange, hchanges⟩ := List.forall_mem_cons.mp hcs
    have hrest : css =
        before ++ (Passage.sign (some name) ++ (lead ++ old ++ trail) ++ stop.text) ++
          Passage.joined qs := by
      rw [hcss]
      simp [Passage.text]
    rw [atHead_frame hl ho ht hnil] at hhead
    subst hhead
    have hparams : Gains 0 old new := Pixel.Respelled.gains hk hchange
    exact (((Gains.refl _).append (((Gains.refl lead).append hparams).append (.refl trail))).append
      (.refl stop.text)).append (ih hrest hchanges)
  | @declaration before u x stop old new copies qs cs ss hx hstop hold hspan _ ih =>
    obtain ⟨⟨hproperty, himportant, hvalue, hcopies⟩, hchanges⟩ := List.forall_mem_cons.mp hcs
    have hrest : css = before ++ (x.text ++ stop.text) ++ Passage.joined qs := by
      rw [hcss]
      simp [Passage.text, Passage.sign]
    subst hold
    have hbase : x.base new = (x.withValue new.value).core :=
      if_neg (not_or.mpr ⟨not_not.mpr hproperty, not_not.mpr himportant⟩)
    have hwritten := hx.gains_written (indentBehind (before ++ x.lead))
      (hbase ▸ Form.gains_core (hvalue.gains hk)) (fun v hv => (hcopies v hv).gains hk) hstop
    have htext : css = before ++ x.text ++ (stop.text ++ Passage.joined qs) := by
      rw [hrest]
      simp
    rw [Form.bareFeeds_indentBehind_span htext (stop.semicolon? (before ++ x.text).bytes)]
      at hwritten
    exact hwritten.append (ih hrest hchanges)

end Stylesheet

/-! ## Runs -/

/-- What a run makes of nodes. -/
theorem Pass.exists_respells_runNodes (p : Pass) (ns : List Node) :
    ∃ cs, Revises cs ns (p.runNodes ns).1 ∧ ∀ c ∈ cs, c.Respells p.converter := by
  obtain ⟨cs, ms, hwalk, hr, hcs⟩ := p.exists_revises_walk none [] ns
  rw [List.nil_append] at hwalk
  simp only [runNodes, runMedia, hwalk]
  split
  · exact ⟨_, hr.mapParams media p.converter.value,
      List.forall_mem_map.mpr fun c hc => ((hcs c hc).respells media).2⟩
  · exact ⟨cs, hr, fun c hc => ((hcs c hc).respells media).1⟩

/-- A run that replaces makes no copies. -/
theorem Pass.copyLines_runNodes (p : Pass) (hreplace : p.replace = true) {css : Text}
    {sheet : Stylesheet} (h : Stylesheet.parse css = .ok sheet) :
    copyLines css false (Node.declarationsList (p.runNodes sheet.nodes).1) = 0 := by
  obtain ⟨cs, hr, hcs⟩ := p.exists_replaces_runNodes hreplace sheet.nodes
  obtain ⟨u, -, -, hu, -⟩ := exists_spliced_patch? h hr none
  rw [Node.declarationsList_eq, hu.copyLines_eq, List.sum_eq_zero_iff, List.forall_mem_map]
  intro c hc
  have hreplaces := hcs c hc
  cases c with
  | declaration old new copies =>
    rw [Update.copyLines, hreplaces.1, List.length_nil, Nat.zero_mul]
  | params old new => rfl

/-- If every line feed of a text stands behind a carriage return, this is kept by a run with a unit
without line feeds, but for the copies on lines of their own: each of them has one line feed in
front that does not. So it is kept if the run replaces. -/
theorem OptionSet.convert_lineEnds {css : Text} {sheet : Stylesheet} (set : OptionSet)
    (source : Option Text) (h : Stylesheet.parse css = .ok sheet) (hcss : Crlf css)
    (hunit : ∀ settings ∈ set.select source, settings.converter.SingleLine) :
    ∃ c, set.convert source css = .ok c ∧
      bareFeeds false c.text = ((set.run { sheet with source }).map fun r =>
        copyLines css false r.1.declarations).getD 0 ∧
      (Crlf c.text ↔ ∀ r ∈ set.run { sheet with source },
        copyLines css false r.1.declarations = 0) ∧
      ((∀ settings ∈ set.select source, settings.options.replace = true) → Crlf c.text) := by
  cases hselect : set.select source with
  | none =>
    have hrun : set.run { sheet with source } = none := by
      rw [OptionSet.run, hselect]
      rfl
    refine ⟨_, set.convert_of_excluded h hrun, ?_⟩
    rw [hrun]
    exact ⟨crlf_iff.mp hcss, iff_of_true hcss (by simp), fun _ => hcss⟩
  | some settings =>
    have hrun : set.run { sheet with source } =
        some ((Pass.ofSettings settings).run { sheet with source }) := by
      rw [OptionSet.run, hselect]
      rfl
    obtain ⟨cs, hr, hcs⟩ := (Pass.ofSettings settings).exists_respells_runNodes sheet.nodes
    obtain ⟨u, hjoined, -, hu, hpatch, -⟩ := exists_spliced_patch? h hr source
    have hwhole : css = [] ++ Passage.joined (Passage.ofText css) := hjoined.symm
    have hgains := hu.gains (hunit settings hselect) hwhole hcs
    rw [hjoined, ← hu.copyLines_eq css false, ← Node.declarationsList_eq] at hgains
    have hfeeds := (hgains false false id (crlf_iff.mp hcss)).1
    refine ⟨_, set.convert_eq_patch source h hselect, ?_⟩
    rw [patch, hpatch, Option.getD_some, hrun]
    refine ⟨hfeeds, ?_, fun hreplace => ?_⟩
    · rw [crlf_iff, hfeeds]
      simp [Pass.run, Stylesheet.declarations]
    · rw [crlf_iff, hfeeds]
      exact Pass.copyLines_runNodes _ (hreplace settings rfl) h

/-- A copy on a line of its own, where lines end in a carriage return and a line feed. -/
theorem OptionSet.convert_lineEnds_copy :
    ∃ sheet c, Stylesheet.parse "a \x7b\r\n  font-size: 16px;\r\n\x7d".toList = .ok sheet ∧
      Crlf "a \x7b\r\n  font-size: 16px;\r\n\x7d".toList ∧
      OptionSet.convert ⟨[{ replace := some false }]⟩ none
        "a \x7b\r\n  font-size: 16px;\r\n\x7d".toList = .ok c ∧
      c.text = "a \x7b\r\n  font-size: 16px;\n  font-size: 1rem;\r\n\x7d".toList ∧
      bareFeeds false c.text = 1 ∧ ¬ Crlf c.text := by
  have hparse : Stylesheet.parse "a \x7b\r\n  font-size: 16px;\r\n\x7d".toList =
      .ok ⟨none, [.rule "a".toList [.declaration
        ⟨"font-size".toList, "16px".toList, false, some ⟨7, 18, 22, 22, some 22⟩⟩]]⟩ := by
    cbv
  have hcss : Crlf "a \x7b\r\n  font-size: 16px;\r\n\x7d".toList := by
    decide
  have htext : (OptionSet.convert ⟨[{ replace := some false }]⟩ none
      "a \x7b\r\n  font-size: 16px;\r\n\x7d".toList).toOption.map Converted.text =
        some "a \x7b\r\n  font-size: 16px;\n  font-size: 1rem;\r\n\x7d".toList := by
    decide +kernel
  obtain ⟨c, hc, hfeeds, -⟩ := OptionSet.convert_lineEnds ⟨[{ replace := some false }]⟩ none hparse
    hcss fun settings hselect => by
      cases hselect
      change '\n' ∉ "rem".toList
      decide
  rw [hc] at htext
  have hone : bareFeeds false c.text = 1 := hfeeds.trans (by decide +kernel)
  refine ⟨_, c, hparse, hcss, hc, Option.some.inj htext, hone, fun hcrlf => ?_⟩
  rw [crlf_iff.mp hcrlf] at hone
  cases hone

end PixelScale
