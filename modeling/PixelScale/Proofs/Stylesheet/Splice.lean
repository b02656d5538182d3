import PixelScale.Proofs.Stylesheet.Form
import PixelScale.Proofs.Stylesheet.Revision

/-!
# Writing changes into a text

A text is patched by the edits that its revised tree asks for. These edits stand in the order of the
text and do not overlap, since every passage of the text asks only for edits inside of itself or at
its end. So all of them are made, each where it belongs, and every other character is kept. The
new text is again known passage by passage.

* `Edit.Made`: a text with edits made one after another.
* `Edit.Made.splice?`: edits that can be made one after another are made.
* `Spliced`: the passages of a text, with what is written for each of them.
* `patch_made`: patching makes the edits of a revision, and no others.
-/

namespace PixelScale.Stylesheet

open Text

/-! ## Making edits -/

namespace Edit

/-- A text that starts at the byte `n` becomes another one by making edits one after another. What
stands between the edits is kept. -/
inductive Made : Nat → Text → List Edit → Text → Prop
  | done {n : Nat} {t : Text} : Made n t [] t
  | edit {n : Nat} {e : Edit} {kept old t u : Text} {es : List Edit} :
      e.start = n + kept.bytes → e.stop = e.start + old.bytes → Made e.stop t es u →
      Made n (kept ++ old ++ t) (e :: es) (kept ++ e.text ++ u)

variable {n : Nat} {t u : Text} {es : List Edit}

/-- A text in front of all edits is kept. -/
theorem Made.keep {kept : Text} (h : Made (n + kept.bytes) t es u) :
    Made n (kept ++ t) es (kept ++ u) := by
  cases h with
  | done => exact .done
  | @edit _ e kept' old t u es hstart hstop h =>
    have hstart' : e.start = n + (kept ++ kept').bytes := by
      rw [hstart, bytes_append, Nat.add_assoc]
    have := Made.edit hstart' hstop h
    simpa using this

theorem Made.insert {new : Text} (h : Made n t es u) : Made n t (⟨n, n, new⟩ :: es) (new ++ u) := by
  have := @Made.edit n ⟨n, n, new⟩ [] [] _ _ _ rfl rfl h
  simpa using this

theorem Made.replace {old : Text} (new : Text) (h : Made (n + old.bytes) t es u) :
    Made n (old ++ t) (⟨n, n + old.bytes, new⟩ :: es) (new ++ u) := by
  have := @Made.edit n ⟨n, n + old.bytes, new⟩ [] _ _ _ _ rfl rfl h
  simpa using this

theorem Made.inserts {α : Type} {f : α → Edit} (new : α → Text)
    (hf : ∀ a, f a = ⟨n, n, new a⟩) (as : List α) (h : Made n t es u) :
    Made n t (as.map f ++ es) (as.flatMap new ++ u) := by
  induction as with
  | nil => exact h
  | cons a as ih =>
    rw [List.map_cons, List.cons_append, List.flatMap_cons, List.append_assoc, hf a]
    exact ih.insert

theorem Made.bounds (h : Made n t es u) : ∀ e ∈ es, n ≤ e.start ∧ e.start ≤ e.stop := by
  induction h with
  | done => simp
  | @edit n e kept old t u es hstart hstop _ ih =>
    intro f hf
    rcases List.mem_cons.mp hf with rfl | hf
    · omega
    · have := ih f hf
      omega

/-- Edits that are made one after another stand in order. -/
theorem Made.pairwise (h : Made n t es u) : es.Pairwise fun a b => a.le b = true := by
  induction h with
  | done => exact .nil
  | @edit n e kept old t u es hstart hstop h ih =>
    refine List.pairwise_cons.mpr ⟨fun f hf => ?_, ih⟩
    have hbounds := h.bounds f hf
    simp only [le, Bool.or_eq_true, Bool.and_eq_true, decide_eq_true_eq, beq_iff_eq]
    omega

theorem Made.spliceFrom? (h : Made n t es u) {before : Text} (hn : before.bytes = n) :
    spliceFrom? (before ++ t) n es = some u := by
  induction h generalizing before with
  | done =>
    subst hn
    exact dropBytes?_append before _
  | @edit n e kept old t u es hstart hstop _ ih =>
    subst hn
    have hslice : slice? (before ++ (kept ++ old ++ t)) before.bytes e.start = some kept := by
      have := slice?_append before kept (old ++ t)
      rw [hstart]
      simpa using this
    have hrest := @ih (before ++ kept ++ old) (by simp [hstart, hstop, Nat.add_assoc])
    rw [Edit.spliceFrom?, if_neg (by omega), hslice]
    simp only [List.append_assoc] at hrest ⊢
    simp [hrest]

/-- Edits that can be made one after another are made. -/
theorem Made.splice? (h : Made 0 t es u) : splice? t es = some u := by
  rw [Edit.splice?, List.mergeSort_of_pairwise h.pairwise]
  exact @Made.spliceFrom? _ _ _ _ h [] rfl

/-- There is one way to make edits. -/
theorem Made.unique {v : Text} (h : Made 0 t es u) (h' : Made 0 t es v) : u = v := by
  have := h.splice?
  rw [h'.splice?] at this
  cases this
  rfl

/-! ## The edits of a row -/

/-- The edits that a row of statements asks for, where a tree has this row. -/
def ofRow? (text : Text) (anchor : Option (Declaration × DeclarationSpan)) :
    List Statement → Option (List Edit)
  | [] => some []
  | .declaration d :: rest =>
    match d.span with
    | some span => do
      return (← ofChanged? text d span).toList ++ (← ofRow? text (some (d, span)) rest)
    | none => do
      let (base, span) ← anchor
      return (← ofCopy? text base span d) :: (← ofRow? text anchor rest)
  | .opening (.atRule head) _ :: rest | .atStatement head :: rest => do
    return (← ofHead? text head) ++ (← ofRow? text none rest)
  | _ :: rest => ofRow? text none rest

mutual

theorem ofNode?_eq (text : Text) (n : Node) (hn : ∀ d, n ≠ .declaration d)
    (anchor : Option (Declaration × DeclarationSpan)) (rest : List Statement) :
    ofRow? text anchor (n.statements ++ rest) =
      (do return (← ofNode? text n) ++ (← ofRow? text none rest)) := by
  cases n with
  | rule selector nodes =>
    have ih := ofNodes?_eq text nodes none (.closing 0 :: rest) fun _ _ => rfl
    simp only [Node.statements, List.cons_append, List.append_assoc, List.nil_append, ofRow?,
      ofNode?, ih]
  | atRule head nodes =>
    have ih := ofNodes?_eq text nodes none (.closing 0 :: rest) fun _ _ => rfl
    simp only [Node.statements, List.cons_append, List.append_assoc, List.nil_append, ofRow?,
      ofNode?, ih]
    cases ofHead? text head <;> cases ofNodes? text none nodes <;> cases ofRow? text none rest <;>
      simp
  | atStatement head => simp [Node.statements, ofRow?, ofNode?]
  | declaration d => exact absurd rfl (hn d)
  | comment body => simp [Node.statements, ofRow?, ofNode?]

/-- A tree asks for the edits of its row. -/
theorem ofNodes?_eq (text : Text) (ns : List Node)
    (anchor : Option (Declaration × DeclarationSpan)) (rest : List Statement)
    (hrest : ∀ a b, ofRow? text a rest = ofRow? text b rest) :
    ofRow? text anchor (Node.statementsList ns ++ rest) =
      (do return (← ofNodes? text anchor ns) ++ (← ofRow? text none rest)) := by
  cases ns with
  | nil =>
    simp only [Node.statementsList, List.nil_append, ofNodes?, hrest anchor none]
    cases ofRow? text none rest <;> rfl
  | cons n ns =>
    rw [Node.statementsList, List.append_assoc]
    rcases n.exists_declaration_or with ⟨d, rfl⟩ | hn
    · simp only [Node.statements, List.cons_append, List.nil_append, ofRow?, ofNodes?]
      cases hd : d.span with
      | some span =>
        have ih := ofNodes?_eq text ns (some (d, span)) rest hrest
        simp only [ih]
        cases ofChanged? text d span <;> cases ofNodes? text (some (d, span)) ns <;>
          cases ofRow? text none rest <;> simp
      | none =>
        have ih := ofNodes?_eq text ns anchor rest hrest
        cases anchor with
        | none => rfl
        | some base =>
          obtain ⟨base, span⟩ := base
          simp only [ih]
          simp only [Option.bind_eq_bind, Option.bind_some]
          cases ofCopy? text base span d <;> cases ofNodes? text (some (base, span)) ns <;>
            cases ofRow? text none rest <;> simp
    · have ih := ofNodes?_eq text ns none rest hrest
      rw [ofNode?_eq text n hn anchor, ih, ofNodes?]
      · cases ofNode? text n <;> cases ofNodes? text none ns <;> cases ofRow? text none rest <;>
          simp
      · exact hn

end

theorem ofNodes?_eq_ofRow? (text : Text) (ns : List Node) :
    ofNodes? text none ns = ofRow? text none (Node.statementsList ns) := by
  have := ofNodes?_eq text ns none [] fun _ _ => rfl
  rw [List.append_nil] at this
  rw [this]
  cases ofNodes? text none ns <;> simp [ofRow?]

end Edit

/-! ## What is written for a declaration -/

/-- The white space at the end of a text, from its last line feed on. -/
def indentBehind (front : Text) : Text :=
  let blanks := front.drop (trimBlankRight front).length
  match splitLast '\n' blanks with
  | some (_, behind) => '\n' :: behind
  | none => blanks

theorem indentBefore?_append (front t : Text) :
    Edit.indentBefore? (front ++ t) front.bytes = some (indentBehind front) := by
  simp only [Edit.indentBefore?, takeBytes?_append, indentBehind]
  rfl

theorem blank_indentBehind (front : Text) : Blank (indentBehind front) := by
  have hblanks : Blank (front.drop (trimBlankRight front).length) := by
    obtain ⟨b, hb, heq⟩ := exists_trimBlankRight_append_blank front
    rw [heq, trimBlankRight_append_blank _ hb, trimBlankRight_eq_self (sharpRight_trimBlankRight _),
      List.drop_left]
    exact hb
  unfold indentBehind
  dsimp only
  split
  · rename_i a behind heq
    rw [(splitLast_eq_some_iff.mp heq).1] at hblanks
    exact (blank_append.mp hblanks).2
  · exact hblanks

/-- A slice is found where it stands. -/
theorem slice?_eq {css r s t : Text} {n m : Nat} (h : css = r ++ s ++ t) (hn : n = r.bytes)
    (hm : m = n + s.bytes) : slice? css n m = some s := by
  rw [h, hm, hn]
  exact slice?_append r s t

/-- The semicolon behind a statement that ends in front of the given offset. -/
def Stop.semicolon? (offset : Nat) : Stop → Option Nat
  | semicolon => some offset
  | _ => none

namespace Form

def withValue (x : Form) (value : Text) : Form := { x with value }

/-- What is written over a declaration. -/
def base (x : Form) (new : Declaration) : Text :=
  if new.property ≠ trimBlank x.front ∨ new.important ≠ !x.mark.isEmpty then new.print
  else (x.withValue new.value).core

/-- What is written for a declaration, what ends it, and its copies. -/
def written (x : Form) (indent : Text) (new : Declaration) (copies : List Text) : Stop → Text
  | .nothing =>
    x.lead ++ x.base new ++ copies.flatMap (fun v => ';' :: (indent ++ (x.withValue v).core)) ++
      x.trail
  | stop =>
    x.lead ++ x.base new ++ x.trail ++ stop.text ++
      copies.flatMap fun v => indent ++ (x.withValue v).core ++ [';']

section

variable {x : Form} {before rest css : Text}

theorem slice_front (h : css = before ++ x.text ++ rest) (semicolon : Option Nat) :
    slice? css (x.span (Place.start.after before) semicolon).start
      (x.span (Place.start.after before) semicolon).valueStart =
        some (x.front ++ ':' :: x.gap) := by
  refine slice?_eq (r := before ++ x.lead) (t := x.value ++ x.mark ++ x.trail ++ rest) ?_ ?_ ?_
  · rw [h]
    simp [text, core]
  · simp [span, Place.after, Place.start]
  · simp [span, show ':'.utf8Size = 1 from rfl, Nat.add_assoc]

theorem slice_value (h : css = before ++ x.text ++ rest) (semicolon : Option Nat) :
    slice? css (x.span (Place.start.after before) semicolon).valueStart
      (x.span (Place.start.after before) semicolon).valueStop = some x.value := by
  refine slice?_eq (r := before ++ x.lead ++ x.front ++ ':' :: x.gap)
    (t := x.mark ++ x.trail ++ rest) ?_ ?_ ?_
  · rw [h]
    simp [text, core]
  · simp [span, Place.after, Place.start, show ':'.utf8Size = 1 from rfl, Nat.add_assoc]
  · simp [span]

theorem slice_mark (h : css = before ++ x.text ++ rest) (semicolon : Option Nat) :
    slice? css (x.span (Place.start.after before) semicolon).valueStop
      (x.span (Place.start.after before) semicolon).stop = some x.mark := by
  refine slice?_eq (r := before ++ x.lead ++ x.front ++ ':' :: x.gap ++ x.value)
    (t := x.trail ++ rest) ?_ ?_ ?_
  · rw [h]
    simp [text, core]
  · simp [span, Place.after, Place.start, show ':'.utf8Size = 1 from rfl, Nat.add_assoc]
  · simp [span]

theorem indentBefore?_span (h : css = before ++ x.text ++ rest) (semicolon : Option Nat) :
    Edit.indentBefore? css (x.span (Place.start.after before) semicolon).start =
      some (indentBehind (before ++ x.lead)) := by
  have := indentBefore?_append (before ++ x.lead) (x.core ++ x.trail ++ rest)
  rw [h]
  simpa [span, Place.after, Place.start, text] using this

/-- The edit for a copy of a declaration. -/
theorem copyEdit_span (h : css = before ++ x.text ++ rest) (semicolon : Option Nat) (v : Text) :
    Update.copyEdit css (x.span (Place.start.after before) semicolon) v =
      match semicolon with
      | some n => ⟨n + 1, n + 1, indentBehind (before ++ x.lead) ++ (x.withValue v).core ++ [';']⟩
      | none => ⟨(x.span (Place.start.after before) semicolon).stop,
          (x.span (Place.start.after before) semicolon).stop,
          ';' :: (indentBehind (before ++ x.lead) ++ (x.withValue v).core)⟩ := by
  simp only [Update.copyEdit, slice_front h, slice_mark h, indentBefore?_span h, Option.getD_some]
  cases semicolon <;> simp [span, withValue, core]

/-- A copy asks for this edit. -/
theorem ofCopy?_span (h : css = before ++ x.text ++ rest) (semicolon : Option Nat)
    (new : Declaration) (v : Text) :
    Edit.ofCopy? css new (x.span (Place.start.after before) semicolon) (new.withValue v) =
      some (Update.copyEdit css (x.span (Place.start.after before) semicolon) v) := by
  rw [copyEdit_span h]
  simp only [Edit.ofCopy?, Declaration.withValue, slice_front h, slice_mark h,
    indentBefore?_span h]
  cases semicolon <;> simp [span, withValue, core]

/-- A declaration asks for the edit of its change. -/
theorem Fine.ofChanged?_span (hx : x.Fine) (h : css = before ++ x.text ++ rest)
    (semicolon : Option Nat) (new : Declaration) :
    (Edit.ofChanged? css new (x.span (Place.start.after before) semicolon)).map Option.toList =
      some (Update.baseEdits (x.declaration (Place.start.after before) semicolon) new
        (x.span (Place.start.after before) semicolon)) := by
  have hsplit : splitFirst ':' (x.front ++ ':' :: x.gap) = some (x.front, x.gap) :=
    splitFirst_eq_some_iff.mpr ⟨rfl, hx.colon⟩
  have himportant : decide ((x.span (Place.start.after before) semicolon).valueStop <
      (x.span (Place.start.after before) semicolon).stop) = !x.mark.isEmpty := by
    cases hm : x.mark with
    | nil => simp [span, hm]
    | cons c m =>
      have := c.utf8Size_pos
      simp [span, hm, this]
  have hcond : (new.property ≠ (x.declaration (Place.start.after before) semicolon).property ∨
      new.important ≠ (x.declaration (Place.start.after before) semicolon).important) ↔
      (trimBlank x.front ≠ new.property ∨ (!x.mark.isEmpty) ≠ new.important) :=
    or_congr ne_comm ne_comm
  unfold Edit.ofChanged? Update.baseEdits
  rw [slice_front h, slice_value h, himportant]
  simp only [Option.bind_eq_bind, Option.bind_some, hsplit]
  by_cases hkeep : trimBlank x.front ≠ new.property ∨ (!x.mark.isEmpty) ≠ new.important
  · rw [if_pos (hcond.mpr hkeep)]
    simp only [if_pos hkeep]
    rfl
  · rw [if_neg (hcond.not.mpr hkeep)]
    simp only [if_neg hkeep]
    by_cases hvalue : x.value = new.value
    · have hold : new.value = (x.declaration (Place.start.after before) semicolon).value :=
        hvalue.symm
      rw [if_pos hvalue, if_pos hold]
      rfl
    · have hold : new.value ≠ (x.declaration (Place.start.after before) semicolon).value :=
        Ne.symm hvalue
      rw [if_neg hvalue, if_neg hold]
      rfl

end

end Form

/-! ## The new text, passage by passage -/

/-- `Spliced before qs cs ss u` describes what is written for the passages `qs` that follow the text
`before`: with the changes `cs` of what was read from them the row of statements is `ss`, and the
text is `u`. -/
inductive Spliced : Text → List Passage → List Update → List Statement → Text → Prop
  | nil {before : Text} : Spliced before [] [] [] []
  | keep {before u : Text} {q : Passage} {qs : List Passage} {cs : List Update}
      {ss : List Statement} :
      (∀ s ∈ q.meaning (Place.start.after before), s.isKept = true) →
      Spliced (before ++ q.text) qs cs ss u →
      Spliced before (q :: qs) cs
        ((q.meaning (Place.start.after before)).toList.map Statement.unlined ++ ss) (q.text ++ u)
  | params {before name lead old trail new u : Text} {stop : Stop} {qs : List Passage}
      {cs : List Update} {ss : List Statement} {head : AtHead} :
      Blank lead → Blank trail → Trimmed old → (old = [] → trail = []) →
      Statement.atHead name (Place.start.after (before ++ Passage.sign (some name)))
        (lead ++ old ++ trail) = head →
      Spliced (before ++ (Passage.sign (some name) ++ (lead ++ old ++ trail) ++ stop.text)) qs cs
        ss u →
      Spliced before (.statement (some name) (lead ++ old ++ trail) stop :: qs)
        (.params head new :: cs) (stop.atRule { head with params := new } :: ss)
        (Passage.sign (some name) ++ (lead ++ new ++ trail) ++ stop.text ++ u)
  | declaration {before u : Text} {x : Form} {stop : Stop} {old new : Declaration}
      {copies : List Text} {qs : List Passage} {cs : List Update} {ss : List Statement} :
      x.Fine → stop ≠ .brace →
      x.declaration (Place.start.after before) (stop.semicolon? (before ++ x.text).bytes) = old →
      new.span = old.span →
      Spliced (before ++ (x.text ++ stop.text)) qs cs ss u →
      Spliced before (.statement none x.text stop :: qs) (.declaration old new copies :: cs)
        (.declaration new :: (copies.map fun v => .declaration (new.withValue v)) ++ ss)
        (x.written (indentBehind (before ++ x.lead)) new copies stop ++ u)

theorem atHead_frame {lead old trail : Text} (hl : Blank lead) (ho : Trimmed old)
    (ht : Blank trail) (hnil : old = [] → trail = []) (name : Text) (p : Place) :
    Statement.atHead name p (lead ++ old ++ trail) =
      ⟨name, old, some ⟨p.offset + lead.bytes, p.offset + lead.bytes + old.bytes⟩⟩ := by
  have hparams : trimBlank (lead ++ old ++ trail) = old := trimBlank_frame hl ho ht
  have hleft : trimBlankLeft (lead ++ old ++ trail) = old ++ trail := by
    rw [List.append_assoc, trimBlankLeft_blank_append hl]
    refine trimBlankLeft_eq_self (ho.left.append fun h => ?_)
    rw [hnil h]
    exact trimmed_nil.left
  have hstart : p.offset + (lead ++ old ++ trail).bytes - (old ++ trail).bytes =
      p.offset + lead.bytes := by
    simp only [bytes_append]
    omega
  simp only [Statement.atHead, hparams, hleft, hstart]

theorem meaning_atRule (before name raw : Text) (stop : Stop) :
    (Passage.meaning (Place.start.after before) (.statement (some name) raw stop)).toList.map
        Statement.unlined =
      [stop.atRule (Statement.atHead name (Place.start.after (before ++ Passage.sign (some name)))
        raw)] := by
  rw [Place.after_append]
  cases stop <;> rfl

theorem meaning_declaration (before raw : Text) {stop : Stop} (hstop : stop ≠ .brace) :
    Passage.meaning (Place.start.after before) (.statement none raw stop) =
      some (.ofBody none (Place.start.after before) raw
        (stop.semicolon? (before ++ raw).bytes)) := by
  cases stop with
  | brace => exact absurd rfl hstop
  | semicolon =>
    simp [Passage.meaning, Passage.sign, Stop.semicolon?, Place.after, Place.start]
  | nothing => rfl

@[simp] theorem isKept_unlined (s : Statement) : s.unlined.isKept = s.isKept := by
  cases s with
  | opening head line => cases head <;> rfl
  | _ => rfl

/-- Every revision of the statements of a text is written into its passages. -/
theorem exists_spliced {qs : List Passage} {before : Text} {cs : List Update} {ss : List Statement}
    (hbad : ∀ e, .bad e ∉ Passage.meanings (Place.start.after before) qs)
    (h : RevisesRow cs ((Passage.meanings (Place.start.after before) qs).map Statement.unlined)
      ss) :
    ∃ u, Spliced before qs cs ss u := by
  induction qs generalizing before cs ss with
  | nil =>
    cases h
    exact ⟨[], .nil⟩
  | cons q qs ih =>
    have hmeanings : Passage.meanings (Place.start.after before) (q :: qs) =
        (q.meaning (Place.start.after before)).toList ++
          Passage.meanings (Place.start.after (before ++ q.text)) qs := by
      rw [Passage.meanings, Place.after_append]
    rw [hmeanings] at hbad h
    rw [List.map_append] at h
    have hrest : ∀ e, .bad e ∉ Passage.meanings (Place.start.after (before ++ q.text)) qs :=
      fun e he => hbad e (List.mem_append_right _ he)
    have keep : (∀ s ∈ q.meaning (Place.start.after before), s.isKept = true) →
        ∃ u, Spliced before (q :: qs) cs ss u := by
      intro hkept
      cases hm : q.meaning (Place.start.after before) with
      | none =>
        rw [hm] at h
        obtain ⟨u, hu⟩ := ih hrest h
        have := Spliced.keep hkept hu
        rw [hm] at this
        exact ⟨_, this⟩
      | some s =>
        rw [hm] at h
        obtain ⟨ts, rfl, h'⟩ := RevisesRow.of_kept (by simpa using hkept s hm) h
        obtain ⟨u, hu⟩ := ih hrest h'
        have := Spliced.keep hkept hu
        rw [hm] at this
        exact ⟨_, this⟩
    cases q with
    | space c => exact keep fun s hs => by cases hs
    | comment body => exact keep fun s hs => by cases hs; rfl
    | closing => exact keep fun s hs => by cases hs; rfl
    | statement name raw stop =>
      cases name with
      | some name =>
        obtain ⟨lead, trail, hlead, htrail, hraw, -, hnil⟩ := exists_frame raw
        have hold := trimmed_trimBlank raw
        generalize trimBlank raw = old at hold hraw hnil
        subst hraw
        rw [meaning_atRule] at h
        obtain ⟨new, cs, ts, rfl, rfl, h'⟩ := RevisesRow.of_atRule h
        obtain ⟨u, hu⟩ := ih hrest h'
        exact ⟨_, .params hlead htrail hold hnil rfl hu⟩
      | none =>
        by_cases hstop : stop = .brace
        · subst hstop
          exact keep fun s hs => by cases hs; rfl
        · have hm := meaning_declaration before raw hstop
          rw [hm] at hbad h
          cases hd : Statement.declaration? (Place.start.after before) raw
              (stop.semicolon? (before ++ raw).bytes) with
          | error e =>
            refine absurd ?_ (hbad e)
            rw [Statement.ofBody, hd]
            exact List.mem_cons_self
          | ok d =>
            obtain ⟨x, hx, rfl⟩ := Form.exists_form hd
            simp only [Statement.ofBody, hx.declaration?_text] at h
            obtain ⟨new, copies, cs, ts, rfl, hspan, rfl, h'⟩ := RevisesRow.of_declaration h
            obtain ⟨u, hu⟩ := ih hrest h'
            exact ⟨_, .declaration hx hstop rfl hspan hu⟩

/-! ## The new text is made by the edits -/

theorem ofRow?_kept {css : Text} {s : Statement} (hs : s.isKept = true)
    (anchor : Option (Declaration × DeclarationSpan)) (ss : List Statement) :
    Edit.ofRow? css anchor (s :: ss) = Edit.ofRow? css none ss := by
  cases s with
  | comment text => rfl
  | closing line => rfl
  | opening head line =>
    cases head with
    | rule selector => rfl
    | atRule head => cases hs
  | declaration d => cases hs
  | atStatement head => cases hs
  | bad e => cases hs

theorem ofRow?_atRule (css : Text) (stop : Stop) (head : AtHead)
    (anchor : Option (Declaration × DeclarationSpan)) (ss : List Statement) :
    Edit.ofRow? css anchor (stop.atRule head :: ss) =
      (do return (← Edit.ofHead? css head) ++ (← Edit.ofRow? css none ss)) := by
  cases stop <;> rfl

/-- The edits for copies of a declaration behind which they are written. -/
theorem ofRow?_copies {css : Text} {base : Declaration} {span : DeclarationSpan}
    (hcopy : ∀ v, Edit.ofCopy? css base span (base.withValue v) =
      some (Update.copyEdit css span v)) (copies : List Text) {ss : List Statement}
    {es : List Edit} (hss : Edit.ofRow? css (some (base, span)) ss = some es) :
    Edit.ofRow? css (some (base, span))
      ((copies.map fun v => .declaration (base.withValue v)) ++ ss) =
        some (copies.map (Update.copyEdit css span) ++ es) := by
  induction copies with
  | nil => exact hss
  | cons v copies ih =>
    simp only [List.map_cons, List.cons_append, Edit.ofRow?, Declaration.withValue] at ih ⊢
    rw [ih]
    have := hcopy v
    simp only [Declaration.withValue] at this
    simp [this]

namespace Form

variable {x : Form} {before rest css : Text} {es : List Edit} {t u : Text}

/-- The edit of a declaration is made where it stands. -/
theorem made_base (semicolon : Option Nat) (new : Declaration)
    (h : Edit.Made ((before ++ x.lead).bytes + x.core.bytes) t es u) :
    Edit.Made (before ++ x.lead).bytes (x.core ++ t)
      (Update.baseEdits (x.declaration (Place.start.after before) semicolon) new
        (x.span (Place.start.after before) semicolon) ++ es) (x.base new ++ u) := by
  unfold Update.baseEdits base
  by_cases hnew : new.property ≠ trimBlank x.front ∨ new.important ≠ !x.mark.isEmpty
  · have hold : new.property ≠ (x.declaration (Place.start.after before) semicolon).property ∨
        new.important ≠ (x.declaration (Place.start.after before) semicolon).important := hnew
    rw [if_pos hnew, if_pos hold]
    have hspan : (⟨(x.span (Place.start.after before) semicolon).start,
        (x.span (Place.start.after before) semicolon).stop, new.print⟩ : Edit) =
        ⟨(before ++ x.lead).bytes, (before ++ x.lead).bytes + x.core.bytes, new.print⟩ := by
      simp [span, Place.after, Place.start, core, show ':'.utf8Size = 1 from rfl]
      omega
    rw [hspan]
    exact h.replace _
  · have hold : ¬ (new.property ≠ (x.declaration (Place.start.after before) semicolon).property ∨
        new.important ≠ (x.declaration (Place.start.after before) semicolon).important) := hnew
    rw [if_neg hnew, if_neg hold]
    have hbytes : (before ++ x.lead).bytes + (x.front ++ ':' :: x.gap).bytes + x.value.bytes +
        x.mark.bytes = (before ++ x.lead).bytes + x.core.bytes := by
      simp [core, Nat.add_assoc]
    rw [← hbytes] at h
    have hmark := h.keep
    have hstart : (x.span (Place.start.after before) semicolon).valueStart =
        (before ++ x.lead).bytes + (x.front ++ ':' :: x.gap).bytes := by
      simp [span, Place.after, Place.start, show ':'.utf8Size = 1 from rfl, Nat.add_assoc]
    have hstop : (x.span (Place.start.after before) semicolon).valueStop =
        (before ++ x.lead).bytes + (x.front ++ ':' :: x.gap).bytes + x.value.bytes := by
      rw [← hstart]
      rfl
    by_cases hvalue : new.value = (x.declaration (Place.start.after before) semicolon).value
    · rw [if_pos hvalue, show new.value = x.value from hvalue]
      have := (hmark.keep).keep
      simpa [core, withValue] using this
    · rw [if_neg hvalue, hstart, hstop]
      have := (hmark.replace new.value).keep
      simpa [core, withValue] using this

/-- The edits of a declaration and of its copies are made where they belong. -/
theorem made_written {stop : Stop} (hstop : stop ≠ .brace) (hcss : css = before ++ x.text ++ rest)
    (new : Declaration) (copies : List Text)
    (h : Edit.Made (before ++ (x.text ++ stop.text)).bytes t es u) :
    Edit.Made before.bytes (x.text ++ stop.text ++ t)
      (Update.baseEdits
          (x.declaration (Place.start.after before) (stop.semicolon? (before ++ x.text).bytes)) new
          (x.span (Place.start.after before) (stop.semicolon? (before ++ x.text).bytes)) ++
        (copies.map (Update.copyEdit css
          (x.span (Place.start.after before) (stop.semicolon? (before ++ x.text).bytes))) ++ es))
      (x.written (indentBehind (before ++ x.lead)) new copies stop ++ u) := by
  cases stop with
  | brace => exact absurd rfl hstop
  | semicolon =>
    have hcopies := Edit.Made.inserts (n := (before ++ (x.text ++ [';'])).bytes)
      (f := Update.copyEdit css (x.span (Place.start.after before) (some (before ++ x.text).bytes)))
      (fun v => indentBehind (before ++ x.lead) ++ (x.withValue v).core ++ [';'])
      (fun v => by
        rw [copyEdit_span hcss]
        simp [show ';'.utf8Size = 1 from rfl, Nat.add_assoc]) copies h
    have hbytes : (before ++ (x.text ++ [';'])).bytes =
        (before ++ x.lead).bytes + x.core.bytes + (x.trail ++ [';']).bytes := by
      simp [text, Nat.add_assoc]
    rw [hbytes] at hcopies
    have hbase := made_base (some (before ++ x.text).bytes) new hcopies.keep
    rw [bytes_append] at hbase
    have := hbase.keep
    simpa [text, written, Stop.semicolon?, Stop.text] using this
  | nothing =>
    have hbytes : (before ++ (x.text ++ [])).bytes =
        (before ++ x.lead).bytes + x.core.bytes + x.trail.bytes := by
      simp [text, Nat.add_assoc]
    rw [Stop.text, hbytes] at h
    have hcopies := Edit.Made.inserts (n := (before ++ x.lead).bytes + x.core.bytes)
      (f := Update.copyEdit css (x.span (Place.start.after before) none))
      (fun v => ';' :: (indentBehind (before ++ x.lead) ++ (x.withValue v).core))
      (fun v => by
        rw [copyEdit_span hcss]
        simp [span, Place.after, Place.start, core, show ':'.utf8Size = 1 from rfl]
        omega) copies h.keep
    have hbase := made_base none new hcopies
    rw [bytes_append] at hbase
    have := hbase.keep
    simpa [text, written, Stop.semicolon?, Stop.text] using this

end Form

/-- The parameters of an at-rule ask for the edits of their update. -/
theorem ofHead?_span {front old behind css : Text} (h : css = front ++ old ++ behind)
    (name new : Text) :
    Edit.ofHead? css ⟨name, new, some ⟨front.bytes, front.bytes + old.bytes⟩⟩ =
      some (Update.edits css
        (.params ⟨name, old, some ⟨front.bytes, front.bytes + old.bytes⟩⟩ new)) := by
  have hslice : slice? css front.bytes (front.bytes + old.bytes) = some old := slice?_eq h rfl rfl
  simp only [Edit.ofHead?, Option.bind_eq_bind, Option.bind_some, hslice]
  rfl

/-- The edit of parameters is made where they stand. -/
theorem made_params (css name before front old behind new : Text) {t u : Text} {es : List Edit}
    (h : Edit.Made (before ++ (front ++ old ++ behind)).bytes t es u) :
    Edit.Made before.bytes (front ++ old ++ behind ++ t)
      (Update.edits css (.params ⟨name, old,
        some ⟨(before ++ front).bytes, (before ++ front).bytes + old.bytes⟩⟩ new) ++ es)
      (front ++ new ++ behind ++ u) := by
  have hbytes : (before ++ (front ++ old ++ behind)).bytes =
      before.bytes + front.bytes + old.bytes + behind.bytes := by
    simp [Nat.add_assoc]
  have hedits : Update.edits css (.params ⟨name, old,
      some ⟨(before ++ front).bytes, (before ++ front).bytes + old.bytes⟩⟩ new) =
      if old = new then [] else
        [⟨before.bytes + front.bytes, before.bytes + front.bytes + old.bytes, new⟩] := by
    rw [bytes_append]
    rfl
  rw [hbytes] at h
  rw [hedits]
  by_cases hnew : old = new
  · subst hnew
    have := h.keep.keep.keep
    simpa using this
  · rw [if_neg hnew]
    have := (h.keep.replace new).keep
    simpa using this

/-- What is written for the passages of a text is made by the edits that its statements ask for,
and these are the edits of its changes. -/
theorem Spliced.edits {before u css : Text} {qs : List Passage} {cs : List Update}
    {ss : List Statement} (h : Spliced before qs cs ss u)
    (hcss : css = before ++ Passage.joined qs) (anchor : Option (Declaration × DeclarationSpan)) :
    Edit.ofRow? css anchor ss = some (cs.flatMap (Update.edits css)) ∧
      Edit.Made before.bytes (Passage.joined qs) (cs.flatMap (Update.edits css)) u := by
  induction h generalizing anchor with
  | nil => exact ⟨rfl, .done⟩
  | @keep before u q qs cs ss hkept _ ih =>
    have hrest : css = before ++ q.text ++ Passage.joined qs := by
      rw [hcss]
      simp
    refine ⟨?_, ?_⟩
    · cases hm : q.meaning (Place.start.after before) with
      | none => exact (ih hrest anchor).1
      | some s =>
        have hs : s.unlined.isKept = true := by simpa using hkept s hm
        exact (ofRow?_kept hs anchor ss).trans (ih hrest none).1
    · have := (ih hrest none).2
      rw [bytes_append] at this
      exact this.keep
  | @params before name lead old trail new u stop qs cs ss head hl ht ho hnil hhead _ ih =>
    have hrest : css =
        before ++ (Passage.sign (some name) ++ (lead ++ old ++ trail) ++ stop.text) ++
          Passage.joined qs := by
      rw [hcss]
      simp [Passage.text]
    obtain ⟨hrow, hmade⟩ := ih hrest none
    rw [atHead_frame hl ho ht hnil] at hhead
    subst hhead
    have hplace : (Place.start.after (before ++ Passage.sign (some name))).offset + lead.bytes =
        (before ++ (Passage.sign (some name) ++ lead)).bytes := by
      simp [Place.after, Place.start, Nat.add_assoc]
    have hfront : css = before ++ (Passage.sign (some name) ++ lead) ++ old ++
        (trail ++ stop.text ++ Passage.joined qs) := by
      rw [hrest]
      simp
    rw [hplace, List.flatMap_cons]
    refine ⟨?_, ?_⟩
    · rw [ofRow?_atRule, hrow, ofHead?_span hfront]
      rfl
    · have := made_params css name before (Passage.sign (some name) ++ lead) old
        (trail ++ stop.text) new (by simpa using hmade)
      simpa [Passage.text] using this
  | @declaration before u x stop old new copies qs cs ss hx hstop hold hspan _ ih =>
    have hrest : css = before ++ (x.text ++ stop.text) ++ Passage.joined qs := by
      rw [hcss]
      simp [Passage.text, Passage.sign]
    have htext : css = before ++ x.text ++ (stop.text ++ Passage.joined qs) := by
      rw [hrest]
      simp
    subst hold
    have hedits : Update.edits css (.declaration
        (x.declaration (Place.start.after before) (stop.semicolon? (before ++ x.text).bytes)) new
        copies) = Update.baseEdits
          (x.declaration (Place.start.after before) (stop.semicolon? (before ++ x.text).bytes)) new
          (x.span (Place.start.after before) (stop.semicolon? (before ++ x.text).bytes)) ++
        copies.map (Update.copyEdit css
          (x.span (Place.start.after before) (stop.semicolon? (before ++ x.text).bytes))) := rfl
    rw [List.flatMap_cons, hedits, List.append_assoc]
    refine ⟨?_, ?_⟩
    · have hcopies := ofRow?_copies (fun v => Form.ofCopy?_span htext
        (stop.semicolon? (before ++ x.text).bytes) new v) copies (ih hrest _).1
      have hbase := hx.ofChanged?_span htext (stop.semicolon? (before ++ x.text).bytes) new
      obtain ⟨edit, hedit, hlist⟩ := Option.map_eq_some_iff.mp hbase
      have hnew : new.span =
          some (x.span (Place.start.after before) (stop.semicolon? (before ++ x.text).bytes)) :=
        hspan
      simp only [List.cons_append, Edit.ofRow?, hnew, Option.bind_eq_bind, hedit, Option.bind_some,
        hcopies, hlist]
      rfl
    · have := Form.made_written hstop htext new copies (ih hrest none).2
      simpa [Passage.text, Passage.sign] using this

/-- A revision of a tree that was read has its place in the text: it is written into the passages of
the text by making its edits. -/
theorem exists_spliced_patch? {css : Text} {sheet : Stylesheet} (h : parse css = .ok sheet)
    {cs : List Update} {ms : List Node} (hr : Revises cs sheet.nodes ms) (source : Option Text) :
    ∃ u, Passage.joined (Passage.ofText css) = css ∧ Passage.Valid (Passage.ofText css) ∧
      Spliced [] (Passage.ofText css) cs (Node.statementsList ms) u ∧
      patch? ⟨source, ms⟩ css = some u ∧
      Edit.Made 0 css (cs.flatMap (Update.edits css)) u := by
  obtain ⟨-, hrow, hbad⟩ := parse_ok h
  obtain ⟨hjoined, hvalid, hmeanings⟩ := Passage.ofText_spec hbad
  rw [hmeanings] at hrow hbad
  have hrr := hr.row
  rw [hrow] at hrr
  obtain ⟨u, hu⟩ := @exists_spliced _ [] _ _ hbad hrr
  obtain ⟨hes, hmade⟩ := @Spliced.edits _ _ css _ _ _ hu (by simp [hjoined]) none
  rw [hjoined] at hmade
  refine ⟨u, hjoined, hvalid, hu, ?_, hmade⟩
  rw [patch?, Edit.ofNodes?_eq_ofRow?, hes]
  exact hmade.splice?

/-- A revision of a tree that was read has its place in the text: patching the text makes the edits
of the revision, each once and in the order of the text, and keeps every other character. A tree
that did not change leaves the text as it is. -/
theorem patch_made {css : Text} {sheet : Stylesheet} (h : parse css = .ok sheet)
    {cs : List Update} {ms : List Node} (hr : Revises cs sheet.nodes ms) (source : Option Text) :
    (∃ u, patch? ⟨source, ms⟩ css = some u ∧ patch ⟨source, ms⟩ css = u ∧
      Edit.Made 0 css (cs.flatMap (Update.edits css)) u) ∧ sheet.patch css = css := by
  constructor
  · obtain ⟨u, -, -, -, hpatch, hmade⟩ := exists_spliced_patch? h hr source
    exact ⟨u, hpatch, by rw [patch, hpatch]; rfl, hmade⟩
  · obtain ⟨cs', hself, hnone⟩ := exists_revises_self css sheet.nodes
    obtain ⟨u, -, -, -, hpatch, hmade⟩ := exists_spliced_patch? h hself sheet.source
    rw [hnone] at hmade
    rw [patch, hpatch, Option.getD_some]
    exact hmade.unique .done

/-- A changed value and a copy. -/
theorem patch_made_copy :
    ∃ u, patch? ⟨none, [.rule "a".toList
        [.declaration ⟨"top".toList, "2px".toList, false, some ⟨4, 9, 12, 12, some 12⟩⟩,
          .declaration ⟨"top".toList, "3px".toList, false, none⟩]]⟩
        "a \x7b top: 1px; \x7d".toList = some u ∧
      patch ⟨none, [.rule "a".toList
        [.declaration ⟨"top".toList, "2px".toList, false, some ⟨4, 9, 12, 12, some 12⟩⟩,
          .declaration ⟨"top".toList, "3px".toList, false, none⟩]]⟩
        "a \x7b top: 1px; \x7d".toList = u ∧
      Edit.Made 0 "a \x7b top: 1px; \x7d".toList
        [⟨9, 12, "2px".toList⟩, ⟨13, 13, " top: 3px;".toList⟩] u := by
  have hparse : parse "a \x7b top: 1px; \x7d".toList = .ok ⟨none, [.rule "a".toList
      [.declaration ⟨"top".toList, "1px".toList, false, some ⟨4, 9, 12, 12, some 12⟩⟩]]⟩ := by
    cbv
  have hedits : Update.edits "a \x7b top: 1px; \x7d".toList (.declaration
      ⟨"top".toList, "1px".toList, false, some ⟨4, 9, 12, 12, some 12⟩⟩
      ⟨"top".toList, "2px".toList, false, some ⟨4, 9, 12, 12, some 12⟩⟩ ["3px".toList]) =
        [⟨9, 12, "2px".toList⟩, ⟨13, 13, " top: 3px;".toList⟩] := by
    cbv
  have := (patch_made hparse (.rule (@Revises.declaration [] [] [] _
    ⟨"top".toList, "2px".toList, false, some ⟨4, 9, 12, 12, some 12⟩⟩ ["3px".toList] rfl .nil) .nil)
    none).1
  simp only [List.append_nil, List.flatMap_singleton, hedits] at this
  exact this

end PixelScale.Stylesheet
