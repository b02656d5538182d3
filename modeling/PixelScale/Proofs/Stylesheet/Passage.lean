import PixelScale.Proofs.Stylesheet.Scan

/-!
# Passages

A stylesheet without unclosed strings and comments falls into passages, one after another: single
characters between statements, comments, closing braces, and statements with the semicolon or the
brace that ends them. A row of passages knows every character of the text, and a row in which
every passage fits in front of the next one is the row of its text. Reading a text is therefore
the same as writing it as a row of fitting passages.

* `Passage.ofText`: the passages of a text.
* `row_text_append`: a fitting passage is read off a text as its statement.
* `fits_or_bad`: a text starts with a fitting passage, or else it has no tree.
* `Passage.ofText_spec`: the passages of a text that can be read make up the text, fit in front of
  each other, and have its statements as their meanings.
-/

namespace PixelScale.Stylesheet

open Text

/-- What stands behind a statement. -/
inductive Stop where
  | brace
  | semicolon
  /-- a closing brace that is not its own, or the end of the text -/
  | nothing
deriving DecidableEq, Repr

def Stop.text : Stop → Text
  | brace => ['{']
  | semicolon => [';']
  | nothing => []

/-- A part of a stylesheet that is read in one go. -/
inductive Passage where
  /-- a blank, or a semicolon that ends nothing -/
  | space (c : Char)
  | comment (body : Text)
  | closing
  /-- a statement, with the name behind its `@` if it is an at-rule -/
  | statement (name : Option Text) (raw : Text) (stop : Stop)
deriving DecidableEq, Repr

namespace Passage

/-- The text in front of the raw text of a statement. -/
def sign : Option Text → Text
  | none => []
  | some name => '@' :: name

def text : Passage → Text
  | space c => [c]
  | comment body => '/' :: '*' :: body ++ ['*', '/']
  | closing => ['}']
  | statement name raw stop => sign name ++ raw ++ stop.text

/-- The text of a row of passages. -/
def joined (qs : List Passage) : Text := qs.flatMap text

/-- What a passage at a place stands for. -/
def meaning (p : Place) : Passage → Option Statement
  | space _ => none
  | comment body => some (.comment body)
  | closing => some (.closing p.line)
  | statement name raw stop =>
    let begun := p.after (sign name)
    match stop with
    | .brace => some (.opening (Statement.ofHead name begun raw) (begun.after raw).line)
    | .semicolon => some (Statement.ofBody name begun raw (some (begun.after raw).offset))
    | .nothing => some (Statement.ofBody name begun raw none)

/-- The statements of a row of passages at a place. -/
def meanings (p : Place) : List Passage → List Statement
  | [] => []
  | q :: qs => (q.meaning p).toList ++ meanings (p.after q.text) qs

/-- The number of parentheses that a passage leaves open. -/
def depth : Passage → Nat
  | statement _ raw _ => (Scan.start.halt raw).depth
  | _ => 0

/-! ## Taking a passage off a text -/

/-- Whether a character belongs to the name of an at-rule. -/
def isNameChar (c : Char) : Bool := c.isAlphanum || c == '-' || c == '_'

/-- The texts in front of and behind the end of a comment. -/
def endComment? : Text → Option (Text × Text)
  | [] => none
  | '*' :: '/' :: t => some ([], t)
  | c :: t => (endComment? t).map fun (a, b) => (c :: a, b)

/-- A statement with a given name, and what follows it. -/
def statement? (name : Option Text) (t : Text) : Option (Passage × Text) :=
  let raw := (Scan.start.split t).1
  if (Scan.start.halt t).isOutside then
    match (Scan.start.split t).2 with
    | '{' :: u => some (statement name raw .brace, u)
    | ';' :: u => some (statement name raw .semicolon, u)
    | u => some (statement name raw .nothing, u)
  else none

/-- The first passage of a text, and what follows it; none if a string or a comment in it is never
closed. -/
def first? (c : Char) (t : Text) : Option (Passage × Text) :=
  if isBlankAscii c || c == ';' then some (space c, t)
  else if c = '}' then some (closing, t)
  else if c = '@' then statement? (some (t.takeWhile isNameChar)) (t.dropWhile isNameChar)
  else if c = '/' ∧ t.head? = some '*' then
    (endComment? t.tail).map fun (body, u) => (comment body, u)
  else statement? none (c :: t)

theorem statement?_joined {name : Option Text} {t : Text} {q : Passage} {u : Text}
    (h : statement? name t = some (q, u)) : q.text ++ u = sign name ++ t := by
  have hsplit := Scan.split_append Scan.start t
  unfold statement? at h
  split at h
  · dsimp only at h
    split at h
    all_goals
      cases h
      simp_all [text, Stop.text]
  · cases h

theorem endComment?_joined {t a b : Text} (h : endComment? t = some (a, b)) :
    t = a ++ '*' :: '/' :: b := by
  fun_induction endComment? t generalizing a with
  | case1 => cases h
  | case2 t =>
    cases h
    rfl
  | case3 c t _ ih =>
    obtain ⟨⟨a', b'⟩, h', heq⟩ := Option.map_eq_some_iff.mp h
    cases heq
    simp [ih h']

theorem first?_joined {c : Char} {t : Text} {q : Passage} {u : Text}
    (h : first? c t = some (q, u)) : q.text ++ u = c :: t := by
  simp only [first?] at h
  split at h
  · cases h
    rfl
  split at h
  · rename_i hc
    cases h
    simp [text, hc]
  split at h
  · rename_i hc
    rw [statement?_joined h, hc]
    simp [sign, List.takeWhile_append_dropWhile]
  split at h
  · rename_i hc
    obtain ⟨⟨body, u'⟩, hb, heq⟩ := Option.map_eq_some_iff.mp h
    cases heq
    obtain ⟨rfl, hstar⟩ := hc
    obtain ⟨v, rfl⟩ := List.head?_eq_some_iff.mp hstar
    have ht := endComment?_joined hb
    simpa [text] using ht.symm
  · rw [statement?_joined h]
    rfl

/-! ## Passages that fit -/

/-- What a statement starts with: a name and no further character of it, or no character that
would make it something else. -/
def Begins : Option Text → Text → Prop
  | none, [] => False
  | none, c :: t => isBlankAscii c = false ∧ c ≠ ';' ∧ c ≠ '}' ∧ c ≠ '@' ∧
      ¬ (c = '/' ∧ t.head? = some '*')
  | some name, t => (∀ c ∈ name, isNameChar c = true) ∧ ∀ c ∈ t.head?, isNameChar c = false

end Passage

/-- Whether a statement that leaves `depth` parentheses open stops in front of a text. -/
def Stop.Fits (depth : Nat) (next : Text) : Stop → Prop
  | nothing => next = [] ∨ depth = 0 ∧ next.head? = some '}'
  | _ => depth = 0

namespace Passage

/-- Whether a passage is read as such where a text follows it. -/
def Fits (next : Text) : Passage → Prop
  | space c => isBlankAscii c = true ∨ c = ';'
  | comment body => endComment? (body ++ ['*', '/']) = some (body, [])
  | closing => True
  | statement name raw stop =>
    Begins name (raw ++ stop.text ++ next) ∧ Scan.Passes raw ∧
      stop.Fits (Scan.start.halt raw).depth next

/-- Every passage of a row fits in front of the next one. -/
def Valid : List Passage → Prop
  | [] => True
  | q :: qs => q.Fits (joined qs) ∧ Valid qs

@[simp] theorem joined_nil : joined [] = [] := rfl

@[simp] theorem joined_cons (q : Passage) (qs : List Passage) :
    joined (q :: qs) = q.text ++ joined qs := rfl

theorem text_ne_nil {q : Passage} {next : Text} (h : q.Fits next) : q.text ≠ [] := by
  cases q with
  | space c => simp [text]
  | comment body => simp [text]
  | closing => simp [text]
  | statement name raw stop =>
    obtain ⟨hb, -, hs⟩ := h
    cases name with
    | some name => simp [text, sign]
    | none =>
      cases stop with
      | brace => simp [text, Stop.text]
      | semicolon => simp [text, Stop.text]
      | nothing =>
        intro hraw
        have hraw : raw = [] := by simpa [text, sign, Stop.text] using hraw
        subst hraw
        rcases hs with rfl | ⟨-, hc⟩
        · exact hb
        · obtain ⟨u, rfl⟩ := List.head?_eq_some_iff.mp hc
          simp [Begins, Stop.text] at hb

/-- Where the reader stops, outside of strings and comments, at a character that is no brace or
semicolon of the statement. -/
theorem stop_nothing {u : Text} {s : Scan} (hu : u = [] ∨ ∃ c v, u = c :: v ∧ s.step c = none)
    (hb : ∀ v, u ≠ '{' :: v) (hs : ∀ v, u ≠ ';' :: v) : Stop.nothing.Fits s.depth u := by
  rcases hu with rfl | ⟨c, v, rfl, hc⟩
  · exact .inl rfl
  · obtain ⟨-, hd, ht⟩ := Scan.step_eq_none_iff.mp hc
    have hbrace : c ≠ '{' := fun h => hb v (by rw [h])
    have hsemi : c ≠ ';' := fun h => hs v (by rw [h])
    have : c = '}' := by simpa [Scan.isTerminator, hbrace, hsemi] using ht
    exact .inr ⟨hd, by rw [this]; rfl⟩

theorem statement?_fits {name : Option Text} {t : Text} {q : Passage} {u : Text}
    (hb : Begins name t) (h : statement? name t = some (q, u)) : q.Fits u := by
  have hsplit := Scan.split_append Scan.start t
  have hrun := Scan.run_split Scan.start t
  have hstop := Scan.split_stops Scan.start t
  have hhalt := Scan.halt_of_run hrun
  unfold statement? at h
  split at h
  · rename_i hout
    have hpass : Scan.Passes (Scan.start.split t).1 := by
      rw [Scan.Passes, hhalt]
      exact ⟨hrun, hout⟩
    dsimp only at h
    rw [← hsplit] at hb
    split at h
    · rename_i u' heq
      cases h
      rw [heq] at hstop hb
      obtain ⟨c, v, hcv, hc⟩ := hstop.resolve_left (by simp)
      refine ⟨by simpa [Stop.text] using hb, hpass, ?_⟩
      rw [hhalt]
      exact (Scan.step_eq_none_iff.mp hc).2.1
    · rename_i u' heq
      cases h
      rw [heq] at hstop hb
      obtain ⟨c, v, hcv, hc⟩ := hstop.resolve_left (by simp)
      refine ⟨by simpa [Stop.text] using hb, hpass, ?_⟩
      rw [hhalt]
      exact (Scan.step_eq_none_iff.mp hc).2.1
    · rename_i hbrace hsemi
      cases h
      refine ⟨by simpa [Stop.text] using hb, hpass, ?_⟩
      rw [hhalt]
      exact stop_nothing hstop hbrace hsemi
  · cases h

theorem statement?_of_fits {name : Option Text} {raw : Text} {stop : Stop} {next : Text}
    (hp : Scan.Passes raw) (hs : stop.Fits (Scan.start.halt raw).depth next) :
    statement? name (raw ++ stop.text ++ next) = some (statement name raw stop, next) := by
  have hnext : ∀ c ∈ (stop.text ++ next).head?, (Scan.start.halt raw).step c = none := by
    intro c hc
    rw [Scan.step_eq_none_iff]
    cases stop with
    | brace =>
      cases hc
      exact ⟨hp.2, hs, rfl⟩
    | semicolon =>
      cases hc
      exact ⟨hp.2, hs, rfl⟩
    | nothing =>
      rcases hs with rfl | ⟨hd, hc'⟩
      · cases hc
      · have : c = '}' := by simpa [Stop.text, hc'] using hc.symm
        exact ⟨hp.2, hd, by rw [this]; rfl⟩
  obtain ⟨hsplit, hhalt⟩ := Scan.split_of_run hp.1 hnext
  rw [List.append_assoc]
  unfold statement?
  rw [hsplit, hhalt, if_pos hp.2]
  cases stop with
  | brace => rfl
  | semicolon => rfl
  | nothing =>
    rcases hs with rfl | ⟨-, hc⟩
    · rfl
    · obtain ⟨u, rfl⟩ := List.head?_eq_some_iff.mp hc
      rfl

theorem endComment?_append {t a b : Text} (h : endComment? t = some (a, b)) (u : Text) :
    endComment? (t ++ u) = some (a, b ++ u) := by
  fun_induction endComment? t generalizing a with
  | case1 => cases h
  | case2 t =>
    cases h
    rfl
  | case3 c t hc ih =>
    obtain ⟨⟨a', b'⟩, h', heq⟩ := Option.map_eq_some_iff.mp h
    cases heq
    have := ih h'
    cases t with
    | nil => simp [endComment?] at h'
    | cons d t =>
      rw [List.cons_append, endComment?, this]
      · rfl
      · rintro v rfl heq
        cases heq
        exact hc t rfl rfl

theorem endComment?_fits {t a b : Text} (h : endComment? t = some (a, b)) :
    endComment? (a ++ ['*', '/']) = some (a, []) := by
  fun_induction endComment? t generalizing a with
  | case1 => cases h
  | case2 t =>
    cases h
    rfl
  | case3 c t hc ih =>
    obtain ⟨⟨a', b'⟩, h', heq⟩ := Option.map_eq_some_iff.mp h
    cases heq
    have := ih h'
    rw [List.cons_append, endComment?, this]
    · rfl
    · rintro v rfl heq
      have ht := endComment?_joined h'
      cases a' with
      | nil => cases heq
      | cons d a' =>
        cases heq
        exact hc _ rfl ht

theorem begins_of_not_special {c : Char} {t : Text} (hspace : ¬ (isBlankAscii c || c == ';') = true)
    (hclose : ¬ c = '}') (hat : ¬ c = '@') (hcomment : ¬ (c = '/' ∧ t.head? = some '*')) :
    Begins none (c :: t) := by
  simp only [Bool.or_eq_true, beq_iff_eq, not_or, Bool.not_eq_true] at hspace
  exact ⟨hspace.1, hspace.2, hclose, hat, hcomment⟩

theorem first?_fits {c : Char} {t : Text} {q : Passage} {u : Text}
    (h : first? c t = some (q, u)) : q.Fits u := by
  simp only [first?] at h
  split at h
  · rename_i hc
    cases h
    simpa [Fits] using hc
  rename_i hspace
  split at h
  · cases h
    trivial
  rename_i hclose
  split at h
  · have hb : Begins (some (t.takeWhile isNameChar)) (t.dropWhile isNameChar) := by
      refine ⟨fun c hc => List.mem_takeWhile_imp hc, fun d hd => ?_⟩
      have := List.head?_dropWhile_not isNameChar t
      rw [hd] at this
      simpa using this
    exact statement?_fits hb h
  rename_i hat
  split at h
  · obtain ⟨⟨body, u'⟩, hb, heq⟩ := Option.map_eq_some_iff.mp h
    cases heq
    exact endComment?_fits hb
  · rename_i hcomment
    exact statement?_fits (begins_of_not_special hspace hclose hat hcomment) h

theorem first?_of_fits {c : Char} {t : Text} {q : Passage} {u : Text} (hq : q.Fits u)
    (ht : q.text ++ u = c :: t) : first? c t = some (q, u) := by
  cases q with
  | space d =>
    obtain ⟨rfl, rfl⟩ : d = c ∧ u = t := by simpa [text] using ht
    rw [first?, if_pos (by simpa [Fits] using hq)]
  | comment body =>
    obtain ⟨rfl, rfl⟩ : '/' = c ∧ '*' :: (body ++ '*' :: '/' :: u) = t := by simpa [text] using ht
    have hb : endComment? (body ++ '*' :: '/' :: u) = some (body, u) := by
      simpa using endComment?_append (t := body ++ ['*', '/']) hq u
    simp [first?, hb, isBlankAscii]
  | closing =>
    obtain ⟨rfl, rfl⟩ : '}' = c ∧ u = t := by simpa [text] using ht
    simp [first?, isBlankAscii]
  | statement name raw stop =>
    obtain ⟨hb, hp, hs⟩ := hq
    cases name with
    | none =>
      have ht : raw ++ stop.text ++ u = c :: t := by simpa [text, sign] using ht
      rw [ht] at hb
      obtain ⟨hblank, hsemi, hclose, hat, hcomment⟩ := hb
      simp only [first?, hblank, hsemi, hclose, hat, hcomment, if_false, Bool.false_or,
        beq_iff_eq]
      rw [← ht]
      exact statement?_of_fits hp hs
    | some name =>
      obtain ⟨rfl, rfl⟩ : '@' = c ∧ name ++ (raw ++ stop.text ++ u) = t := by
        simpa [text, sign] using ht
      obtain ⟨hname, hhead⟩ := hb
      generalize hv : raw ++ stop.text ++ u = v at hhead
      have htake : (name ++ v).takeWhile isNameChar = name := by
        rw [List.takeWhile_append_of_pos hname]
        cases v <;> simp_all
      have hdrop : (name ++ v).dropWhile isNameChar = v := by
        rw [List.dropWhile_append_of_pos hname]
        cases v <;> simp_all
      have hstmt := @statement?_of_fits (some name) raw stop u hp hs
      rw [hv] at hstmt
      simp only [first?]
      rw [htake, hdrop, hstmt]
      simp [isBlankAscii]

theorem length_first? {c : Char} {t : Text} {q : Passage} {u : Text}
    (h : first? c t = some (q, u)) : u.length < (c :: t).length := by
  have hne := List.length_pos_iff.mpr (text_ne_nil (first?_fits h))
  rw [← first?_joined h, List.length_append]
  omega

/-- The passages of a text, up to a string or a comment that is never closed. -/
def ofText : Text → List Passage
  | [] => []
  | c :: t =>
    match _h : first? c t with
    | some (q, u) => q :: ofText u
    | none => []
termination_by t => t.length
decreasing_by exact length_first? _h

theorem ofText_append {q : Passage} {u : Text} (hq : q.Fits u) :
    ofText (q.text ++ u) = q :: ofText u := by
  obtain ⟨c, t, ht⟩ := List.exists_cons_of_ne_nil
    (show q.text ++ u ≠ [] by simp [text_ne_nil hq])
  rw [ht, ofText]
  split
  · rename_i q' u' h
    rw [first?_of_fits hq ht] at h
    cases h
    rfl
  · rename_i h
    rw [first?_of_fits hq ht] at h
    cases h

end Passage

/-! ## Reading passages off a text -/

namespace Piece

theorem ofText_char {c : Char} {t : Text} (hq : isQuote c = false)
    (hc : ¬ (c = '/' ∧ t.head? = some '*')) : ofText (c :: t) = char c :: ofText t := by
  simp only [ofText]
  rw [read, if_neg (by simp [hq])]
  rintro u rfl rfl
  exact hc ⟨rfl, rfl⟩

theorem read_inComment (t r : Text) :
    read (.inComment r) t = match Passage.endComment? t with
      | some (a, b) => comment (r.reverse ++ a) :: ofText b
      | none => [unclosedComment (r.reverse ++ t)] := by
  fun_induction Passage.endComment? t generalizing r with
  | case1 => simp [read]
  | case2 t => simp [read, ofText]
  | case3 c t hc ih =>
    rw [read, ih]
    · cases Passage.endComment? t <;> simp
    · exact hc

theorem ofText_comment (t : Text) :
    ofText ('/' :: '*' :: t) = match Passage.endComment? t with
      | some (a, b) => comment a :: ofText b
      | none => [unclosedComment t] := by
  simpa [ofText, read] using read_inComment t []

theorem read_inString (q : Char) (r t : Text) :
    ∃ p ps, read (.inString q r) t = p :: ps ∧
      ((∃ b, p = quoted q b) ∨ ∃ b, p = unclosedString q b) := by
  generalize hm : Mode.inString q r = m
  fun_induction read m t generalizing r <;> cases hm
  case case5 => exact ⟨_, _, rfl, .inr ⟨_, rfl⟩⟩
  case case6 c t ih => exact ih _ rfl
  case case7 => exact ⟨_, _, rfl, .inl ⟨_, rfl⟩⟩
  case case8 ih => exact ih _ rfl

/-- What a text that does not start with a comment starts with. -/
theorem ofText_cons_cases {c : Char} {t : Text} (hc : ¬ (c = '/' ∧ t.head? = some '*')) :
    ∃ p ps, ofText (c :: t) = p :: ps ∧
      (p = char c ∨ (∃ b, p = quoted c b) ∨ ∃ b, p = unclosedString c b) := by
  cases hq : isQuote c with
  | false => exact ⟨_, _, ofText_char hq hc, .inl rfl⟩
  | true =>
    have hread : ofText (c :: t) = read (.inString c []) t := by
      simp only [ofText]
      rw [read, if_pos hq]
      rintro u rfl rfl
      exact hc ⟨rfl, rfl⟩
    obtain ⟨p, ps, h, hp⟩ := read_inString c [] t
    exact ⟨p, ps, hread.trans h, .inr hp⟩

theorem isName_head {c : Char} {t : Text} (hc : Passage.isNameChar c = false) :
    ∃ p ps, ofText (c :: t) = p :: ps ∧ Statement.isName p = false := by
  by_cases hcomment : c = '/' ∧ t.head? = some '*'
  · obtain ⟨rfl, hstar⟩ := hcomment
    obtain ⟨u, rfl⟩ := List.head?_eq_some_iff.mp hstar
    rw [ofText_comment]
    split
    · exact ⟨_, _, rfl, rfl⟩
    · exact ⟨_, _, rfl, rfl⟩
  · obtain ⟨p, ps, h, hp⟩ := ofText_cons_cases hcomment
    refine ⟨p, ps, h, ?_⟩
    rcases hp with rfl | ⟨b, rfl⟩ | ⟨b, rfl⟩
    · exact hc
    · rfl
    · rfl

/-- A name is read off the pieces as off the text. -/
theorem takeWhile_ofText (t : Text) :
    joined ((ofText t).takeWhile Statement.isName) = t.takeWhile Passage.isNameChar ∧
      (ofText t).dropWhile Statement.isName = ofText (t.dropWhile Passage.isNameChar) := by
  induction t with
  | nil => simp [ofText, read]
  | cons c t ih =>
    cases hn : Passage.isNameChar c with
    | true =>
      have hne : ∀ d ∈ ['"', '\'', '/'], c ≠ d := by
        rintro d hd rfl
        fin_cases hd <;> simp [Passage.isNameChar, Char.isAlphanum, Char.isAlpha, Char.isUpper,
          Char.isLower, Char.isDigit] at hn
      have hread : ofText (c :: t) = char c :: ofText t :=
        ofText_char (by simp [isQuote, hne]) fun h => hne '/' (by simp) h.1
      have hn' : Statement.isName (char c) = true := hn
      simp [hread, hn, hn', ih, text]
    | false =>
      obtain ⟨p, ps, h, hp⟩ := isName_head (t := t) hn
      simp [h, hp, hn]

end Piece

/-- The statements of the text that starts at a place. -/
def row (p : Place) (t : Text) : List Statement := Statement.ofPieces p (Piece.ofText t)

@[simp] theorem row_nil (p : Place) : row p [] = [] := by
  rw [row, Piece.ofText, Piece.read, Statement.ofPieces]

namespace Passage

open Statement

theorem row_cons {p : Place} {c : Char} {t : Text} {piece : Piece} {ps : List Piece}
    (h : Piece.ofText (c :: t) = piece :: ps) :
    row p (c :: t) = (Statement.first p piece ps).1.toList ++
      ofPieces (Statement.first p piece ps).2.1 (Statement.first p piece ps).2.2 := by
  rw [row, h, ofPieces]

theorem ofSplit_of_unclosed (name : Option Text) (p : Place) (raw : Text) {piece : Piece}
    (h : piece.isUnclosed = true) : ∃ e, (ofSplit name p raw [piece]).1 = .bad e := by
  cases piece with
  | unclosedString => exact ⟨_, rfl⟩
  | unclosedComment => exact ⟨_, rfl⟩
  | char => cases h
  | quoted => cases h
  | comment => cases h

/-- A statement is cut out of the pieces of a text as it is cut out of the text. -/
theorem ofSplit_ofText {name : Option Text} {t : Text} {q : Passage} {u : Text}
    (h : statement? name t = some (q, u)) (p : Place) :
    ∃ s, q.meaning p = some s ∧
      ofSplit name (p.after (sign name)) (Piece.joined (splitBody 0 (Piece.ofText t)).1)
        (splitBody 0 (Piece.ofText t)).2 = (s, p.after q.text, Piece.ofText u) := by
  obtain ⟨hin, -⟩ := Scan.sameCut_ofText t
  have hstop := Scan.split_stops Scan.start t
  unfold statement? at h
  split at h
  · rename_i hout
    obtain ⟨hbody, hrest⟩ := hin hout
    rw [hbody, hrest, List.nil_append]
    dsimp only at h
    split at h
    · rename_i u' heq
      cases h
      rw [heq, Piece.ofText_char rfl (by simp)]
      exact ⟨_, rfl, by simp [ofSplit, text, Stop.text]⟩
    · rename_i u' heq
      cases h
      rw [heq, Piece.ofText_char rfl (by simp)]
      exact ⟨_, rfl, by simp [ofSplit, text, Stop.text]⟩
    · rename_i hbrace hsemi
      cases h
      refine ⟨_, rfl, ?_⟩
      rcases stop_nothing hstop hbrace hsemi with hnil | ⟨-, hc⟩
      · rw [hnil]
        simp [ofSplit, text, Stop.text, Piece.ofText, Piece.read]
      · obtain ⟨v, hv⟩ := List.head?_eq_some_iff.mp hc
        rw [hv, Piece.ofText_char rfl (by simp)]
        simp [ofSplit, text, Stop.text]
  · cases h

theorem ofSplit_ofText_none {name : Option Text} {t : Text} (h : statement? name t = none)
    (p : Place) :
    ∃ e, (ofSplit name p (Piece.joined (splitBody 0 (Piece.ofText t)).1)
      (splitBody 0 (Piece.ofText t)).2).1 = .bad e := by
  obtain ⟨-, hout⟩ := Scan.sameCut_ofText t
  unfold statement? at h
  split at h
  · dsimp only at h
    split at h <;> cases h
  · rename_i hnot
    obtain ⟨piece, hrest, hp⟩ := hout (by simpa using hnot)
    rw [hrest]
    exact ofSplit_of_unclosed _ _ _ hp

theorem statement?_of_unclosed {c : Char} {t : Text} {piece : Piece} {ps : List Piece}
    (hread : Piece.ofText (c :: t) = piece :: ps) (hp : piece.isUnclosed = true) :
    statement? none (c :: t) = none := by
  obtain ⟨hin, -⟩ := Scan.sameCut_ofText (c :: t)
  have hend : endsBody 0 piece = true := by
    cases piece <;> simp_all [Piece.isUnclosed, endsBody]
  rw [statement?, if_neg]
  intro hout
  have hraw : (Scan.start.split (c :: t)).1 = [] := by
    simpa [hread, splitBody, hend] using (hin hout).1.symm
  cases hstep : Scan.start.step c with
  | some s => simp [Scan.split, hstep] at hraw
  | none =>
    have hc := (Scan.step_eq_none_iff.mp hstep).2.2
    have hchar : Piece.ofText (c :: t) = .char c :: Piece.ofText t := by
      have hc : c = ';' ∨ c = '{' ∨ c = '}' := by simpa [Scan.isTerminator, or_assoc] using hc
      rcases hc with rfl | rfl | rfl <;> exact Piece.ofText_char rfl (by simp)
    rw [hchar] at hread
    cases hread
    cases hp

/-- Where a statement starts, the first piece belongs to it. -/
theorem first_of_begins {c : Char} {t : Text} (hb : Begins none (c :: t)) (p : Place) :
    ∃ piece ps, Piece.ofText (c :: t) = piece :: ps ∧
      (Statement.first p piece ps =
        (some (ofSplit none p (Piece.joined (splitBody 0 (Piece.ofText (c :: t))).1)
          (splitBody 0 (Piece.ofText (c :: t))).2).1,
          (ofSplit none p (Piece.joined (splitBody 0 (Piece.ofText (c :: t))).1)
            (splitBody 0 (Piece.ofText (c :: t))).2).2) ∨
      (∃ e, (Statement.first p piece ps).1 = some (.bad e)) ∧ piece.isUnclosed = true) := by
  obtain ⟨hblank, hsemi, hclose, hat, hcomment⟩ := hb
  obtain ⟨piece, ps, h, hp⟩ := Piece.ofText_cons_cases hcomment
  refine ⟨piece, ps, h, ?_⟩
  rw [h]
  rcases hp with rfl | ⟨b, rfl⟩ | ⟨b, rfl⟩
  · left
    by_cases hbrace : c = '{'
    · subst hbrace
      rfl
    · have hend : endsBody 0 (.char c) = false := by simp [endsBody, hsemi, hclose, hbrace]
      unfold Statement.first
      split <;> simp_all [splitBody, isSpace]
  · left
    rfl
  · exact .inr ⟨⟨_, rfl⟩, rfl⟩

theorem first_space {c : Char} (hc : (isBlankAscii c || c == ';') = true) (p : Place)
    (ps : List Piece) : Statement.first p (.char c) ps = (none, p.after [c], ps) := by
  have hne : c ≠ '}' ∧ c ≠ '{' ∧ c ≠ '@' := by
    refine ⟨?_, ?_, ?_⟩ <;>
    · rintro rfl
      simp [isBlankAscii] at hc
  unfold Statement.first
  split <;> simp_all [isSpace, Piece.text, or_comm]

/-- The statement of the first passage is the first statement. -/
theorem row_of_first? {c : Char} {t : Text} {q : Passage} {u : Text}
    (h : first? c t = some (q, u)) (p : Place) :
    row p (c :: t) = (q.meaning p).toList ++ row (p.after q.text) u := by
  simp only [first?] at h
  split at h
  · rename_i hc
    cases h
    have hread : Piece.ofText (c :: t) = .char c :: Piece.ofText t := by
      have hne : c ≠ '"' ∧ c ≠ '\'' ∧ c ≠ '/' := by
        refine ⟨?_, ?_, ?_⟩ <;>
        · rintro rfl
          simp [isBlankAscii] at hc
      exact Piece.ofText_char (by simp [Piece.isQuote, hne]) fun h => hne.2.2 h.1
    rw [row_cons hread, first_space hc]
    rfl
  rename_i hspace
  split at h
  · rename_i hc
    cases h
    subst hc
    rw [row_cons (Piece.ofText_char rfl (by simp))]
    rfl
  rename_i hclose
  split at h
  · rename_i hc
    subst hc
    obtain ⟨s, hs, hcut⟩ := ofSplit_ofText h p
    obtain ⟨hname, hrest⟩ := Piece.takeWhile_ofText t
    rw [row_cons (Piece.ofText_char rfl (by simp)), hs]
    have hplace : (p.after ['@']).after (t.takeWhile isNameChar) =
        p.after (sign (some (t.takeWhile isNameChar))) := by
      rw [← Place.after_append]
      rfl
    simp only [Statement.first, Piece.text, hname, hrest, hplace, hcut]
    rfl
  rename_i hat
  split at h
  · rename_i hc
    obtain ⟨⟨body, u'⟩, hb, heq⟩ := Option.map_eq_some_iff.mp h
    cases heq
    obtain ⟨rfl, hstar⟩ := hc
    obtain ⟨v, rfl⟩ := List.head?_eq_some_iff.mp hstar
    have hb' : endComment? v = some (body, u') := hb
    have hread : Piece.ofText ('/' :: '*' :: v) = .comment body :: Piece.ofText u' := by
      rw [Piece.ofText_comment, hb']
    rw [row_cons hread]
    rfl
  · rename_i hcomment
    obtain ⟨s, hs, hcut⟩ := ofSplit_ofText h p
    obtain ⟨piece, ps, hread, hfirst | ⟨-, hp⟩⟩ :=
      first_of_begins (begins_of_not_special hspace hclose hat hcomment) p
    · simp only [sign, Place.after_nil] at hcut
      rw [row_cons hread, hs, hfirst, hcut]
      rfl
    · rw [statement?_of_unclosed hread hp] at h
      cases h

theorem row_of_first?_none {c : Char} {t : Text} (h : first? c t = none) (p : Place) :
    ∃ e ss, row p (c :: t) = .bad e :: ss := by
  have bad : ∀ {piece ps}, Piece.ofText (c :: t) = piece :: ps →
      (∃ e, (Statement.first p piece ps).1 = some (.bad e)) →
        ∃ e ss, row p (c :: t) = .bad e :: ss := by
    rintro piece ps hread ⟨e, he⟩
    exact ⟨e, _, by rw [row_cons hread, he]; rfl⟩
  simp only [first?] at h
  split at h
  · cases h
  rename_i hspace
  split at h
  · cases h
  rename_i hclose
  split at h
  · rename_i hc
    subst hc
    obtain ⟨hname, hrest⟩ := Piece.takeWhile_ofText t
    obtain ⟨e, he⟩ := ofSplit_ofText_none h ((p.after ['@']).after (t.takeWhile isNameChar))
    refine bad (Piece.ofText_char rfl (by simp)) ⟨e, ?_⟩
    simp only [Statement.first, Piece.text, hname, hrest, he]
  rename_i hat
  split at h
  · rename_i hc
    obtain ⟨rfl, hstar⟩ := hc
    obtain ⟨v, rfl⟩ := List.head?_eq_some_iff.mp hstar
    have hb : endComment? v = none := by simpa using h
    have hread : Piece.ofText ('/' :: '*' :: v) = [.unclosedComment v] := by
      rw [Piece.ofText_comment, hb]
    exact bad hread ⟨_, rfl⟩
  · rename_i hcomment
    obtain ⟨e, he⟩ := ofSplit_ofText_none h p
    obtain ⟨piece, ps, hread, hfirst | ⟨⟨e', he'⟩, -⟩⟩ :=
      first_of_begins (begins_of_not_special hspace hclose hat hcomment) p
    · exact bad hread ⟨e, by rw [hfirst, he]⟩
    · exact bad hread ⟨e', he'⟩

/-- A fitting passage is read off a text as its statement. -/
theorem row_text_append {q : Passage} {u : Text} (hq : q.Fits u) (p : Place) :
    row p (q.text ++ u) = (q.meaning p).toList ++ row (p.after q.text) u := by
  obtain ⟨c, t, ht⟩ := List.exists_cons_of_ne_nil
    (show q.text ++ u ≠ [] by simp [text_ne_nil hq])
  rw [ht, row_of_first? (first?_of_fits hq ht)]

/-- A text starts with a fitting passage, or with a statement that cannot be read. -/
theorem fits_or_bad {t : Text} (h : t ≠ []) :
    (∃ (q : Passage) (u : Text), q.Fits u ∧ t = q.text ++ u) ∨
      ∀ p, ∃ e ss, row p t = .bad e :: ss := by
  obtain ⟨c, t, rfl⟩ := List.exists_cons_of_ne_nil h
  cases hf : first? c t with
  | some r => exact .inl ⟨r.1, r.2, first?_fits hf, (first?_joined hf).symm⟩
  | none => exact .inr (row_of_first?_none hf)

/-- A text without statements that cannot be read is the text of its passages, and these stand for
its statements. -/
theorem ofText_spec {p : Place} {t : Text} (h : ∀ e, .bad e ∉ row p t) :
    joined (ofText t) = t ∧ Valid (ofText t) ∧ row p t = meanings p (ofText t) := by
  induction hn : t.length using Nat.strong_induction_on generalizing p t with
  | _ n ih =>
    subst hn
    rcases eq_or_ne t [] with rfl | hne
    · rw [ofText]
      exact ⟨rfl, trivial, row_nil p⟩
    rcases fits_or_bad hne with ⟨q, u, hq, rfl⟩ | hbad
    · have hu : ∀ e, .bad e ∉ row (p.after q.text) u := by
        intro e hmem
        refine h e ?_
        rw [row_text_append hq]
        exact List.mem_append_right _ hmem
      have hlen : u.length < (q.text ++ u).length := by
        have := List.length_pos_iff.mpr (text_ne_nil hq)
        rw [List.length_append]
        omega
      obtain ⟨hj, hv, hr⟩ := ih _ hlen hu rfl
      rw [ofText_append hq]
      refine ⟨by rw [joined_cons, hj], ⟨by rwa [hj], hv⟩, ?_⟩
      rw [row_text_append hq, hr, meanings]
    · obtain ⟨e, ss, hrow⟩ := hbad p
      exact absurd (by simp [hrow]) (h e)

end Passage

end PixelScale.Stylesheet
