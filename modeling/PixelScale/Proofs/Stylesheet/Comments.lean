import PixelScale.Proofs.Stylesheet.Passage

/-!
# Comments of a text

The reader of pieces goes on behind a text as it would have started there, if the text has no string
and no comment that stays open; otherwise it is still inside of it. Either way the comments of the
text are the first ones of every longer text. So the comments of a stylesheet are the comments of
its passages, one passage after another.

* `comments`: the comments of a text, with their delimiters.
* `Piece.readsOn`: reading over the end of a text.
* `Passage.comments_joined`: the comments of a row of passages.
* `InOrder`: texts that occur in a text one behind the other.
-/

namespace PixelScale.Stylesheet

open Text

/-! ## Reading over the end of a text -/

namespace Piece

/-- The text of a comment. -/
def comment? : Piece → Option Text
  | comment body => some (comment body).text
  | _ => none

/-- The reader comes in the mode `m` to the text `t` in front of `u`, where it would have made the
pieces `all` of `t` alone. It makes the same comments of `t`, and if nothing stays open the same
pieces. -/
def ReadsOn (m : Mode) (t u : Text) (all : List Piece) : Prop :=
  ∃ ps m', read m (t ++ u) = ps ++ read m' u ∧ all.filterMap comment? = ps.filterMap comment? ∧
    ((∀ p ∈ all, p.isUnclosed = false) → ps = all ∧ m' = .outside)

variable {m m' : Mode} {t t' u : Text} {all : List Piece}

theorem ReadsOn.of_eq (h : ReadsOn m t u all) (hread : read m' (t' ++ u) = read m (t ++ u)) :
    ReadsOn m' t' u all := by
  rw [ReadsOn, hread]
  exact h

theorem ReadsOn.cons {p : Piece} (h : ReadsOn m t u all)
    (hread : read m' (t' ++ u) = p :: read m (t ++ u)) : ReadsOn m' t' u (p :: all) := by
  obtain ⟨ps, last, heq, hcomments, hclosed⟩ := h
  refine ⟨p :: ps, last, by rw [hread, heq, List.cons_append], ?_, fun h => ?_⟩
  · rw [← List.singleton_append, List.filterMap_append, hcomments, ← List.filterMap_append,
      List.singleton_append]
  · obtain ⟨rfl, hlast⟩ := hclosed fun q hq => h q (List.mem_cons_of_mem _ hq)
    exact ⟨rfl, hlast⟩

theorem ReadsOn.unclosed {p : Piece} (hp : p.isUnclosed = true) (hcomment : p.comment? = none) :
    ReadsOn m [] u [p] := by
  refine ⟨[], m, rfl, by simp [hcomment], fun h => ?_⟩
  rw [h p List.mem_cons_self] at hp
  cases hp

/-- Reading over the end of a text. The text may not end in a character that could change the
meaning of the next one. -/
theorem readsOn (m : Mode) (t : Text) (hm : ∀ q r, m = .inString q r → isQuote q = true)
    (hslash : t.getLast? = some '/' → u.head? ≠ some '*')
    (hopen : (∀ p ∈ read m t, p.isUnclosed = false) ∨ ∀ c ∈ t.getLast?, c ≠ '\\' ∧ c ≠ '*') :
    ReadsOn m t u (read m t) := by
  fun_induction read m t with
  | case1 => exact ⟨[], .outside, rfl, rfl, fun _ => ⟨rfl, rfl⟩⟩
  | case2 t ih =>
    refine (ih (by simp) (fun h => hslash ?_) (hopen.imp_right fun h c hc => h c ?_)).of_eq rfl
    · exact List.mem_getLast?_cons (List.mem_getLast?_cons h)
    · exact List.mem_getLast?_cons (List.mem_getLast?_cons hc)
  | case3 c t hc hq ih =>
    refine (ih (by simp [hq]) (fun h => hslash (List.mem_getLast?_cons h))
      (hopen.imp_right fun h d hd => h d (List.mem_getLast?_cons hd))).of_eq ?_
    rw [List.cons_append, read, if_pos hq]
    rintro v rfl -
    simp [isQuote] at hq
  | case4 c t hc hq ih =>
    refine (ih (by simp) (fun h => hslash (List.mem_getLast?_cons h)) (hopen.imp ?_ ?_)).cons ?_
    · exact fun h p hp => h p (List.mem_cons_of_mem _ hp)
    · exact fun h d hd => h d (List.mem_getLast?_cons hd)
    · rw [List.cons_append, read, if_neg hq]
      rintro v rfl hv
      cases t with
      | nil => exact hslash rfl (by rw [show u = '*' :: v from hv]; rfl)
      | cons d t =>
        cases hv
        exact hc t rfl rfl
  | case5 q r => exact .unclosed rfl rfl
  | case6 q r c t ih =>
    refine (ih (by simpa using hm) (fun h => hslash ?_)
      (hopen.imp_right fun h d hd => h d ?_)).of_eq rfl
    · exact List.mem_getLast?_cons (List.mem_getLast?_cons h)
    · exact List.mem_getLast?_cons (List.mem_getLast?_cons hd)
  | case7 r q t h ih =>
    have hq : isQuote q = true := hm q r rfl
    refine (ih (by simp) (fun h => hslash (List.mem_getLast?_cons h)) (hopen.imp ?_ ?_)).cons ?_
    · exact fun h p hp => h p (List.mem_cons_of_mem _ hp)
    · exact fun h d hd => h d (List.mem_getLast?_cons hd)
    · rw [List.cons_append, read, if_pos rfl]
      rintro d v rfl -
      simp [isQuote] at hq
  | case8 q r c t h hc ih =>
    have hne : c = '\\' → t ≠ [] := by
      rintro rfl rfl
      rcases hopen with hopen | hopen
      · have := hopen (.unclosedString q ('\\' :: r).reverse) (by simp [read])
        cases this
      · exact (hopen '\\' rfl).1 rfl
    refine (ih (by simpa using hm) (fun h => hslash (List.mem_getLast?_cons h))
      (hopen.imp_right fun h d hd => h d (List.mem_getLast?_cons hd))).of_eq ?_
    rw [List.cons_append, read, if_neg hc]
    intro d v hb hv
    obtain ⟨e, t, rfl⟩ := List.exists_cons_of_ne_nil (hne hb)
    exact h e t hb rfl
  | case9 r => exact .unclosed rfl rfl
  | case10 r t ih =>
    refine (ih (by simp) (fun h => hslash ?_) (hopen.imp ?_ ?_)).cons rfl
    · exact List.mem_getLast?_cons (List.mem_getLast?_cons h)
    · exact fun h p hp => h p (List.mem_cons_of_mem _ hp)
    · exact fun h d hd => h d (List.mem_getLast?_cons (List.mem_getLast?_cons hd))
  | case11 r c t h ih =>
    have hne : c = '*' → t ≠ [] := by
      rintro rfl rfl
      rcases hopen with hopen | hopen
      · have := hopen (.unclosedComment ('*' :: r).reverse) (by simp [read])
        cases this
      · exact (hopen '*' rfl).2 rfl
    refine (ih (by simp) (fun h => hslash (List.mem_getLast?_cons h))
      (hopen.imp_right fun h d hd => h d (List.mem_getLast?_cons hd))).of_eq ?_
    rw [List.cons_append, read]
    intro v hstar hv
    obtain ⟨e, t, rfl⟩ := List.exists_cons_of_ne_nil (hne hstar)
    cases hv
    exact h t hstar rfl

/-- No string and no comment of a text stays open. -/
def Closed (t : Text) : Prop := ∀ p ∈ ofText t, p.isUnclosed = false

/-- Behind a text in which nothing stays open, reading starts anew. -/
theorem ofText_append (ht : Closed t) (hslash : t.getLast? = some '/' → u.head? ≠ some '*') :
    ofText (t ++ u) = ofText t ++ ofText u := by
  obtain ⟨ps, last, hread, -, hps⟩ := readsOn .outside t (by simp) hslash (.inl ht)
  obtain ⟨rfl, rfl⟩ := hps ht
  exact hread

theorem Closed.append (ht : Closed t) (hu : Closed u)
    (hslash : t.getLast? = some '/' → u.head? ≠ some '*') : Closed (t ++ u) := by
  rw [Closed, ofText_append ht hslash]
  intro p hp
  exact (List.mem_append.mp hp).elim (ht p) (hu p)

/-- A row of ordinary characters is read one by one. -/
theorem ofText_plain (ht : ∀ c ∈ t, isQuote c = false ∧ c ≠ '/') (u : Text) :
    ofText (t ++ u) = t.map char ++ ofText u := by
  induction t with
  | nil => rfl
  | cons c t ih =>
    obtain ⟨⟨hquote, hslash⟩, ht⟩ := List.forall_mem_cons.mp ht
    rw [List.cons_append, ofText_char hquote fun h => hslash h.1, ih ht]
    rfl

theorem closed_plain (ht : ∀ c ∈ t, isQuote c = false ∧ c ≠ '/') : Closed t := by
  have hread := ofText_plain ht []
  rw [List.append_nil] at hread
  rw [Closed, hread]
  intro p hp
  obtain ⟨c, -, rfl⟩ := List.mem_map.mp (show p ∈ t.map char by simpa [ofText, read] using hp)
  rfl

/-- Nothing stays open in the body of a statement. -/
theorem closed_of_passes (ht : Scan.Passes t) : Closed t := by
  have hbody : ∀ (depth : Nat) (ps : List Piece),
      ∀ p ∈ (Statement.splitBody depth ps).1, p.isUnclosed = false := by
    intro depth ps
    induction ps generalizing depth with
    | nil => simp [Statement.splitBody]
    | cons q ps ih =>
      simp only [Statement.splitBody]
      split
      · simp
      · rename_i hend
        refine List.forall_mem_cons.mpr ⟨?_, ih _⟩
        cases q <;> simp_all [Statement.endsBody, isUnclosed]
  obtain ⟨hin, -⟩ := Scan.sameCut_ofText t
  obtain ⟨hsplit, -⟩ := Scan.split_of_run (u := []) ht.1 (by simp)
  rw [List.append_nil] at hsplit
  have hrest : (Statement.splitBody 0 (ofText t)).2 = [] := by
    rw [(hin ht.2).2, hsplit]
    rfl
  have hall := Statement.splitBody_append 0 (ofText t)
  rw [hrest, List.append_nil] at hall
  rw [Closed, ← hall]
  exact hbody 0 _

end Piece

open Piece

/-! ## Comments -/

/-- The comments of a text, with their delimiters. -/
def comments (t : Text) : List Text := (ofText t).filterMap comment?

/-- How reading goes on behind the start of a text: what is still to be read is a part of it and
what follows, and the comments so far are those of the start. -/
theorem exists_ofText_append {t : Text} (u : Text)
    (hlast : ∀ c ∈ t.getLast?, c ≠ '/' ∧ c ≠ '\\' ∧ c ≠ '*') :
    ∃ ps last, t = joined ps ++ last.pending ∧ comments t = ps.filterMap comment? ∧
      ofText (t ++ u) = ps ++ read last u := by
  obtain ⟨ps, last, hread, hcomments, -⟩ := readsOn .outside t (u := u) (by simp)
    (fun h => absurd rfl (hlast '/' h).1) (.inr fun c hc => (hlast c hc).2)
  have hjoined := joined_ofText (t ++ u)
  rw [ofText, hread, joined_append, joined_read, ← List.append_assoc] at hjoined
  exact ⟨ps, last, (List.append_cancel_right hjoined).symm, hcomments, hread⟩

namespace Passage

theorem isQuote_of_isNameChar {c : Char} (hc : isNameChar c = true) :
    isQuote c = false ∧ c ≠ '/' := by
  have hne : ∀ d ∈ ['"', '\'', '/'], c ≠ d := by
    rintro d hd rfl
    fin_cases hd <;> exact absurd hc (by decide)
  exact ⟨by simp [isQuote, hne], hne '/' (by simp)⟩

theorem closed_sign {name : Option Text} (hname : ∀ n ∈ name, ∀ c ∈ n, isNameChar c = true) :
    ∀ c ∈ sign name, isQuote c = false ∧ c ≠ '/' := by
  cases name with
  | none => simp [sign]
  | some name =>
    refine List.forall_mem_cons.mpr ⟨by decide, fun c hc => ?_⟩
    exact isQuote_of_isNameChar (hname name rfl c hc)

theorem closed_space {c : Char} (hc : isBlankAscii c = true ∨ c = ';') :
    isQuote c = false ∧ c ≠ '/' := by
  have hne : ∀ d ∈ ['"', '\'', '/'], c ≠ d := by
    rintro d hd rfl
    fin_cases hd <;> exact absurd hc (by decide)
  exact ⟨by simp [isQuote, hne], hne '/' (by simp)⟩

theorem ofText_comment_append {body : Text}
    (hq : endComment? (body ++ ['*', '/']) = some (body, [])) (u : Text) :
    Piece.ofText ((comment body).text ++ u) = .comment body :: Piece.ofText u := by
  have hend := endComment?_append hq u
  rw [List.append_assoc] at hend
  have hread := ofText_comment (body ++ (['*', '/'] ++ u))
  rw [hend] at hread
  simpa [text] using hread

theorem closed_stop (stop : Stop) : Closed stop.text := by
  cases stop with
  | brace => exact closed_plain (List.forall_mem_singleton.mpr (by decide))
  | semicolon => exact closed_plain (List.forall_mem_singleton.mpr (by decide))
  | nothing => exact closed_plain (by simp [Stop.text])

/-- Nothing stays open in a passage that fits, and what follows is read as it would be alone. -/
theorem Fits.ofText_append {q : Passage} {u : Text} (hq : q.Fits u) :
    Closed q.text ∧ Piece.ofText (q.text ++ u) = Piece.ofText q.text ++ Piece.ofText u := by
  cases q with
  | space c =>
    have hclosed : Closed (space c).text :=
      closed_plain (List.forall_mem_singleton.mpr (closed_space hq))
    refine ⟨hclosed, Piece.ofText_append hclosed fun h => ?_⟩
    exact absurd (Option.some.inj h) (closed_space hq).2
  | comment body =>
    have hone := ofText_comment_append hq []
    rw [List.append_nil] at hone
    constructor
    · rw [Closed, hone]
      exact List.forall_mem_singleton.mpr rfl
    · rw [ofText_comment_append hq, hone]
      rfl
  | closing =>
    have hclosed : Closed closing.text := closed_plain (List.forall_mem_singleton.mpr (by decide))
    exact ⟨hclosed, Piece.ofText_append hclosed fun h => absurd h (by decide)⟩
  | statement name raw stop =>
    obtain ⟨hbegins, hpasses, hstop⟩ := hq
    have hname : ∀ n ∈ name, ∀ c ∈ n, isNameChar c = true := by
      rintro n rfl
      exact hbegins.1
    have hsign := closed_sign hname
    have hlast : (sign name).getLast? = some '/' → raw.head? ≠ some '*' :=
      fun h => absurd rfl (hsign '/' (List.mem_of_mem_getLast? h)).2
    have hbody := (closed_plain hsign).append (closed_of_passes hpasses) hlast
    have hclosed : Closed (statement name raw stop).text :=
      hbody.append (closed_stop stop) fun _ => by cases stop <;> decide
    refine ⟨hclosed, Piece.ofText_append hclosed fun h => ?_⟩
    cases stop with
    | brace => simp [text, Stop.text] at h
    | semicolon => simp [text, Stop.text] at h
    | nothing =>
      rcases hstop with rfl | ⟨-, hclose⟩
      · simp
      · rw [hclose]
        decide

theorem Fits.comments_append {q : Passage} {u : Text} (hq : q.Fits u) :
    comments (q.text ++ u) = comments q.text ++ comments u := by
  rw [comments, hq.ofText_append.2, List.filterMap_append]
  rfl

/-- The comments of a row of passages. -/
theorem comments_joined {qs : List Passage} (hv : Valid qs) :
    comments (joined qs) = qs.flatMap fun q => comments q.text := by
  induction qs with
  | nil => rfl
  | cons q qs ih => rw [joined_cons, hv.1.comments_append, ih hv.2, List.flatMap_cons]

end Passage

/-! ## Texts in order -/

/-- Texts that occur in a text one behind the other, without overlaps. -/
inductive InOrder : List Text → Text → Prop
  | nil {t : Text} : InOrder [] t
  | cons {ds : List Text} {a d t : Text} : InOrder ds t → InOrder (d :: ds) (a ++ (d ++ t))

theorem InOrder.prepend {ds : List Text} {t : Text} (h : InOrder ds t) (a : Text) :
    InOrder ds (a ++ t) := by
  cases h with
  | nil => exact .nil
  | cons h =>
    rw [← List.append_assoc]
    exact .cons h

theorem InOrder.append {ds es : List Text} {t u : Text} (h : InOrder ds t) (h' : InOrder es u) :
    InOrder (ds ++ es) (t ++ u) := by
  induction h with
  | nil => exact h'.prepend _
  | cons _ ih =>
    rw [List.append_assoc, List.append_assoc]
    exact .cons ih

theorem InOrder.infix {ds : List Text} {t : Text} (h : InOrder ds t) : ∀ d ∈ ds, d <:+: t := by
  induction h with
  | nil => simp
  | @cons ds a d t _ ih =>
    refine List.forall_mem_cons.mpr ⟨⟨a, t, List.append_assoc _ _ _⟩, fun e he => ?_⟩
    exact (ih e he).trans ⟨a ++ d, [], by simp⟩

theorem inOrder_joined (ps : List Piece) : InOrder (ps.filterMap comment?) (Piece.joined ps) := by
  induction ps with
  | nil => exact .nil
  | cons p ps ih =>
    cases p with
    | comment body => exact .cons (a := []) ih
    | _ => exact ih.prepend _

/-- The comments of a text occur in it in their order. -/
theorem inOrder_comments (t : Text) : InOrder (comments t) t := by
  have := inOrder_joined (Piece.ofText t)
  rwa [Piece.joined_ofText] at this

end PixelScale.Stylesheet
