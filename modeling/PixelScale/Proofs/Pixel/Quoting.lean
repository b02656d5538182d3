import PixelScale.Proofs.Pixel.Recognition
import PixelScale.Proofs.Pixel.Respelling
import PixelScale.Proofs.Stylesheet.Passage

/-!
# Quoted strings of a value

Two readers look for the strings of a value. For the reader of statements a backslash hides the next
character, and a comment hides what is in it. The reader of pixel lengths knows neither: for it a
string ends at the first quote of its kind, a quote in a comment begins a string, and a `url(...)`
group ends at the first parenthesis, even in a string.

So a string with a hidden quote, a comment with a quote or with the beginning of a group, and a string
in a group with a parenthesis in it can bring the second reader out of step, and it then converts what
the first one takes for the content of a string. As long as none of these occurs, both agree, and
every string is copied as it is.

* `Piece.InStep`: the pieces over which the two readers agree.
* `Standing`: where the reader of lengths stands between two pieces.
* `Converter.exists_replaceAll_quoted`: strings are copied as they are.
-/

namespace PixelScale.Stylesheet.Piece

open Text

/-! ## Pieces of a text -/

/-- A piece with both delimiters, or a character that is no quote. -/
def Legible : Piece → Prop
  | char c => isQuote c = false
  | quoted mark _ => isQuote mark = true
  | comment _ => True
  | unclosedString _ _ => False
  | unclosedComment _ => False

theorem legible_read {m : Mode} {t : Text} (hm : ∀ q r, m = .inString q r → isQuote q = true) :
    ∀ p ∈ read m t, p.isUnclosed = false → Legible p := by
  fun_induction read m t with
  | case1 => simp
  | case2 t ih => exact ih (by simp)
  | case3 c t _ hq ih => exact ih (by simp [hq])
  | case4 c t _ hq ih =>
    exact List.forall_mem_cons.mpr ⟨fun _ => Bool.eq_false_iff.mpr hq, ih (by simp)⟩
  | case5 => simp [isUnclosed]
  | case6 q r c t ih => exact ih (by simpa using hm)
  | case7 r q t _ ih => exact List.forall_mem_cons.mpr ⟨fun _ => hm q r rfl, ih (by simp)⟩
  | case8 q r c t _ _ ih => exact ih (by simpa using hm)
  | case9 => simp [isUnclosed]
  | case10 r t ih => exact List.forall_mem_cons.mpr ⟨fun _ => trivial, ih (by simp)⟩
  | case11 r c t _ ih => exact ih (by simp)

/-- Only the last piece can lack a delimiter. -/
theorem isUnclosed_of_read {m : Mode} {t : Text} {ps qs : List Piece} {p : Piece}
    (h : read m t = ps ++ p :: qs) (hqs : qs ≠ []) : p.isUnclosed = false := by
  have cons : ∀ {q : Piece} {rs : List Piece}, q.isUnclosed = false →
      (∀ ps, rs = ps ++ p :: qs → p.isUnclosed = false) →
      ∀ ps, q :: rs = ps ++ p :: qs → p.isUnclosed = false := by
    intro q rs hq ih ps h
    rcases List.cons_eq_append_iff.mp h with ⟨-, heq⟩ | ⟨ps, -, hrs⟩
    · rw [(List.cons.inj heq).1]
      exact hq
    · exact ih ps hrs
  have last : ∀ q ps, [q] = ps ++ p :: qs → p.isUnclosed = false := by
    intro q ps h
    rcases List.cons_eq_append_iff.mp h with ⟨-, heq⟩ | ⟨ps, -, hrs⟩
    · exact absurd (List.cons.inj heq).2 hqs
    · simp at hrs
  fun_induction read m t generalizing ps with
  | case1 => simp at h
  | case2 t ih => exact ih h
  | case3 c t _ _ ih => exact ih h
  | case4 c t _ _ ih => exact cons rfl (fun ps => @ih ps) ps h
  | case5 => exact last _ ps h
  | case6 q r c t ih => exact ih h
  | case7 r q t _ ih => exact cons rfl (fun ps => @ih ps) ps h
  | case8 q r c t _ _ ih => exact ih h
  | case9 => exact last _ ps h
  | case10 r t ih => exact cons rfl (fun ps => @ih ps) ps h
  | case11 r c t _ ih => exact ih h

theorem legible_of_ofText {v : Text} {ps qs : List Piece} {p : Piece}
    (h : ofText v = ps ++ p :: qs) (hp : p.isUnclosed = false) : ∀ q ∈ ps ++ [p], Legible q := by
  intro q hq
  have hlegible := @legible_read .outside v (by simp)
  refine hlegible q ?_ ?_
  · rw [show read .outside v = _ from h]
    rcases List.mem_append.mp hq with hq | hq
    · exact List.mem_append_left _ hq
    · rw [List.mem_singleton.mp hq]
      simp
  · rcases List.mem_append.mp hq with hq | hq
    · obtain ⟨ps₁, ps₂, rfl⟩ := List.append_of_mem hq
      rw [List.append_assoc, List.cons_append] at h
      exact isUnclosed_of_read h (by simp)
    · rwa [List.mem_singleton.mp hq]

/-- Characters that begin no string and no comment are pieces on their own. -/
theorem exists_chars {ps : List Piece} {v w : Text} (hps : ∀ p ∈ ps, Legible p)
    (hv : ∀ c ∈ v, isQuote c = false ∧ c ≠ '/') (h : joined ps = v ++ w) :
    ∃ qs, ps = v.map char ++ qs ∧ joined qs = w := by
  induction v generalizing ps with
  | nil => exact ⟨ps, rfl, h⟩
  | cons c v ih =>
    obtain ⟨hc, hrest⟩ := List.forall_mem_cons.mp hv
    cases ps with
    | nil => cases h
    | cons p ps =>
      obtain ⟨hp, hps'⟩ := List.forall_mem_cons.mp hps
      cases p with
      | char d =>
        obtain ⟨rfl, htail⟩ := List.cons.inj h
        obtain ⟨qs, hqs, hw⟩ := ih hps' hrest htail
        exact ⟨qs, by rw [hqs, List.map_cons, List.cons_append], hw⟩
      | quoted mark body =>
        obtain ⟨rfl, -⟩ := List.cons.inj h
        exact absurd (hp.symm.trans hc.1) (by decide)
      | comment body => exact absurd (List.cons.inj h).1.symm hc.2
      | unclosedString mark body => exact hp.elim
      | unclosedComment body => exact hp.elim

/-! ## Pieces over which the readers agree -/

/-- The beginning of a `url(...)` group. -/
def groupStart : Text := ['u', 'r', 'l', '(']

/-- The reader of pixel lengths keeps in step with the pieces. -/
structure InStep (ps : List Piece) : Prop where
  /-- No string hides a quote of its kind. -/
  quoted : ∀ mark body, .quoted mark body ∈ ps → mark ∉ body
  /-- No quote and no beginning of a group is in a comment. -/
  comment : ∀ body, .comment body ∈ ps →
    (∀ c ∈ body, isQuote c = false) ∧ ¬ groupStart <:+: (Piece.comment body).text
  /-- No parenthesis is in a string in a group. -/
  group : ∀ ps₁ ps₂ mark body qs,
    ps = ps₁ ++ (groupStart.map char ++ ps₂) ++ .quoted mark body :: qs →
    ')' ∉ joined ps₂ → ')' ∉ body

theorem InStep.left {ps qs : List Piece} (h : InStep (ps ++ qs)) : InStep ps where
  quoted mark body hmem := h.quoted mark body (List.mem_append_left _ hmem)
  comment body hmem := h.comment body (List.mem_append_left _ hmem)
  group ps₁ ps₂ mark body rs hps := h.group ps₁ ps₂ mark body (rs ++ qs) (by rw [hps]; simp)

end PixelScale.Stylesheet.Piece

namespace PixelScale.Pixel

open Text Stylesheet Segment

/-! ## The reader of lengths between two pieces -/

/-- Where the reader of lengths stands in the text `v` behind the pieces `ps` and in front of `r`:
outside of everything that it skips, or in a group that began with one of the pieces. -/
inductive Standing (v : Text) (ps : List Piece) (r : Text) : Prop
  | outside : Reaches v r → Standing v ps r
  | inside {ps₁ ps₂ : List Piece} {s h z : Text} : ps = ps₁ ++ ps₂ → r = h ++ z → h ≠ [] →
      ')' ∉ s → Piece.joined ps₂ ++ h = Piece.groupStart ++ s ++ [')'] →
      Reaches v (Piece.joined ps₂ ++ r) → Standing v ps r

theorem skipped_group {s : Text} (hs : ')' ∉ s) : Skipped (Piece.groupStart ++ s ++ [')']) :=
  .group hs

theorem skipped_quoted {mark : Char} {body : Text} (hmark : Piece.isQuote mark = true)
    (hbody : mark ∉ body) : Skipped (Piece.quoted mark body).text := by
  rcases (Bool.or_eq_true _ _).mp hmark with h | h
  · obtain rfl := beq_iff_eq.mp h
    exact .double hbody
  · obtain rfl := beq_iff_eq.mp h
    exact .single hbody

/-- What is left of a comment is passed character by character. -/
theorem reaches_comment {body e r : Text} (hbody : ∀ c ∈ body, Piece.isQuote c = false)
    (hgroup : ¬ Piece.groupStart <:+: (Piece.comment body).text)
    (he : e <:+ (Piece.comment body).text) : Reaches (e ++ r) r := by
  refine .of_plain (fun v v' hv hne => ?_) .here
  have hv' : v' <:+ (Piece.comment body).text := List.IsSuffix.trans ⟨v, hv.symm⟩ he
  obtain ⟨c, w, rfl⟩ := List.exists_cons_of_ne_nil hne
  have hc : Piece.isQuote c = false := by
    have hmem : c ∈ (Piece.comment body).text := hv'.subset List.mem_cons_self
    simp only [Piece.text, List.mem_append, List.mem_cons, List.not_mem_nil, or_false] at hmem
    rcases hmem with (rfl | rfl | hmem) | rfl | rfl
    · rfl
    · rfl
    · exact hbody c hmem
    · rfl
    · rfl
  intro u hu hprefix
  cases hu with
  | double _ =>
    rw [← (List.cons_prefix_cons.mp hprefix).1] at hc
    cases hc
  | single _ =>
    rw [← (List.cons_prefix_cons.mp hprefix).1] at hc
    cases hc
  | @group s _ =>
    -- a comment ends with a slash, so a group that began in it would do so with all of `url(`
    obtain ⟨x, hx⟩ := hprefix
    have hx : Piece.groupStart ++ (s ++ [')'] ++ x) = c :: w ++ r := hx
    rcases List.append_eq_append_iff.mp hx with ⟨y, hy, -⟩ | ⟨y, hy, -⟩
    · exact hgroup ((List.prefix_append _ y).isInfix.trans (hy ▸ hv'.isInfix))
    · obtain ⟨z, hz⟩ := hv'
      have hlast : (c :: w).getLast? = some '/' := by
        have htext : (Piece.comment body).text.getLast? = some '/' := by
          rw [Piece.text, List.getLast?_append_of_ne_nil _ (by simp)]
          rfl
        rwa [← hz, List.getLast?_append_of_ne_nil _ (by simp)] at htext
      have hslash : '/' ∈ Piece.groupStart := by
        rw [hy]
        exact List.mem_append_left _ (List.mem_of_getLast? hlast)
      exact absurd hslash (by decide)

/-- If a quote comes next, then the beginning of the group lies behind the reader. -/
theorem exists_behind_start {ps : List Piece} {s w : Text} (hlegible : ∀ p ∈ ps, p.Legible)
    (hw : Piece.joined ps ++ w = Piece.groupStart ++ s)
    (hquote : ∀ c ∈ w.head?, Piece.isQuote c = true) :
    ∃ ps', ps = Piece.groupStart.map .char ++ ps' ∧ s = Piece.joined ps' ++ w := by
  have hplain : ∀ c ∈ Piece.groupStart, Piece.isQuote c = false ∧ c ≠ '/' := by
    simp [Piece.groupStart, Piece.isQuote]
  obtain ⟨x, hx, rfl⟩ : ∃ x, Piece.joined ps = Piece.groupStart ++ x ∧ s = x ++ w := by
    rcases List.append_eq_append_iff.mp hw with ⟨x, hx, rfl⟩ | ⟨x, hx, hs⟩
    · cases x with
      | nil => exact ⟨[], by simpa using hx.symm, rfl⟩
      | cons c x =>
        have hmem : c ∈ Piece.groupStart := by
          rw [hx]
          simp
        exact absurd ((hplain c hmem).1.symm.trans (hquote c rfl)) (by decide)
    · exact ⟨x, hx, hs⟩
  obtain ⟨ps', rfl, rfl⟩ := Piece.exists_chars hlegible hplain hx
  exact ⟨ps', rfl, rfl⟩

/-- A string in a group is skipped together with the group. -/
theorem exists_behind_quoted {ps₁ ps₂ : List Piece} {mark : Char} {body s h z r : Text}
    (hlegible : ∀ p ∈ ps₁ ++ ps₂ ++ [.quoted mark body], p.Legible)
    (hstep : Piece.InStep (ps₁ ++ ps₂ ++ [.quoted mark body]))
    (hr : (Piece.quoted mark body).text ++ r = h ++ z) (hne : h ≠ []) (hs : ')' ∉ s)
    (hgroup : Piece.joined ps₂ ++ h = Piece.groupStart ++ s ++ [')']) :
    ∃ h', h = (Piece.quoted mark body).text ++ h' ∧ r = h' ++ z ∧ h' ≠ [] := by
  have hmark : Piece.isQuote mark = true := hlegible (.quoted mark body) (by simp)
  -- the group ends with what is skipped of it behind the pieces
  obtain ⟨w, c, rfl⟩ := (List.eq_nil_or_concat' h).resolve_left hne
  rw [← List.append_assoc] at hgroup
  obtain ⟨hw, hc⟩ := List.append_inj' hgroup rfl
  obtain rfl := List.singleton_inj.mp hc
  rcases List.append_eq_append_iff.mp hr with ⟨h', hh, rfl⟩ | ⟨e, htext, -⟩
  · refine ⟨h', hh, rfl, ?_⟩
    rintro rfl
    have hlast := congrArg List.getLast? hh
    simp only [List.append_nil, Piece.text, List.getLast?_concat, Option.some.injEq] at hlast
    rw [← hlast] at hmark
    cases hmark
  · exfalso
    have hquote : ∀ c ∈ w.head?, Piece.isQuote c = true := by
      intro c hc
      obtain ⟨w, rfl⟩ := List.head?_eq_some_iff.mp hc
      obtain ⟨rfl, -⟩ := List.cons.inj htext
      exact hmark
    obtain ⟨ps₃, rfl, rfl⟩ := exists_behind_start (fun p hp => hlegible p (by simp [hp])) hw hquote
    have hbody := hstep.group ps₁ ps₃ mark body [] (by simp) fun hmem =>
      hs (List.mem_append_left _ hmem)
    have hmem : ')' ∈ (Piece.quoted mark body).text := by
      rw [htext]
      simp
    have hne : ')' ≠ mark := by
      rintro rfl
      cases hmark
    simp [Piece.text, hne, hbody] at hmem

/-- What the reader does behind one more piece. -/
theorem Standing.step {v r : Text} {ps : List Piece} {p : Piece}
    (h : Standing v ps (p.text ++ r)) (hlegible : ∀ q ∈ ps ++ [p], q.Legible)
    (hstep : Piece.InStep (ps ++ [p])) : Standing v (ps ++ [p]) r := by
  cases h with
  | outside h =>
    cases p with
    | char c =>
      have hc : Piece.isQuote c = false := hlegible (.char c) (by simp)
      by_cases hplain : Plain (c :: r)
      · exact .outside (h.trans (.char hplain .here))
      · simp only [Plain, not_forall, not_not] at hplain
        obtain ⟨u, hu, hprefix⟩ := hplain
        cases hu with
        | double _ =>
          rw [← (List.cons_prefix_cons.mp hprefix).1] at hc
          cases hc
        | single _ =>
          rw [← (List.cons_prefix_cons.mp hprefix).1] at hc
          cases hc
        | @group s hs =>
          obtain ⟨rfl, z, rfl⟩ := List.cons_prefix_cons.mp hprefix
          exact .inside rfl rfl (List.cons_ne_nil _ _) hs rfl h
    | quoted mark body =>
      have hmark : Piece.isQuote mark = true := hlegible (.quoted mark body) (by simp)
      have hbody := hstep.quoted mark body (by simp)
      exact .outside (h.trans (.skip (skipped_quoted hmark hbody) .here))
    | comment body =>
      obtain ⟨hbody, hgroup⟩ := hstep.comment body (by simp)
      exact .outside (h.trans (reaches_comment hbody hgroup List.suffix_rfl))
    | unclosedString mark body => exact (hlegible (.unclosedString mark body) (by simp)).elim
    | unclosedComment body => exact (hlegible (.unclosedComment body) (by simp)).elim
  | @inside ps₁ ps₂ s h z hps hr hne hs hgroup hreaches =>
    have hbehind : Reaches v z := by
      rw [hr, ← List.append_assoc, hgroup] at hreaches
      exact hreaches.trans (.skip (skipped_group hs) .here)
    have hpart : ∀ h', h = p.text ++ h' → r = h' ++ z → Standing v (ps ++ [p]) r := by
      intro h' hh hr'
      rcases eq_or_ne h' [] with rfl | hne'
      · rw [hr']
        exact .outside hbehind
      · refine @Standing.inside v _ r ps₁ (ps₂ ++ [p]) s h' z (by rw [hps, List.append_assoc]) hr'
          hne' hs ?_ ?_
        · rw [← hgroup, hh]
          simp
        · simpa using hreaches
    rcases List.append_eq_append_iff.mp hr with ⟨h', hh, hr'⟩ | ⟨e, he, hz⟩
    · exact hpart h' hh hr'
    cases p with
    | char c =>
      rcases List.cons_eq_append_iff.mp he with ⟨hnil, -⟩ | ⟨w, rfl, hw⟩
      · exact absurd hnil hne
      · obtain ⟨rfl, rfl⟩ := List.append_eq_nil_iff.mp hw.symm
        exact hpart [] rfl hz.symm
    | quoted mark body =>
      subst hps
      obtain ⟨h', hh, hr', -⟩ := exists_behind_quoted hlegible hstep hr hne hs hgroup
      exact hpart h' hh hr'
    | comment body =>
      obtain ⟨hbody, hstart⟩ := hstep.comment body (by simp)
      rw [hz] at hbehind
      exact .outside (hbehind.trans (reaches_comment hbody hstart ⟨h, he.symm⟩))
    | unclosedString mark body => exact (hlegible (.unclosedString mark body) (by simp)).elim
    | unclosedComment body => exact (hlegible (.unclosedComment body) (by simp)).elim

theorem standing_joined {ps : List Piece} (qs : List Piece) (hlegible : ∀ p ∈ ps, p.Legible)
    (hstep : Piece.InStep ps) : Standing (Piece.joined (ps ++ qs)) ps (Piece.joined qs) := by
  induction ps using List.reverseRecOn generalizing qs with
  | nil => exact .outside .here
  | append_singleton ps p ih =>
    have hfront := ih (p :: qs) (fun q hq => hlegible q (List.mem_append_left _ hq)) hstep.left
    rw [List.append_assoc, List.singleton_append]
    exact hfront.step hlegible hstep

/-- A quoted string is skipped, perhaps together with more of the text around it. -/
theorem exists_skipped_quoted {ps qs : List Piece} {mark : Char} {body : Text}
    (hlegible : ∀ p ∈ ps ++ [.quoted mark body], p.Legible)
    (hstep : Piece.InStep (ps ++ [.quoted mark body])) :
    ∃ f g h z, Piece.joined ps = f ++ g ∧ Piece.joined qs = h ++ z ∧
      Skipped (g ++ (Piece.quoted mark body).text ++ h) ∧
      Reaches (Piece.joined (ps ++ .quoted mark body :: qs))
        (g ++ (Piece.quoted mark body).text ++ h ++ z) := by
  have hmark : Piece.isQuote mark = true := hlegible (.quoted mark body) (by simp)
  have hbody := hstep.quoted mark body (by simp)
  have hstanding := standing_joined (.quoted mark body :: qs)
    (fun p hp => hlegible p (List.mem_append_left _ hp)) hstep.left
  cases hstanding with
  | outside hreaches =>
    refine ⟨Piece.joined ps, [], [], Piece.joined qs, by simp, by simp, ?_, ?_⟩
    · simpa using skipped_quoted hmark hbody
    · simpa using hreaches
  | @inside ps₁ ps₂ s h z hps hr hne hs hgroup hreaches =>
    subst hps
    obtain ⟨h', rfl, hr', -⟩ := exists_behind_quoted hlegible hstep hr hne hs hgroup
    refine ⟨Piece.joined ps₁, Piece.joined ps₂, h', z, by simp, hr', ?_, ?_⟩
    · rw [List.append_assoc, hgroup]
      exact skipped_group hs
    · rw [hr] at hreaches
      simpa using hreaches

/-! ## Strings of a converted text -/

/-- What is skipped is a segment. -/
theorem exists_kept {v f u z : Text} {ss : List Segment} (h : IsRow v ss) (hv : v = f ++ (u ++ z))
    (hu : Skipped u) (hreaches : Reaches v (u ++ z)) :
    ∃ as bs, ss = as ++ .kept u :: bs ∧ Segment.joined as = f ∧ Segment.joined bs = z := by
  have hkept := hu.kept?_append z
  obtain ⟨c, w, rfl, hc⟩ := hu.exists_cons
  obtain ⟨as, s, bs, x, y, rfl, hs, hy, hr, hx⟩ := (h.reaches_iff (by simp)).mp hreaches
  have hx : x = [] := by
    cases s with
    | kept u => exact hx ⟨u, rfl⟩
    | char d =>
      rcases List.cons_eq_append_iff.mp hs with ⟨hnil, -⟩ | ⟨_, -, hnil⟩
      · exact hnil
      · exact absurd (List.append_eq_nil_iff.mp hnil.symm).2 hy
    | pixels n =>
      obtain ⟨d, y, rfl⟩ := List.exists_cons_of_ne_nil hy
      obtain ⟨rfl, -⟩ := List.cons.inj hr
      have hmem : c ∈ n ++ pxSuffix := by
        rw [show n ++ pxSuffix = x ++ c :: y from hs]
        simp
      rw [h.opens_pixels c hmem] at hc
      cases hc
  subst hx
  obtain rfl : s.text = y := hs
  have hright := h.right
  rw [Segment.joined_cons, ← hr] at hright
  have hs : s = .kept (c :: w) := by
    rcases hright.first?_eq with hfirst | ⟨hfirst, -⟩
    · rw [first?, hkept] at hfirst
      exact (Option.some.inj hfirst).symm
    · rw [first?, hkept] at hfirst
      cases hfirst
  subst hs
  have hz : z = Segment.joined bs := List.append_cancel_left hr
  refine ⟨as, bs, rfl, ?_, hz.symm⟩
  have hjoined := h.joined_eq
  rw [hv, hz, Segment.joined_append, Segment.joined_cons] at hjoined
  exact List.append_cancel_right hjoined

namespace Converter

variable (k : Converter)

theorem exists_segments_kept {last : Option Char} {as bs : List Segment} {u : Text}
    (hnumbers : ∀ n, .pixels n ∈ as ++ .kept u :: bs → IsNumber n) :
    ∃ x y, k.segments last (as ++ .kept u :: bs) = x ++ u ++ y ∧
      Respelled k (Segment.joined as) x ∧ Respelled k (Segment.joined bs) y := by
  induction as generalizing last with
  | nil =>
    refine ⟨[], k.segments u.getLast? bs, rfl, .nil, k.respelled_segments _ fun n hn => ?_⟩
    exact hnumbers n (List.mem_cons_of_mem _ hn)
  | cons s as ih =>
    obtain ⟨w, hw, hs⟩ := k.exists_segments_cons last (as ++ .kept u :: bs) fun n hn =>
      hnumbers n (hn ▸ List.mem_cons_self)
    obtain ⟨x, y, hsegments, hx, hy⟩ := @ih s.text.getLast? fun n hn =>
      hnumbers n (List.mem_cons_of_mem _ hn)
    refine ⟨w ++ x, y, ?_, hs.append hx, hy⟩
    rw [List.cons_append, hw, hsegments]
    simp

variable {k} in
/-- A string without `px` stays as it is, wherever it stands: no length reaches over a quote. -/
theorem exists_quoted {a b w body : Text} {mark : Char}
    (h : Respelled k (a ++ ((Piece.quoted mark body).text ++ b)) w)
    (hmark : Piece.isQuote mark = true) (hbody : occurs pxSuffix body = false) :
    ∃ x y, w = x ++ (Piece.quoted mark body).text ++ y ∧ Respelled k a x ∧ Respelled k b y := by
  obtain ⟨hlength, hpx⟩ : Respelled.inLength mark = false ∧ occurs pxSuffix [mark] = false := by
    rcases (Bool.or_eq_true _ _).mp hmark with h | h
    · rw [beq_iff_eq.mp h]
      decide
    · rw [beq_iff_eq.mp h]
      decide
  have hquote : ∀ c ∈ [mark].getLast?, Respelled.inLength c = false := by simpa using hlength
  have hparts : (Piece.quoted mark body).text ++ b = [mark] ++ (body ++ ([mark] ++ b)) := by
    simp [Piece.text]
  rw [hparts] at h
  obtain ⟨x, w, rfl, hx, hw⟩ := h.split (.inr hquote)
  obtain ⟨m, w, rfl, hm, hw⟩ := hw.split (.inl hquote)
  obtain ⟨u, w, rfl, hu, hw⟩ := hw.split (.inr hquote)
  obtain ⟨m', y, rfl, hm', hy⟩ := hw.split (.inl hquote)
  rw [hm.eq_self hpx, hu.eq_self hbody, hm'.eq_self hpx]
  exact ⟨x, y, by simp [Piece.text], hx, hy⟩

/-- A quoted string of a value is copied as it is, if there is no `px` in it or the readers agree up
to its end, and on both sides of it only pixel lengths are converted. -/
theorem exists_replaceAll_quoted {v : Text} {ps qs : List Piece} {mark : Char} {body : Text}
    (hv : Piece.ofText v = ps ++ .quoted mark body :: qs)
    (h : occurs pxSuffix body = true → Piece.InStep (ps ++ [.quoted mark body])) :
    ∃ x y, k.replaceAll v = x ++ (Piece.quoted mark body).text ++ y ∧
      Respelled k (Piece.joined ps) x ∧ Respelled k (Piece.joined qs) y := by
  have hlegible := Piece.legible_of_ofText hv rfl
  have hjoined : v = Piece.joined (ps ++ .quoted mark body :: qs) := by
    rw [← hv, Piece.joined_ofText]
  by_cases hpx : occurs pxSuffix body = true
  · obtain ⟨f, g, t, z, hps, hqs, hskipped, hreaches⟩ :=
      @exists_skipped_quoted _ qs _ _ hlegible (h hpx)
    rw [← hjoined] at hreaches
    obtain ⟨as, bs, hss, rfl, rfl⟩ := exists_kept (isRow_ofText v) (f := f)
      (by rw [hjoined, Piece.joined_append, Piece.joined_cons, hps, hqs]; simp) hskipped hreaches
    obtain ⟨x, y, hreplaced, hx, hy⟩ := @exists_segments_kept k none as bs _ fun n hn =>
      isNumber_of_mem_after (hss ▸ hn)
    refine ⟨x ++ g, t ++ y, ?_, ?_, ?_⟩
    · rw [replaceAll, hss, hreplaced]
      simp
    · rw [hps]
      exact hx.append (.refl k g)
    · rw [hqs]
      exact (Respelled.refl k t).append hy
  · have hrespelled := k.respelled_replaceAll v
    generalize k.replaceAll v = w at hrespelled ⊢
    rw [hjoined, Piece.joined_append, Piece.joined_cons] at hrespelled
    exact exists_quoted hrespelled (hlegible (.quoted mark body) (by simp))
      (Bool.eq_false_iff.mpr hpx)

/-- A string behind a group with a string in it. -/
theorem exists_replaceAll_quoted_behind_group :
    ∃ (v : Text) (ps : List Piece), v = "url(\"2px\") '3px'".toList ∧
      Piece.ofText v = ps ++ [.quoted '\'' "3px".toList] ∧
      Piece.InStep (ps ++ [.quoted '\'' "3px".toList]) ∧
      ∀ k : Converter, ∃ x y, k.replaceAll v = x ++ "'3px'".toList ++ y ∧
        Respelled k (Piece.joined ps) x ∧ Respelled k (Piece.joined []) y := by
  refine ⟨_, Piece.groupStart.map .char ++ [.quoted '"' "2px".toList, .char ')', .char ' '], rfl,
    ?hv, ?hstep, fun k => exists_replaceAll_quoted k ?hv fun _ => ?hstep⟩
  case hv => decide
  case hstep =>
    have hquoted : ∀ mark body, Piece.quoted mark body ∈ Piece.groupStart.map Piece.char ++
        [.quoted '"' "2px".toList, .char ')', .char ' '] ++ [.quoted '\'' "3px".toList] →
        mark ∉ body ∧ ')' ∉ body := by
      intro mark body hmem
      simp only [Piece.groupStart, List.map_cons, List.map_nil, List.mem_append, List.mem_cons,
        List.not_mem_nil, Piece.quoted.injEq, reduceCtorEq, or_false, false_or] at hmem
      rcases hmem with ⟨rfl, rfl⟩ | ⟨rfl, rfl⟩
      · decide
      · decide
    refine ⟨fun mark body hmem => (hquoted mark body hmem).1, fun body hmem => ?_, ?_⟩
    · simp [Piece.groupStart] at hmem
    · intro ps₁ ps₂ mark body qs hps _
      exact (hquoted mark body (by rw [hps]; simp)).2

end Converter

end PixelScale.Pixel
