import PixelScale.Proofs.Text.Trimming
import PixelScale.Stylesheet.Statement

/-!
# Scanning a statement character by character

A statement is cut out of a row of pieces. Here the same cut is made on the text itself, by an
automaton that knows after every character how deep it is in parentheses and whether it is inside
a string or a comment. Two texts that take the automaton to the same state can be exchanged in
front of any text, and this is how statements are compared before and after a change.

* `Scan.run`: the state behind a text that does not end the statement.
* `Scan.split`: the text of a statement, and what follows it.
* `run_plain`: all texts of plain characters, except the empty one, lead to the same state.
* `sameCut_ofText`: the cut on the text is the cut on its pieces.
-/

namespace PixelScale.Stylesheet

open Text

/-- Where the reader of a statement stands. -/
inductive Scan.Mode where
  | outside
  /-- behind a slash, which may start a comment -/
  | slash
  | string (mark : Char)
  /-- behind a backslash in a string -/
  | escape (mark : Char)
  | comment
  /-- behind an asterisk in a comment, which may end it -/
  | star
deriving DecidableEq, Repr

/-- The state of a reader: the number of open parentheses, and the mode. -/
structure Scan where
  depth : Nat
  mode : Scan.Mode
deriving DecidableEq, Repr

namespace Scan

/-- The state in front of a statement. -/
def start : Scan := ⟨0, .outside⟩

/-- Whether a character ends a statement, outside of parentheses. -/
def isTerminator (c : Char) : Bool := c == ';' || c == '{' || c == '}'

/-- The state behind a character outside of strings and comments; none if it ends the statement. -/
def stepOutside (depth : Nat) (c : Char) : Option Scan :=
  if Piece.isQuote c then some ⟨depth, .string c⟩
  else if c = '/' then some ⟨depth, .slash⟩
  else if c = '(' then some ⟨depth + 1, .outside⟩
  else if c = ')' then some ⟨depth - 1, .outside⟩
  else if depth = 0 ∧ isTerminator c then none
  else some ⟨depth, .outside⟩

/-- The state behind a character; none if it ends the statement. -/
def step : Scan → Char → Option Scan
  | ⟨d, .outside⟩, c => stepOutside d c
  | ⟨d, .slash⟩, c => if c = '*' then some ⟨d, .comment⟩ else stepOutside d c
  | ⟨d, .string q⟩, c =>
    some (if c = '\\' then ⟨d, .escape q⟩
      else if c = q ∧ Piece.isQuote c then ⟨d, .outside⟩ else ⟨d, .string q⟩)
  | ⟨d, .escape q⟩, _ => some ⟨d, .string q⟩
  | ⟨d, .comment⟩, c => some (if c = '*' then ⟨d, .star⟩ else ⟨d, .comment⟩)
  | ⟨d, .star⟩, c =>
    some (if c = '/' then ⟨d, .outside⟩ else if c = '*' then ⟨d, .star⟩ else ⟨d, .comment⟩)

/-- The state behind a text; none if one of its characters ends the statement. -/
def run (s : Scan) : Text → Option Scan
  | [] => some s
  | c :: t => (s.step c).bind fun s => s.run t

/-- The text up to the character that ends the statement, and the text from there on. -/
def split (s : Scan) : Text → Text × Text
  | [] => ([], [])
  | c :: t =>
    match s.step c with
    | none => ([], c :: t)
    | some s => (c :: (s.split t).1, (s.split t).2)

/-- The state in which the statement ends. -/
def halt (s : Scan) : Text → Scan
  | [] => s
  | c :: t =>
    match s.step c with
    | none => s
    | some s => s.halt t

/-- Whether the reader is outside of strings and comments. -/
def isOutside (s : Scan) : Bool := s.mode = .outside || s.mode = .slash

/-! ## Running and splitting -/

theorem run_cons (s : Scan) (c : Char) (t : Text) :
    s.run (c :: t) = (s.step c).bind fun s => s.run t := rfl

theorem run_append (s : Scan) (t u : Text) : s.run (t ++ u) = (s.run t).bind fun s => s.run u := by
  induction t generalizing s with
  | nil => rfl
  | cons c t ih =>
    simp only [List.cons_append, run_cons, ih]
    cases s.step c <;> rfl

theorem split_append (s : Scan) (t : Text) : (s.split t).1 ++ (s.split t).2 = t := by
  induction t generalizing s with
  | nil => rfl
  | cons c t ih =>
    simp only [split]
    split
    · rfl
    · rename_i s' _
      simpa using ih s'

theorem run_split (s : Scan) (t : Text) : s.run (s.split t).1 = some (s.halt t) := by
  induction t generalizing s with
  | nil => rfl
  | cons c t ih =>
    simp only [split, halt]
    split
    · rfl
    · rename_i s' h
      simpa [run_cons, h] using ih s'

theorem split_stops (s : Scan) (t : Text) :
    (s.split t).2 = [] ∨ ∃ c u, (s.split t).2 = c :: u ∧ (s.halt t).step c = none := by
  induction t generalizing s with
  | nil => exact .inl rfl
  | cons c t ih =>
    simp only [split, halt]
    split
    · rename_i h
      exact .inr ⟨c, t, rfl, h⟩
    · rename_i s' _
      exact ih s'

/-- A text that the reader passes over is cut off where the next character ends the statement. -/
theorem split_of_run {s s' : Scan} {t u : Text} (h : s.run t = some s')
    (hu : ∀ c ∈ u.head?, s'.step c = none) : s.split (t ++ u) = (t, u) ∧ s.halt (t ++ u) = s' := by
  induction t generalizing s with
  | nil =>
    cases h
    cases u with
    | nil => exact ⟨rfl, rfl⟩
    | cons c u => simp [split, halt, hu c rfl]
  | cons c t ih =>
    obtain ⟨s₁, h₁, h₂⟩ := Option.bind_eq_some_iff.mp h
    obtain ⟨hs, hh⟩ := ih h₂
    simp [split, halt, h₁, hs, hh]

theorem halt_of_run {s s' : Scan} {t : Text} (h : s.run t = some s') : s.halt t = s' := by
  simpa using (split_of_run (u := []) h (by simp)).2

theorem stepOutside_eq_none_iff {d : Nat} {c : Char} :
    stepOutside d c = none ↔ d = 0 ∧ isTerminator c = true := by
  unfold stepOutside
  by_cases h : isTerminator c = true
  · have hc : c = ';' ∨ c = '{' ∨ c = '}' := by simpa [isTerminator, or_assoc] using h
    rcases hc with rfl | rfl | rfl <;> simp [Piece.isQuote, h]
  · simp only [h]
    repeat' split
    all_goals simp_all

theorem step_eq_none_iff {s : Scan} {c : Char} :
    s.step c = none ↔ s.isOutside = true ∧ s.depth = 0 ∧ isTerminator c = true := by
  obtain ⟨d, m⟩ := s
  cases m with
  | outside => simp [step, isOutside, stepOutside_eq_none_iff]
  | slash =>
    by_cases hc : c = '*'
    · subst hc
      simp [step, isOutside, isTerminator]
    · simp [step, isOutside, hc, stepOutside_eq_none_iff]
  | string q => simp [step, isOutside]
  | escape q => simp [step, isOutside]
  | comment => simp [step, isOutside]
  | star => simp [step, isOutside]

/-! ## Plain characters -/

/-- A character without a meaning of its own for the reader. -/
def isPlain (c : Char) : Bool :=
  !(Piece.isQuote c || c == '/' || c == '*' || c == '(' || c == ')' || c == '\\' || isTerminator c)

/-- The state behind a plain character. -/
def settled (s : Scan) : Scan :=
  match s.mode with
  | .outside | .slash => ⟨s.depth, .outside⟩
  | .string q | .escape q => ⟨s.depth, .string q⟩
  | .comment | .star => ⟨s.depth, .comment⟩

@[simp] theorem settled_settled (s : Scan) : s.settled.settled = s.settled := by
  obtain ⟨d, m⟩ := s
  cases m <;> rfl

@[simp] theorem settled_depth (s : Scan) : s.settled.depth = s.depth := by
  obtain ⟨d, m⟩ := s
  cases m <;> rfl

@[simp] theorem settled_isOutside (s : Scan) : s.settled.isOutside = s.isOutside := by
  obtain ⟨d, m⟩ := s
  cases m <;> rfl

theorem step_plain (s : Scan) {c : Char} (hc : isPlain c = true) : s.step c = some s.settled := by
  simp only [isPlain, Bool.not_eq_true', Bool.or_eq_false_iff, beq_eq_false_iff_ne, ne_eq] at hc
  obtain ⟨⟨⟨⟨⟨⟨hq, hs⟩, ha⟩, ho⟩, hp⟩, hb⟩, ht⟩ := hc
  obtain ⟨d, m⟩ := s
  have hout : stepOutside d c = some ⟨d, .outside⟩ := by
    simp [stepOutside, hq, hs, ho, hp, ht]
  cases m with
  | outside => exact hout
  | slash => simp [step, ha, hout, settled]
  | string q => simp [step, hb, hq, settled]
  | escape q => rfl
  | comment => simp [step, ha, settled]
  | star => simp [step, ha, hs, settled]

/-- All texts of plain characters, except the empty one, lead to the same state. -/
theorem run_plain (s : Scan) {t : Text} (ht : ∀ c ∈ t, isPlain c = true) (hne : t ≠ []) :
    s.run t = some s.settled := by
  induction t generalizing s with
  | nil => exact absurd rfl hne
  | cons c t ih =>
    rw [run_cons, step_plain s (ht c (by simp)), Option.bind_some]
    rcases eq_or_ne t [] with rfl | hne'
    · rfl
    · rw [ih s.settled (fun d hd => ht d (by simp [hd])) hne', settled_settled]

/-- The characters that are not plain. -/
theorem of_isPlain_eq_false {c : Char} (h : isPlain c = false) :
    c = '"' ∨ c = '\'' ∨ c = '/' ∨ c = '*' ∨ c = '(' ∨ c = ')' ∨ c = '\\' ∨ c = ';' ∨ c = '{' ∨
      c = '}' := by
  simp only [isPlain, isTerminator, Piece.isQuote, Bool.not_eq_false', Bool.or_eq_true,
    beq_iff_eq] at h
  tauto

theorem isPlain_of_isBlank {c : Char} (h : isBlank c = true) : isPlain c = true := by
  by_contra hp
  rcases of_isPlain_eq_false (by simpa using hp) with
    rfl | rfl | rfl | rfl | rfl | rfl | rfl | rfl | rfl | rfl <;>
    simp [isBlank, blanks] at h

/-! ## Passing over a text -/

/-- The reader passes over a text and is outside of strings and comments behind it, with `depth`
open parentheses. -/
def Ends (s : Scan) (t : Text) (depth : Nat) : Prop :=
  ∃ s', s.run t = some s' ∧ s'.isOutside = true ∧ s'.depth = depth

/-- The reader passes over a text and is outside of strings and comments behind it. -/
def Passes (t : Text) : Prop := start.run t = some (start.halt t) ∧ (start.halt t).isOutside = true

theorem ends_of_passes {t : Text} (h : Passes t) : start.Ends t (start.halt t).depth :=
  ⟨_, h.1, h.2, rfl⟩

theorem passes_of_ends {t : Text} {d : Nat} (h : start.Ends t d) :
    Passes t ∧ (start.halt t).depth = d := by
  obtain ⟨s, hrun, hout, hd⟩ := h
  have hhalt := halt_of_run hrun
  subst hhalt
  exact ⟨⟨hrun, hout⟩, hd⟩

theorem Ends.unique {s : Scan} {t : Text} {d e : Nat} (hd : s.Ends t d) (he : s.Ends t e) :
    d = e := by
  obtain ⟨s₁, h₁, -, rfl⟩ := hd
  obtain ⟨s₂, h₂, -, rfl⟩ := he
  rw [h₁] at h₂
  cases h₂
  rfl

theorem ends_append {s : Scan} {t u : Text} {d : Nat} :
    s.Ends (t ++ u) d ↔ ∃ s', s.run t = some s' ∧ s'.Ends u d := by
  constructor
  · rintro ⟨s', hrun, hs'⟩
    rw [run_append] at hrun
    obtain ⟨s₁, h₁, h₂⟩ := Option.bind_eq_some_iff.mp hrun
    exact ⟨s₁, h₁, s', h₂, hs'⟩
  · rintro ⟨s₁, h₁, s', h₂, hs'⟩
    exact ⟨s', by rw [run_append, h₁, Option.bind_some, h₂], hs'⟩

/-- Plain characters at the end do not count. -/
theorem ends_append_plain {s : Scan} {t u : Text} {d : Nat} (hu : ∀ c ∈ u, isPlain c = true) :
    s.Ends (t ++ u) d ↔ s.Ends t d := by
  rcases eq_or_ne u [] with rfl | hne
  · rw [List.append_nil]
  rw [ends_append]
  constructor
  · rintro ⟨s₁, h₁, s₂, h₂, hout, hd⟩
    rw [run_plain s₁ hu hne] at h₂
    cases h₂
    exact ⟨s₁, h₁, by simpa using hout, by simpa using hd⟩
  · rintro ⟨s₁, h₁, hout, hd⟩
    exact ⟨s₁, h₁, s₁.settled, run_plain s₁ hu hne, by simpa using hout, by simpa using hd⟩

/-- Neither do plain characters in front of a statement. -/
theorem run_start_plain {t : Text} (ht : ∀ c ∈ t, isPlain c = true) :
    start.run t = some start := by
  rcases eq_or_ne t [] with rfl | hne
  · rfl
  · exact run_plain start ht hne

theorem ends_plain_append {t u : Text} {d : Nat} (ht : ∀ c ∈ t, isPlain c = true) :
    start.Ends (t ++ u) d ↔ start.Ends u d := by
  rw [ends_append]
  simp [run_start_plain ht]

theorem isPlain_of_blank {t : Text} (ht : Blank t) : ∀ c ∈ t, isPlain c = true :=
  fun c hc => isPlain_of_isBlank (ht c hc)

theorem ends_trimBlank {t : Text} {d : Nat} : start.Ends (trimBlank t) d ↔ start.Ends t d := by
  obtain ⟨a, b, ha, hb, heq, -⟩ := exists_frame t
  conv => rhs; rw [heq]
  rw [ends_append_plain (isPlain_of_blank hb), ends_plain_append (isPlain_of_blank ha)]

theorem count_plain {t : Text} (ht : ∀ c ∈ t, isPlain c = true) {c : Char}
    (hc : isPlain c = false) : t.count c = 0 := by
  refine List.count_eq_zero_of_not_mem fun hmem => ?_
  rw [ht c hmem] at hc
  cases hc

/-! ## The cut on pieces -/

/-- The state of a reader of pieces at a nesting of parentheses. -/
def ofMode (depth : Nat) : Piece.Mode → Scan
  | .outside => ⟨depth, .outside⟩
  | .inString mark _ => ⟨depth, .string mark⟩
  | .inComment _ => ⟨depth, .comment⟩

theorem split_slash {d : Nat} {t : Text} (h : t.head? ≠ some '*') :
    split ⟨d, .slash⟩ t = split ⟨d, .outside⟩ t ∧
      (halt ⟨d, .slash⟩ t).isOutside = (halt ⟨d, .outside⟩ t).isOutside := by
  cases t with
  | nil => exact ⟨rfl, rfl⟩
  | cons c t =>
    have hc : c ≠ '*' := by simpa using h
    simp only [split, halt, step, if_neg hc, true_and]
    split <;> rfl

theorem split_star {d : Nat} {t : Text} (h : t.head? ≠ some '/') :
    split ⟨d, .star⟩ t = split ⟨d, .comment⟩ t ∧
      (halt ⟨d, .star⟩ t).isOutside = (halt ⟨d, .comment⟩ t).isOutside := by
  cases t with
  | nil => exact ⟨rfl, rfl⟩
  | cons c t =>
    have hc : c ≠ '/' := by simpa using h
    simp [split, halt, step, hc]

end Scan

/-- A string or a comment that is never closed. -/
def Piece.isUnclosed : Piece → Bool
  | .unclosedString _ _ | .unclosedComment _ => true
  | _ => false

namespace Scan

open Statement

/-- A row of pieces is cut where the reader stops in a text, the first piece having begun with
`front`. A reader that stops inside a string or a comment has come to the end. -/
def SameCut (cut : List Piece × List Piece) (front : Text) (s : Scan) (t : Text) : Prop :=
  ((s.halt t).isOutside = true →
    Piece.joined cut.1 = front ++ (s.split t).1 ∧ cut.2 = Piece.ofText (s.split t).2) ∧
  ((s.halt t).isOutside = false → ∃ p, cut.2 = [p] ∧ p.isUnclosed = true)

variable {cut : List Piece × List Piece} {front : Text} {s s' : Scan} {t : Text} {c : Char}

theorem SameCut.cons {front' : Text} (s' : Scan) (hs : s.step c = some s')
    (hf : front' = front ++ [c]) (h : SameCut cut front' s' t) :
    SameCut cut front s (c :: t) := by
  subst hf
  simpa [SameCut, halt, split, hs] using h

theorem SameCut.piece {p : Piece} {ps : List Piece} {d : Nat} (hp : endsBody d p = false)
    (h : SameCut (splitBody (depthAfter d p) ps) [] s t) :
    SameCut (splitBody d (p :: ps)) p.text s t := by
  simpa [SameCut, splitBody, hp] using h

theorem SameCut.slash {d : Nat} (ht : t.head? ≠ some '*') (h : SameCut cut front ⟨d, .outside⟩ t) :
    SameCut cut front ⟨d, .slash⟩ t := by
  obtain ⟨hs, ho⟩ := split_slash (d := d) ht
  simpa only [SameCut, hs, ho] using h

theorem SameCut.star {d : Nat} (ht : t.head? ≠ some '/') (h : SameCut cut front ⟨d, .comment⟩ t) :
    SameCut cut front ⟨d, .star⟩ t := by
  obtain ⟨hs, ho⟩ := split_star (d := d) ht
  simpa only [SameCut, hs, ho] using h

/-- A single character outside of strings and comments. -/
theorem SameCut.char (hq : Piece.isQuote c = false) (hc : c = '/' → t.head? ≠ some '*')
    (hread : Piece.ofText (c :: t) = .char c :: Piece.ofText t)
    (h : ∀ d, SameCut (splitBody d (Piece.ofText t)) [] ⟨d, .outside⟩ t) (d : Nat) :
    SameCut (splitBody d (Piece.ofText (c :: t))) [] ⟨d, .outside⟩ (c :: t) := by
  rw [hread]
  by_cases hend : d = 0 ∧ isTerminator c = true
  · have hstep : stepOutside d c = none := stepOutside_eq_none_iff.mpr hend
    have hbody : endsBody d (.char c) = true := by simpa [endsBody, isTerminator] using hend
    simp [SameCut, halt, split, step, hstep, splitBody, hbody, isOutside, hread]
  · have hbody : endsBody d (.char c) = false := by simpa [endsBody, isTerminator] using hend
    have hrest := SameCut.piece hbody (h (depthAfter d (.char c)))
    by_cases hslash : c = '/'
    · subst hslash
      exact SameCut.cons ⟨d, .slash⟩ (by simp [step, stepOutside, hq]) rfl
        (SameCut.slash (hc rfl) hrest)
    · refine SameCut.cons ⟨depthAfter d (.char c), .outside⟩ ?_ rfl hrest
      simp only [step, stepOutside, hq, Bool.false_eq_true, if_false, if_neg hslash, if_neg hend]
      by_cases ho : c = '('
      · subst ho
        rfl
      · by_cases hp : c = ')'
        · subst hp
          rfl
        · simp [depthAfter, ho, hp]

/-- The pieces that are read from a mode on are cut where the text is. -/
theorem sameCut_read (m : Piece.Mode) (t : Text) (d : Nat)
    (hm : ∀ q r, m = .inString q r → Piece.isQuote q = true) :
    SameCut (splitBody d (Piece.read m t)) m.pending (ofMode d m) t := by
  fun_induction Piece.read m t generalizing d with
  | case1 => simp [SameCut, ofMode, halt, split, isOutside, splitBody, Piece.Mode.pending,
      Piece.ofText, Piece.read]
  | case2 t ih =>
    exact SameCut.cons ⟨d, .slash⟩ rfl rfl (SameCut.cons ⟨d, .comment⟩ rfl rfl
      (ih d (by simp)))
  | case3 c t hc hq ih =>
    exact SameCut.cons ⟨d, .string c⟩ (by simp [ofMode, step, stepOutside, hq]) rfl
      (ih d (by simp [hq]))
  | case4 c t hc hq ih =>
    have hslash : c = '/' → t.head? ≠ some '*' := by
      rintro rfl hstar
      obtain ⟨u, rfl⟩ := List.head?_eq_some_iff.mp hstar
      exact hc u rfl rfl
    have hread : Piece.ofText (c :: t) = .char c :: Piece.ofText t := by
      simp only [Piece.ofText]
      rw [Piece.read, if_neg hq]
      exact hc
    have := SameCut.char (by simpa using hq) hslash hread (fun d => ih d (by simp)) d
    rwa [hread] at this
  | case5 q r =>
    simp [SameCut, ofMode, halt, isOutside, splitBody, endsBody, Piece.isUnclosed]
  | case6 q r c t ih =>
    exact SameCut.cons ⟨d, .escape q⟩ (by simp [ofMode, step]) rfl
      (SameCut.cons ⟨d, .string q⟩ rfl (by simp [Piece.Mode.pending])
        (ih d (by simpa using hm)))
  | case7 r q t h ih =>
    have hq : Piece.isQuote q = true := hm q r rfl
    have hb : q ≠ '\\' := by
      rintro rfl
      simp [Piece.isQuote] at hq
    exact SameCut.cons ⟨d, .outside⟩ (by simp [ofMode, step, hb, hq]) rfl
      (SameCut.piece (p := .quoted q r.reverse) rfl (ih d (by simp)))
  | case8 q r c t h hc ih =>
    by_cases hb : c = '\\'
    · have ht : t = [] := by
        cases t with
        | nil => rfl
        | cons d t => exact absurd rfl (h d t hb)
      subst ht
      simp [SameCut, ofMode, halt, step, hb, isOutside, Piece.read, splitBody, endsBody,
        Piece.isUnclosed]
    · exact SameCut.cons ⟨d, .string q⟩ (by simp [ofMode, step, hb, hc])
        (by simp [Piece.Mode.pending]) (ih d (by simpa using hm))
  | case9 r => simp [SameCut, ofMode, halt, isOutside, splitBody, endsBody, Piece.isUnclosed]
  | case10 r t ih =>
    refine SameCut.cons ⟨d, .star⟩ rfl rfl (SameCut.cons ⟨d, .outside⟩ rfl ?_
      (SameCut.piece (p := .comment r.reverse) rfl (ih d (by simp))))
    simp [Piece.Mode.pending, Piece.text]
  | case11 r c t h ih =>
    have hrest := ih d (by simp)
    by_cases hc : c = '*'
    · subst hc
      have ht : t.head? ≠ some '/' := by
        intro hslash
        obtain ⟨u, rfl⟩ := List.head?_eq_some_iff.mp hslash
        exact h u rfl rfl
      exact SameCut.cons ⟨d, .star⟩ rfl (by simp [Piece.Mode.pending])
        (SameCut.star ht hrest)
    · exact SameCut.cons ⟨d, .comment⟩ (by simp [ofMode, step, hc])
        (by simp [Piece.Mode.pending]) hrest

/-- A statement is cut out of the pieces of a text where it is cut out of the text. -/
theorem sameCut_ofText (t : Text) : SameCut (splitBody 0 (Piece.ofText t)) [] start t :=
  sameCut_read .outside t 0 (by simp)

end Scan

end PixelScale.Stylesheet
