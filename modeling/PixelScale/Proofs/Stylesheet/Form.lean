import PixelScale.Proofs.Stylesheet.Scan

/-!
# The form of a declaration

The raw text of a declaration is its property, a colon, its value and its mark of importance, with
white space around all of them. A form tells these parts apart. Every declaration that is read
has one, and the parts of a form are what is read, with the offsets at which they stand.

* `Fine.declaration?_text`: a declaration is read off its form.
* `exists_form`: every declaration that is read has a form.
* `Fine.ends_text`: only the property and the value count for the reader of a statement.
* `Fine.count_value`: the delimiters behind the colon all stand in the value.
-/

namespace PixelScale.Stylesheet

open Text

/-! ## Marks of importance -/

/-- A mark of importance with the white space in front of it. -/
def IsMark (t : Text) : Prop :=
  ∃ front back, t = front ++ '!' :: back ∧ Blank front ∧ SharpRight back ∧
    lowerAscii (trimBlank back) = "important".toList

theorem isMark_print : IsMark " !important".toList :=
  ⟨[' '], "important".toList, rfl, by decide, by decide, by decide⟩

theorem isMark_bare : IsMark "!important".toList :=
  ⟨[], "important".toList, rfl, blank_nil, by decide, by decide⟩

theorem IsMark.ne_nil {t : Text} (h : IsMark t) : t ≠ [] := by
  obtain ⟨front, back, rfl, -⟩ := h
  simp

/-- The word of a mark consists of letters. -/
theorem mem_important {back : Text} {c : Char}
    (h : lowerAscii (trimBlank back) = "important".toList) (hc : c ∈ back) :
    isBlank c = true ∨ c.toLower ∈ "important".toList := by
  obtain ⟨a, b, ha, hb, heq, -⟩ := exists_frame back
  rw [heq] at hc
  rcases List.mem_append.mp hc with hc | hc
  · rcases List.mem_append.mp hc with hc | hc
    · exact .inl (ha c hc)
    · right
      rw [← h]
      exact List.mem_map_of_mem hc
  · exact .inl (hb c hc)

theorem exclamation_not_mem {back : Text} (h : lowerAscii (trimBlank back) = "important".toList) :
    '!' ∉ back := by
  intro hc
  rcases mem_important h hc with hc | hc
  · exact absurd hc (by decide)
  · exact absurd hc (by decide)

theorem IsMark.isPlain {t : Text} (h : IsMark t) {c : Char} (hc : c ∈ t) :
    Scan.isPlain c = true := by
  obtain ⟨front, back, rfl, hf, -, hb⟩ := h
  rcases List.mem_append.mp hc with hc | hc
  · exact Scan.isPlain_of_isBlank (hf c hc)
  rcases List.mem_cons.mp hc with rfl | hc
  · rfl
  rcases mem_important hb hc with hc | hc
  · exact Scan.isPlain_of_isBlank hc
  · by_contra hp
    rcases Scan.of_isPlain_eq_false (by simpa using hp) with
      rfl | rfl | rfl | rfl | rfl | rfl | rfl | rfl | rfl | rfl <;>
      exact absurd hc (by decide)

theorem IsMark.sharpRight {t : Text} (h : IsMark t) : SharpRight t := by
  obtain ⟨front, back, rfl, -, hb, -⟩ := h
  refine SharpRight.append (SharpRight.append (s := ['!']) hb fun _ => ?_) (by simp)
  simp [SharpRight]
  decide

namespace Statement

theorem splitImportant_append_mark {value mark : Text} (hv : SharpRight value) (hm : IsMark mark) :
    splitImportant (value ++ mark) = (value, true) := by
  obtain ⟨front, back, rfl, hf, -, hb⟩ := hm
  have hsplit : splitLast '!' (value ++ (front ++ '!' :: back)) = some (value ++ front, back) :=
    splitLast_eq_some_iff.mpr ⟨by simp, exclamation_not_mem hb⟩
  simp only [splitImportant, hsplit]
  rw [if_pos hb, trimBlankRight_append_blank _ hf, trimBlankRight_eq_self hv]

/-- A value is split off in front of a mark, or else there is no mark. -/
theorem splitImportant_cases {t : Text} (ht : SharpRight t) :
    splitImportant t = (t, false) ∨
      ∃ value mark, t = value ++ mark ∧ SharpRight value ∧ IsMark mark ∧
        (value = [] → SharpLeft t → SharpLeft mark) ∧ splitImportant t = (value, true) := by
  cases hs : splitLast '!' t with
  | none => exact .inl (by simp [splitImportant, hs])
  | some r =>
    obtain ⟨front, back⟩ := r
    obtain ⟨heq, -⟩ := splitLast_eq_some_iff.mp hs
    by_cases hb : lowerAscii (trimBlank back) = "important".toList
    · right
      obtain ⟨b, hblank, hfront⟩ := exists_trimBlankRight_append_blank front
      have hback : SharpRight back := by
        rcases eq_or_ne back [] with rfl | hne
        · exact trimmed_nil.right
        · intro c hc
          refine ht c ?_
          rw [heq, List.getLast?_append_of_ne_nil _ (by simp), List.getLast?_cons_of_ne_nil hne]
          exact hc
      refine ⟨trimBlankRight front, b ++ '!' :: back, ?_, sharpRight_trimBlankRight _,
        ⟨b, back, rfl, hblank, hback, hb⟩, ?_, by simp only [splitImportant, hs, if_pos hb]⟩
      · rw [heq, ← List.append_assoc, ← hfront]
      · intro hnil hsharp
        rw [hnil, List.nil_append] at hfront
        rwa [heq, hfront] at hsharp
    · exact .inl (by simp only [splitImportant, hs, if_neg hb])

end Statement

/-! ## Declarations -/

/-- The parts of the raw text of a declaration. -/
structure Form where
  lead : Text
  /-- what stands in front of the colon -/
  front : Text
  gap : Text
  value : Text
  mark : Text
  trail : Text

namespace Form

/-- What is replaced if the whole declaration is. -/
def core (x : Form) : Text := x.front ++ ':' :: (x.gap ++ x.value ++ x.mark)

def text (x : Form) : Text := x.lead ++ x.core ++ x.trail

/-- Whether the parts of a form are told apart by the reader as they are named. -/
structure Fine (x : Form) : Prop where
  lead : Blank x.lead
  front : SharpLeft x.front
  colon : ':' ∉ x.front
  gap : Blank x.gap
  value : Trimmed x.value
  mark : IsMark x.mark ∧ (x.value = [] → SharpLeft x.mark) ∨
    x.mark = [] ∧ Statement.splitImportant x.value = (x.value, false) ∧ (x.value = [] → x.gap = [])
  trail : Blank x.trail

/-- Where the parts stand in a text, the raw text starting at a place. -/
def span (x : Form) (p : Place) (semicolon : Option Nat) : DeclarationSpan :=
  let start := p.offset + x.lead.bytes
  let valueStart := start + x.front.bytes + 1 + x.gap.bytes
  let valueStop := valueStart + x.value.bytes
  ⟨start, valueStart, valueStop, valueStop + x.mark.bytes, semicolon⟩

/-- The declaration that a form stands for. -/
def declaration (x : Form) (p : Place) (semicolon : Option Nat) : Declaration :=
  ⟨trimBlank x.front, x.value, !x.mark.isEmpty, some (x.span p semicolon)⟩

variable {x : Form}

theorem Fine.sharpLeft (hx : x.Fine) : SharpLeft (x.value ++ x.mark) := by
  refine hx.value.left.append fun hv => ?_
  rcases hx.mark with ⟨-, hm⟩ | ⟨hm, -⟩
  · exact hm hv
  · rw [hm]
    exact trimmed_nil.left

theorem Fine.sharpRight (hx : x.Fine) : SharpRight (x.value ++ x.mark) := by
  refine SharpRight.append ?_ fun _ => hx.value.right
  rcases hx.mark with ⟨hm, -⟩ | ⟨hm, -⟩
  · exact hm.sharpRight
  · rw [hm]
    exact trimmed_nil.right

theorem Fine.splitImportant (hx : x.Fine) :
    Statement.splitImportant (x.value ++ x.mark) = (x.value, !x.mark.isEmpty) := by
  rcases hx.mark with ⟨hm, -⟩ | ⟨hm, hv, -⟩
  · rw [Statement.splitImportant_append_mark hx.value.right hm]
    simp [hm.ne_nil]
  · simpa [hm] using hv

theorem Fine.core_trimmed (hx : x.Fine) : Trimmed x.core := by
  constructor
  · refine hx.front.append fun _ => ?_
    rw [sharpLeft_cons]
    decide
  · refine SharpRight.append (SharpRight.append (s := [':']) ?_ fun _ => ?_) (by simp)
    · change SharpRight (x.gap ++ x.value ++ x.mark)
      rw [List.append_assoc]
      refine SharpRight.append hx.sharpRight fun hnil => ?_
      obtain ⟨hv, hm⟩ := List.append_eq_nil_iff.mp hnil
      rcases hx.mark with ⟨hmark, -⟩ | ⟨-, -, hgap⟩
      · exact absurd hm hmark.ne_nil
      · rw [hgap hv]
        exact trimmed_nil.right
    · simp [SharpRight]
      decide

/-- A declaration is read off its form. -/
theorem Fine.declaration?_text (hx : x.Fine) (p : Place) (semicolon : Option Nat) :
    Statement.declaration? p x.text semicolon = .ok (x.declaration p semicolon) := by
  have hcore : trimBlank x.text = x.core := trimBlank_frame hx.lead hx.core_trimmed hx.trail
  have hleft : trimBlankLeft x.text = x.core ++ x.trail := by
    rw [text, List.append_assoc, trimBlankLeft_blank_append hx.lead]
    exact trimBlankLeft_eq_self (hx.core_trimmed.left.append fun h => by simp [core] at h)
  have hsplit : splitFirst ':' x.core = some (x.front, x.gap ++ x.value ++ x.mark) :=
    splitFirst_eq_some_iff.mpr ⟨rfl, hx.colon⟩
  have hrest : trimBlankLeft (x.gap ++ x.value ++ x.mark) = x.value ++ x.mark := by
    rw [List.append_assoc, trimBlankLeft_blank_append hx.gap, trimBlankLeft_eq_self hx.sharpLeft]
  have hvalue : trimBlank (x.gap ++ x.value ++ x.mark) = x.value ++ x.mark := by
    rw [trimBlank_eq, hrest, trimBlankRight_eq_self hx.sharpRight]
  simp only [Statement.declaration?, hcore, hsplit, hleft, hrest, hvalue, hx.splitImportant]
  simp only [declaration, span, text, core, bytes_append, bytes_cons,
    show ':'.utf8Size = 1 from rfl, Except.ok.injEq, Declaration.mk.injEq, true_and,
    Option.some.injEq, DeclarationSpan.mk.injEq, and_true]
  omega

/-- Every declaration that is read has a form. -/
theorem exists_form {p : Place} {raw : Text} {semicolon : Option Nat} {d : Declaration}
    (h : Statement.declaration? p raw semicolon = .ok d) : ∃ x : Form, x.Fine ∧ x.text = raw := by
  obtain ⟨lead, trail, hlead, htrail, hraw, -, -⟩ := exists_frame raw
  have htrim := trimmed_trimBlank raw
  cases hs : splitFirst ':' (trimBlank raw) with
  | none => simp [Statement.declaration?, hs] at h
  | some r =>
    obtain ⟨front, rest⟩ := r
    obtain ⟨hcore, hcolon⟩ := splitFirst_eq_some_iff.mp hs
    obtain ⟨gap, hgap, hrest⟩ := exists_blank_append_trimBlankLeft rest
    have hsharp := sharpLeft_trimBlankLeft rest
    have hfront : SharpLeft front := by
      intro c hc
      refine htrim.left c ?_
      rw [hcore, List.head?_append, hc]
      rfl
    have hright : rest ≠ [] → SharpRight rest := by
      intro hne c hc
      refine htrim.right c ?_
      rw [hcore, List.getLast?_append_of_ne_nil _ (by simp), List.getLast?_cons_of_ne_nil hne]
      exact hc
    generalize trimBlankLeft rest = t at hrest hsharp
    have hnil : t = [] → gap = [] := by
      rintro rfl
      by_contra hne
      rw [List.append_nil] at hrest
      rw [hrest] at hright
      have hlast := hright hne _ (List.getLast?_eq_some_getLast hne)
      rw [hgap _ (List.getLast_mem hne)] at hlast
      cases hlast
    have htright : SharpRight t := by
      rcases eq_or_ne t [] with rfl | hne
      · exact trimmed_nil.right
      · intro c hc
        refine hright (by simp [hrest, hne]) c ?_
        rwa [hrest, List.getLast?_append_of_ne_nil _ hne]
    rcases Statement.splitImportant_cases htright with hno | ⟨value, mark, rfl, hv, hm, hml, -⟩
    · refine ⟨⟨lead, front, gap, t, [], trail⟩, ⟨hlead, hfront, hcolon, hgap, ⟨hsharp, htright⟩,
        .inr ⟨rfl, hno, hnil⟩, htrail⟩, ?_⟩
      simp only [text, core, List.append_nil, ← hrest, ← hcore]
      exact hraw.symm
    · have hvleft : SharpLeft value := by
        intro c hc
        refine hsharp c ?_
        rw [List.head?_append, hc]
        rfl
      refine ⟨⟨lead, front, gap, value, mark, trail⟩, ⟨hlead, hfront, hcolon, hgap, ⟨hvleft, hv⟩,
        .inl ⟨hm, fun hnil => hml hnil hsharp⟩, htrail⟩, ?_⟩
      simp only [text, core]
      rw [List.append_assoc gap, ← hrest, ← hcore]
      exact hraw.symm

/-! ## Reading over a form -/

theorem Fine.mark_plain (hx : x.Fine) : ∀ c ∈ x.mark, Scan.isPlain c = true := by
  rcases hx.mark with ⟨hm, -⟩ | ⟨hm, -⟩
  · exact fun c hc => hm.isPlain hc
  · simp [hm]

/-- What stands in front of the colon is the property and white space. -/
theorem Fine.exists_front (hx : x.Fine) : ∃ b, Blank b ∧ x.front = trimBlank x.front ++ b := by
  obtain ⟨b, hb, hfront⟩ := exists_trimBlankRight_append_blank x.front
  refine ⟨b, hb, ?_⟩
  rw [trimBlank_eq, trimBlankLeft_eq_self hx.front]
  exact hfront

/-- Only the property and the value count for the reader of a statement. -/
theorem Fine.ends_text (hx : x.Fine) {d : Nat} :
    Scan.start.Ends x.text d ↔
      ∃ s, Scan.start.run (trimBlank x.front) = some s ∧ s.settled.Ends x.value d := by
  obtain ⟨b, hb, hfront⟩ := hx.exists_front
  have htext : x.text = x.lead ++ (trimBlank x.front ++ ((b ++ ':' :: x.gap) ++
      (x.value ++ (x.mark ++ x.trail)))) := by
    have hcore : x.core = (trimBlank x.front ++ b) ++ ':' :: (x.gap ++ x.value ++ x.mark) := by
      rw [← hfront, core]
    rw [text, hcore]
    simp
  have hcolon : ∀ c ∈ b ++ ':' :: x.gap, Scan.isPlain c = true := by
    intro c hc
    rcases List.mem_append.mp hc with hc | hc
    · exact Scan.isPlain_of_blank hb c hc
    rcases List.mem_cons.mp hc with rfl | hc
    · rfl
    · exact Scan.isPlain_of_blank hx.gap c hc
  have htail : ∀ c ∈ x.mark ++ x.trail, Scan.isPlain c = true := by
    intro c hc
    rcases List.mem_append.mp hc with hc | hc
    · exact hx.mark_plain c hc
    · exact Scan.isPlain_of_blank hx.trail c hc
  rw [htext, Scan.ends_plain_append (Scan.isPlain_of_blank hx.lead), Scan.ends_append]
  refine exists_congr fun s => and_congr_right fun _ => ?_
  rw [Scan.ends_append, Scan.run_plain s hcolon (by simp)]
  simp [Scan.ends_append_plain htail]

theorem colon_not_mem_of_blank {t : Text} (ht : Blank t) : ':' ∉ t :=
  fun hc => absurd (ht _ hc) (by decide)

/-- The delimiters behind the colon all stand in the value. -/
theorem Fine.count_value (hx : x.Fine) {a w : Text} (ha : ':' ∉ a) (h : x.text = a ++ ':' :: w)
    {c : Char} (hc : Scan.isPlain c = false) : w.count c = x.value.count c := by
  have hsplit : splitFirst ':' x.text = some (x.lead ++ x.front,
      x.gap ++ x.value ++ x.mark ++ x.trail) := by
    refine splitFirst_eq_some_iff.mpr ⟨by simp [text, core], ?_⟩
    simp [colon_not_mem_of_blank hx.lead, hx.colon]
  rw [splitFirst_eq_some_iff.mpr ⟨h, ha⟩] at hsplit
  obtain ⟨-, rfl⟩ : a = x.lead ++ x.front ∧ w = x.gap ++ x.value ++ x.mark ++ x.trail := by
    simpa using hsplit
  simp [Scan.count_plain (Scan.isPlain_of_blank hx.gap) hc, Scan.count_plain hx.mark_plain hc,
    Scan.count_plain (Scan.isPlain_of_blank hx.trail) hc]

end Form

end PixelScale.Stylesheet
