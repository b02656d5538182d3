import PixelScale.Proofs.Stylesheet.Printing

/-!
# What printing keeps of a text

A tree that was read is printed with other white space, with a semicolon behind each statement that
has no block, and with marks of importance in one spelling. Nothing else of the text changes. So a
text and the printed form of its tree are the same without white space and semicolons and with all
ASCII letters in lower case. This also holds for texts whose printed form has another tree.

* `condensed`: what is compared.
* `condensed_meaning`: a passage has the content of the statement that it stands for.
* `condensed_print`: a tree is printed with the content of the text it was read from.
-/

namespace PixelScale

namespace Text

/-- Whether a character is neither white space nor a semicolon. -/
def counts (c : Char) : Bool := !isBlank c && c != ';'

/-- A text without white space and semicolons, its ASCII letters in lower case. -/
def condensed (t : Text) : Text := lowerAscii (t.filter counts)

@[simp] theorem condensed_nil : condensed [] = [] := rfl

@[simp] theorem condensed_append (s t : Text) :
    condensed (s ++ t) = condensed s ++ condensed t := by
  simp [condensed, lowerAscii]

theorem condensed_cons (c : Char) (t : Text) : condensed (c :: t) = condensed [c] ++ condensed t :=
  condensed_append [c] t

theorem condensed_blank {t : Text} (h : Blank t) : condensed t = [] := by
  have hnone : t.filter counts = [] := by
    rw [List.filter_eq_nil_iff]
    intro c hc
    simp [counts, h c hc]
  rw [condensed, hnone]
  rfl

@[simp] theorem condensed_trimBlank (t : Text) : condensed (trimBlank t) = condensed t := by
  obtain ⟨a, b, ha, hb, heq, -⟩ := exists_frame t
  have := congrArg condensed heq
  rw [condensed_append, condensed_append, condensed_blank ha, condensed_blank hb] at this
  simpa using this.symm

theorem condensed_blankAscii {t : Text} (h : ∀ c ∈ t, isBlankAscii c = true) : condensed t = [] :=
  condensed_blank fun c hc => isBlank_of_isBlankAscii (h c hc)

/-- White space has no case. -/
theorem toLower_of_isBlank {c : Char} (h : isBlank c = true) : c.toLower = c := by
  by_contra hne
  have hupper : 65 ≤ c.toNat ∧ c.toNat ≤ 90 := by
    by_contra hrange
    refine hne ?_
    unfold Char.toLower
    rw [dif_neg]
    exact hrange
  simp only [isBlank, blanks, Ranges.has, List.any_cons, List.any_nil, Bool.or_eq_true,
    Bool.and_eq_true, decide_eq_true_eq, Bool.or_false] at h
  omega

end Text

namespace Stylesheet

open Text

/-- The word of a mark counts in full. -/
theorem condensed_important {back : Text}
    (h : lowerAscii (trimBlank back) = "important".toList) :
    condensed back = "important".toList := by
  have hall : (trimBlank back).filter counts = trimBlank back := by
    rw [List.filter_eq_self]
    intro c hc
    have hword : c.toLower ∈ "important".toList := by
      rw [← h]
      exact List.mem_map_of_mem hc
    by_contra hcount
    have hcases : isBlank c = true ∨ c = ';' := by
      rw [counts] at hcount
      cases hblank : isBlank c <;> simp_all
    have hself : c.toLower = c := by
      rcases hcases with hblank | rfl
      · exact toLower_of_isBlank hblank
      · rfl
    rw [hself] at hword
    rcases hcases with hblank | rfl
    · have hword : c ∈ ['i', 'm', 'p', 'o', 'r', 't', 'a', 'n', 't'] := hword
      fin_cases hword <;> exact absurd hblank (by decide)
    · exact absurd hword (by decide)
  rw [← condensed_trimBlank, condensed, hall, h]

theorem IsMark.condensed_eq {t : Text} (h : IsMark t) : condensed t = "!important".toList := by
  obtain ⟨front, back, rfl, hfront, -, hback⟩ := h
  rw [condensed_append, condensed_blank hfront, condensed_cons, condensed_important hback]
  rfl

/-- A declaration is printed with the content of its form. -/
theorem Form.Fine.condensed_text {x : Form} (hx : x.Fine) :
    condensed x.bare.print = condensed x.text := by
  have hmark : condensed x.bare.mark = condensed x.mark := by
    rcases hx.mark with ⟨hm, -⟩ | ⟨hm, -⟩
    · rw [hm.condensed_eq]
      simp only [Declaration.mark, Form.bare, List.isEmpty_eq_false_iff.mpr hm.ne_nil]
      decide
    · simp [Declaration.mark, Form.bare, hm]
  have hcolon : condensed ": ".toList = condensed [':'] := by decide
  rw [Declaration.print, condensed_append, condensed_append, condensed_append, hmark, hcolon]
  simp only [Form.text, Form.core, Form.bare, condensed_append, condensed_cons ':' (_ ++ _),
    condensed_trimBlank, condensed_blank hx.lead, condensed_blank hx.gap, condensed_blank hx.trail]
  simp

/-- An at-rule is printed with the content of its name and its raw text. -/
theorem condensed_atHead (name : Text) (p : Place) (raw : Text) :
    condensed (Statement.atHead name p raw).print =
      condensed (Passage.sign (some name) ++ raw) := by
  obtain ⟨text, hprint, htrim, -, -⟩ := exists_print_atHead (Statement.atHead name p raw)
  have hparams : (Statement.atHead name p raw).params = trimBlank raw := rfl
  rw [hprint, condensed_append, condensed_append, ← condensed_trimBlank text, htrim, hparams,
    condensed_trimBlank, condensed_trimBlank]
  rfl

namespace Statement

theorem condensed_ofBody {name : Option Text} {p : Place} {raw : Text} {semicolon : Option Nat}
    (h : ∀ e, ofBody name p raw semicolon ≠ .bad e) :
    condensed (ofBody name p raw semicolon).print = condensed (Passage.sign name ++ raw) := by
  have hsemicolon : condensed [';'] = [] := by decide
  cases name with
  | some name =>
    rw [ofBody, print, condensed_append, condensed_atHead, hsemicolon, List.append_nil]
  | none =>
    cases hd : declaration? p raw semicolon with
    | error e => exact absurd (by simp [ofBody, hd]) (h e)
    | ok d =>
      obtain ⟨x, hx, rfl⟩ := Form.exists_form hd
      have hprint : (x.declaration p semicolon).print = x.bare.print := rfl
      simp only [ofBody, hx.declaration?_text, print, condensed_append, hprint, hx.condensed_text,
        hsemicolon, List.append_nil]
      rfl

theorem condensed_ofHead (name : Option Text) (p : Place) (raw : Text) (line : Nat) :
    condensed (opening (ofHead name p raw) line).print =
      condensed (Passage.sign name ++ raw ++ ['{']) := by
  have hbrace : condensed " \x7b".toList = condensed ['{'] := by decide
  cases name with
  | some name =>
    rw [ofHead, print, condensed_append, condensed_atHead, hbrace, condensed_append _ ['{']]
  | none =>
    rw [ofHead, print, condensed_append, condensed_trimBlank, hbrace, condensed_append _ ['{']]
    rfl

end Statement

/-- A passage has the content of the statement that it stands for, and none if it stands for no
statement. -/
theorem condensed_meaning {q : Passage} {next : Text} (hq : q.Fits next) (p : Place)
    (hbad : ∀ e, .bad e ∉ q.meaning p) :
    condensed q.text = (q.meaning p).toList.flatMap fun s => condensed s.print := by
  cases q with
  | space c =>
    rcases hq with hblank | rfl
    · exact condensed_blankAscii (List.forall_mem_singleton.mpr hblank)
    · rfl
  | comment body => simp [Passage.text, Passage.meaning, Statement.print]
  | closing => rfl
  | statement name raw stop =>
    cases stop with
    | brace =>
      simp [Passage.text, Passage.meaning, Stop.text, Statement.condensed_ofHead]
    | semicolon =>
      have hsemicolon : condensed [';'] = [] := by decide
      have hbody := Statement.condensed_ofBody fun e he => hbad e (congrArg some he)
      simp only [Passage.text, Passage.meaning, Stop.text, Option.toList_some,
        List.flatMap_singleton, hbody, condensed_append, hsemicolon, List.append_nil]
    | nothing =>
      have hbody := Statement.condensed_ofBody fun e he => hbad e (congrArg some he)
      simp only [Passage.text, Passage.meaning, Stop.text, Option.toList_some,
        List.flatMap_singleton, hbody, List.append_nil]

theorem condensed_joined {qs : List Passage} (hv : Passage.Valid qs) (p : Place)
    (hbad : ∀ e, .bad e ∉ Passage.meanings p qs) :
    condensed (Passage.joined qs) =
      (Passage.meanings p qs).flatMap fun s => condensed s.print := by
  induction qs generalizing p with
  | nil => rfl
  | cons q qs ih =>
    obtain ⟨hq, hqs⟩ := hv
    simp only [Passage.meanings, List.mem_append, not_or, Option.mem_toList] at hbad
    rw [Passage.joined_cons, condensed_append, condensed_meaning hq p fun e => (hbad e).1,
      ih hqs _ fun e => (hbad e).2, Passage.meanings, List.flatMap_append]

/-- A text that spells statements has their content. -/
theorem Spelled.condensed_eq {ss : List Statement} {t : Text} (h : Spelled ss t) :
    condensed t = ss.flatMap fun s => condensed s.print := by
  induction h with
  | nil hb => exact condensed_blankAscii hb
  | cons hb _ ih =>
    rw [condensed_append, condensed_append, condensed_blankAscii hb, ih]
    rfl

/-- A tree is printed with the content of the text that it was read from: nothing is lost, made
twice or moved but white space and semicolons. -/
theorem condensed_print {css : Text} {t : Stylesheet} (h : parse css = .ok t) :
    condensed t.print = condensed css := by
  obtain ⟨-, hrow, hbad⟩ := parse_ok h
  obtain ⟨hjoined, hvalid, hmeanings⟩ := Passage.ofText_spec hbad
  rw [hmeanings] at hrow hbad
  have hspelled := (spelled_sheet t).condensed_eq
  rw [hrow, List.flatMap_map] at hspelled
  simp only [Statement.print_unlined] at hspelled
  rw [hspelled, ← condensed_joined hvalid .start hbad, hjoined]

/-- A missing semicolon is printed, and a parenthesis that stays open keeps its own. -/
theorem condensed_print_parenthesis :
    ∃ t, parse "a{b:1PX}@x (1;".toList = .ok t ∧
      t.print = "a \x7b\n  b: 1PX;\n\x7d\n\n@x (1;;\n".toList ∧
      condensed t.print = condensed "a{b:1PX}@x (1;".toList := by
  have hparse : parse "a{b:1PX}@x (1;".toList = .ok ⟨none, [.rule ['a'] [.declaration
      ⟨['b'], "1PX".toList, false, some ⟨2, 4, 7, 7, none⟩⟩], .atStatement
      ⟨['x'], "(1;".toList, some ⟨11, 14⟩⟩]⟩ := by
    cbv
  exact ⟨_, hparse, by decide, condensed_print hparse⟩

end Stylesheet

end PixelScale
