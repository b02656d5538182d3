import PixelScale.Proofs.Number.Characters

/-!
# Numerals without an exponent

The number of a pixel length has an optional sign, digits, and an optional point with at least one
digit behind it. Digits of any script make up such a numeral, but only ASCII digits give it a value,
which is the double nearest to the decimal that they write.

* `Numeral.IsNumeral`: what such a numeral looks like.
* `Numeral.IsNumeral.right`: the end of a numeral is a numeral.
* `Numeral.IsNumeral.toFloat?_eq`: its value.
-/

namespace PixelScale.Numeral

open Text

/-! ## What a numeral looks like -/

/-- Digits of any script, with or without a point in front of the last ones. -/
inductive IsUnsigned : Text → Prop
  | whole {ds : Text} : ds ≠ [] → (∀ c ∈ ds, isDigit c = true) → IsUnsigned ds
  | point {ds es : Text} : (∀ c ∈ ds, isDigit c = true) → es ≠ [] → (∀ c ∈ es, isDigit c = true) →
      IsUnsigned (ds ++ '.' :: es)

/-- The same with an optional sign. -/
inductive IsNumeral : Text → Prop
  | unsigned {n : Text} : IsUnsigned n → IsNumeral n
  | signed {c : Char} {n : Text} : c = '+' ∨ c = '-' → IsUnsigned n → IsNumeral (c :: n)

variable {m n : Text}

theorem isNumeral_digit {c : Char} (hc : isDigit c = true) : IsNumeral [c] :=
  .unsigned (.whole (by simp) (by simpa using hc))

theorem IsUnsigned.part (h : IsUnsigned n) : ∀ c ∈ n, isDigit c = true ∨ c = '.' := by
  cases h with
  | whole _ hds => exact fun c hc => .inl (hds c hc)
  | point hds _ hes =>
    intro c hc
    rcases List.mem_append.mp hc with hc | hc
    · exact .inl (hds c hc)
    · exact (List.mem_cons.mp hc).elim .inr fun hc => .inl (hes c hc)

theorem IsUnsigned.ne_nil (h : IsUnsigned n) : n ≠ [] := by
  cases h with
  | whole hne _ => exact hne
  | point _ _ _ => simp

/-- An unsigned numeral does not start with a sign. -/
theorem IsUnsigned.cons_part {c : Char} (h : IsUnsigned (c :: n)) : c ≠ '+' ∧ c ≠ '-' := by
  have hplus : isDigit '+' = false := by decide
  have hminus : isDigit '-' = false := by decide
  rcases h.part c List.mem_cons_self with hc | rfl
  · constructor
    · rintro rfl
      rw [hplus] at hc
      cases hc
    · rintro rfl
      rw [hminus] at hc
      cases hc
  · decide

theorem IsNumeral.ne_nil (h : IsNumeral n) : n ≠ [] := by
  cases h with
  | unsigned h => exact h.ne_nil
  | signed _ _ => simp

theorem IsNumeral.part (h : IsNumeral n) : ∀ c ∈ n, isPart c = true := by
  have hunsigned : ∀ {n : Text}, IsUnsigned n → ∀ c ∈ n, isPart c = true := by
    intro n h c hc
    rcases h.part c hc with hc | rfl
    · simp [isPart, hc]
    · rfl
  cases h with
  | unsigned h => exact hunsigned h
  | signed hc h =>
    refine List.forall_mem_cons.mpr ⟨?_, hunsigned h⟩
    rcases hc with rfl | rfl <;> rfl

/-- The last character of a numeral is a digit. -/
theorem IsNumeral.exists_getLast? (h : IsNumeral n) :
    ∃ c, n.getLast? = some c ∧ isDigit c = true := by
  have hdigits : ∀ {ds : Text}, ds ≠ [] → (∀ c ∈ ds, isDigit c = true) →
      ∃ c, ds.getLast? = some c ∧ isDigit c = true := fun hne hds =>
    ⟨_, List.getLast?_eq_some_getLast hne, hds _ (List.getLast_mem hne)⟩
  have hunsigned : ∀ {n : Text}, IsUnsigned n → ∃ c, n.getLast? = some c ∧ isDigit c = true := by
    intro n h
    cases h with
    | whole hne hds => exact hdigits hne hds
    | point _ hne hes =>
      rw [List.getLast?_append_of_ne_nil _ (by simp), List.getLast?_cons_of_ne_nil hne]
      exact hdigits hne hes
  cases h with
  | unsigned h => exact hunsigned h
  | signed _ h =>
    rw [List.getLast?_cons_of_ne_nil h.ne_nil]
    exact hunsigned h

theorem IsUnsigned.right (h : IsUnsigned (m ++ n)) (hn : n ≠ []) : IsUnsigned n := by
  generalize ht : m ++ n = t at h
  cases h with
  | whole _ hds =>
    rw [← ht] at hds
    exact .whole hn fun c hc => hds c (List.mem_append_right _ hc)
  | @point ds es hds hne hes =>
    rcases List.append_eq_append_iff.mp ht with ⟨as, hds', rfl⟩ | ⟨bs, rfl, hbs⟩
    · refine .point (fun c hc => hds c ?_) hne hes
      rw [hds']
      exact List.mem_append_right _ hc
    · rcases List.cons_eq_append_iff.mp hbs with ⟨-, rfl⟩ | ⟨cs, -, rfl⟩
      · exact @IsUnsigned.point [] es (by simp) hne hes
      · exact .whole hn fun c hc => hes c (List.mem_append_right _ hc)

/-- What is left of a numeral, if its first characters are taken away, is a numeral. -/
theorem IsNumeral.right (h : IsNumeral (m ++ n)) (hn : n ≠ []) : IsNumeral n := by
  generalize ht : m ++ n = t at h
  cases h with
  | unsigned h =>
    rw [← ht] at h
    exact .unsigned (h.right hn)
  | signed hc h =>
    rcases List.append_eq_cons_iff.mp ht with ⟨-, rfl⟩ | ⟨m', -, rfl⟩
    · exact .signed hc h
    · exact .unsigned (h.right hn)

/-! ## The value of a numeral -/

/-- Whether all digits are ASCII digits. -/
def IsAscii (n : Text) : Prop := ∀ c ∈ n, isDigit c = true → c.isDigit = true

instance (n : Text) : Decidable (IsAscii n) := List.decidableBAll _ n

/-- The double nearest to the decimal that the ASCII digits of a numeral write, a minus sign turned
into a negative number. -/
def value (n : Text) : Float :=
  ofDecimal (n.head? == some '-') (natValue (n.filter Char.isDigit))
    (-((n.dropWhile (· != '.')).filter Char.isDigit).length)

theorem span_isDigit {ds r : Text} (hds : ∀ c ∈ ds, c.isDigit = true)
    (hr : ∀ c ∈ r.head?, c.isDigit = false) : spanDigits (ds ++ r) = (ds, r) := by
  rw [spanDigits, List.span_eq_takeWhile_dropWhile, List.takeWhile_append_of_pos hds,
    List.dropWhile_append_of_pos hds]
  cases r with
  | nil => simp
  | cons c r => simp [hr c rfl]

theorem dropWhile_digits {ds : Text} (hds : ∀ c ∈ ds, c.isDigit = true) (r : Text) :
    (ds ++ r).dropWhile (· != '.') = r.dropWhile (· != '.') := by
  refine List.dropWhile_append_of_pos fun c hc => ?_
  rw [bne_iff_ne]
  rintro rfl
  cases hds _ hc

theorem filter_digits {ds : Text} (hds : ∀ c ∈ ds, c.isDigit = true) :
    ds.filter Char.isDigit = ds := List.filter_eq_self.mpr hds

/-- The value of an unsigned numeral with ASCII digits, under a sign. -/
theorem IsUnsigned.unsigned?_eq (h : IsUnsigned n) (hascii : IsAscii n) (negative : Bool) :
    unsigned? negative n = some (ofDecimal negative (natValue (n.filter Char.isDigit))
      (-((n.dropWhile (· != '.')).filter Char.isDigit).length)) := by
  cases h with
  | whole hne hds =>
    replace hds : ∀ c ∈ n, c.isDigit = true := fun c hc => hascii c hc (hds c hc)
    have hspan := span_isDigit (r := []) hds (by simp)
    have hdrop := dropWhile_digits hds []
    rw [List.append_nil] at hspan hdrop
    rw [hdrop, filter_digits hds]
    simp [unsigned?, hspan, hne, exponent?]
  | @point ds es hds hne hes =>
    replace hds : ∀ c ∈ ds, c.isDigit = true :=
      fun c hc => hascii c (List.mem_append_left _ hc) (hds c hc)
    replace hes : ∀ c ∈ es, c.isDigit = true := fun c hc =>
      hascii c (List.mem_append_right _ (List.mem_cons_of_mem _ hc)) (hes c hc)
    have hwhole := span_isDigit (r := '.' :: es) hds (by simp)
    have hfraction := span_isDigit (r := []) hes (by simp)
    rw [List.append_nil] at hfraction
    have hdot : ('.' :: es).filter Char.isDigit = es := by simp [filter_digits hes]
    rw [dropWhile_digits hds, List.filter_append, filter_digits hds, hdot]
    simp [unsigned?, hwhole, hfraction, hne, exponent?, hdot]

/-- A numeral has a value exactly if its digits are ASCII digits. -/
theorem IsNumeral.toFloat?_eq (h : IsNumeral n) :
    toFloat? n = if IsAscii n then some (value n) else none := by
  split
  · rename_i hascii
    cases h with
    | unsigned h =>
      obtain ⟨c, t, rfl⟩ := List.exists_cons_of_ne_nil h.ne_nil
      obtain ⟨hplus, hminus⟩ := h.cons_part
      have hsign : spanSign (c :: t) = (false, c :: t) := by
        unfold spanSign
        split
        · rename_i heq
          exact absurd (List.cons.inj heq).1 hminus
        · rename_i heq
          exact absurd (List.cons.inj heq).1 hplus
        · rfl
      have hhead : ((c :: t).head? == some '-') = false := by simpa using hminus
      rw [toFloat?_of_spanSign hsign (IsNumeral.unsigned h).part, h.unsigned?_eq hascii, value,
        hhead]
    | @signed c n hc h =>
      have hascii' : IsAscii n := fun d hd => hascii d (List.mem_cons_of_mem _ hd)
      have hpart := (IsNumeral.unsigned h).part
      rcases hc with rfl | rfl
      · have hsign : spanSign ('+' :: n) = (false, n) := rfl
        rw [toFloat?_of_spanSign hsign hpart, h.unsigned?_eq hascii', value]
        simp
      · have hsign : spanSign ('-' :: n) = (true, n) := rfl
        rw [toFloat?_of_spanSign hsign hpart, h.unsigned?_eq hascii', value]
        simp
  · rename_i hascii
    refine Option.eq_none_iff_forall_not_mem.mpr fun x hx => hascii fun c hc hdigit => ?_
    rcases isDigit_of_toFloat? h.part hx c hc with hc | rfl | rfl | rfl
    · exact hc
    · exact absurd hdigit (by decide)
    · exact absurd hdigit (by decide)
    · exact absurd hdigit (by decide)

end PixelScale.Numeral
