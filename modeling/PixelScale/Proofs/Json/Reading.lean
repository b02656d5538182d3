import Mathlib.Tactic.Common
import PixelScale.Json.Parser
import PixelScale.Json.Printer
import PixelScale.Proofs.Number.Numerals

/-!
# Written JSON is read back

A value without doubles is read back as it was written, with the fields of its objects in their
order, if its whole numbers fit into 64 bits and it nests no deeper than the reader goes. Doubles are
left out: the reader rounds them twice and need not come back to the double that was written.

A number ends where the text that follows does not go on with it, so what is read back is always a
value in front of a rest. The written form holds no line end, whatever its strings hold.

* `Json.Readable`: the values that are read back.
* `Json.read?_print`: reading a written value.
* `Json.lineEnd_not_mem_print`: the written form stands on one line.
-/

namespace PixelScale.Json

open Text

/-- A value without doubles, whose whole numbers fit into 64 bits, and which nests at most `n`
deep. -/
inductive Readable : Nat → Json → Prop
  | null {n : Nat} : Readable n null
  | bool {n : Nat} (b : Bool) : Readable n (bool b)
  | whole {n : Nat} {i : Int} : -(Nat.pow 2 63) ≤ i → i < Nat.pow 2 64 → Readable n (whole i)
  | string {n : Nat} (t : Text) : Readable n (string t)
  | array {n : Nat} {items : List Json} :
      (∀ v ∈ items, Readable n v) → Readable (n + 1) (array items)
  | object {n : Nat} {fields : List (Text × Json)} :
      (∀ f ∈ fields, Readable n f.2) → Readable (n + 1) (object fields)

/-- A text that does not go on with a number in front of it. -/
def EndsNumber (rest : Text) : Prop :=
  ∀ c ∈ rest.head?, c.isDigit = false ∧ c ≠ '.' ∧ c ≠ 'e' ∧ c ≠ 'E'

variable {n : Nat} {v : Json} {rest : Text}

theorem endsNumber_nil : EndsNumber [] := by
  intro c hc
  cases hc

theorem endsNumber_cons {c : Char} (h : c = ',' ∨ c = ']' ∨ c = '}') : EndsNumber (c :: rest) := by
  intro d hd
  obtain rfl : c = d := Option.some.inj hd
  rcases h with rfl | rfl | rfl <;> decide

/-! ## Numbers -/

theorem isDigit_ofNat (m : Nat) : ∀ c ∈ Text.ofNat m, c.isDigit = true :=
  fun _ hc => Nat.isDigit_of_mem_toDigits (by decide) (by decide) hc

/-- Digits are read one after the other as long as what they write stays in range. -/
theorem addDigits_of_lt {ds : Text} {m : Nat} (h : Nat.ofDigitChars 10 ds m < Nat.pow 2 64) :
    addDigits m ds = (Nat.ofDigitChars 10 ds m, []) := by
  induction ds generalizing m with
  | nil => rfl
  | cons c ds ih =>
    rw [Nat.ofDigitChars_cons, Nat.mul_comm] at h ⊢
    have hgrows : Nat.ofDigitChars 10 ds (m * 10 + (c.toNat - '0'.toNat)) = _ :=
      Nat.ofDigitChars_eq_ofDigitChars_zero
    have hpow : 0 < 10 ^ ds.length := Nat.pow_pos (by decide)
    have hle : m * 10 + (c.toNat - '0'.toNat) < Nat.pow 2 64 := by
      refine Nat.lt_of_le_of_lt ?_ h
      rw [hgrows]
      exact (Nat.le_mul_of_pos_left _ hpow).trans (Nat.le_add_right _ _)
    rw [addDigits, if_pos hle]
    exact ih h

/-- Only zero is written with a zero in front. -/
theorem head?_ofNat {m : Nat} (h : (Text.ofNat m).head? = some '0') : m = 0 := by
  induction m using Nat.strongRecOn with
  | ind m ih =>
    rw [Text.ofNat, Nat.toDigits_eq_if (by decide)] at h
    split at h
    · next hlt => exact Nat.digitChar_eq_zero.mp (Option.some.inj h)
    · next hge =>
      rw [List.head?_append_of_ne_nil _ Nat.toDigits_ne_nil] at h
      have := ih (m / 10) (by omega) h
      omega

/-- A whole number in front of a text that does not go on with it. -/
theorem number?_ofNat {m : Nat} (negative : Bool) (hm : m < Nat.pow 2 64)
    (hrest : EndsNumber rest) :
    number? negative (Text.ofNat m ++ rest) =
      withFraction? negative m [] rest := by
  have hspan : Numeral.spanDigits (Text.ofNat m ++ rest) = (Text.ofNat m, rest) :=
    Numeral.span_isDigit (isDigit_ofNat m) fun c hc => (hrest c hc).1
  have hne : (Text.ofNat m).isEmpty = false :=
    List.isEmpty_eq_false_iff.mpr Nat.toDigits_ne_nil
  have hzero : ¬ ((Text.ofNat m).head? = some '0' ∧ 1 < (Text.ofNat m).length) := by
    rintro ⟨hhead, hlong⟩
    obtain rfl := head?_ofNat hhead
    exact absurd hlong (by decide)
  have hdigits : addDigits 0 (Text.ofNat m) = (m, []) := by
    have hvalue : Nat.ofDigitChars 10 (Text.ofNat m) 0 = m := Nat.ofDigitChars_ten_toDigits
    rw [addDigits_of_lt (by rw [hvalue]; exact hm), hvalue]
  rw [number?, hspan]
  simp only [hne, Bool.false_or]
  rw [if_neg (by simpa using hzero), hdigits]

theorem withFraction?_of_endsNumber {m : Nat} {negative : Bool} (hrest : EndsNumber rest) :
    withFraction? negative m [] rest =
      if !negative then some (whole m, rest)
      else if m = 0 || Nat.pow 2 63 < m then (ofParts? negative m 0).map (·, rest)
      else some (whole (-m), rest) := by
  unfold withFraction?
  split
  · exact absurd rfl (hrest '.' rfl).2.1
  · exact absurd rfl (hrest 'e' rfl).2.2.1
  · exact absurd rfl (hrest 'E' rfl).2.2.2
  · rfl

theorem number?_whole {m : Nat} (hm : m < Nat.pow 2 64) (hrest : EndsNumber rest) :
    number? false (Text.ofNat m ++ rest) = some (whole m, rest) := by
  rw [number?_ofNat false hm hrest, withFraction?_of_endsNumber hrest]
  rfl

theorem number?_negative {m : Nat} (hpos : 0 < m) (hm : m ≤ Nat.pow 2 63)
    (hrest : EndsNumber rest) :
    number? true (Text.ofNat m ++ rest) = some (whole (-m), rest) := by
  have hlt : m < Nat.pow 2 64 := Nat.lt_of_le_of_lt hm (by decide)
  rw [number?_ofNat true hlt hrest, withFraction?_of_endsNumber hrest, if_neg (by simp), if_neg]
  simp only [Bool.or_eq_true, decide_eq_true_eq, not_or]
  omega

/-! ## Strings -/

/-- The escape of a control character that has no short one. -/
theorem unicode?_control {c : Char} (hc : c.toNat < 0x20) (t : Text) :
    unicode? ('0' :: '0' :: hexDigit (c.toNat / 16) :: hexDigit (c.toNat % 16) :: t) =
      some (c, t) := by
  have hall : ∀ k < 0x20,
      toNat? 16 ['0', '0', hexDigit (k / 16), hexDigit (k % 16)] = some k := by
    decide
  have hread : hex4? ('0' :: '0' :: hexDigit (c.toNat / 16) :: hexDigit (c.toNat % 16) :: t) =
      some (c.toNat, t) := by
    rw [hex4?, hall _ hc]
    rfl
  have hlow : ¬ (0xD800 ≤ c.toNat) := by omega
  have hlow' : ¬ (0xDC00 ≤ c.toNat) := by omega
  simp [unicode?, hread, hlow, hlow', Char.ofNat_toNat]

/-- An escaped character is read as the character. -/
theorem stringBody?_escape (fuel : Nat) (c : Char) (t : Text) :
    stringBody? (fuel + 1) (escape c ++ t) =
      (stringBody? fuel t).map fun (s, t) => (c :: s, t) := by
  have hshort : ∀ {e d : Char}, e ≠ 'u' → shortEscape? e = some d →
      stringBody? (fuel + 1) ('\\' :: e :: t) =
        (stringBody? fuel t).map fun (s, t) => (d :: s, t) := by
    intro e d hu he
    simp only [stringBody?, if_neg (show ('\\' : Char) ≠ '"' by decide), if_true, he,
      Option.bind_eq_bind, Option.bind_some]
    cases stringBody? fuel t <;> rfl
  unfold escape
  split_ifs with h1 h2 h3 h4 h5 h6 h7 h8
  · subst h1; exact hshort (by decide) rfl
  · subst h2; exact hshort (by decide) rfl
  · subst h3; exact hshort (by decide) rfl
  · subst h4; exact hshort (by decide) rfl
  · subst h5; exact hshort (by decide) rfl
  · subst h6; exact hshort (by decide) rfl
  · subst h7; exact hshort (by decide) rfl
  · simp only [List.cons_append, List.nil_append, stringBody?, unicode?_control h8,
      if_neg (show ('\\' : Char) ≠ '"' by decide), if_true, Option.bind_eq_bind, Option.bind_some]
    cases stringBody? fuel t <;> rfl
  · simp only [List.cons_append, List.nil_append, stringBody?, h1, h2, h8, if_false]

theorem length_escape_pos (c : Char) : 1 ≤ (escape c).length := by
  unfold escape
  split_ifs <;> exact Nat.succ_le_succ (Nat.zero_le _)

theorem length_le_flatMap_escape (t : Text) : t.length ≤ (t.flatMap escape).length := by
  induction t with
  | nil => exact Nat.le_refl 0
  | cons c t ih =>
    have := length_escape_pos c
    rw [List.flatMap_cons, List.length_append, List.length_cons]
    omega

theorem stringBody?_flatMap {fuel : Nat} {t : Text} (h : t.length < fuel) (rest : Text) :
    stringBody? fuel (t.flatMap escape ++ '"' :: rest) = some (t, rest) := by
  induction t generalizing fuel with
  | nil =>
    obtain ⟨fuel, rfl⟩ := Nat.exists_eq_add_of_lt h
    simp [stringBody?]
  | cons c t ih =>
    obtain ⟨k, rfl⟩ : ∃ k, fuel = k + 1 := ⟨fuel - 1, by simp at h; omega⟩
    rw [List.flatMap_cons, List.append_assoc, stringBody?_escape, ih (by simpa using h)]
    rfl

/-- A written string is read back behind its opening quote. -/
theorem stringBody?_printString (t rest : Text) :
    stringBody? ((t.flatMap escape ++ '"' :: rest).length + 1) (t.flatMap escape ++ '"' :: rest) =
      some (t, rest) := by
  refine stringBody?_flatMap ?_ rest
  have := length_le_flatMap_escape t
  rw [List.length_append, List.length_cons]
  omega

/-! ## Values -/

/-- What a value can start with. -/
def startsValue (c : Char) : Bool :=
  c.isDigit || ['n', 't', 'f', '-', '"', '[', '{'].contains c

theorem exists_head_print (h : Readable n v) :
    ∃ c t, v.print = c :: t ∧ startsValue c = true := by
  cases h with
  | null => exact ⟨'n', "ull".toList, rfl, rfl⟩
  | bool b => cases b with
    | false => exact ⟨'f', "alse".toList, rfl, rfl⟩
    | true => exact ⟨'t', "rue".toList, rfl, rfl⟩
  | @whole _ i _ _ =>
    rw [print, printWhole]
    split_ifs with hneg
    · exact ⟨'-', _, rfl, rfl⟩
    · cases hds : Text.ofNat i.natAbs with
      | nil => exact absurd hds Nat.toDigits_ne_nil
      | cons c t =>
        have hc := isDigit_ofNat i.natAbs c (by rw [hds]; exact List.mem_cons_self)
        exact ⟨c, t, rfl, by rw [startsValue, hc]; rfl⟩
  | string t => exact ⟨'"', _, rfl, rfl⟩
  | @array _ items _ => exact ⟨'[', printItems true items ++ [']'], by simp [print], rfl⟩
  | @object _ fields _ => exact ⟨'{', printFields true fields ++ ['}'], by simp [print], rfl⟩

theorem skipBlanks_of_startsValue {c : Char} {t : Text} (h : startsValue c = true) :
    skipBlanks (c :: t) = c :: t := by
  refine List.dropWhile_cons_of_neg ?_
  intro hblank
  simp only [Bool.or_eq_true, beq_iff_eq] at hblank
  rcases hblank with ((rfl | rfl) | rfl) | rfl <;> exact absurd h (by decide)

/-- A value is read back inside of `n` others, in front of any text that does not go on with it. -/
def ReadsBack (n : Nat) (v : Json) : Prop :=
  ∀ fuel rest, 2 * v.print.length ≤ fuel → EndsNumber rest →
    value? fuel (n + 1) (v.print ++ rest) = some (v, rest)

theorem value?_of_isDigit {c : Char} {t : Text} (hc : c.isDigit = true) (fuel depth : Nat) :
    value? (fuel + 1) depth (c :: t) = number? false (c :: t) := by
  have hother : ∀ {d : Char}, d.isDigit = false → c ≠ d := by
    rintro d hd rfl
    rw [hd] at hc
    cases hc
  have hblank : skipBlanks (c :: t) = c :: t :=
    skipBlanks_of_startsValue (by rw [startsValue, hc]; rfl)
  rw [value?, hblank]
  split
  case h_8 => rfl
  all_goals
    rename_i heq
    exact absurd (List.cons.inj heq).1 (hother (by decide))

theorem readsBack_whole {i : Int} (hlow : -(Nat.pow 2 63) ≤ i) (hhigh : i < Nat.pow 2 64) :
    ReadsBack n (whole i) := by
  intro fuel rest hfuel hrest
  obtain ⟨c, t, heq, -⟩ := exists_head_print (.whole hlow hhigh : Readable n (whole i))
  obtain ⟨fuel, rfl⟩ : ∃ k, fuel = k + 1 := by
    rw [heq, List.length_cons] at hfuel
    exact ⟨fuel - 1, by omega⟩
  rw [print, printWhole]
  split_ifs with hneg
  · have hvalue : value? (fuel + 1) (n + 1) ('-' :: (Text.ofNat i.natAbs ++ rest)) =
        number? true (Text.ofNat i.natAbs ++ rest) := by
      simp [value?, skipBlanks]
    rw [List.cons_append, hvalue, number?_negative (by omega) (by omega) hrest,
      show -(i.natAbs : Int) = i by omega]
  · cases hds : Text.ofNat i.natAbs with
    | nil => exact absurd hds Nat.toDigits_ne_nil
    | cons c t =>
      have hc := isDigit_ofNat i.natAbs c (by rw [hds]; exact List.mem_cons_self)
      rw [List.cons_append, value?_of_isDigit hc, ← List.cons_append, ← hds,
        number?_whole (by omega) hrest, show (i.natAbs : Int) = i by omega]

theorem readsBack_string (t : Text) : ReadsBack n (string t) := by
  intro fuel rest hfuel _
  obtain ⟨fuel, rfl⟩ : ∃ k, fuel = k + 1 := by
    simp only [print, printString, List.length_append, List.length_cons] at hfuel
    exact ⟨fuel - 1, by omega⟩
  have hvalue : value? (fuel + 1) (n + 1) ('"' :: (t.flatMap escape ++ '"' :: rest)) =
      (stringBody? ((t.flatMap escape ++ '"' :: rest).length + 1)
        (t.flatMap escape ++ '"' :: rest)).map fun (s, t) => (string s, t) := by
    simp [value?, skipBlanks]
  rw [print, printString, List.append_assoc, List.cons_append, List.singleton_append, hvalue,
    stringBody?_printString]
  rfl

theorem printItems_cons (v : Json) (vs : List Json) :
    printItems true (v :: vs) = v.print ++ printItems false vs := by
  simp [printItems]

theorem printItems_false (v : Json) (vs : List Json) :
    printItems false (v :: vs) = ',' :: printItems true (v :: vs) := by
  simp [printItems]

/-- The items of a written array, up to its closing bracket. -/
theorem items?_print {vs : List Json} {fuel : Nat} (h : ∀ w ∈ v :: vs, ReadsBack n w)
    (hfuel : 2 * (printItems true (v :: vs)).length + 1 ≤ fuel) (rest : Text) :
    items? fuel (n + 1) (printItems true (v :: vs) ++ ']' :: rest) = some (v :: vs, rest) := by
  induction vs generalizing v fuel with
  | nil =>
    obtain ⟨fuel, rfl⟩ : ∃ k, fuel = k + 1 := ⟨fuel - 1, by omega⟩
    rw [printItems_cons, printItems, List.append_nil] at hfuel ⊢
    have hv := h v List.mem_cons_self fuel (']' :: rest) (by omega)
      (endsNumber_cons (.inr (.inl rfl)))
    rw [items?, hv]
    rfl
  | cons w vs ih =>
    obtain ⟨fuel, rfl⟩ : ∃ k, fuel = k + 1 := ⟨fuel - 1, by omega⟩
    rw [printItems_cons, printItems_false] at hfuel ⊢
    simp only [List.length_append, List.length_cons] at hfuel
    have hv := h v List.mem_cons_self fuel (',' :: (printItems true (w :: vs) ++ ']' :: rest))
      (by omega) (endsNumber_cons (.inl rfl))
    have hshort : 2 * (printItems true (w :: vs)).length + 1 ≤ fuel := by omega
    have hvs := ih (fun u hu => h u (List.mem_cons_of_mem v hu)) hshort
    rw [List.append_assoc, List.cons_append, items?, hv]
    simp [skipBlanks, hvs]

theorem printFields_cons (name : Text) (v : Json) (fs : List (Text × Json)) :
    printFields true ((name, v) :: fs) =
      printString name ++ ':' :: (v.print ++ printFields false fs) := by
  simp [printFields]

theorem printFields_false (f : Text × Json) (fs : List (Text × Json)) :
    printFields false (f :: fs) = ',' :: printFields true (f :: fs) := by
  simp [printFields]

/-- The name and the value of a written field, in front of a comma. -/
theorem fields?_print_comma {fuel : Nat} {name t : Text} (h : ReadsBack n v)
    (hfuel : 2 * v.print.length ≤ fuel) :
    fields? (fuel + 1) (n + 1) (printString name ++ ':' :: (v.print ++ ',' :: t)) =
      (fields? fuel (n + 1) t).map fun (fs, t) => ((name, v) :: fs, t) := by
  have hquote (u : Text) : skipBlanks ('"' :: u) = '"' :: u := skipBlanks_of_startsValue rfl
  have hcolon (u : Text) : skipBlanks (':' :: u) = ':' :: u := by simp [skipBlanks]
  have hcomma : skipBlanks (',' :: t) = ',' :: t := by simp [skipBlanks]
  have hvalue := h fuel (',' :: t) hfuel (endsNumber_cons (.inl rfl))
  rw [printString, List.append_assoc, List.cons_append, List.singleton_append, fields?, hquote]
  simp only [stringBody?_printString, Option.bind_eq_bind, Option.bind_some, hcolon, hvalue, hcomma]
  cases fields? fuel (n + 1) t <;> rfl

/-- The name and the value of a written field, in front of the closing brace. -/
theorem fields?_print_brace {fuel : Nat} {name t : Text} (h : ReadsBack n v)
    (hfuel : 2 * v.print.length ≤ fuel) :
    fields? (fuel + 1) (n + 1) (printString name ++ ':' :: (v.print ++ '}' :: t)) =
      some ([(name, v)], t) := by
  have hquote (u : Text) : skipBlanks ('"' :: u) = '"' :: u := skipBlanks_of_startsValue rfl
  have hcolon (u : Text) : skipBlanks (':' :: u) = ':' :: u := by simp [skipBlanks]
  have hbrace : skipBlanks ('}' :: t) = '}' :: t := by simp [skipBlanks]
  have hvalue := h fuel ('}' :: t) hfuel (endsNumber_cons (.inr (.inr rfl)))
  rw [printString, List.append_assoc, List.cons_append, List.singleton_append, fields?, hquote]
  simp only [stringBody?_printString, Option.bind_eq_bind, Option.bind_some, hcolon, hvalue, hbrace]
  rfl

/-- The fields of a written object, up to its closing brace. -/
theorem fields?_print {f : Text × Json} {fs : List (Text × Json)} {fuel : Nat}
    (h : ∀ g ∈ f :: fs, ReadsBack n g.2)
    (hfuel : 2 * (printFields true (f :: fs)).length + 1 ≤ fuel) (rest : Text) :
    fields? fuel (n + 1) (printFields true (f :: fs) ++ '}' :: rest) = some (f :: fs, rest) := by
  induction fs generalizing f fuel with
  | nil =>
    obtain ⟨fuel, rfl⟩ : ∃ k, fuel = k + 1 := ⟨fuel - 1, by omega⟩
    obtain ⟨name, v⟩ := f
    rw [printFields_cons, printFields, List.append_nil] at hfuel ⊢
    simp only [List.length_append, List.length_cons] at hfuel
    rw [List.append_assoc, List.cons_append]
    exact fields?_print_brace (h (name, v) List.mem_cons_self) (by omega)
  | cons g fs ih =>
    obtain ⟨fuel, rfl⟩ : ∃ k, fuel = k + 1 := ⟨fuel - 1, by omega⟩
    obtain ⟨name, v⟩ := f
    rw [printFields_cons, printFields_false] at hfuel ⊢
    simp only [List.length_append, List.length_cons, List.append_assoc, List.cons_append]
      at hfuel ⊢
    have hshort : 2 * (printFields true (g :: fs)).length + 1 ≤ fuel := by omega
    have hfs := ih (fun u hu => h u (List.mem_cons_of_mem _ hu)) hshort
    rw [fields?_print_comma (v := v) (h (name, v) List.mem_cons_self) (by omega), hfs]
    rfl

theorem readsBack_array {items : List Json} (hhead : ∀ v ∈ items, Readable n v)
    (h : ∀ v ∈ items, ReadsBack n v) : ReadsBack (n + 1) (array items) := by
  intro fuel rest hfuel _
  rw [print] at hfuel ⊢
  simp only [List.length_append, List.length_cons, List.length_nil] at hfuel
  obtain ⟨fuel, rfl⟩ : ∃ k, fuel = k + 1 := ⟨fuel - 1, by omega⟩
  cases items with
  | nil => simp [printItems, value?, skipBlanks]
  | cons v vs =>
    obtain ⟨c, t, heq, hc⟩ := exists_head_print (hhead v List.mem_cons_self)
    have hblank : skipBlanks (printItems true (v :: vs) ++ ']' :: rest) =
        printItems true (v :: vs) ++ ']' :: rest := by
      rw [printItems_cons, heq, List.cons_append, List.cons_append, skipBlanks_of_startsValue hc]
    have hshort : 2 * (printItems true (v :: vs)).length + 1 ≤ fuel := by omega
    have hitems := items?_print h hshort rest
    have hvalue : value? (fuel + 1) (n + 1 + 1)
        ('[' :: (printItems true (v :: vs) ++ ']' :: rest)) =
          (items? fuel (n + 1) (printItems true (v :: vs) ++ ']' :: rest)).map
            fun x => (array x.1, x.2) := by
      simp only [value?, skipBlanks_of_startsValue (show startsValue '[' = true from rfl), hblank]
      rw [if_neg (by omega)]
      split
      · next t' hclose =>
        rw [printItems_cons, heq] at hclose
        obtain rfl : c = ']' := (List.cons.inj hclose).1
        exact absurd hc (by decide)
      · rfl
    rw [List.append_assoc, List.cons_append, List.singleton_append, hvalue, hitems]
    rfl

theorem readsBack_object {fields : List (Text × Json)} (h : ∀ f ∈ fields, ReadsBack n f.2) :
    ReadsBack (n + 1) (object fields) := by
  intro fuel rest hfuel _
  rw [print] at hfuel ⊢
  simp only [List.length_append, List.length_cons, List.length_nil] at hfuel
  obtain ⟨fuel, rfl⟩ : ∃ k, fuel = k + 1 := ⟨fuel - 1, by omega⟩
  cases fields with
  | nil => simp [printFields, value?, skipBlanks]
  | cons f fs =>
    have hquote : ∃ t, printFields true (f :: fs) ++ '}' :: rest = '"' :: t :=
      ⟨_, by rw [show f = (f.1, f.2) from rfl, printFields_cons]; rfl⟩
    obtain ⟨t, ht⟩ := hquote
    have hshort : 2 * (printFields true (f :: fs)).length + 1 ≤ fuel := by omega
    have hfields := fields?_print h hshort rest
    rw [ht] at hfields
    rw [List.append_assoc, List.cons_append, List.singleton_append, ht]
    simp [value?, skipBlanks, hfields]

/-- A value is read back in front of any text that does not go on with it. -/
theorem Readable.readsBack (h : Readable n v) : ReadsBack n v := by
  induction h with
  | null =>
    intro fuel rest hfuel _
    obtain ⟨fuel, rfl⟩ : ∃ k, fuel = k + 1 := ⟨fuel - 1, by simp [print] at hfuel; omega⟩
    simp [print, value?, skipBlanks]
  | bool b =>
    intro fuel rest hfuel _
    obtain ⟨fuel, rfl⟩ : ∃ k, fuel = k + 1 := by
      refine ⟨fuel - 1, ?_⟩
      cases b <;> simp [print] at hfuel <;> omega
    cases b <;> simp [print, value?, skipBlanks]
  | whole hlow hhigh => exact readsBack_whole hlow hhigh
  | string t => exact readsBack_string t
  | array hitems ih => exact readsBack_array hitems ih
  | object _ ih => exact readsBack_object ih

/-- A written value is read back. -/
theorem read?_print (h : Readable (maxDepth - 1) v) : read? v.print = some v := by
  have hvalue := h.readsBack (2 * v.print.length + 2) [] (by omega) endsNumber_nil
  rw [List.append_nil] at hvalue
  rw [read?, show maxDepth = maxDepth - 1 + 1 from rfl, hvalue]
  rfl

/-! ## Line ends -/

/-- An escaped character has no control character in it. -/
theorem le_of_mem_escape {c d : Char} (h : d ∈ escape c) : 0x20 ≤ d.toNat := by
  have hhex : ∀ k < 0x20, 0x20 ≤ (hexDigit (k / 16)).toNat ∧ 0x20 ≤ (hexDigit (k % 16)).toNat := by
    decide
  have hshort : ∀ {e : Char}, 0x20 ≤ e.toNat → d ∈ ['\\', e] → 0x20 ≤ d.toNat := by
    intro e he hd
    rcases List.mem_cons.mp hd with rfl | hd
    · decide
    · rwa [List.mem_singleton.mp hd]
  unfold escape at h
  split_ifs at h with h1 h2 h3 h4 h5 h6 h7 h8
  · exact hshort (by decide) h
  · exact hshort (by decide) h
  · exact hshort (by decide) h
  · exact hshort (by decide) h
  · exact hshort (by decide) h
  · exact hshort (by decide) h
  · exact hshort (by decide) h
  · obtain ⟨hhigh, hlow⟩ := hhex c.toNat h8
    simp only [List.mem_cons, List.not_mem_nil, or_false] at h
    rcases h with rfl | rfl | rfl | rfl | rfl | rfl
    · decide
    · decide
    · decide
    · decide
    · exact hhigh
    · exact hlow
  · rw [List.mem_singleton.mp h]
    omega

theorem le_of_mem_printString {t : Text} {d : Char} (h : d ∈ printString t) : 0x20 ≤ d.toNat := by
  rw [printString, List.cons_append] at h
  rcases List.mem_cons.mp h with rfl | h
  · decide
  · rcases List.mem_append.mp h with h | h
    · obtain ⟨c, -, hc⟩ := List.mem_flatMap.mp h
      exact le_of_mem_escape hc
    · rw [List.mem_singleton.mp h]
      decide

theorem le_of_mem_printItems {vs : List Json} (h : ∀ v ∈ vs, ∀ d ∈ v.print, 0x20 ≤ d.toNat)
    (first : Bool) : ∀ d ∈ printItems first vs, 0x20 ≤ d.toNat := by
  induction vs generalizing first with
  | nil => simp [printItems]
  | cons v vs ih =>
    intro d hd
    rw [printItems] at hd
    rcases List.mem_append.mp hd with hd | hd
    · rcases List.mem_append.mp hd with hd | hd
      · cases first with
        | true => cases hd
        | false =>
          rw [List.mem_singleton.mp hd]
          decide
      · exact h v List.mem_cons_self d hd
    · exact ih (fun w hw => h w (List.mem_cons_of_mem v hw)) false d hd

theorem le_of_mem_printFields {fs : List (Text × Json)}
    (h : ∀ f ∈ fs, ∀ d ∈ f.2.print, 0x20 ≤ d.toNat) (first : Bool) :
    ∀ d ∈ printFields first fs, 0x20 ≤ d.toNat := by
  induction fs generalizing first with
  | nil => simp [printFields]
  | cons f fs ih =>
    obtain ⟨name, v⟩ := f
    intro d hd
    simp only [printFields, List.mem_append, List.mem_cons] at hd
    rcases hd with ((hd | hd) | rfl | hd) | hd
    · cases first with
      | true => cases hd
      | false =>
        rw [List.mem_singleton.mp hd]
        decide
    · exact le_of_mem_printString hd
    · decide
    · exact h (name, v) List.mem_cons_self d hd
    · exact ih (fun g hg => h g (List.mem_cons_of_mem _ hg)) false d hd

/-- A written value has no control character in it. -/
theorem Readable.le_of_mem_print (h : Readable n v) : ∀ d ∈ v.print, 0x20 ≤ d.toNat := by
  have hdigit : ∀ m : Nat, ∀ d ∈ Text.ofNat m, 0x20 ≤ d.toNat := by
    intro m d hd
    have := isDigit_ofNat m d hd
    simp only [Char.isDigit, Bool.and_eq_true, decide_eq_true_eq, ge_iff_le,
      UInt32.le_iff_toNat_le] at this
    exact le_trans (by decide) this.1
  induction h with
  | null => simp [print]
  | bool b => cases b <;> simp [print]
  | @whole _ i _ _ =>
    rw [print, printWhole]
    split_ifs
    · exact List.forall_mem_cons.mpr ⟨by decide, hdigit _⟩
    · exact hdigit _
  | string t => exact fun d hd => le_of_mem_printString hd
  | array _ ih =>
    intro d hd
    rw [print, List.cons_append, List.mem_cons, List.mem_append] at hd
    rcases hd with rfl | hd | hd
    · decide
    · exact le_of_mem_printItems ih true d hd
    · rw [List.mem_singleton.mp hd]
      decide
  | object _ ih =>
    intro d hd
    rw [print, List.cons_append, List.mem_cons, List.mem_append] at hd
    rcases hd with rfl | hd | hd
    · decide
    · exact le_of_mem_printFields ih true d hd
    · rw [List.mem_singleton.mp hd]
      decide

/-- A written value stands on one line. -/
theorem lineEnd_not_mem_print (h : Readable n v) : '\n' ∉ v.print ∧ '\r' ∉ v.print := by
  constructor
  · intro hmem
    exact absurd (h.le_of_mem_print _ hmem) (by decide)
  · intro hmem
    exact absurd (h.le_of_mem_print _ hmem) (by decide)

end PixelScale.Json
