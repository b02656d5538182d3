import PixelScale.Proofs.Pixel.Recognition
import PixelScale.Text.Blank

/-!
# Values with several parts

A shorthand value has parts with white space or commas between them. Neither a length nor the start
of a group reaches over a separator, and a length that stands at one is not touched there. Only a
string or a group could reach from one part into the next ones. If a part closes what it opens, then
its segments are the same on its own and in front of a separator, whatever follows, and the value is
converted part by part.

* `Segment.Closed`: texts that close what they open.
* `Segment.ofText_append`: the segments on both sides of a separator.
* `Converter.replaceAll_parts`: a value is converted part by part.
-/

namespace PixelScale.Text.Ranges

/-- Sets with no range in common have no member in common. -/
theorem has_eq_false_of_apart {rs ss : Ranges}
    (h : ∀ r ∈ rs, ∀ s ∈ ss, r.2 < s.1 ∨ s.2 < r.1) {c : Char} (hc : rs.has c = true) :
    ss.has c = false := by
  obtain ⟨r, hr, hrange⟩ := List.any_eq_true.mp hc
  refine Bool.eq_false_iff.mpr fun hc' => ?_
  obtain ⟨s, hs, hrange'⟩ := List.any_eq_true.mp hc'
  simp only [Bool.and_eq_true, decide_eq_true_eq] at hrange hrange'
  have := h r hr s hs
  omega

end PixelScale.Text.Ranges

namespace PixelScale.Pixel

open Text Numeral

namespace Segment

/-! ## Separators -/

/-- White space and the comma separate the parts of a value. -/
def separates (c : Char) : Bool := isBlank c || c == ','

/-- The character has no place in a length, is no letter, and opens nothing. -/
structure Divides (c : Char) : Prop where
  part : isPart c = false
  letter : c.isAlpha = false
  opens : opens c = false
  bracket : c ≠ '('

theorem divides_of_isBlank {c : Char} (h : isBlank c = true) : Divides c := by
  have hout : ∀ rs : Ranges, (∀ r ∈ blanks, ∀ s ∈ rs, r.2 < s.1 ∨ s.2 < r.1) → rs.has c = false :=
    fun rs hrs => Ranges.has_eq_false_of_apart hrs h
  have hascii : c.isDigit = Ranges.has [(48, 57)] c := by
    simp [Char.isDigit, Ranges.has, UInt32.le_iff_toNat_le, ge_iff_le]
  have hletter : c.isAlpha = Ranges.has [(65, 90), (97, 122)] c := by
    simp [Char.isAlpha, Char.isUpper, Char.isLower, Ranges.has, UInt32.le_iff_toNat_le]
  have hdigit : isDigit c = false := by
    rw [isDigit, hascii, hout _ (by decide), hout digits (by decide)]
    rfl
  have hne : ∀ d, isBlank d = false → c ≠ d := by
    rintro d hd rfl
    rw [h] at hd
    cases hd
  refine ⟨?_, by rw [hletter, hout _ (by decide)], ?_, hne _ (by decide)⟩
  · simp [isPart, hdigit, hne '.' (by decide), hne '+' (by decide), hne '-' (by decide)]
  · simp [Segment.opens, hne '"' (by decide), hne '\'' (by decide), hne 'u' (by decide)]

theorem divides_of_separates {c : Char} (h : separates c = true) : Divides c := by
  rcases (Bool.or_eq_true _ _).mp h with h | h
  · exact divides_of_isBlank h
  · obtain rfl := beq_iff_eq.mp h
    exact ⟨by decide, by decide, by decide, by decide⟩

theorem Divides.not_mem_length {c : Char} (hc : Divides c) {n : Text} (hn : IsNumeral n) :
    c ∉ n ++ pxSuffix := by
  intro hmem
  rcases List.mem_append.mp hmem with hmem | hmem
  · have := hn.part c hmem
    rw [hc.part] at this
    cases this
  · have := hc.letter
    rcases List.mem_pair.mp hmem with rfl | rfl <;> cases this

/-- A text does not reach over a character that it does not have. -/
theorem prefix_of_not_mem {s t b : Text} {c : Char} (hc : c ∉ s) (h : s <+: t ++ c :: b) :
    s <+: t := by
  obtain ⟨r, hr⟩ := h
  obtain ⟨z, rfl, -⟩ := exists_of_append_eq hc hr
  exact List.prefix_append s z

/-! ## Texts that close what they open -/

/-- A text that starts as a string or a group does. -/
def Opening (t : Text) : Prop :=
  t.head? = some '"' ∨ t.head? = some '\'' ∨ "url(".toList <+: t

/-- Every quote and every `url(` of a text, if it does not stand in a string or a group already,
starts a string or a group that is closed in the text. -/
def Closed (t : Text) : Prop := ∀ r, Reaches t r → Opening r → ∃ u, Skipped u ∧ u <+: r

theorem Opening.exists_cons {t : Text} (h : Opening t) : ∃ c r, t = c :: r ∧ opens c = true := by
  cases t with
  | nil =>
    rcases h with h | h | h
    · cases h
    · cases h
    · exact absurd (List.prefix_nil.mp h) (by decide)
  | cons c t =>
    refine ⟨c, t, rfl, ?_⟩
    rcases h with h | h | h
    · cases h
      rfl
    · cases h
      rfl
    · rw [← (List.cons_prefix_cons.mp h).1]
      rfl

theorem Reaches.suffix {t r : Text} (h : Reaches t r) : r <:+ t := by
  induction h with
  | here => exact List.suffix_rfl
  | skip _ _ ih => exact ih.trans (List.suffix_append _ _)
  | char _ _ ih => exact ih.trans (List.suffix_cons _ _)

namespace Closed

/-- Without quotes and the letter `u` nothing is opened. -/
theorem of_opens {t : Text} (h : ∀ c ∈ t, opens c = false) : Closed t := by
  intro r hr hopening
  obtain ⟨c, v, rfl, hc⟩ := hopening.exists_cons
  rw [h c (hr.suffix.subset List.mem_cons_self)] at hc
  cases hc

theorem skip {u t : Text} (hu : Skipped u) (ht : Closed t) : Closed (u ++ t) := by
  intro r hr hopening
  rcases hr.pass_skipped hu with rfl | hr
  · exact ⟨u, hu, List.prefix_append u t⟩
  · exact ht r hr hopening

theorem of_reaches {t r : Text} (h : Closed t) (hr : Reaches t r) : Closed r :=
  fun q hq => h q (hr.trans hq)

/-- Where nothing is skipped in a closed text, nothing is skipped because of what follows a
separator behind it. -/
theorem plain_append {c d : Char} {t : Text} (h : Closed (c :: t)) (hplain : Plain (c :: t))
    (hd : Divides d) (b : Text) : Plain (c :: t ++ d :: b) := by
  intro u hu hprefix
  have hopening : Opening (c :: t) := by
    cases hu with
    | double _ => exact .inl (by rw [← (List.cons_prefix_cons.mp hprefix).1]; rfl)
    | single _ => exact .inr (.inl (by rw [← (List.cons_prefix_cons.mp hprefix).1]; rfl))
    | @group s _ =>
      have hletter : ∀ e, e.isAlpha = true → d ≠ e := by
        rintro e he rfl
        rw [hd.letter] at he
        cases he
      have hd' : d ∉ "url(".toList := by
        simp [hletter 'u' rfl, hletter 'r' rfl, hletter 'l' rfl, hd.bracket]
      exact .inr (.inr (prefix_of_not_mem hd' (.trans ⟨s ++ [')'], rfl⟩ hprefix)))
  obtain ⟨v, hv, hv'⟩ := h _ .here hopening
  exact hplain v hv hv'

end Closed

/-! ## Segments in front of a separator -/

/-- A segment at the start of a text starts every text that it is a prefix of. -/
theorem first?_eq_some_of_start {t t' : Text} {s : Segment} (h : first? t = some s)
    (hstart : s.text <+: t') : first? t' = some s := by
  unfold first? at h
  split at h
  · rename_i u hu
    cases h
    rw [first?, kept?_eq_some_iff.mpr ⟨(kept?_eq_some_iff.mp hu).1, hstart⟩]
  · obtain ⟨n, hn, rfl⟩ := Option.map_eq_some_iff.mp h
    have hnumeral := isNumeral_of_number? hn
    obtain ⟨r, rfl⟩ := hstart
    have hplain : Plain ((pixels n).text ++ r) :=
      plain_of_length hnumeral (List.nil_append _).symm (by simp [pxSuffix]) r
    have hnumber : number? ((pixels n).text ++ r) = some n :=
      number?_eq_some_iff.mpr ⟨hnumeral, List.prefix_append _ r⟩
    rw [first?, kept?_eq_none_iff.mpr hplain, hnumber]
    rfl

/-- In a closed text no segment begins at a place because a separator follows. -/
theorem first?_append_of_none {c d : Char} {t : Text} (h : first? (c :: t) = none)
    (hclosed : Closed (c :: t)) (hd : Divides d) (b : Text) :
    first? (c :: t ++ d :: b) = none := by
  obtain ⟨hplain, hlengths⟩ := first?_eq_none_iff.mp h
  refine first?_eq_none_iff.mpr ⟨hclosed.plain_append hplain hd b, fun n hn hprefix => ?_⟩
  exact hlengths n hn (prefix_of_not_mem (hd.not_mem_length hn) hprefix)

theorem first?_divides {d : Char} (hd : Divides d) (b : Text) : first? (d :: b) = none := by
  refine first?_eq_none_iff.mpr ⟨plain_of_opens hd.opens b, fun n hn hprefix => ?_⟩
  obtain ⟨c, m, rfl⟩ := List.exists_cons_of_ne_nil hn.ne_nil
  obtain rfl : c = d := (List.cons_prefix_cons.mp hprefix).1
  exact hd.not_mem_length hn (by simp)

theorem reaches_of_first? {t : Text} {s : Segment} (h : first? (s.text ++ t) = some s) :
    Reaches (s.text ++ t) t := by
  have hrow := IsRow.first h (isRow_ofText t)
  cases s with
  | char c => exact absurd h IsRow.not_char_of_first?
  | kept u => exact .skip (@IsRow.skipped _ _ [] _ hrow) .here
  | pixels n =>
    have hn : IsNumeral n := @IsRow.isNumeral _ _ [] _ hrow
    exact .of_plain (fun v v' hv hne => plain_of_length hn hv hne t) .here

/-- A row of segments goes on behind a separator. -/
theorem IsRow.append {t b : Text} {ss ts : List Segment} {d : Char} (h : IsRow t ss)
    (hclosed : Closed t) (hd : Divides d) (hb : IsRow b ts) :
    IsRow (t ++ d :: b) (ss ++ .char d :: ts) := by
  induction h with
  | nil => exact .char (first?_divides hd b) hb
  | @first s t ss hs _ ih =>
    rw [List.append_assoc]
    exact .first (first?_eq_some_of_start hs (List.prefix_append _ _))
      (ih (hclosed.of_reaches (reaches_of_first? hs)))
  | @char c t ss hnone _ ih =>
    have hrest := hclosed.of_reaches (.char (first?_eq_none_iff.mp hnone).1 .here)
    exact .char (first?_append_of_none hnone hclosed hd b) (ih hrest)

/-- A text has one row of segments. -/
theorem IsRow.unique {t : Text} {ss ts : List Segment} (h : IsRow t ss) (h' : IsRow t ts) :
    ss = ts := by
  induction ss generalizing t ts with
  | nil =>
    obtain rfl := h.joined_eq
    cases ts with
    | nil => rfl
    | cons s ts =>
      exact absurd (List.append_eq_nil_iff.mp h'.joined_eq).1 (@text_ne_nil _ _ [] _ h')
  | cons s ss ih =>
    cases ts with
    | nil =>
      obtain rfl := h'.joined_eq
      exact absurd (List.append_eq_nil_iff.mp h.joined_eq).1 (@text_ne_nil _ _ [] _ h)
    | cons s' ts =>
      have hjoined : joined (s :: ss) = joined (s' :: ts) := h.joined_eq.trans h'.joined_eq.symm
      obtain rfl : s = s' := by
        rcases h.first?_eq with hs | ⟨hnone, c, rfl⟩
        · rcases h'.first?_eq with hs' | ⟨hnone, -⟩
          · exact Option.some.inj (hs.symm.trans hs')
          · rw [hnone] at hs
            cases hs
        · rcases h'.first?_eq with hs' | ⟨-, c', rfl⟩
          · rw [hnone] at hs'
            cases hs'
          · rw [(List.cons.inj hjoined).1]
      have htail : joined ss = joined ts := List.append_cancel_left hjoined
      have hss : IsRow (joined ss) ss := @right _ [s] ss h
      have hts : IsRow (joined ts) ts := @right _ [s] ts h'
      rw [ih hss (htail ▸ hts)]

theorem ofText_append {a : Text} (ha : Closed a) {d : Char} (hd : Divides d) (b : Text) :
    ofText (a ++ d :: b) = ofText a ++ .char d :: ofText b :=
  (isRow_ofText _).unique ((isRow_ofText a).append ha hd (isRow_ofText b))

end Segment

/-! ## Conversion part by part -/

namespace Converter

open Segment

variable (k : Converter)

theorem segments_congr {last last' : Option Char} (h : touches last = touches last')
    (ss : List Segment) : k.segments last ss = k.segments last' ss := by
  cases ss with
  | nil => rfl
  | cons s ss =>
    cases s with
    | pixels n => simp only [segments, h]
    | _ => rfl

/-- A row is converted in two parts, if no letter follows the first one. -/
theorem segments_append (last : Option Char) (ps : List Segment) {qs : List Segment}
    (hqs : touches (qs.head?.bind fun s => s.text.head?) = false) :
    k.segments last (ps ++ qs) =
      k.segments last ps ++ k.segments (ps.foldl (fun _ s => s.text.getLast?) last) qs := by
  induction ps generalizing last with
  | nil => rfl
  | cons s ps ih =>
    have hnext : touches ((ps ++ qs).head?.bind fun s => s.text.head?) =
        touches (ps.head?.bind fun s => s.text.head?) := by
      cases ps with
      | nil => exact hqs
      | cons _ _ => rfl
    cases s with
    | pixels n =>
      simp only [List.cons_append, segments, hnext, ih, List.append_assoc, List.foldl_cons]
    | _ => simp only [List.cons_append, segments, ih, List.append_assoc, List.foldl_cons]

/-- A separator behind a closed part parts the conversion. -/
theorem replaceAll_append {a : Text} (ha : Closed a) {d : Char} (hd : separates d = true)
    (b : Text) : k.replaceAll (a ++ d :: b) = k.replaceAll a ++ d :: k.replaceAll b := by
  have hdivides := divides_of_separates hd
  have hnext : touches ((Segment.char d :: ofText b).head?.bind fun s => s.text.head?) = false :=
    hdivides.letter
  rw [replaceAll, ofText_append ha hdivides, k.segments_append _ _ hnext]
  have hlast : touches (some d) = touches none := hdivides.letter
  exact congrArg (_ ++ d :: ·) (k.segments_congr hlast _)

/-- A value with several parts is converted part by part: every part that has a separator behind it
closes what it opens, and the last one may be any text. -/
theorem replaceAll_parts (parts : List (Text × Char))
    (hparts : ∀ e ∈ parts, Closed e.1 ∧ separates e.2 = true) (b : Text) :
    k.replaceAll (parts.flatMap (fun e => e.1 ++ [e.2]) ++ b) =
      parts.flatMap (fun e => k.replaceAll e.1 ++ [e.2]) ++ k.replaceAll b := by
  induction parts with
  | nil => rfl
  | cons e parts ih =>
    obtain ⟨⟨hclosed, hseparates⟩, hparts⟩ := List.forall_mem_cons.mp hparts
    have hfirst := k.replaceAll_append hclosed hseparates
      (parts.flatMap (fun e => e.1 ++ [e.2]) ++ b)
    rw [ih hparts] at hfirst
    simpa using hfirst

/-- The last part opens a string that is never closed. -/
theorem replaceAll_parts_quoted :
    ∃ (k : Converter) (parts : List (Text × Char)) (b : Text),
      parts = [("1px".toList, ' '), ("'2px'".toList, ',')] ∧ b = "3px '4px".toList ∧
      (∀ e ∈ parts, Closed e.1 ∧ separates e.2 = true) ∧
      k.replaceAll "1px '2px',3px '4px".toList = "1em '2px',1em '1em".toList ∧
      k.replaceAll (parts.flatMap (fun e => e.1 ++ [e.2]) ++ b) =
        parts.flatMap (fun e => k.replaceAll e.1 ++ [e.2]) ++ k.replaceAll b := by
  refine ⟨.custom fun _ => "1em".toList, _, _, rfl, rfl, ?hparts, rfl,
    replaceAll_parts _ _ ?hparts _⟩
  have hplain : Closed "1px".toList := .of_opens (List.forall_iff_forall_mem.mp (by decide))
  have hquoted : Closed ("'2px'".toList ++ []) :=
    .skip (@Skipped.single "2px".toList (by decide)) (.of_opens (by simp))
  exact List.forall_mem_cons.mpr ⟨⟨hplain, rfl⟩,
    List.forall_mem_singleton.mpr ⟨hquoted, rfl⟩⟩

end Converter

end PixelScale.Pixel
