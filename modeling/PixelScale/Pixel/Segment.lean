import PixelScale.Text
import PixelScale.Text.Digit

/-!
# Segments of a value

A value is read from the left as a row of segments: quoted strings and `url(...)` groups, whose
contents are kept as they are, numbers followed by `px`, and single characters for all the rest. A
quote or a `url(` that is never closed is an ordinary character.

* `Segment.ofText`: the segments of a text.
* `Segment.joined_ofText`: the segments put together are the text.
-/

namespace PixelScale.Pixel

open Text

/-- A piece of a value. -/
inductive Segment where
  /-- a character with no meaning of its own -/
  | char (c : Char)
  /-- a quoted string or a `url(...)` group, with its delimiters -/
  | kept (t : Text)
  /-- the number of a pixel length, which `px` follows -/
  | pixels (number : Text)
deriving DecidableEq, Repr

namespace Segment

def pxSuffix : Text := ['p', 'x']

/-- The text of a segment. -/
def text : Segment → Text
  | char c => [c]
  | kept t => t
  | pixels number => number ++ pxSuffix

/-- `upTo x t` is the text in front of and including the first `x` in `t`. -/
def upTo? (x : Char) : Text → Option Text
  | [] => none
  | c :: t => if c = x then some [c] else (upTo? x t).map (c :: ·)

/-- A quoted string or a `url(...)` group at the start of a text. -/
def kept? : Text → Option Text
  | '"' :: t => (upTo? '"' t).map ('"' :: ·)
  | '\'' :: t => (upTo? '\'' t).map ('\'' :: ·)
  | 'u' :: 'r' :: 'l' :: '(' :: t => (upTo? ')' t).map (['u', 'r', 'l', '('] ++ ·)
  | _ => none

/-- A number without a sign that `px` follows, at the start of a text: digits, with a point in
front of the last ones if there is one. A point in front of `px` does not belong to a number. -/
def unsigned? (t : Text) : Option Text :=
  let whole := t.takeWhile isDigit
  match t.dropWhile isDigit with
  | '.' :: r =>
    let fraction := r.takeWhile isDigit
    if fraction ≠ [] ∧ pxSuffix <+: r.dropWhile isDigit then some (whole ++ '.' :: fraction)
    else none
  | rest => if whole ≠ [] ∧ pxSuffix <+: rest then some whole else none

/-- The number of a pixel length at the start of a text. -/
def number? : Text → Option Text
  | '+' :: t => (unsigned? t).map ('+' :: ·)
  | '-' :: t => (unsigned? t).map ('-' :: ·)
  | t => unsigned? t

/-- A segment of more than one character at the start of a text. -/
def first? (t : Text) : Option Segment :=
  match kept? t with
  | some k => some (kept k)
  | none => (number? t).map pixels

/-- The segments of a text behind its first `n` characters. -/
def after : Nat → Text → List Segment
  | _, [] => []
  | n + 1, _ :: t => after n t
  | 0, c :: t =>
    match first? (c :: t) with
    | some s => s :: after (s.text.length - 1) t
    | none => char c :: after 0 t

/-- The segments of a text. -/
def ofText (t : Text) : List Segment := after 0 t

/-! ## The segments make up the text -/

theorem upTo?_prefix {x : Char} {t u : Text} (h : upTo? x t = some u) : u <+: t := by
  induction t generalizing u with
  | nil => simp [upTo?] at h
  | cons c t ih =>
    simp only [upTo?] at h
    split at h
    · cases h; exact ⟨t, rfl⟩
    · obtain ⟨v, hv, rfl⟩ := Option.map_eq_some_iff.1 h
      exact List.cons_prefix_cons.2 ⟨rfl, ih hv⟩

theorem kept?_prefix {t u : Text} (h : kept? t = some u) : u <+: t := by
  unfold kept? at h
  split at h
  · obtain ⟨v, hv, rfl⟩ := Option.map_eq_some_iff.1 h
    exact List.cons_prefix_cons.2 ⟨rfl, upTo?_prefix hv⟩
  · obtain ⟨v, hv, rfl⟩ := Option.map_eq_some_iff.1 h
    exact List.cons_prefix_cons.2 ⟨rfl, upTo?_prefix hv⟩
  · obtain ⟨v, hv, rfl⟩ := Option.map_eq_some_iff.1 h
    simpa [List.cons_prefix_cons] using upTo?_prefix hv
  · cases h

theorem unsigned?_prefix {t n : Text} (h : unsigned? t = some n) : n ++ pxSuffix <+: t := by
  have ht : t.takeWhile isDigit ++ t.dropWhile isDigit = t := List.takeWhile_append_dropWhile
  simp only [unsigned?] at h
  split at h
  · rename_i r heq
    have hr : r.takeWhile isDigit ++ r.dropWhile isDigit = r := List.takeWhile_append_dropWhile
    split at h
    · rename_i hf
      obtain ⟨s, hs⟩ := hf.2
      cases h
      refine ⟨s, Eq.trans ?_ ht⟩
      rw [heq, show '.' :: r = '.' :: (r.takeWhile isDigit ++ (pxSuffix ++ s)) by rw [hs, hr]]
      simp
    · cases h
  · split at h
    · rename_i hf
      obtain ⟨s, hs⟩ := hf.2
      cases h
      refine ⟨s, Eq.trans ?_ ht⟩
      rw [← hs]
      simp
    · cases h

theorem number?_prefix {t n : Text} (h : number? t = some n) : n ++ pxSuffix <+: t := by
  unfold number? at h
  split at h
  · obtain ⟨v, hv, rfl⟩ := Option.map_eq_some_iff.1 h
    exact List.cons_prefix_cons.2 ⟨rfl, unsigned?_prefix hv⟩
  · obtain ⟨v, hv, rfl⟩ := Option.map_eq_some_iff.1 h
    exact List.cons_prefix_cons.2 ⟨rfl, unsigned?_prefix hv⟩
  · exact unsigned?_prefix h

theorem first?_prefix {t : Text} {s : Segment} (h : first? t = some s) : s.text <+: t := by
  unfold first? at h
  split at h
  · cases h; exact kept?_prefix (by assumption)
  · obtain ⟨n, hn, rfl⟩ := Option.map_eq_some_iff.1 h
    exact number?_prefix hn

theorem kept?_ne_nil {t u : Text} (h : kept? t = some u) : u ≠ [] := by
  unfold kept? at h
  split at h <;> first | cases h | (obtain ⟨v, -, rfl⟩ := Option.map_eq_some_iff.1 h; simp)

theorem text_ne_nil {t : Text} {s : Segment} (h : first? t = some s) : s.text ≠ [] := by
  unfold first? at h
  split at h
  · cases h; exact kept?_ne_nil (by assumption)
  · obtain ⟨n, -, rfl⟩ := Option.map_eq_some_iff.1 h
    simp [text, pxSuffix]

/-- The text of a row of segments. -/
def joined (ss : List Segment) : Text := ss.flatMap text

theorem joined_after (n : Nat) (t : Text) : joined (after n t) = t.drop n := by
  induction t generalizing n with
  | nil => simp [after, joined]
  | cons c t ih =>
    cases n with
    | succ n => simpa [after] using ih n
    | zero =>
      simp only [after]
      split
      · rename_i s hs
        obtain ⟨u, hu⟩ := first?_prefix hs
        obtain ⟨d, v, hv⟩ := List.exists_cons_of_ne_nil (text_ne_nil hs)
        have ihv := ih (s.text.length - 1)
        rw [hv] at hu ihv
        simp only [List.cons_append, List.cons.injEq] at hu
        obtain ⟨rfl, rfl⟩ := hu
        have hjoin : joined (after v.length (v ++ u)) = u := by simpa using ihv
        simp only [joined, List.flatMap_cons, hv] at hjoin ⊢
        simp [hjoin]
      · simpa [joined, text] using ih 0

theorem joined_ofText (t : Text) : joined (ofText t) = t := joined_after 0 t

end Segment

end PixelScale.Pixel
