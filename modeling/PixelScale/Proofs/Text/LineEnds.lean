import PixelScale.Proofs.Text.Trimming

/-!
# Line ends

A line ends in a line feed, or in a carriage return and a line feed. Whether a line feed is bare, so
that no carriage return belongs to it, is told by the character in front of it alone. So bare line
feeds are counted from left to right with one bit of memory, and a text counts as much as its parts
do, each of them behind the one in front of it.

* `Crlf`: every line feed stands behind a carriage return.
* `bareFeeds`: the number of line feeds that do not.
* `Gains`: a text with bare line feeds in place of one that has none.
-/

namespace PixelScale.Text

/-- Every line feed stands right behind a carriage return. -/
def Crlf (t : Text) : Prop := ∀ a b, t = a ++ '\n' :: b → a.getLast? = some '\r'

/-- Whether the last character is a carriage return, where `r` tells this of what stands in front
of the text. -/
def endsReturn (r : Bool) : Text → Bool
  | [] => r
  | c :: t => endsReturn (c == '\r') t

/-- The number of line feeds that do not stand right behind a carriage return. -/
def bareFeeds (r : Bool) : Text → Nat
  | [] => 0
  | c :: t => (if c = '\n' ∧ r = false then 1 else 0) + bareFeeds (c == '\r') t

variable {r : Bool} {s t u v : Text}

theorem endsReturn_append (r : Bool) (s t : Text) :
    endsReturn r (s ++ t) = endsReturn (endsReturn r s) t := by
  induction s generalizing r with
  | nil => rfl
  | cons c s ih => exact ih _

theorem bareFeeds_append (r : Bool) (s t : Text) :
    bareFeeds r (s ++ t) = bareFeeds r s + bareFeeds (endsReturn r s) t := by
  induction s generalizing r with
  | nil => rw [List.nil_append, bareFeeds, Nat.zero_add, endsReturn]
  | cons c s ih => rw [List.cons_append, bareFeeds, ih, bareFeeds, endsReturn, Nat.add_assoc]

theorem endsReturn_eq (r : Bool) (t : Text) :
    endsReturn r t = (t.getLast?.map (· == '\r')).getD r := by
  induction t generalizing r with
  | nil => rfl
  | cons c t ih =>
    rw [endsReturn, ih, List.getLast?_cons]
    cases t.getLast? <;> rfl

theorem bareFeeds_eq_zero_iff :
    bareFeeds r t = 0 ↔ ∀ a b, t = a ++ '\n' :: b → endsReturn r a = true := by
  induction t generalizing r with
  | nil => simp [bareFeeds]
  | cons c t ih =>
    rw [bareFeeds, Nat.add_eq_zero_iff, ih]
    constructor
    · rintro ⟨hfirst, hrest⟩ a b heq
      rcases List.cons_eq_append_iff.mp heq with ⟨rfl, hc⟩ | ⟨a', rfl, ht⟩
      · obtain ⟨rfl, -⟩ := List.cons_eq_cons.mp hc
        by_contra hr
        simp [show r = false by simpa [endsReturn] using hr] at hfirst
      · exact hrest a' b ht
    · intro h
      refine ⟨if_neg ?_, fun a b ht => h (c :: a) b (by rw [ht, List.cons_append])⟩
      rintro ⟨rfl, rfl⟩
      exact absurd (h [] t rfl) (by decide)

theorem crlf_iff : Crlf t ↔ bareFeeds false t = 0 := by
  rw [bareFeeds_eq_zero_iff]
  refine forall₃_congr fun a b _ => ?_
  rw [endsReturn_eq]
  cases a.getLast? <;> simp

instance (t : Text) : Decidable (Crlf t) := decidable_of_iff _ crlf_iff.symm

theorem bareFeeds_of_not_mem (ht : '\n' ∉ t) : bareFeeds r t = 0 := by
  refine bareFeeds_eq_zero_iff.mpr fun a b heq => absurd ?_ ht
  simp [heq]

/-- What stands in front of a text does not count if this begins with no white space. -/
theorem SharpLeft.bareFeeds_eq (ht : SharpLeft t) (r r' : Bool) :
    bareFeeds r t = bareFeeds r' t := by
  cases t with
  | nil => rfl
  | cons c t =>
    have hc : c ≠ '\n' := by
      rintro rfl
      exact absurd (sharpLeft_cons.mp ht) (by decide)
    simp [bareFeeds, hc]

theorem SharpRight.endsReturn_eq_false (ht : SharpRight t) (hne : t ≠ []) (r : Bool) :
    endsReturn r t = false := by
  have hlast := List.getLast?_eq_some_getLast hne
  have hc : t.getLast hne ≠ '\r' := by
    intro hc
    exact absurd (ht _ (hlast.trans (congrArg some hc))) (by decide)
  rw [endsReturn_eq, hlast]
  simpa using hc

/-! ## Texts with more line feeds -/

/-- Where the first text has no bare line feed, the second one has `n` of them in its place, and a
carriage return is still there for a line feed behind it. -/
def Gains (n : Nat) (s t : Text) : Prop :=
  ∀ r r' : Bool, (r = true → r' = true) → bareFeeds r s = 0 →
    bareFeeds r' t = n ∧ (endsReturn r s = true → endsReturn r' t = true)

namespace Gains

variable {n m : Nat}

theorem refl (t : Text) : Gains 0 t t := by
  intro r r' hr ht
  cases t with
  | nil => exact ⟨rfl, hr⟩
  | cons c t =>
    refine ⟨?_, id⟩
    obtain ⟨hfirst, hrest⟩ := Nat.add_eq_zero_iff.mp ht
    rw [bareFeeds, hrest, if_neg]
    rintro ⟨rfl, rfl⟩
    cases r with
    | false => simp at hfirst
    | true => cases hr rfl

theorem append (h : Gains n s t) (h' : Gains m u v) : Gains (n + m) (s ++ u) (t ++ v) := by
  intro r r' hr hbare
  rw [bareFeeds_append, Nat.add_eq_zero_iff] at hbare
  obtain ⟨hfirst, hends⟩ := h r r' hr hbare.1
  obtain ⟨hrest, hends'⟩ := h' _ _ hends hbare.2
  rw [bareFeeds_append, hfirst, hrest, endsReturn_append, endsReturn_append]
  exact ⟨rfl, hends'⟩

/-- The first text may be taken to have no bare line feed. -/
theorem of_bareFeeds_eq_zero (h : ∀ r, bareFeeds r s = 0 → Gains n s t) : Gains n s t :=
  fun r r' hr hs => h r hs r r' hr hs

/-- Nothing behind a text depends on it if it does not end in a carriage return. -/
theorem of_endsReturn_eq_false (hs : ∀ r, endsReturn r s = false) (ht : ∀ r, bareFeeds r t = n) :
    Gains n s t :=
  fun r r' _ _ => ⟨ht r', fun hr => absurd hr (by simp [hs r])⟩

end Gains

end PixelScale.Text
