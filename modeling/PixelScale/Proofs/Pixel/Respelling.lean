import PixelScale.Proofs.Pixel.Conversion

/-!
# What a conversion can touch

A conversion knows nothing of comments: it reads a value as a row of segments, and a pixel length
counts wherever it stands outside of strings and `url(...)` groups. But a length consists of digits,
signs, points and the letters of `px`, and so it never reaches over the slash and the asterisk at
either end of a comment. A converted text therefore falls into the same parts as the text did, each
with its own lengths converted.

* `Respelled`: a text with some of its pixel lengths converted.
* `Converter.respelled_value`: the conversion of a value.
* `Respelled.split`: the parts of a converted text.
-/

namespace PixelScale.Pixel

open Text

/-- The second text is the first one with pixel lengths converted. -/
inductive Respelled (k : Converter) : Text → Text → Prop
  | nil : Respelled k [] []
  | char {c : Char} {t u : Text} : Respelled k t u → Respelled k (c :: t) (c :: u)
  | pixels {n t u : Text} :
      Segment.IsNumber n → Respelled k t u →
      Respelled k ((Segment.pixels n).text ++ t) (k.literal n ++ u)

namespace Respelled

variable {k : Converter} {t u v w : Text}

theorem refl (k : Converter) (t : Text) : Respelled k t t := by
  induction t with
  | nil => exact .nil
  | cons c t ih => exact .char ih

theorem append (h : Respelled k t u) (h' : Respelled k v w) : Respelled k (t ++ v) (u ++ w) := by
  induction h with
  | nil => exact h'
  | char _ ih => exact .char ih
  | pixels hn _ ih =>
    rw [List.append_assoc, List.append_assoc]
    exact .pixels hn ih

/-- A text without `px` stays as it is. -/
theorem eq_self (h : Respelled k t u) (ht : occurs Segment.pxSuffix t = false) : u = t := by
  rw [← Bool.not_eq_true, occurs_iff] at ht
  induction h with
  | nil => rfl
  | char _ ih => rw [ih fun hpx => ht (hpx.trans (List.suffix_cons _ _).isInfix)]
  | @pixels n t u _ _ _ =>
    refine absurd ?_ ht
    exact ⟨n, t, by simp [Segment.text]⟩

/-! ## Parts of a converted text -/

/-- The characters of pixel lengths. -/
def inLength (c : Char) : Bool := Numeral.isPart c || c == 'p' || c == 'x'

theorem inLength_of_mem {n : Text} (hn : Segment.IsNumber n) {c : Char}
    (hc : c ∈ (Segment.pixels n).text) : inLength c = true := by
  rcases List.mem_append.mp hc with hc | hc
  · simp [inLength, hn.2 c hc]
  · rcases List.mem_pair.mp hc with rfl | rfl <;> rfl

/-- Whether no pixel length reaches from one text into the next one. -/
def Apart (s t : Text) : Prop :=
  (∀ c ∈ s.getLast?, inLength c = false) ∨ ∀ c ∈ t.head?, inLength c = false

/-- A converted text falls into the parts that the text had, wherever no length reaches over the
border. -/
theorem split {a b : Text} (h : Respelled k (a ++ b) w) (hapart : Apart a b) :
    ∃ v u, w = v ++ u ∧ Respelled k a v ∧ Respelled k b u := by
  generalize ht : a ++ b = t at h
  induction h generalizing a with
  | nil =>
    obtain ⟨rfl, rfl⟩ := List.append_eq_nil_iff.mp ht
    exact ⟨[], [], rfl, .nil, .nil⟩
  | @char c t u hrest ih =>
    rcases List.append_eq_cons_iff.mp ht with ⟨rfl, rfl⟩ | ⟨a', rfl, rfl⟩
    · exact ⟨[], _, rfl, .nil, .char hrest⟩
    rcases eq_or_ne a' [] with rfl | hne
    · exact ⟨[c], u, rfl, .char .nil, hrest⟩
    · have hapart' : Apart a' b := by
        rcases hapart with h | h
        · exact .inl fun d hd => h d (by rwa [List.getLast?_cons_of_ne_nil hne])
        · exact .inr h
      obtain ⟨v, u, rfl, hv, hu⟩ := ih hapart' rfl
      exact ⟨c :: v, u, rfl, .char hv, hu⟩
  | @pixels n t u hn hrest ih =>
    rcases List.append_eq_append_iff.mp ht with ⟨m, hlength, rfl⟩ | ⟨m, rfl, rfl⟩
    · -- the length reaches to the border at least
      rcases eq_or_ne m [] with rfl | hm
      · rw [List.append_nil] at hlength
        subst hlength
        refine ⟨k.literal n, u, rfl, ?_, hrest⟩
        simpa using Respelled.pixels (k := k) hn .nil
      rcases eq_or_ne a [] with rfl | ha
      · refine ⟨[], _, rfl, .nil, ?_⟩
        rw [List.nil_append] at hlength
        rw [← hlength]
        exact .pixels hn hrest
      · exfalso
        obtain ⟨d, m, rfl⟩ := List.exists_cons_of_ne_nil hm
        have hlast : inLength (a.getLast ha) = true := by
          refine inLength_of_mem hn ?_
          rw [hlength]
          exact List.mem_append_left _ (List.getLast_mem ha)
        have hhead : inLength d = true := by
          refine inLength_of_mem hn ?_
          rw [hlength]
          exact List.mem_append_right _ List.mem_cons_self
        rcases hapart with h | h
        · rw [h _ (List.getLast?_eq_some_getLast ha)] at hlast
          cases hlast
        · rw [h d rfl] at hhead
          cases hhead
    · have hapart' : Apart m b := by
        rcases eq_or_ne m [] with rfl | hne
        · exact .inl fun c hc => by cases hc
        · rcases hapart with h | h
          · exact .inl fun c hc => h c (by rwa [List.getLast?_append_of_ne_nil _ hne])
          · exact .inr h
      obtain ⟨v, u, rfl, hv, hu⟩ := ih hapart' rfl
      exact ⟨k.literal n ++ v, u, by rw [List.append_assoc], .pixels hn hv, hu⟩

end Respelled

/-! ## Conversions -/

namespace Converter

variable (k : Converter)

theorem exists_segments_cons (last : Option Char) {s : Segment} (ss : List Segment)
    (hs : ∀ n, s = .pixels n → Segment.IsNumber n) :
    ∃ w, k.segments last (s :: ss) = w ++ k.segments s.text.getLast? ss ∧ Respelled k s.text w := by
  cases s with
  | char c => exact ⟨_, rfl, .refl k _⟩
  | kept t => exact ⟨_, rfl, .refl k _⟩
  | pixels n =>
    refine ⟨_, rfl, ?_⟩
    dsimp only
    split
    · exact .refl k _
    · have := Respelled.pixels (k := k) (hs n rfl) .nil
      rwa [List.append_nil, List.append_nil] at this

theorem respelled_segments (last : Option Char) {ss : List Segment}
    (hss : ∀ n, .pixels n ∈ ss → Segment.IsNumber n) :
    Respelled k (Segment.joined ss) (k.segments last ss) := by
  induction ss generalizing last with
  | nil => exact .nil
  | cons s ss ih =>
    obtain ⟨w, hw, hs⟩ := k.exists_segments_cons last ss fun n hn =>
      hss n (hn ▸ List.mem_cons_self)
    rw [hw]
    exact hs.append (ih _ fun n hn => hss n (List.mem_cons_of_mem _ hn))

theorem respelled_replaceAll (t : Text) : Respelled k t (k.replaceAll t) := by
  have hnumbers : ∀ n, .pixels n ∈ Segment.ofText t → Segment.IsNumber n :=
    fun n hn => Segment.isNumber_of_mem_after hn
  have := k.respelled_segments none hnumbers
  rwa [Segment.joined_ofText] at this

/-- What a value becomes is the value with pixel lengths converted. -/
theorem respelled_value (t : Text) : Respelled k t (k.value t) := by
  unfold value
  split
  · exact k.respelled_replaceAll t
  · exact .refl k t

end Converter

end PixelScale.Pixel
