/-!
# Text

Texts are lists of characters. Offsets into a text count the bytes of its UTF-8 form, so that
they agree with what editors and file tools call an offset; a slice whose ends do not fall
between two characters does not exist.

* `bytes`, `dropBytes?`, `takeBytes?`, `slice?`: sizes and cuts by byte offset.
* `trimLeft`, `trimRight`, `trim`: removing a class of characters at the ends.
* `splitFirst`, `splitLast`: the text around the first or last occurrence of a character.
* `occurs`: one text inside another.
* `before`: the order of texts by code point, which is also the order of their UTF-8 bytes.
-/

namespace PixelScale

/-- A text is the list of its characters. -/
abbrev Text := List Char

namespace Text

/-- The size of a text in UTF-8 bytes. -/
def bytes : Text → Nat
  | [] => 0
  | c :: t => c.utf8Size + bytes t

@[simp] theorem bytes_nil : bytes [] = 0 := rfl

@[simp] theorem bytes_cons (c : Char) (t : Text) : bytes (c :: t) = c.utf8Size + bytes t := rfl

@[simp] theorem bytes_append (s t : Text) : bytes (s ++ t) = bytes s + bytes t := by
  induction s with
  | nil => simp
  | cons c s ih => simp [ih, Nat.add_assoc]

/-! ## Cuts by byte offset -/

/-- The text behind the first `n` bytes, if these end between two characters. -/
def dropBytes? : Nat → Text → Option Text
  | 0, t => some t
  | _ + 1, [] => none
  | n + 1, c :: t => if c.utf8Size ≤ n + 1 then dropBytes? (n + 1 - c.utf8Size) t else none

/-- The first `n` bytes of a text, if these end between two characters. -/
def takeBytes? : Nat → Text → Option Text
  | 0, _ => some []
  | _ + 1, [] => none
  | n + 1, c :: t =>
    if c.utf8Size ≤ n + 1 then (takeBytes? (n + 1 - c.utf8Size) t).map (c :: ·) else none

/-- The bytes from `start` up to `stop`. -/
def slice? (t : Text) (start stop : Nat) : Option Text :=
  if start ≤ stop then (dropBytes? start t).bind (takeBytes? (stop - start)) else none

theorem dropBytes?_append (s t : Text) : dropBytes? (bytes s) (s ++ t) = some t := by
  induction s with
  | nil => cases t <;> simp [dropBytes?]
  | cons c s ih =>
    have hc := c.utf8Size_pos
    obtain ⟨n, hn⟩ : ∃ n, bytes (c :: s) = n + 1 := ⟨c.utf8Size + bytes s - 1, by simp; omega⟩
    simp only [List.cons_append, hn, dropBytes?]
    simp only [bytes_cons] at hn
    rw [if_pos (by omega), show n + 1 - c.utf8Size = bytes s by omega, ih]

theorem takeBytes?_append (s t : Text) : takeBytes? (bytes s) (s ++ t) = some s := by
  induction s with
  | nil => cases t <;> simp [takeBytes?]
  | cons c s ih =>
    have hc := c.utf8Size_pos
    obtain ⟨n, hn⟩ : ∃ n, bytes (c :: s) = n + 1 := ⟨c.utf8Size + bytes s - 1, by simp; omega⟩
    simp only [List.cons_append, hn, takeBytes?]
    simp only [bytes_cons] at hn
    rw [if_pos (by omega), show n + 1 - c.utf8Size = bytes s by omega, ih]
    rfl

/-- A slice between two cuts is the text between them. -/
theorem slice?_append (r s t : Text) :
    slice? (r ++ s ++ t) (bytes r) (bytes r + bytes s) = some s := by
  simp [slice?, dropBytes?_append, takeBytes?_append]

/-! ## Ends -/

/-- A text without the characters of a class at its start. -/
def trimLeft (p : Char → Bool) (t : Text) : Text := t.dropWhile p

/-- A text without the characters of a class at its end. -/
def trimRight (p : Char → Bool) : Text → Text
  | [] => []
  | c :: t =>
    match trimRight p t with
    | [] => if p c then [] else [c]
    | d :: r => c :: d :: r

/-- A text without the characters of a class at its ends. -/
def trim (p : Char → Bool) (t : Text) : Text := trimRight p (trimLeft p t)

/-! ## Splitting and searching -/

/-- The texts in front of and behind the first occurrence of a character. -/
def splitFirst (x : Char) : Text → Option (Text × Text)
  | [] => none
  | c :: t => if c = x then some ([], t) else (splitFirst x t).map fun (a, b) => (c :: a, b)

/-- The texts in front of and behind the last occurrence of a character. -/
def splitLast (x : Char) : Text → Option (Text × Text)
  | [] => none
  | c :: t =>
    match splitLast x t with
    | some (a, b) => some (c :: a, b)
    | none => if c = x then some ([], t) else none

/-- The fields of a text between the occurrences of a character; at least one field. -/
def fields (x : Char) : Text → List Text
  | [] => [[]]
  | c :: t =>
    if c = x then [] :: fields x t
    else
      match fields x t with
      | [] => [[c]]
      | f :: fs => (c :: f) :: fs

/-- `occurs s t` holds if `t` contains `s`. -/
def occurs (s : Text) : Text → Bool
  | [] => s.isEmpty
  | c :: t => s.isPrefixOf (c :: t) || occurs s t

theorem occurs_iff {s t : Text} : occurs s t = true ↔ s <:+: t := by
  induction t with
  | nil => simp [occurs]
  | cons c t ih => simp [occurs, ih, List.infix_cons_iff]

/-- `before s t` holds if `s` comes before `t`, comparing code points from the left. -/
def before : Text → Text → Bool
  | [], [] => false
  | [], _ :: _ => true
  | _ :: _, [] => false
  | c :: s, d :: t => c.toNat < d.toNat || (c == d && before s t)

/-- The lower-case form of an ASCII letter, any other character unchanged. -/
def lowerAscii (t : Text) : Text := t.map Char.toLower

/-- The decimal digits of a natural number. -/
def ofNat (n : Nat) : Text := Nat.toDigits 10 n

/-- A natural number in decimal, with zeros in front up to the given width. -/
def padded (width n : Nat) : Text :=
  let digits := ofNat n
  List.replicate (width - digits.length) '0' ++ digits

/-- Texts one after another with a separator between neighbours. -/
def join (separator : Text) : List Text → Text
  | [] => []
  | [t] => t
  | t :: ts => t ++ separator ++ join separator ts

end Text

end PixelScale
