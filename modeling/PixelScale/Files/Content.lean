import PixelScale.Text

/-!
# Contents of files

A file holds a text or bytes that are not the UTF-8 form of any text.

* `Content.ofBytes`: the content that bytes are.
* `Content.append`: a content with a text behind it.
-/

namespace PixelScale

inductive Content where
  | text (t : Text)
  | binary (bytes : List UInt8)
deriving DecidableEq, Repr

namespace Content

/-- The UTF-8 form of a text. -/
def encode (t : Text) : List UInt8 := (String.ofList t).toUTF8.toList

def ofBytes (bytes : List UInt8) : Content :=
  match String.fromUTF8? ⟨bytes.toArray⟩ with
  | some s => text s.toList
  | none => binary bytes

def bytes : Content → List UInt8
  | text t => encode t
  | binary bytes => bytes

/-- A content with a text behind it. Bytes that are no text do not become one that way. -/
def append : Content → Text → Content
  | text s, t => text (s ++ t)
  | binary bytes, t => binary (bytes ++ encode t)

end Content

end PixelScale
