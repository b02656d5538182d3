import PixelScale.Regex.Parser
import PixelScale.Regex.Size

/-!
# Accepted regular expressions

A text is accepted as a regular expression if it writes one that does not take too much space.

* `Regex.ofText`: the regular expression that a text writes, or why there is none.
* `Regex.Refusal.message`: what is said about a refused text.
-/

namespace PixelScale.Regex

open Text

/-- Why a text is not accepted as a regular expression. -/
inductive Refusal where
  | malformed
  | tooLarge
deriving Repr, DecidableEq

/-- What is said about a refused text. It is left to the reader to find the place of a mistake. -/
def Refusal.message : Refusal → Text
  | malformed => "regex parse error:".toList
  | tooLarge =>
    "Compiled regex exceeds size limit of ".toList ++ Text.ofNat sizeLimit ++ " bytes.".toList

/-- The regular expression that a text writes. -/
def ofText (source : Text) : Except Refusal Regex :=
  match parse? source with
  | some r => if r.fits then .ok r else .error .tooLarge
  | none => .error .malformed

end PixelScale.Regex
