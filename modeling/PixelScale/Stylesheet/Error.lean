import PixelScale.Text

/-!
# Syntax errors of stylesheets

Every error names the line it was found on; lines count from one.
-/

namespace PixelScale.Stylesheet

/-- Why a text is not a stylesheet. -/
inductive SyntaxError where
  | unclosedBlock (line : Nat)
  | unclosedComment (line : Nat)
  | unclosedString (line : Nat)
  /-- a closing brace without a block -/
  | unexpectedClose (line : Nat)
  /-- a statement that is neither a rule nor a declaration -/
  | missingColon (line : Nat) (statement : Text)
deriving DecidableEq, Repr

namespace SyntaxError

def line : SyntaxError → Nat
  | unclosedBlock l | unclosedComment l | unclosedString l | unexpectedClose l => l
  | missingColon l _ => l

/-- What is wrong, without the line. -/
def reason : SyntaxError → Text
  | unclosedBlock _ => "unclosed block".toList
  | unclosedComment _ => "unclosed comment".toList
  | unclosedString _ => "unclosed string".toList
  | unexpectedClose _ => "unexpected '\x7d'".toList
  | missingColon _ statement => "expected 'property: value', found '".toList ++ statement ++ ['\'']

def message (e : SyntaxError) : Text :=
  "line ".toList ++ Text.ofNat e.line ++ ": ".toList ++ e.reason

end SyntaxError

end PixelScale.Stylesheet
