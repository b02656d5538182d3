import PixelScale.Regex.Matching
import PixelScale.Regex.Reading

/-!
# Match rules

Denylists of selectors and exclusion lists of files are made of rules. A literal matches the texts
that contain it, a pattern the texts in which its regular expression occurs. On the command line a
pattern is written between slashes; a lone slash and a pair of slashes are literals.

* `MatchRule.matches`, `MatchRule.anyMatches`: whether one rule or a list of them matches a text.
* `MatchRule.ofArgument`: reading the command-line form.
-/

namespace PixelScale

/-- A regular expression with the text it was read from. -/
structure Pattern where
  source : Text
  regex : Regex
  reads : Regex.ofText source = .ok regex

namespace Pattern

theorem eq_of_source_eq {p q : Pattern} (h : p.source = q.source) : p = q := by
  obtain ⟨s, r, hr⟩ := p
  obtain ⟨s', r', hr'⟩ := q
  cases h
  cases hr.symm.trans hr'
  rfl

instance : DecidableEq Pattern := fun p q =>
  decidable_of_iff (p.source = q.source) ⟨eq_of_source_eq, fun h => h ▸ rfl⟩

/-- The pattern that a text writes. -/
def ofSource (source : Text) : Except Regex.Refusal Pattern :=
  match h : Regex.ofText source with
  | .ok regex => .ok ⟨source, regex, h⟩
  | .error e => .error e

end Pattern

/-- A rule that a text matches or does not match. -/
inductive MatchRule where
  | literal (text : Text)
  | pattern (p : Pattern)
deriving DecidableEq

namespace MatchRule

/-- The text that a rule was written with. -/
def source : MatchRule → Text
  | literal text => text
  | pattern p => p.source

/-- `r.matches t` holds if the rule matches the text. -/
def «matches» : MatchRule → Text → Bool
  | literal text, t => Text.occurs text t
  | pattern p, t => p.regex.occurs t

/-- Whether a rule of the list matches the text. -/
def anyMatches (rules : List MatchRule) (t : Text) : Bool := rules.any (·.matches t)

/-- What stands between two slashes, if anything does. -/
def betweenSlashes? : Text → Option Text
  | '/' :: t =>
    match t.getLast? with
    | some '/' => if t.length < 2 then none else some t.dropLast
    | _ => none
  | _ => none

/-- The rule that a command-line argument writes. -/
def ofArgument (argument : Text) : Except Regex.Refusal MatchRule :=
  match betweenSlashes? argument with
  | some source => (Pattern.ofSource source).map pattern
  | none => .ok (literal argument)

end MatchRule

/-- A selector is denied if a rule of the list matches it. Declarations outside a style rule have
no selector and are never denied. -/
def selectorDenied (rules : List MatchRule) (selector : Option Text) : Bool :=
  selector.any (MatchRule.anyMatches rules)

end PixelScale
