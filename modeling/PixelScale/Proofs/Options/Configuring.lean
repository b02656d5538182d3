import PixelScale.Options.Configuration
import PixelScale.Proofs.Json.Reading
import PixelScale.Proofs.Options.Spelling

/-!
# What becomes of the values in a configuration text

Every field of a record that a configuration text writes ends up in the record that is read from it,
under whichever of its names and in whichever format, as long as the record spells no option twice.
A value of the wrong kind is an error; it does not count as missing. There is one exception. TOML
and JSON5 have notations for infinities and NaN, the values in between do not, and such a number
becomes null on the way. So it counts as missing, and the default is in force where a number out of
its range would have been refused. JSON has no such notation, hence no exception.

* `ConfigFormat.Vanishes`: the values that count as missing.
* `Record.Gives`: a record with the value that was written for an option.
* `Record.Follows`: a record with what a written one says, and nothing else.
* `OptionSet.ofText_follows`: what is read from a text follows the records in it.
-/

namespace PixelScale

namespace Json

variable {k : Text} {fs : List (Text × Json)}

/-! ## The last field with a name -/

/-- The value of the last field with a name. -/
def last? (k : Text) (fs : List (Text × Json)) : Option Json := fs.reverse.lookup k

theorem lookup_sortFields : (sortFields fs).lookup k = last? k fs := by
  have hall : ∀ sorted : List (Text × Json),
      (fs.foldl (fun sorted f => insertField f.1 f.2 sorted) sorted).lookup k =
        (last? k fs).or (sorted.lookup k) := by
    induction fs with
    | nil => exact fun sorted => rfl
    | cons f fs ih =>
      intro sorted
      rw [List.foldl_cons, ih, lookup_insertField, last?, last?, List.reverse_cons,
        List.lookup_append, lookup_cons_ite, Option.or_assoc]
      by_cases hk : k = f.1
      · rw [if_pos hk, if_pos hk, Option.some_or]
      · rw [if_neg hk, if_neg hk]
        rfl
  exact (hall []).trans (Option.or_none)

theorem last?_map (g : Json → Json) :
    last? k (fs.map fun p => (p.1, g p.2)) = (last? k fs).map g := by
  rw [last?, last?, ← List.map_reverse]
  induction fs.reverse with
  | nil => rfl
  | cons p ps ih =>
    rw [List.map_cons, lookup_cons_ite, ih, lookup_cons_ite]
    by_cases hk : k = p.1
    · rw [if_pos hk, if_pos hk, Option.map_some]
    · rw [if_neg hk, if_neg hk]

theorem last?_eq_none (h : ∀ p ∈ fs, p.1 ≠ k) : last? k fs = none := by
  refine not_mem_names_iff.mp fun hmem => ?_
  obtain ⟨p, hp, hk⟩ := List.mem_map.mp hmem
  exact h p (List.mem_reverse.mp hp) hk

theorem exists_last? {p : Text × Json} (h : p ∈ fs) : ∃ v, last? p.1 fs = some v := by
  rw [← Option.ne_none_iff_exists', Ne, last?, ← not_mem_names_iff, not_not]
  exact List.mem_map_of_mem (List.mem_reverse.mpr h)

theorem last?_append_cons (fs₁ : List (Text × Json)) {p : Text × Json} {fs₂ : List (Text × Json)}
    (h : ∀ q ∈ fs₂, q.1 ≠ p.1) : last? p.1 (fs₁ ++ p :: fs₂) = some p.2 := by
  have hlater : last? p.1 fs₂ = none := last?_eq_none h
  rw [last?] at hlater ⊢
  rw [List.reverse_append, List.reverse_cons, List.append_assoc, List.lookup_append, hlater,
    Option.none_or]
  exact List.lookup_cons_self

/-! ## Written values -/

/-- A value that writes a double. -/
inductive WritesFloat : Json → Float → Prop where
  | real (x : Float) : WritesFloat (.real x) x
  | whole (n : Int) : WritesFloat (.whole n) (Float.ofInt n)

/-- A value that writes a list, item by item. -/
def WritesList {α : Type} (writes : Json → α → Prop) (w : Json) (as : List α) : Prop :=
  ∃ ws, w = .array ws ∧ List.Forall₂ writes ws as

theorem finiteItems_eq_map (vs : List Json) : finiteItems vs = vs.map finite := by
  induction vs with
  | nil => rfl
  | cons v vs ih => rw [finiteItems, ih, List.map_cons]

theorem finiteFields_eq_map (fs : List (Text × Json)) :
    finiteFields fs = fs.map fun f => (f.1, f.2.finite) := by
  induction fs with
  | nil => rfl
  | cons f fs ih => rw [finiteFields, ih, List.map_cons]

end Json

theorem Pattern.source_of_ofSource {source : Text} {p : Pattern} (h : ofSource source = .ok p) :
    p.source = source := by
  unfold ofSource at h
  split at h
  · cases h
    rfl
  · cases h

/-- A value that writes a match rule: the text of a literal, or an object with a pattern. -/
inductive MatchRule.WrittenAs : Json → MatchRule → Prop where
  | literal (t : Text) : WrittenAs (.string t) (.literal t)
  | pattern {fs : List (Text × Json)} {p : Pattern}
      (h : Json.last? "pattern".toList fs = some (.string p.source)) :
      WrittenAs (.object fs) (.pattern p)

namespace ConfigFormat

open Json

variable {format : ConfigFormat} {v w : Json}

/-! ## Values on their way into a record -/

/-- A value that counts as missing: null, or a number that is not finite if it is written in a
format that has a notation for it. -/
def Vanishes (format : ConfigFormat) (w : Json) : Prop :=
  w = .null ∨ format ≠ .json ∧ ∃ x : Float, w = .real x ∧ x.isFinite = false

/-- A written value in the form in which it is read into a record. -/
def prepared (format : ConfigFormat) (w : Json) : Json := (format.kept w).ordered

/-- What becomes of a written value `w`, by its kind. -/
inductive Prepares (format : ConfigFormat) : Json → Json → Prop where
  | vanish {w : Json} (h : format.Vanishes w) : Prepares format w .null
  | bool (b : Bool) : Prepares format (.bool b) (.bool b)
  | whole (n : Int) : Prepares format (.whole n) (.whole n)
  | real (x : Float) : Prepares format (.real x) (.real x)
  | string (t : Text) : Prepares format (.string t) (.string t)
  | array (ws : List Json) : Prepares format (.array ws) (.array (ws.map format.prepared))
  | object (fs : List (Text × Json)) : Prepares format (.object fs)
      (.object (sortFields (fs.map fun p => (p.1, format.prepared p.2))))

theorem prepared_array (ws : List Json) :
    format.prepared (.array ws) = .array (ws.map format.prepared) := by
  have hjson : prepared .json (.array ws) = .array (ws.map (prepared .json)) := by
    rw [prepared, kept, ordered, orderedItems_eq_map]
    rfl
  have hfinite : (finite (.array ws)).ordered = .array (ws.map fun w => w.finite.ordered) := by
    rw [finite, finiteItems_eq_map, ordered, orderedItems_eq_map, List.map_map]
    rfl
  cases format with
  | json => exact hjson
  | toml | json5 => exact hfinite

theorem prepared_object (fs : List (Text × Json)) :
    format.prepared (.object fs) =
      .object (sortFields (fs.map fun p => (p.1, format.prepared p.2))) := by
  have hjson : prepared .json (.object fs) =
      .object (sortFields (fs.map fun p => (p.1, prepared .json p.2))) := by
    rw [prepared, kept, ordered, orderedFields_eq_map]
    rfl
  have hfinite : (finite (.object fs)).ordered =
      .object (sortFields (fs.map fun p => (p.1, p.2.finite.ordered))) := by
    rw [finite, finiteFields_eq_map, ordered, orderedFields_eq_map, List.map_map]
    rfl
  cases format with
  | json => exact hjson
  | toml | json5 => exact hfinite

theorem prepared_of_vanishes (h : format.Vanishes w) : format.prepared w = .null := by
  rcases h with rfl | ⟨hformat, x, rfl, hx⟩
  · cases format <;> rfl
  · have hnull : (finite (.real x)).ordered = .null := by
      rw [finite, ofFloat, hx]
      rfl
    cases format with
    | json => exact absurd rfl hformat
    | toml | json5 => exact hnull

theorem prepared_real {x : Float} (h : ¬ format.Vanishes (.real x)) :
    format.prepared (.real x) = .real x := by
  cases format with
  | json => rfl
  | toml | json5 =>
    have hx : x.isFinite = true := by
      by_contra hx
      exact h (.inr ⟨by decide, x, rfl, by simpa using hx⟩)
    rw [prepared, kept, finite, Record.ofFloat_of_isFinite hx]
    rfl

theorem prepares (format : ConfigFormat) (w : Json) : format.Prepares w (format.prepared w) := by
  by_cases h : format.Vanishes w
  · rw [prepared_of_vanishes h]
    exact .vanish h
  · cases w with
    | null => exact absurd (.inl rfl) h
    | real x =>
      rw [prepared_real h]
      exact .real x
    | array ws =>
      rw [prepared_array]
      exact .array ws
    | object fs =>
      rw [prepared_object]
      exact .object fs
    | bool b =>
      cases format <;> exact .bool b
    | whole n =>
      cases format <;> exact .whole n
    | string t =>
      cases format <;> exact .string t

section

variable (hv : format.Prepares w v)

include hv

theorem Prepares.string_of_asText {t : Text} (h : v.asText = .ok t) : w = .string t := by
  cases hv <;> cases h
  rfl

theorem Prepares.bool_of_asBool {b : Bool} (h : v.asBool = .ok b) : w = .bool b := by
  cases hv <;> cases h
  rfl

theorem Prepares.writesFloat_of_asFloat {x : Float} (h : v.asFloat = .ok x) : w.WritesFloat x := by
  cases hv <;> cases h
  · exact .whole _
  · exact .real _

theorem Prepares.whole_of_asBounded {n : Nat} (h : v.asBounded = .ok n) : w = .whole n := by
  cases hv with
  | whole i =>
    rw [asBounded] at h
    split at h
    · rename_i hi
      cases h
      rw [Int.toNat_of_nonneg hi.1]
    · cases h
  | _ => cases h

theorem Prepares.array_of_asItems {vs : List Json} (h : v.asItems = .ok vs) :
    ∃ ws, w = .array ws ∧ vs = ws.map format.prepared := by
  cases hv <;> cases h
  exact ⟨_, rfl, rfl⟩

theorem Prepares.writtenAs_of_ofJson {rule : MatchRule} (h : MatchRule.ofJson v = .ok rule) :
    rule.WrittenAs w := by
  cases hv with
  | string t =>
    cases h
    exact .literal t
  | object fs =>
    rw [MatchRule.ofJson, lookup_sortFields, last?_map] at h
    cases hfield : last? "pattern".toList fs with
    | none =>
      rw [hfield] at h
      cases h
    | some u =>
      rw [hfield, Option.map_some] at h
      have hu := prepares format u
      generalize format.prepared u = u' at h hu
      cases hu with
      | string source =>
        dsimp only at h
        cases hp : Pattern.ofSource source with
        | error e =>
          rw [hp] at h
          cases h
        | ok p =>
          rw [hp] at h
          cases h
          rw [← Pattern.source_of_ofSource hp] at hfield
          exact .pattern hfield
      | _ => cases h
  | _ => cases h

theorem Prepares.isEmptyList_iff :
    Renaming.isEmptyList v = true ↔ w = .array [] ∨ w = .string [] := by
  rw [Renaming.isEmptyList_iff]
  cases hv with
  | vanish h => rcases h with rfl | ⟨-, x, rfl, -⟩ <;> simp
  | _ => simp

end

/-- A list is read item by item. -/
theorem writesList_of_listOf {α : Type} {read : Json → Except RecordError α}
    {writes : Json → α → Prop}
    (hread : ∀ {w v a}, format.Prepares w v → read v = .ok a → writes w a)
    (hv : format.Prepares w v) {as : List α} (h : Record.listOf read v = .ok as) :
    w.WritesList writes as := by
  obtain ⟨vs, hitems, hvs⟩ := bind_eq_ok h
  obtain ⟨ws, rfl, rfl⟩ := hv.array_of_asItems (mapError_eq_ok hitems)
  refine ⟨ws, rfl, (List.forall₂_map_left_iff.mp (forall₂_of_mapM hvs)).imp ?_⟩
  intro w a ha
  exact hread (prepares format w) ha

end ConfigFormat

/-- A field with an older name of the property list and nothing in it. -/
def IsEmptyWhiteList (name : Text) (w : Json) : Prop :=
  name ∈ Renaming.whiteLists ∧ (w = .array [] ∨ w = .string [])

namespace Record

/-! ## Options of a record -/

/-- The record has the value that `w` writes for an option. -/
def Gives (r : Record) (w : Json) : Field → Prop
  | .unit => ∃ t ∈ r.unit, w = .string t
  | .rootValue => ∃ x ∈ r.rootValue, w.WritesFloat x
  | .unitPrecision => ∃ n ∈ r.unitPrecision, w = .whole n
  | .selectorBlackList => ∃ rules ∈ r.selectorBlackList, w.WritesList MatchRule.WrittenAs rules
  | .propList => ∃ ts ∈ r.propList, w.WritesList (fun w t => w = .string t) ts
  | .replace => ∃ b ∈ r.replace, w = .bool b
  | .mediaQuery => ∃ b ∈ r.mediaQuery, w = .bool b
  | .minPixelValue => ∃ x ∈ r.minPixelValue, w.WritesFloat x
  | .excludeFiles => ∃ rules ∈ r.excludeFiles, w.WritesList MatchRule.WrittenAs rules

theorem exists_of_unlessNull {α : Type} {read : Json → Except RecordError α} {v : Json}
    {o : Option α} (hv : v ≠ .null) (h : unlessNull read v = .ok o) :
    ∃ a ∈ o, read v = .ok a := by
  rw [unlessNull_of_ne_null hv] at h
  cases ha : read v with
  | error e =>
    rw [ha] at h
    cases h
  | ok a =>
    rw [ha] at h
    cases h
    exact ⟨a, rfl, rfl⟩

variable {r : Record} {f : Field} {v w : Json}

theorem get?_of_reads_null (h : r.Reads .null f) : r.get? f = none := by
  cases f with
  | unitPrecision =>
    have hnone : r.unitPrecision = none := (Except.ok.inj h).symm
    rw [get?, hnone]
    rfl
  | _ => exact Option.map_eq_none_iff.mpr (Except.ok.inj h).symm

theorem gives_of_reads {format : ConfigFormat} (hv : format.Prepares w v) (hnull : v ≠ .null)
    (h : r.Reads v f) : r.Gives w f := by
  cases f with
  | unit =>
    obtain ⟨t, ht, hread⟩ := exists_of_unlessNull hnull h
    exact ⟨t, ht, hv.string_of_asText (mapError_eq_ok hread)⟩
  | rootValue | minPixelValue =>
    obtain ⟨x, hx, hread⟩ := exists_of_unlessNull hnull h
    exact ⟨x, hx, hv.writesFloat_of_asFloat (mapError_eq_ok hread)⟩
  | unitPrecision =>
    obtain ⟨n, hn, hread⟩ := exists_of_unlessNull hnull h
    exact ⟨n, hn, hv.whole_of_asBounded (mapError_eq_ok hread)⟩
  | propList =>
    obtain ⟨ts, hts, hread⟩ := exists_of_unlessNull hnull h
    exact ⟨ts, hts, ConfigFormat.writesList_of_listOf
      (fun hv hread => hv.string_of_asText (mapError_eq_ok hread)) hv hread⟩
  | replace | mediaQuery =>
    obtain ⟨b, hb, hread⟩ := exists_of_unlessNull hnull h
    exact ⟨b, hb, hv.bool_of_asBool (mapError_eq_ok hread)⟩
  | selectorBlackList | excludeFiles =>
    obtain ⟨rules, hrules, hread⟩ := exists_of_unlessNull hnull h
    exact ⟨rules, hrules, ConfigFormat.writesList_of_listOf
      (fun hv hread => hv.writtenAs_of_ofJson hread) hv hread⟩

/-! ## Records -/

/-- No option is spelled twice, neither under one of its names nor under two of them. -/
def SpellsOnce (fs : List (Text × Json)) : Prop :=
  ∀ f : Field, fs.Pairwise fun p q => p.1 ∈ f.spellings → q.1 ∉ f.spellings

/-- What the record says of an option for which the field `name` with the value `w` was written. -/
structure Minds (r : Record) (format : ConfigFormat) (name : Text) (w : Json) (f : Field) :
    Prop where
  spelled : name ∈ f.spellings
  missing : format.Vanishes w → r.get? f = none
  /-- an empty white list stands for all properties -/
  star : IsEmptyWhiteList name w → r.propList = some [['*']]
  given : ¬ format.Vanishes w → ¬ IsEmptyWhiteList name w → r.Gives w f

/-- The record says what the written fields say, and nothing else. -/
structure Follows (r : Record) (format : ConfigFormat) (fs : List (Text × Json)) : Prop where
  minds : ∀ p ∈ fs, ∃ f, r.Minds format p.1 p.2 f
  silent : ∀ f : Field, (∀ p ∈ fs, p.1 ∉ f.spellings) → r.get? f = none

variable {format : ConfigFormat} {name : Text}

theorem eq_propList_of_whiteList (hname : name ∈ Renaming.whiteLists) (hf : name ∈ f.spellings) :
    f = .propList := by
  have hall : ∀ n ∈ Renaming.whiteLists, ∀ f ∈ Field.all, n ∈ f.spellings → f = .propList := by
    decide
  exact hall name hname f f.mem_all hf

theorem minds_of_reads (hf : name ∈ f.spellings)
    (h : r.Reads (Renaming.meant name (format.prepared w)) f) : r.Minds format name w f := by
  have hw := ConfigFormat.prepares format w
  refine ⟨hf, fun hvanish => ?_, fun hempty => ?_, fun hvanish hempty => ?_⟩
  · have hnull : Renaming.meant name .null = .null := if_neg fun hstar => by cases hstar.2
    rw [ConfigFormat.prepared_of_vanishes hvanish, hnull] at h
    exact get?_of_reads_null h
  · rw [Renaming.meant, if_pos ⟨hempty.1, hw.isEmptyList_iff.mpr hempty.2⟩] at h
    cases eq_propList_of_whiteList hempty.1 hf
    exact (Except.ok.inj h).symm
  · rw [Renaming.meant, if_neg fun hstar => hempty ⟨hstar.1, hw.isEmptyList_iff.mp hstar.2⟩] at h
    refine gives_of_reads hw (fun hnull => ?_) h
    rw [hnull] at hw
    cases hw
    contradiction

/-- In a record that spells its options once, no other field spells the option of a field. -/
theorem SpellsOnce.exists_split {fs : List (Text × Json)} {p : Text × Json} (h : SpellsOnce fs)
    (hp : p ∈ fs) (hf : p.1 ∈ f.spellings) :
    ∃ fs₁ fs₂, fs = fs₁ ++ p :: fs₂ ∧ ∀ q ∈ fs₁ ++ fs₂, q.1 ∉ f.spellings := by
  obtain ⟨fs₁, fs₂, rfl⟩ := List.append_of_mem hp
  obtain ⟨-, hpair, hcross⟩ := List.pairwise_append.mp (h f)
  refine ⟨fs₁, fs₂, rfl, fun q hq hmem => ?_⟩
  rcases List.mem_append.mp hq with hq | hq
  · exact hcross q hq p List.mem_cons_self hmem hf
  · exact (List.pairwise_cons.mp hpair).1 q hq hf hmem

/-- A record that is read follows the fields that were written for it. -/
theorem follows_of_recordOfJson (h : OptionSet.recordOfJson (format.prepared w) = .ok r) :
    ∃ fs, w = .object fs ∧ (SpellsOnce fs → r.Follows format fs) := by
  have hw := ConfigFormat.prepares format w
  generalize format.prepared w = v at h hw
  cases hw with
  | object fs =>
    obtain ⟨hspelled, hsilent⟩ := reads_of_ofFields (mapError_eq_ok h)
    simp only [Json.lookup_sortFields, Json.last?_map] at hspelled hsilent
    refine ⟨fs, rfl, fun honce => ⟨fun p hp => ?_, fun f hf => ?_⟩⟩
    · obtain ⟨u, hu⟩ := Json.exists_last? hp
      obtain ⟨f, hf, hreads⟩ := hspelled p.1 _ (congrArg (Option.map format.prepared) hu)
      obtain ⟨fs₁, fs₂, rfl, halone⟩ := honce.exists_split hp hf
      have hlast : Json.last? p.1 (fs₁ ++ p :: fs₂) = some p.2 := by
        refine Json.last?_append_cons fs₁ fun q hq heq => ?_
        exact halone q (List.mem_append_right _ hq) (heq ▸ hf)
      cases hu.symm.trans hlast
      refine ⟨f, minds_of_reads hf (hreads fun k hk hne => ?_)⟩
      rw [Json.last?_eq_none, Option.map_none]
      rintro q hq rfl
      rcases List.mem_append.mp hq with hq | hq
      · exact halone q (List.mem_append_left _ hq) hk
      · rcases List.mem_cons.mp hq with rfl | hq
        · exact hne rfl
        · exact halone q (List.mem_append_right _ hq) hk
    · refine hsilent f fun k hk => ?_
      rw [Json.last?_eq_none fun p hp heq => hf p hp (heq ▸ hk), Option.map_none]
  | _ => cases h

end Record

namespace OptionSet

/-- The values that are written for the records of a set. -/
def written : Json → List Json
  | .array ws => ws
  | .object fs =>
    match Json.last? "options".toList fs with
    | some (.array ws) => ws
    | _ => [.object fs]
  | w => [w]

theorem items_prepared {format : ConfigFormat} {w : Json} {us : List Json}
    (h : items (format.prepared w) = .ok us) : us = (written w).map format.prepared := by
  have hw := ConfigFormat.prepares format w
  generalize hv : format.prepared w = v at h hw
  cases hw with
  | array ws =>
    cases h
    rfl
  | object fs =>
    rw [items, Json.lookup_sortFields, Json.last?_map] at h
    rw [written]
    cases hfield : Json.last? "options".toList fs with
    | none =>
      rw [hfield] at h
      cases h
      rw [List.map_singleton, hv]
    | some o =>
      rw [hfield, Option.map_some] at h
      have ho := ConfigFormat.prepares format o
      generalize format.prepared o = o' at h ho
      cases ho with
      | array ws =>
        dsimp only at h
        split at h
        · cases h
          rfl
        · cases h
      | vanish hvanish =>
        cases h
        rcases hvanish with rfl | ⟨-, x, rfl, -⟩
        · rw [List.map_singleton, hv]
        · rw [List.map_singleton, hv]
      | _ =>
        cases h
        rw [List.map_singleton, hv]
  | vanish hvanish =>
    cases h
    rcases hvanish with rfl | ⟨-, x, rfl, -⟩
    · exact (congrArg (fun u => [u]) hv).symm
    · exact (congrArg (fun u => [u]) hv).symm
  | _ =>
    cases h
    exact (congrArg (fun u => [u]) hv).symm

/-- What is read from a configuration text follows the records in it: every field that a record
writes has set its option to the value that was given, unless this value is null or is a number that
is not finite, and no other option is set. -/
theorem ofText_follows {format : ConfigFormat} {t : Text} {s : OptionSet}
    (h : ofText format t = .ok s) :
    ∃ v, format.read? t = some v ∧ List.Forall₂ (fun w r => ∃ fs, w = .object fs ∧
      (Record.SpellsOnce fs → r.Follows format fs)) (written v) s.records := by
  rw [ofText, ConfigFormat.parse?] at h
  cases hread : format.read? t with
  | none =>
    rw [hread] at h
    cases h
  | some v =>
    rw [hread, Option.map_some] at h
    obtain ⟨us, hitems, hrest⟩ := bind_eq_ok h
    obtain ⟨rs, hrecords, hvalid⟩ := bind_eq_ok hrest
    obtain rfl : ⟨rs⟩ = s := by
      rw [validated] at hvalid
      split at hvalid
      · exact Except.ok.inj hvalid
      · cases hvalid
    refine ⟨v, rfl, ?_⟩
    rw [items_prepared hitems] at hrecords
    refine (List.forall₂_map_left_iff.mp (forall₂_of_mapM hrecords)).imp fun w r hr => ?_
    exact Record.follows_of_recordOfJson hr

/-- A record with a value, with null, and with an empty white list. -/
theorem ofText_follows_replace :
    ∃ (t : Text) (r : Record) (fs : List (Text × Json)),
      fs = [("replace".toList, .bool false), ("root_value".toList, .null),
        ("propWhiteList".toList, .array [])] ∧
      ConfigFormat.read? .json t = some (.object fs) ∧ ofText .json t = .ok ⟨[r]⟩ ∧
      r.Follows .json fs := by
  obtain ⟨fs, hfs⟩ : ∃ fs : List (Text × Json), fs = [("replace".toList, .bool false),
      ("root_value".toList, .null), ("propWhiteList".toList, .array [])] := ⟨_, rfl⟩
  have hreadable : (Json.object fs).Readable (Json.maxDepth - 1) := by
    subst hfs
    refine .object ?_
    simp only [List.forall_mem_cons]
    exact ⟨.bool _, .null, .array (by simp), by simp⟩
  have hread := Json.read?_print hreadable
  have hset : ofText .json (Json.object fs).print =
      .ok ⟨[{ replace := some false, propList := some [['*']] }]⟩ := by
    rw [ofText, ConfigFormat.parse?, ConfigFormat.read?, hread, hfs]
    rfl
  obtain ⟨v, hv, hrecords⟩ := ofText_follows hset
  cases hread.symm.trans hv
  have hwritten : written (.object fs) = [.object fs] := by
    rw [hfs]
    rfl
  rw [hwritten] at hrecords
  obtain ⟨gs, hgs, hfollows⟩ := (List.forall₂_cons.mp hrecords).1
  cases hgs
  have honce : Record.SpellsOnce fs := by
    subst hfs
    intro f
    cases f <;> decide
  exact ⟨_, _, fs, hfs, hread, hset, hfollows honce⟩

end OptionSet

end PixelScale
