import Mathlib.Data.List.Nodup
import PixelScale.OptionSet
import PixelScale.Proofs.Lists
import PixelScale.Proofs.Options.Renaming

/-!
# Written option records

A record is written with one field for every option that it mentions, under names that the reader
knows and that are nobody's older names. So renaming leaves the fields alone, no field is used
twice, and every field sets the option that it was written for to the value that this option had.
None of this depends on the order of the fields: a record is read back from its fields as they are
written and from the same fields in the order of a JSON object. What a hook does is not written, a
double that JSON has no notation for is written as null, and a precision is read only if it fits
into 32 bits.

* `Record.Writable`: a record that is not more than what is written of it.
* `Record.ofFields_of_perm`: a record is read back from its fields in any order.
* `OptionSet.recordOfJson_toJson`: a record is read back from its JSON value.
* `OptionSet.ofJson_written`: sets, and options in force, are read back too.
-/

namespace PixelScale

/-! ## Fields in order -/

namespace Json

theorem insertField_perm {name : Text} {fs : List (Text × Json)} (v : Json)
    (h : name ∉ fs.map Prod.fst) : (insertField name v fs).Perm ((name, v) :: fs) := by
  induction fs with
  | nil => exact .refl _
  | cons f fs ih =>
    obtain ⟨n, w⟩ := f
    obtain ⟨hne, hrest⟩ := List.ne_and_not_mem_of_not_mem_cons h
    rw [insertField, if_neg hne]
    split
    · exact .refl _
    · exact ((ih hrest).cons _).trans (.swap _ _ _)

theorem sortFields_perm {fs : List (Text × Json)} (h : (fs.map Prod.fst).Nodup) :
    (sortFields fs).Perm fs := by
  have hall : ∀ sorted : List (Text × Json), ((sorted ++ fs).map Prod.fst).Nodup →
      (fs.foldl (fun sorted f => insertField f.1 f.2 sorted) sorted).Perm (sorted ++ fs) := by
    induction fs with
    | nil => exact fun sorted _ => by simp
    | cons f fs ih =>
      intro sorted hnodup
      have hmiddle : ((f :: (sorted ++ fs)).map Prod.fst).Nodup :=
        (List.perm_middle.map Prod.fst).nodup_iff.mp hnodup
      have hfresh : f.1 ∉ sorted.map Prod.fst := by
        intro hmem
        refine (List.nodup_cons.mp hmiddle).1 ?_
        rw [List.map_append]
        exact List.mem_append_left _ hmem
      have hinsert := insertField_perm f.2 hfresh
      have hnext : ((insertField f.1 f.2 sorted ++ fs).map Prod.fst).Nodup :=
        ((hinsert.append_right fs).map Prod.fst).nodup_iff.mpr hmiddle
      exact (ih (List.nodup_cons.mp h).2 _ hnext).trans
        ((hinsert.append_right fs).trans List.perm_middle.symm)
  exact hall [] h

theorem orderedItems_eq_map (vs : List Json) : orderedItems vs = vs.map ordered := by
  induction vs with
  | nil => rfl
  | cons v vs ih => rw [orderedItems, ih, List.map_cons]

theorem orderedFields_eq_map (fs : List (Text × Json)) :
    orderedFields fs = fs.map fun f => (f.1, f.2.ordered) := by
  induction fs with
  | nil => rfl
  | cons f fs ih => rw [orderedFields, ih, List.map_cons]

end Json

namespace Field

theorem mem_all (f : Field) : f ∈ all := by cases f <;> decide

theorem ofName?_name (f : Field) : ofName? f.name = some f := by cases f <;> decide

theorem name_inj {f g : Field} : f.name = g.name ↔ f = g := by
  refine ⟨fun h => ?_, fun h => h ▸ rfl⟩
  have hf := ofName?_name f
  rw [h, ofName?_name] at hf
  exact (Option.some.inj hf).symm

theorem nodup_names : (all.map name).Nodup := by decide

/-- No name of a field is an older name. -/
theorem name_ne_older (f : Field) : ∀ p ∈ Renaming.names, f.name ≠ p.1 := by
  cases f <;> decide

theorem name_ne_options (f : Field) : f.name ≠ "options".toList := by cases f <;> decide

end Field

namespace Record

open Json

/-! ## One field -/

/-- A record that is not more than what is written of it. -/
structure Writable (r : Record) : Prop where
  hook : r.hook = none
  rootValue : ∀ x ∈ r.rootValue, x.isFinite = true
  unitPrecision : ∀ n ∈ r.unitPrecision, n < Nat.pow 2 32
  minPixelValue : ∀ x ∈ r.minPixelValue, x.isFinite = true

/-- The record `s` with a field of the record `r`. -/
def take (s : Record) (f : Field) (r : Record) : Record :=
  match f with
  | .unit => { s with unit := r.unit }
  | .rootValue => { s with rootValue := r.rootValue }
  | .unitPrecision => { s with unitPrecision := r.unitPrecision }
  | .selectorBlackList => { s with selectorBlackList := r.selectorBlackList }
  | .propList => { s with propList := r.propList }
  | .replace => { s with replace := r.replace }
  | .mediaQuery => { s with mediaQuery := r.mediaQuery }
  | .minPixelValue => { s with minPixelValue := r.minPixelValue }
  | .excludeFiles => { s with excludeFiles := r.excludeFiles }

section

variable (s r : Record) (f g : Field)

theorem take_take_self : (s.take f r).take f r = s.take f r := by
  cases f <;> rfl

theorem take_comm : (s.take f r).take g r = (s.take g r).take f r := by
  cases f <;> cases g <;> rfl

theorem take_hook : (s.take f r).hook = s.hook := by
  cases f <;> rfl

/-- A field that is not written is not mentioned. -/
theorem take_of_get?_eq_none {r : Record} {f : Field} (h : r.get? f = none) :
    ({} : Record).take f r = {} := by
  cases f with
  | unitPrecision =>
    cases hn : r.unitPrecision with
    | none => rw [take, hn]
    | some n =>
      rw [get?, hn] at h
      cases h
  | _ => rw [take, Option.map_eq_none_iff.mp h]

/-- A record is told by its fields and its hook. -/
theorem eq_of_take {s r : Record} (h : ∀ f, s.take f r = s) (hhook : s.hook = r.hook) : s = r := by
  have hunit := h .unit
  have hroot := h .rootValue
  have hprecision := h .unitPrecision
  have hdenied := h .selectorBlackList
  have hlist := h .propList
  have hreplace := h .replace
  have hquery := h .mediaQuery
  have hmin := h .minPixelValue
  have hfiles := h .excludeFiles
  clear h
  obtain ⟨⟩ := s
  obtain ⟨⟩ := r
  simp only [take, mk.injEq, true_and, and_true] at *
  simp only [*, true_and]

end

theorem unlessNull_of_ne_null {α : Type} {read : Json → Except RecordError α} {v : Json}
    (hv : v ≠ .null) : unlessNull read v = (read v).map some := by
  cases v with
  | null => exact absurd rfl hv
  | _ => rfl

theorem unlessNull_eq_ok {α : Type} {read : Json → Except RecordError α} {v : Json} {a : α}
    (hv : v ≠ .null) (h : read v = .ok a) : unlessNull read v = .ok (some a) := by
  rw [unlessNull_of_ne_null hv, h]
  rfl

theorem unlessNull_array {α : Type} {read : Json → Except RecordError α} (write : α → Json)
    (h : ∀ a, read (write a) = .ok a) (as : List α) :
    unlessNull (listOf read) (.array (as.map write)) = .ok (some as) := by
  refine unlessNull_eq_ok (by simp) (mapM_eq_ok ?_)
  rw [List.forall₂_map_left_iff, List.forall₂_same]
  exact fun a _ => h a

theorem ofJson_toJson_rule (rule : MatchRule) : MatchRule.ofJson rule.toJson = .ok rule := by
  cases rule with
  | literal t => rfl
  | pattern p =>
    have hp : Pattern.ofSource p.source = .ok p := by
      unfold Pattern.ofSource
      split
      · rename_i regex hregex
        exact congrArg Except.ok (Pattern.eq_of_source_eq rfl)
      · rename_i e he
        rw [p.reads] at he
        cases he
    have hfield : List.lookup "pattern".toList [("pattern".toList, Json.string p.source)] =
        some (.string p.source) := rfl
    rw [MatchRule.toJson, MatchRule.ofJson, hfield]
    dsimp only
    rw [hp]

theorem asBounded_whole {n : Nat} (h : n < Nat.pow 2 32) : asBounded (.whole n) = .ok n := by
  rw [asBounded, if_pos (by omega), Int.toNat_natCast]

theorem ofFloat_of_isFinite {x : Float} (h : x.isFinite = true) : Json.ofFloat x = .real x :=
  if_pos h

/-- A field is read as it was written. -/
theorem set_get? {r : Record} (hr : r.Writable) {f : Field} {v : Json} (h : r.get? f = some v)
    (s : Record) : s.set f v = .ok (s.take f r) := by
  cases f with
  | unit =>
    obtain ⟨t, ht, rfl⟩ := Option.map_eq_some_iff.mp h
    rw [take, ht]
    rfl
  | rootValue =>
    obtain ⟨x, hx, rfl⟩ := Option.map_eq_some_iff.mp h
    rw [take, hx, ofFloat_of_isFinite (hr.rootValue x hx)]
    rfl
  | unitPrecision =>
    cases hn : r.unitPrecision with
    | none =>
      rw [get?, hn] at h
      cases h
    | some n =>
      rw [get?, hn] at h
      obtain rfl : v = .whole n := (Option.some.inj h).symm
      have hread : readBy asBounded (.whole n) = .ok n := by
        rw [readBy, asBounded_whole (hr.unitPrecision n hn)]
        rfl
      rw [take, hn, set, unlessNull_eq_ok (by simp) hread]
      rfl
  | selectorBlackList =>
    obtain ⟨rules, hrules, rfl⟩ := Option.map_eq_some_iff.mp h
    rw [take, hrules, set, rulesToJson, unlessNull_array MatchRule.toJson ofJson_toJson_rule rules]
    rfl
  | propList =>
    obtain ⟨ts, hts, rfl⟩ := Option.map_eq_some_iff.mp h
    rw [take, hts, set, unlessNull_array .string (fun _ => rfl) ts]
    rfl
  | replace =>
    obtain ⟨b, hb, rfl⟩ := Option.map_eq_some_iff.mp h
    rw [take, hb]
    rfl
  | mediaQuery =>
    obtain ⟨b, hb, rfl⟩ := Option.map_eq_some_iff.mp h
    rw [take, hb]
    rfl
  | minPixelValue =>
    obtain ⟨x, hx, rfl⟩ := Option.map_eq_some_iff.mp h
    rw [take, hx, ofFloat_of_isFinite (hr.minPixelValue x hx)]
    rfl
  | excludeFiles =>
    obtain ⟨rules, hrules, rfl⟩ := Option.map_eq_some_iff.mp h
    rw [take, hrules, set, rulesToJson, unlessNull_array MatchRule.toJson ofJson_toJson_rule rules]
    rfl

/-! ## All fields -/

/-- Fields that are those of a record set the record's options, and no others. -/
theorem exists_setAll {r : Record} (hr : r.Writable) {fs : List (Text × Json)}
    (hnodup : (fs.map Prod.fst).Nodup)
    (hfs : ∀ p ∈ fs, ∃ f : Field, p.1 = f.name ∧ r.get? f = some p.2) {used : List Field}
    (hused : ∀ f ∈ used, f.name ∉ fs.map Prod.fst) (s : Record) :
    ∃ s', setAll used s fs = .ok s' ∧ s'.hook = s.hook ∧
      ∀ f : Field, f.name ∈ fs.map Prod.fst ∨ s.take f r = s → s'.take f r = s' := by
  induction fs generalizing used s with
  | nil => exact ⟨s, rfl, rfl, fun f h => h.resolve_left (by simp)⟩
  | cons p fs ih =>
    obtain ⟨name, v⟩ := p
    obtain ⟨⟨f, hname, hv⟩, hrest⟩ := List.forall_mem_cons.mp hfs
    obtain ⟨hfresh, hnodup'⟩ := List.nodup_cons.mp hnodup
    dsimp only at hname hv hfresh
    subst hname
    have hf : f ∉ used := fun hmem => hused f hmem List.mem_cons_self
    have hused' : ∀ g ∈ f :: used, g.name ∉ fs.map Prod.fst := by
      intro g hg
      rcases List.mem_cons.mp hg with rfl | hg
      · exact hfresh
      · exact fun hmem => hused g hg (List.mem_cons_of_mem _ hmem)
    obtain ⟨s', hset, hhook, htake⟩ := ih hnodup' hrest hused' (s.take f r)
    refine ⟨s', ?_, hhook.trans (take_hook s r f), fun g hg => htake g ?_⟩
    · simp only [setAll, Field.ofName?_name, if_neg hf, set_get? hr hv]
      exact hset
    · rcases hg with hg | hg
      · rcases List.mem_cons.mp hg with heq | hg
        · right
          rw [Field.name_inj.mp heq, take_take_self]
        · exact .inl hg
      · right
        rw [take_comm, hg]

theorem mem_toFields {r : Record} {p : Text × Json} :
    p ∈ r.toFields ↔ ∃ f : Field, p.1 = f.name ∧ r.get? f = some p.2 := by
  obtain ⟨name, v⟩ := p
  simp only [toFields, List.mem_filterMap, Option.map_eq_some_iff, Prod.mk.injEq]
  constructor
  · rintro ⟨f, -, w, hw, rfl, rfl⟩
    exact ⟨f, rfl, hw⟩
  · rintro ⟨f, rfl, hv⟩
    exact ⟨f, f.mem_all, v, hv, rfl, rfl⟩

theorem nodup_toFields (r : Record) : (r.toFields.map Prod.fst).Nodup := by
  have hsub : ∀ fields : List Field,
      ((fields.filterMap fun f => (r.get? f).map (f.name, ·)).map Prod.fst).Sublist
        (fields.map Field.name) := by
    intro fields
    induction fields with
    | nil => exact .slnil
    | cons f fields ih =>
      cases hf : r.get? f with
      | none =>
        rw [List.filterMap_cons_none (by rw [hf]; rfl)]
        exact ih.cons _
      | some v =>
        rw [List.filterMap_cons_some (by rw [hf]; rfl)]
        exact ih.cons_cons _
  exact (hsub Field.all).nodup Field.nodup_names

/-- A record is read back from its fields, in whatever order they stand. -/
theorem ofFields_of_perm {r : Record} (hr : r.Writable) {fs : List (Text × Json)}
    (h : fs.Perm r.toFields) : ofFields fs = .ok r := by
  have hfs : ∀ p ∈ fs, ∃ f : Field, p.1 = f.name ∧ r.get? f = some p.2 :=
    fun p hp => mem_toFields.mp (h.mem_iff.mp hp)
  have hrenamed : Renaming.renamed fs = fs := by
    refine Renaming.renamed_eq_self fun q hq => not_mem_names_iff.mp fun hmem => ?_
    obtain ⟨p, hp, heq⟩ := List.mem_map.mp hmem
    obtain ⟨f, hname, -⟩ := hfs p hp
    exact f.name_ne_older q hq (hname.symm.trans heq)
  have hused : ∀ f ∈ ([] : List Field), f.name ∉ fs.map Prod.fst := by simp
  obtain ⟨s, hset, hhook, htake⟩ :=
    exists_setAll hr ((h.map Prod.fst).nodup_iff.mpr r.nodup_toFields) hfs hused {}
  rw [ofFields, hrenamed, hset]
  refine congrArg Except.ok (eq_of_take (fun f => htake f ?_) (hhook.trans hr.hook.symm))
  cases hf : r.get? f with
  | none => exact .inr (take_of_get?_eq_none hf)
  | some v =>
    exact .inl (List.mem_map.mpr ⟨(f.name, v), h.mem_iff.mpr (mem_toFields.mpr ⟨f, rfl, hf⟩), rfl⟩)

/-! ## JSON values -/

/-- The values of the fields are in order. -/
theorem ordered_get? {r : Record} {f : Field} {v : Json} (h : r.get? f = some v) :
    v.ordered = v := by
  have hfloat : ∀ x, (Json.ofFloat x).ordered = .ofFloat x := by
    intro x
    unfold Json.ofFloat
    split <;> rfl
  have harray : ∀ vs : List Json, (∀ v ∈ vs, v.ordered = v) → (array vs).ordered = array vs := by
    intro vs hvs
    rw [ordered, orderedItems_eq_map, List.map_congr_left hvs, List.map_id']
  have hrules : ∀ rules, (rulesToJson rules).ordered = rulesToJson rules := by
    refine fun rules => harray _ (List.forall_mem_map.mpr fun rule _ => ?_)
    cases rule <;> rfl
  cases f with
  | rootValue | minPixelValue =>
    obtain ⟨x, -, rfl⟩ := Option.map_eq_some_iff.mp h
    exact hfloat x
  | selectorBlackList | excludeFiles =>
    obtain ⟨rules, -, rfl⟩ := Option.map_eq_some_iff.mp h
    exact hrules rules
  | propList =>
    obtain ⟨ts, -, rfl⟩ := Option.map_eq_some_iff.mp h
    exact harray _ (List.forall_mem_map.mpr fun _ _ => rfl)
  | _ =>
    obtain ⟨a, -, rfl⟩ := Option.map_eq_some_iff.mp h
    rfl

/-- The fields of a record in the order of a JSON object. -/
theorem ordered_toJson (r : Record) : r.toJson.ordered = .object (sortFields r.toFields) := by
  have hsame : orderedFields r.toFields = r.toFields := by
    rw [orderedFields_eq_map]
    refine (List.map_congr_left fun p hp => ?_).trans (List.map_id _)
    obtain ⟨f, -, hv⟩ := mem_toFields.mp hp
    rw [ordered_get? hv]
    rfl
  rw [toJson, ordered, hsame]
  rfl

end Record

/-! ## Options in force -/

theorem Record.resolve_toRecord {r : Record} (hr : r.Writable) :
    r.resolve.options.toRecord.resolve = r.resolve :=
  congrArg (Settings.mk r.resolve.options) hr.hook.symm

theorem Record.getD_of_forall_mem {α : Type} (p : α → Prop) {o : Option α} {d : α} (hd : p d)
    (ho : ∀ a ∈ o, p a) : p (o.getD d) := by
  cases o with
  | none => exact hd
  | some a => exact ho a rfl

/-- What is in force under a record can be written. -/
theorem Record.Writable.toRecord {r : Record} (hr : r.Writable) :
    r.resolve.options.toRecord.Writable := by
  obtain ⟨hroot, hmin, hprecision⟩ : (Options.rootValue {}).isFinite = true ∧
      (Options.minPixelValue {}).isFinite = true ∧ Options.unitPrecision {} < Nat.pow 2 32 := by
    decide
  refine ⟨rfl, ?_, ?_, ?_⟩
  · intro x hx
    obtain rfl : r.rootValue.getD (Options.rootValue {}) = x := Option.some.inj hx
    exact getD_of_forall_mem (fun x : Float => x.isFinite = true) hroot hr.rootValue
  · intro n hn
    obtain rfl : r.unitPrecision.getD (Options.unitPrecision {}) = n := Option.some.inj hn
    exact getD_of_forall_mem (fun n => n < Nat.pow 2 32) hprecision hr.unitPrecision
  · intro x hx
    obtain rfl : r.minPixelValue.getD (Options.minPixelValue {}) = x := Option.some.inj hx
    exact getD_of_forall_mem (fun x : Float => x.isFinite = true) hmin hr.minPixelValue

/-! ## Sets -/

namespace OptionSet

open Json Record

/-- A record is read back from its JSON value, in whatever order its fields stand there. -/
theorem recordOfJson_toJson {r : Record} (hr : r.Writable) {fs : List (Text × Json)}
    (h : fs.Perm r.toFields) : recordOfJson (.object fs) = .ok r := by
  rw [recordOfJson, ofFields_of_perm hr h]
  rfl

theorem recordOfJson_ordered {r : Record} (hr : r.Writable) :
    recordOfJson r.toJson.ordered = .ok r := by
  rw [ordered_toJson]
  exact recordOfJson_toJson hr (sortFields_perm r.nodup_toFields)

theorem problems_eq_nil_iff {s : OptionSet} :
    s.problems = [] ↔ ∀ r ∈ s.records, r.resolve.options.problems = [] := by
  have hall : ∀ (several : Bool) (i : Nat) (rs : List Record),
      ((rs.zipIdx i).flatMap fun r => r.1.resolve.options.problems.map fun p =>
        (⟨if several then some r.2 else none, p⟩ : PlacedProblem)) = [] ↔
          ∀ r ∈ rs, r.resolve.options.problems = [] := by
    intro several i rs
    induction rs generalizing i with
    | nil => simp
    | cons r rs ih =>
      rw [List.zipIdx_cons, List.flatMap_cons, List.append_eq_nil_iff, ih, List.forall_mem_cons,
        List.map_eq_nil_iff]
  have := hall (1 < s.records.length) 0 s.records
  simpa [problems] using this

/-- A set whose values are in their ranges is read from the values of its records. -/
theorem ofJson_of_items {s : OptionSet} (hs : s.problems = []) {v : Json} {vs : List Json}
    (hitems : items v = .ok vs)
    (hvs : List.Forall₂ (fun v r => recordOfJson v = .ok r) vs s.records) : ofJson v = .ok s := by
  rw [ofJson, hitems]
  change (do validated ⟨← vs.mapM recordOfJson⟩) = _
  rw [mapM_eq_ok hvs]
  change validated s = _
  rw [validated, hs]
  rfl

theorem forall₂_recordOfJson {rs : List Record} (h : ∀ r ∈ rs, r.Writable) :
    List.Forall₂ (fun v r => recordOfJson v = .ok r) ((rs.map Record.toJson).map ordered) rs := by
  rw [List.map_map, List.forall₂_map_left_iff, List.forall₂_same]
  exact fun r hr => recordOfJson_ordered (h r hr)

/-- The JSON value of a record is that of a set with one record. -/
theorem items_ordered (r : Record) : items r.toJson.ordered = .ok [r.toJson.ordered] := by
  have hnone : (sortFields r.toFields).lookup "options".toList = none := by
    refine not_mem_names_iff.mp fun hmem => ?_
    obtain ⟨p, hp, hname⟩ := List.mem_map.mp hmem
    obtain ⟨f, hf, -⟩ := mem_toFields.mp ((sortFields_perm r.nodup_toFields).mem_iff.mp hp)
    exact f.name_ne_options (hf.symm.trans hname)
  rw [ordered_toJson, items, hnone]

/-- The options in force for a file are read as a set under which they are in force. -/
theorem ofJson_select {s : OptionSet} (h : ∀ r ∈ s.records, r.Writable) (hs : s.problems = [])
    {path : Option Text} {settings : Settings} (hselect : s.select path = some settings) :
    ∃ t, ofJson settings.options.toJson.ordered = .ok t ∧ t.select path = some settings := by
  obtain ⟨hmem, hpath⟩ := List.mem_filter.mp (List.mem_of_getLast? hselect)
  obtain ⟨r, hr, rfl⟩ := List.mem_map.mp hmem
  have hresolve := resolve_toRecord (h r hr)
  have hwritable := (h r hr).toRecord
  refine ⟨⟨[r.resolve.options.toRecord]⟩, ofJson_of_items ?_ (items_ordered _) ?_, ?_⟩
  · rw [problems_eq_nil_iff, List.forall_mem_singleton, hresolve]
    exact problems_eq_nil_iff.mp hs r hr
  · exact .cons (recordOfJson_ordered hwritable) .nil
  · have hkept : [r.resolve].filter (fun r => !path.any r.options.excludes) = [r.resolve] :=
      List.filter_eq_self.mpr (List.forall_mem_singleton.mpr hpath)
    simp only [select, List.map_cons, List.map_nil, hresolve]
    rw [hkept]
    rfl

/-- Records, sets and options in force are read back from what is written of them, if there is no
hook among them, doubles are finite and precisions fit into 32 bits. -/
theorem ofJson_written :
    (∀ r : Record, r.Writable → recordOfJson r.toJson.ordered = .ok r ∧
      ∃ r', recordOfJson r.resolve.options.toJson.ordered = .ok r' ∧ r'.resolve = r.resolve) ∧
    ∀ s : OptionSet, (∀ r ∈ s.records, r.Writable) → s.problems = [] →
      ofJson (array (s.records.map Record.toJson)).ordered = .ok s ∧
      ofJson (object [("options".toList, array (s.records.map Record.toJson))]).ordered = .ok s ∧
      ∀ path settings, s.select path = some settings →
        ∃ t, ofJson settings.options.toJson.ordered = .ok t ∧ t.select path = some settings := by
  constructor
  · intro r hr
    exact ⟨recordOfJson_ordered hr, _, recordOfJson_ordered hr.toRecord, resolve_toRecord hr⟩
  · intro s h hs
    have hvalue : (array (s.records.map Record.toJson)).ordered =
        array ((s.records.map Record.toJson).map ordered) := by
      rw [ordered, orderedItems_eq_map]
    have hwrapped : (object [("options".toList, array (s.records.map Record.toJson))]).ordered =
        object [("options".toList, array ((s.records.map Record.toJson).map ordered))] := by
      rw [← hvalue]
      rfl
    refine ⟨?_, ?_, fun path settings => ofJson_select h hs⟩
    · rw [hvalue]
      exact ofJson_of_items hs rfl (forall₂_recordOfJson h)
    · rw [hwrapped]
      exact ofJson_of_items hs rfl (forall₂_recordOfJson h)

/-- Two records, one of them with a pattern, and what the other one puts in force. -/
theorem ofJson_written_pattern :
    ∃ s : OptionSet, ∃ p : Pattern, p.source = "a+".toList ∧
      s.records.map Record.excludeFiles = [some [.pattern p, .literal "b".toList], none] ∧
      (∀ r ∈ s.records, recordOfJson r.toJson.ordered = .ok r) ∧
      ofJson (object [("options".toList, array (s.records.map Record.toJson))]).ordered = .ok s ∧
      ∃ settings t, s.select none = some settings ∧
        ofJson settings.options.toJson.ordered = .ok t ∧ t.select none = some settings := by
  obtain ⟨p, hp⟩ : ∃ p : Pattern, p.source = "a+".toList := ⟨⟨_, _, rfl⟩, rfl⟩
  have hwritable : ∀ r ∈ ([{ unit := some "em".toList, excludeFiles := some [.pattern p,
      .literal "b".toList] }, { rootValue := some 10, unitPrecision := some 3 }] : List Record),
      r.Writable := by
    intro r hr
    rcases List.mem_pair.mp hr with rfl | rfl
    · exact ⟨rfl, by simp, by simp, by simp⟩
    · exact ⟨rfl, by decide, by decide, by simp⟩
  have hvalid : OptionSet.problems ⟨[{ unit := some "em".toList, excludeFiles := some [.pattern p,
      .literal "b".toList] }, { rootValue := some 10, unitPrecision := some 3 }]⟩ = [] := by
    refine problems_eq_nil_iff.mpr fun r hr => ?_
    rcases List.mem_pair.mp hr with rfl | rfl
    · change Options.problems { unit := "em".toList } = []
      decide
    · decide
  obtain ⟨-, hwrapped, hselected⟩ := ofJson_written.2 _ hwritable hvalid
  obtain ⟨t, ht⟩ := hselected none _ rfl
  refine ⟨_, p, hp, rfl, fun r hr => ?_, hwrapped, _, t, rfl, ht⟩
  exact (ofJson_written.1 r (hwritable r hr)).1

end OptionSet

end PixelScale
