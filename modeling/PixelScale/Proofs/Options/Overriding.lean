import Mathlib.Data.List.Basic
import PixelScale.OptionSet

/-!
# Options of the command line

What the command line says is laid over every record of a set, before it is known which record will
count for a file. It comes to the same to pick the record first and to change its options then,
with one exception: an exclusion list of the command line takes the place of those of all records.
So either all records exclude a file or none does, and if none does the last one counts.

* `Settings.changed`: settings with what a record mentions in place of what they say.
* `resolve_above`: the options of a record that another one is laid over.
* `select_override`: the options for a file, after a record was laid over the set.
-/

namespace PixelScale

/-- Settings with what a record mentions in place of what they say. -/
def Settings.changed (s : Settings) (r : Record) : Settings :=
  { options :=
      { unit := r.unit.getD s.options.unit
        rootValue := r.rootValue.getD s.options.rootValue
        unitPrecision := r.unitPrecision.getD s.options.unitPrecision
        selectorBlackList := r.selectorBlackList.getD s.options.selectorBlackList
        propList := r.propList.getD s.options.propList
        replace := r.replace.getD s.options.replace
        mediaQuery := r.mediaQuery.getD s.options.mediaQuery
        minPixelValue := r.minPixelValue.getD s.options.minPixelValue
        excludeFiles := r.excludeFiles.getD s.options.excludeFiles }
    hook := r.hook <|> s.hook }

namespace Record

/-! ## One record over another -/

/-- What is laid over a record replaces the options of the record. -/
theorem resolve_above (o r : Record) : (o.above r).resolve = r.resolve.changed o := by
  simp only [resolve, above, Settings.changed, Option.orElse_eq_orElse, Option.orElse_eq_or,
    Option.getD_or]

theorem above_assoc (o' o r : Record) : o'.above (o.above r) = (o'.above o).above r := by
  simp only [above, Option.orElse_eq_orElse, Option.orElse_eq_or, Option.or_assoc]

theorem above_self (o : Record) : o.above o = o := by
  simp only [above, Option.orElse_eq_orElse, Option.orElse_eq_or, Option.or_self]

end Record

namespace OptionSet

/-! ## Sets -/

theorem override_override (s : OptionSet) (o o' : Record) :
    (s.override o).override o' = s.override (o'.above o) := by
  simp only [override, List.map_map, mk.injEq]
  exact List.map_congr_left fun r _ => o'.above_assoc o r

/-- The options of the records, in their order, after a record was laid over the set. -/
theorem map_resolve_override (s : OptionSet) (o : Record) :
    (s.override o).records.map Record.resolve =
      (s.records.map Record.resolve).map fun settings => settings.changed o := by
  simp only [override, List.map_map]
  exact List.map_congr_left fun r _ => o.resolve_above r

/-- The options for a file after a record was laid over the set: the record changes the options that
the file had, and leaves an excluded file excluded. If the record has an exclusion list of its own,
this alone says whether the file is excluded, and otherwise the last record of the set counts.
Laying a record over a set twice does nothing more, and two records can be laid over each other
first. -/
theorem select_override (s : OptionSet) (path : Option Text) (o : Record) :
    (s.override o).select path =
      (match o.excludeFiles with
      | none => (s.select path).map fun settings => settings.changed o
      | some rules =>
        if path.any (MatchRule.anyMatches rules) then none
        else s.records.getLast?.map fun r => r.resolve.changed o) ∧
    (s.override o).override o = s.override o ∧
    ∀ o', (s.override o).override o' = s.override (o'.above o) := by
  refine ⟨?_, ?_, override_override s o⟩
  · rw [select, map_resolve_override]
    cases hrules : o.excludeFiles with
    | none =>
      have hkept : ∀ settings : Settings,
          (settings.changed o).options.excludes = settings.options.excludes := by
        intro settings
        simp only [Settings.changed, hrules, Option.getD_none]
        rfl
      simp only [select, List.filter_map, List.getLast?_map, Function.comp_def, hkept]
    | some rules =>
      have hown : ∀ settings : Settings,
          (settings.changed o).options.excludes = MatchRule.anyMatches rules := by
        intro settings
        simp only [Settings.changed, hrules, Option.getD_some]
        rfl
      simp only [List.filter_map, Function.comp_def, hown]
      by_cases hexcluded : path.any (MatchRule.anyMatches rules) = true
      · rw [if_pos hexcluded, List.filter_eq_nil_iff.mpr fun _ _ => by simp [hexcluded]]
        rfl
      · rw [if_neg hexcluded, List.filter_eq_self.mpr fun _ _ => by simpa using hexcluded,
          List.getLast?_map, List.getLast?_map, Option.map_map]
        rfl
  · rw [override_override, Record.above_self]

-- the list of the command line brings back a record that excludes the file by itself
example :
    ((OptionSet.override { excludeFiles := some [] }
      ⟨[{}, { excludeFiles := some [.literal "a.css".toList], unit := some "em".toList }]⟩).select
        (some "a.css".toList)).map (·.options.unit) = some "em".toList := by
  decide

end OptionSet

end PixelScale
