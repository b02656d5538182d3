import PixelScale.Proofs.CommandLine.Logging
import PixelScale.Proofs.Json.Reading

/-!
# Run logs are read back

An entry is written as one JSON object without the fields that it does not have, and a reader takes
a field that is not there for one that is null. So an entry is read back from its line, whatever its
texts hold, as long as its counters fit into 64 bits. A line end that a text holds is escaped, so
the entries of a log are its lines, and this is kept by every run that puts entries behind it.

* `RunLog.Entry.ofText?_print`: reading a line.
* `RunLog.readsAs_lines`: reading the text of entries.
* `RunLog.writeLog_readsAs`: reading a log after any number of runs.
-/

namespace PixelScale

open Json

/-! ## Fields of an object -/

namespace Report

variable {fs : List (Text × Json)} {name : Text} {v : Json}

theorem filter_name_eq_nil (h : name ∉ fs.map (·.1)) : fs.filter (fun (n, _) => n = name) = [] := by
  refine List.filter_eq_nil_iff.mpr fun f hf => ?_
  rw [decide_eq_true_eq]
  rintro rfl
  exact h (List.mem_map_of_mem hf)

/-- A name that is used once leads to its value. -/
theorem filter_name_eq (hnames : (fs.map (·.1)).Nodup) (h : (name, v) ∈ fs) :
    fs.filter (fun (n, _) => n = name) = [(name, v)] := by
  induction fs with
  | nil => cases h
  | cons f fs ih =>
    obtain ⟨hfirst, hrest⟩ := List.nodup_cons.mp hnames
    rcases List.mem_cons.mp h with rfl | hmem
    · rw [List.filter_cons_of_pos (by simp), filter_name_eq_nil hfirst]
    · have hne : f.1 ≠ name := by
        rintro rfl
        exact hfirst (List.mem_map.mpr ⟨_, hmem, rfl⟩)
      rw [List.filter_cons_of_neg (by simpa using hne), ih hrest hmem]

theorem valuesOf?_eq {names : List Text} {vs : List Json} (hnames : (fs.map (·.1)).Nodup)
    (h : List.Forall₂ (fun name v => (name, v) ∈ fs) names vs) : valuesOf? names fs = some vs := by
  refine mapM_eq_some (h.imp fun name v hmem => ?_)
  rw [filter_name_eq hnames hmem]

/-! ## Reports -/

/-- Counters that fit into 64 bits. -/
def Fits (r : Report) : Prop := ∀ c ∈ r.counters, c.2 < Nat.pow 2 64

instance (r : Report) : Decidable r.Fits := inferInstanceAs (Decidable (∀ c ∈ r.counters, _))

theorem count?_whole {k : Nat} (h : k < Nat.pow 2 64) : count? (.whole k) = some k := by
  have hrange : (0 : Int) ≤ k ∧ (k : Int) < Nat.pow 2 64 :=
    ⟨Int.natCast_nonneg k, by exact_mod_cast h⟩
  rw [count?, if_pos hrange, Int.toNat_natCast]

theorem nodup_counters (r : Report) : (r.counters.map (·.1)).Nodup := by
  simp [counters]

theorem ofJson?_object {vs : List Json} {ks : List Nat}
    (hvalues : valuesOf? ((({} : Report).counters).map (·.1)) fs = some vs)
    (hcounts : vs.mapM count? = some ks) : ofJson? (.object fs) = ofCounters? ks := by
  unfold ofJson?
  simp only [hvalues, hcounts, Option.bind_eq_bind, Option.bind_some]

theorem ofJson?_toJson {r : Report} (h : r.Fits) : ofJson? r.toJson = some r := by
  have hvalues : valuesOf? ((({} : Report).counters).map (·.1))
      (r.counters.map fun c => (c.1, Json.whole c.2)) =
        some (r.counters.map fun c => Json.whole c.2) := by
    refine valuesOf?_eq ?_ ?_
    · have hnames : (fun f : Text × Json => f.1) ∘ (fun c : Text × Nat => (c.1, Json.whole c.2)) =
          fun c => c.1 := rfl
      rw [List.map_map, hnames]
      exact nodup_counters r
    · rw [show ({} : Report).counters.map (·.1) = r.counters.map (·.1) by simp [counters],
        List.forall₂_map_left_iff, List.forall₂_map_right_iff, List.forall₂_same]
      exact fun c hc => List.mem_map_of_mem (f := fun c : Text × Nat => (c.1, Json.whole c.2)) hc
  have hcounts : (r.counters.map fun c => Json.whole c.2).mapM count? =
      some (r.counters.map (·.2)) := by
    refine mapM_eq_some ?_
    rw [List.forall₂_map_left_iff, List.forall₂_map_right_iff, List.forall₂_same]
    exact fun c hc => count?_whole (h c hc)
  exact ofJson?_object hvalues hcounts

theorem readable_toJson {r : Report} (h : r.Fits) (n : Nat) : Readable (n + 1) r.toJson := by
  refine .object fun f hf => ?_
  obtain ⟨c, hc, rfl⟩ := List.mem_map.mp hf
  refine .whole ?_ ?_
  · have : (0 : Int) ≤ c.2 := Int.natCast_nonneg _
    exact le_trans (by decide) this
  · exact_mod_cast h c hc

end Report

/-! ## Entries -/

namespace RunLog

/-- An entry whose counters fit into 64 bits. -/
def Entry.Fits (e : Entry) : Prop := ∀ r ∈ e.report, r.Fits

instance (e : Entry) : Decidable e.Fits := inferInstanceAs (Decidable (∀ r ∈ e.report, r.Fits))

theorem Status.ofName?_name (s : Status) : ofName? s.name = some s := by
  cases s <;> decide

namespace Entry

variable {e : Entry}

/-- A part that is written where it is there, and left out where it is not, is read back. -/
theorem optional?_eq {fs : List (Text × Json)} {name : Text} {part : Option Json}
    (hnames : (fs.map (·.1)).Nodup) (hpart : ∀ v ∈ part, (name, v) ∈ fs)
    (hnone : part = none → name ∉ fs.map (·.1)) : optional? name fs = some (part.getD .null) := by
  unfold optional?
  cases part with
  | none => rw [Report.filter_name_eq_nil (hnone rfl)]; rfl
  | some v => rw [Report.filter_name_eq hnames (hpart v rfl)]; rfl

theorem ofJson?_object {fs vs : List _} {report error : Json}
    (hvalues : Report.valuesOf? ["timestamp".toList, "file".toList, "status".toList] fs = some vs)
    (hreport : optional? "report".toList fs = some report)
    (herror : optional? "error".toList fs = some error) :
    ofJson? (.object fs) = ofValues? (vs ++ [report, error]) := by
  unfold ofJson?
  simp only [hvalues, hreport, herror, Option.bind_eq_bind, Option.bind_some]

/-- The fields of an entry. -/
def fields (e : Entry) : List (Text × Json) :=
  [("timestamp".toList, .string e.timestamp), ("file".toList, .string e.file),
   ("status".toList, .string e.status.name)] ++
  (e.report.map fun r => ("report".toList, r.toJson)).toList ++
  (e.error.map fun t => ("error".toList, Json.string t)).toList

theorem nodup_fields (e : Entry) : (e.fields.map (·.1)).Nodup := by
  unfold fields
  cases e.report <;> cases e.error <;> simp

theorem unlessNull?_text (error : Option Text) :
    unlessNull? text? ((error.map Json.string).getD .null) = some error := by
  cases error <;> rfl

theorem unlessNull?_report {report : Option Report} (h : ∀ r ∈ report, r.Fits) :
    unlessNull? Report.ofJson? ((report.map Report.toJson).getD .null) = some report := by
  cases report with
  | none => rfl
  | some r =>
    have hread := Report.ofJson?_toJson (h r rfl)
    rw [Report.toJson] at hread
    simp only [Option.map_some, Option.getD_some, Report.toJson, unlessNull?, hread]

theorem ofValues?_eq (h : e.Fits) :
    ofValues? [.string e.timestamp, .string e.file, .string e.status.name,
      (e.report.map Report.toJson).getD .null, (e.error.map Json.string).getD .null] = some e := by
  simp only [ofValues?, text?, Status.ofJson?, Status.ofName?_name, unlessNull?_report h,
    unlessNull?_text, Option.bind_eq_bind, Option.bind_some]
  rfl

theorem ofJson?_toJson (h : e.Fits) : ofJson? e.toJson = some e := by
  have hvalues : Report.valuesOf? ["timestamp".toList, "file".toList, "status".toList] e.fields =
      some [.string e.timestamp, .string e.file, .string e.status.name] := by
    refine Report.valuesOf?_eq e.nodup_fields ?_
    refine .cons ?_ (.cons ?_ (.cons ?_ .nil)) <;> simp [fields]
  have hreport : optional? "report".toList e.fields =
      some ((e.report.map Report.toJson).getD .null) := by
    refine optional?_eq e.nodup_fields ?_ ?_
    · intro v hv
      obtain ⟨r, hr, rfl⟩ := Option.map_eq_some_iff.mp hv
      simp [fields, hr]
    · intro hnone
      cases herror : e.error <;> simp [fields, Option.map_eq_none_iff.mp hnone, herror]
  have herror : optional? "error".toList e.fields =
      some ((e.error.map Json.string).getD .null) := by
    refine optional?_eq e.nodup_fields ?_ ?_
    · intro v hv
      obtain ⟨t, ht, rfl⟩ := Option.map_eq_some_iff.mp hv
      simp [fields, ht]
    · intro hnone
      cases hreport : e.report <;> simp [fields, Option.map_eq_none_iff.mp hnone, hreport]
  exact (ofJson?_object hvalues hreport herror).trans (ofValues?_eq h)

theorem readable_toJson (h : e.Fits) (n : Nat) : Readable (n + 2) e.toJson := by
  refine .object fun f hf => ?_
  simp only [List.mem_append, List.mem_cons, List.not_mem_nil, or_false, Option.mem_toList,
    Option.map_eq_some_iff] at hf
  rcases hf with ((rfl | rfl | rfl) | ⟨r, hr, rfl⟩) | ⟨t, ht, rfl⟩
  · exact .string _
  · exact .string _
  · exact .string _
  · exact Report.readable_toJson (h r hr) n
  · exact .string _

/-- An entry is read back from its line. -/
theorem ofText?_print (h : e.Fits) : ofText? e.toJson.print = some e := by
  rw [ofText?, read?_print (readable_toJson h (maxDepth - 3))]
  exact ofJson?_toJson h

end Entry

/-! ## Logs -/

/-- A text with one line for each entry, which is read as that entry. -/
def ReadsAs (t : Text) (es : List Entry) : Prop :=
  ∃ ls : List Text, t = ls.flatMap (· ++ ['\n']) ∧ (∀ l ∈ ls, '\n' ∉ l ∧ '\r' ∉ l) ∧
    ls.map Entry.ofText? = es.map some

theorem readsAs_lines {es : List Entry} (h : ∀ e ∈ es, e.Fits) : ReadsAs (lines es) es := by
  refine ⟨es.map fun e => e.toJson.print, ?_, ?_, ?_⟩
  · rw [lines, List.flatMap_map]
  · intro l hl
    obtain ⟨e, he, rfl⟩ := List.mem_map.mp hl
    exact lineEnd_not_mem_print (Entry.readable_toJson (h e he) 0)
  · rw [List.map_map]
    exact List.map_congr_left fun e he => Entry.ofText?_print (h e he)

theorem lines_append (es fs : List Entry) : lines (es ++ fs) = lines es ++ lines fs :=
  List.flatMap_append

variable {s s' : Machine} {p : Path} {held : Text}

/-- What a log holds; one that is not there holds nothing. -/
def content (d : Disk) (p : Path) : Content := (d.file? (d.goal p)).getD (.text [])

theorem Appended.content {d d' : Disk} {es : List Entry} (h : Appended d d' p es) :
    RunLog.content d' p = (RunLog.content d p).append (lines es) := by
  rw [RunLog.content, h.goal_eq, h.file?, if_pos rfl]
  rfl

/-- Every run of a row of runs puts its entries behind those of the runs before. -/
theorem run_forM_writeLog (runs : List (List Entry)) (hopens : s.disk.Opens p)
    (hheld : RunLog.content s.disk p = .text held) :
    ∃ s', (runs.forM (writeLog (some p)) : StateM Machine _).run s = ((), s') ∧
      RunLog.content s'.disk p = .text (held ++ lines runs.flatten) := by
  induction runs generalizing s held with
  | nil => exact ⟨s, rfl, by simpa [lines] using hheld⟩
  | cons es runs ih =>
    obtain ⟨s₁, hrun, happended⟩ := run_writeLog hopens es
    have hheld₁ : RunLog.content s₁.disk p = .text (held ++ lines es) := by
      rw [happended.content, hheld]
      rfl
    obtain ⟨s₂, hruns, hheld₂⟩ := ih (hopens.of_changed happended) hheld₁
    refine ⟨s₂, ?_, ?_⟩
    · rw [List.forM, StateT.run_bind, hrun]
      exact hruns
    · rw [hheld₂, List.flatten_cons, lines_append, List.append_assoc]

/-- A log that is not there, or that holds nothing, is read back as the entries of all runs. -/
theorem writeLog_readsAs (runs : List (List Entry)) (hopens : s.disk.Opens p)
    (hempty : s.disk.file? (s.disk.goal p) = none ∨
      s.disk.file? (s.disk.goal p) = some (.text []))
    (hfits : ∀ es ∈ runs, ∀ e ∈ es, e.Fits) :
    ∃ s' t, (runs.forM (writeLog (some p)) : StateM Machine _).run s = ((), s') ∧
      RunLog.content s'.disk p = .text t ∧ ReadsAs t runs.flatten := by
  have hheld : RunLog.content s.disk p = .text [] := by
    rcases hempty with h | h <;> rw [RunLog.content, h] <;> rfl
  obtain ⟨s', hrun, hheld'⟩ := run_forM_writeLog runs hopens hheld
  refine ⟨s', _, hrun, hheld', readsAs_lines fun e he => ?_⟩
  obtain ⟨es, hes, hmem⟩ := List.mem_flatten.mp he
  exact hfits es hes e hmem

/-- An entry whose texts hold line breaks, a quote and a control character. -/
def brokenLines : Entry :=
  .failed "now".toList "a\n.css".toList "line 1:\r\n \x22\x01".toList

def convertedLines : Entry := .finished "now".toList "b.css".toList (some { replaced := 2 })

theorem writeLog_readsAs_shelf :
    ∃ s' t, ([[brokenLines], [], [convertedLines, brokenLines]].forM
        (writeLog (some ⟨"log".toList⟩)) : StateM Machine _).run shelf = ((), s') ∧
      RunLog.content s'.disk ⟨"log".toList⟩ = .text t ∧
      ReadsAs t [brokenLines, convertedLines, brokenLines] := by
  have hopens : shelf.disk.Opens ⟨"log".toList⟩ := by
    obtain ⟨d, hd⟩ : ∃ d, shelf.disk.write ⟨"log".toList⟩ [] = .ok d := by
      have h : (shelf.disk.write ⟨"log".toList⟩ []).toOption.isSome = true := by decide +kernel
      cases hwrite : shelf.disk.write ⟨"log".toList⟩ [] with
      | ok d => exact ⟨d, rfl⟩
      | error e =>
        rw [hwrite] at h
        cases h
    exact (Disk.opens_of_write hd).1
  exact writeLog_readsAs [[brokenLines], [], [convertedLines, brokenLines]] hopens
    (.inl (by decide +kernel)) (by decide +kernel)

end RunLog

end PixelScale
