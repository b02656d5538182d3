import PixelScale.Files.Glob
import PixelScale.Proofs.Files.Operations

/-!
# Names behind a path

A name behind a path leads one step further than the path. The working folder is the exception in
how this is written: a name in it stands alone. So a path that is a dot, with an empty name behind
it, is an empty text and leads nowhere, while an empty name behind any other path changes nothing.

* `Glob.along`: names one after another behind a path.
* `Glob.Proper`: paths that a name is written behind.
* `Glob.locate_under`, `Glob.locate_along`: where names behind a path lead.
-/

namespace PixelScale

open PixelScale.Path (component?)

namespace Text

variable {x : Char} {t : Text}

theorem fields_append_cons (x : Char) (s t : Text) :
    fields x (s ++ x :: t) = fields x s ++ fields x t := by
  induction s with
  | nil => simp [fields]
  | cons c s ih =>
    rw [List.cons_append, fields, ih, fields]
    by_cases hc : c = x
    · rw [if_pos hc, if_pos hc, List.cons_append]
    · rw [if_neg hc, if_neg hc]
      cases hs : fields x s with
      | nil => exact absurd hs (fields_ne_nil x s)
      | cons f fs => rfl

theorem fields_of_not_mem (h : x ∉ t) : fields x t = [t] :=
  fields_join (List.cons_ne_nil t []) (by simpa using h)

end Text

namespace Path

variable {p : Path} {f : Text}

/-- A name behind a path, as a text. -/
theorem text_join (hf : '/' ∉ f) : (p.join ⟨f⟩).text =
    if p.text = [] ∨ p.text.getLast? = some '/' then p.text ++ f else p.text ++ '/' :: f := by
  have hrelative : (⟨f⟩ : Path).isAbsolute = false := by
    rw [isAbsolute, decide_eq_false_iff_not]
    exact fun h => hf (List.mem_of_mem_head? h)
  rw [join, hrelative, if_neg Bool.false_ne_true]
  simp only [Bool.or_eq_true, List.isEmpty_iff, decide_eq_true_eq]
  split <;> rfl

theorem exists_text_join (hf : '/' ∉ f) : ∃ t, (p.join ⟨f⟩).text = p.text ++ t := by
  rw [text_join hf]
  split
  · exact ⟨f, rfl⟩
  · exact ⟨'/' :: f, rfl⟩

/-- A name takes the place of an empty field at the end of a path. -/
theorem exists_fields_join (hp : p.text ≠ []) (hf : '/' ∉ f) :
    ∃ gs, gs ≠ [] ∧ (p.fields = gs ∨ p.fields = gs ++ [[]]) ∧ (p.join ⟨f⟩).fields = gs ++ [f] := by
  have hfields := Text.fields_of_not_mem hf
  unfold fields
  rw [text_join hf]
  by_cases hlast : p.text.getLast? = some '/'
  · obtain ⟨t, ht⟩ := List.getLast?_eq_some_iff.mp hlast
    refine ⟨Text.fields '/' t, Text.fields_ne_nil '/' t, .inr ?_, ?_⟩
    · rw [ht, Text.fields_append_cons]
      rfl
    · rw [if_pos (.inr hlast), ht, List.append_assoc, List.singleton_append,
        Text.fields_append_cons, hfields]
  · refine ⟨_, Text.fields_ne_nil '/' p.text, .inl rfl, ?_⟩
    rw [if_neg (by simp [hp, hlast]), Text.fields_append_cons, hfields]

theorem isAbsolute_join (hp : p.text ≠ []) (hf : '/' ∉ f) :
    (p.join ⟨f⟩).isAbsolute = p.isAbsolute := by
  obtain ⟨t, ht⟩ := exists_text_join (p := p) hf
  rw [isAbsolute, isAbsolute, ht, List.head?_append, List.head?_eq_some_head hp, Option.some_or]

/-- A path begins with a dot if and only if its first field is one. -/
theorem head?_components_eq_here : p.components.head? = some .here ↔ p.fields.head? = some ['.'] := by
  unfold components
  cases p.fields with
  | nil => simp
  | cons g gs =>
    have hrest : ¬gs.findSome? component? = some .here := by
      rw [← List.head?_filterMap]
      intro h
      obtain ⟨_, _, hc⟩ := List.mem_filterMap.mp (List.mem_of_head? h)
      rcases component?_eq_some hc with h | ⟨n, h⟩ <;> cases h
    have hname : component? g ≠ some .here := by
      intro h
      rcases component?_eq_some h with h | ⟨n, h⟩ <;> cases h
    dsimp only
    unfold firstComponent?
    split
    next hg =>
      subst hg
      split <;> simp [hrest]
    next =>
      split
      next hg => simp [hg]
      next hg =>
        cases hc : component? g with
        | none => simp [hg, hrest]
        | some c =>
          rw [hc] at hname
          simpa [hg] using hname

end Path

namespace Glob

variable {d : Disk} {p q : Path} {l : Location} {f : Text} {ns : List Text}

/-- The path that names behind a path make up, one after another. -/
def along (p : Path) (ns : List Text) : Path := ns.foldl under p

/-- A path that names are written behind: it is there, and it does not begin with a dot. -/
structure Proper (p : Path) : Prop where
  ne_nil : p.text ≠ []
  head? : p.components.head? ≠ some .here

/-- A dot, or a path that names are written behind. -/
def Tidy (p : Path) : Prop := p = ⟨['.']⟩ ∨ Proper p

theorem Proper.under_eq (h : Proper p) (f : Text) : under p f = p.join ⟨f⟩ := by
  rw [under, if_neg]
  intro hhere
  exact h.head? (by rw [hhere]; rfl)

theorem under_dot (f : Text) : under ⟨['.']⟩ f = ⟨f⟩ := if_pos rfl

theorem Tidy.ne_nil (h : Tidy p) : p.text ≠ [] := by
  rcases h with rfl | h
  · exact List.cons_ne_nil _ _
  · exact h.ne_nil

theorem Proper.join (h : Proper p) (hf : '/' ∉ f) : Proper (p.join ⟨f⟩) := by
  constructor
  · obtain ⟨t, ht⟩ := Path.exists_text_join (p := p) hf
    rw [ht]
    exact List.append_ne_nil_of_left_ne_nil h.ne_nil t
  · obtain ⟨gs, hgs, hfields, hjoin⟩ := Path.exists_fields_join h.ne_nil hf
    have hhead := h.head?
    rw [Ne, Path.head?_components_eq_here] at hhead ⊢
    have hfirst (hs : List Text) : (gs ++ hs).head? = gs.head? := by
      rw [List.head?_append, List.head?_eq_some_head hgs, Option.some_or]
    rw [hjoin, hfirst]
    rcases hfields with hfields | hfields
    · rwa [hfields] at hhead
    · rwa [hfields, hfirst] at hhead

theorem proper_of_name (hne : f ≠ []) (hdot : f ≠ ['.']) (hf : '/' ∉ f) : Proper ⟨f⟩ := by
  refine ⟨hne, ?_⟩
  rw [Ne, Path.head?_components_eq_here, Path.fields, Text.fields_of_not_mem hf]
  simpa using hdot

theorem Tidy.under_field (h : Tidy p) (hf : '/' ∉ f) (hne : p = ⟨['.']⟩ → f ≠ []) :
    Tidy (under p f) := by
  rcases h with rfl | h
  · rw [under_dot]
    by_cases hdot : f = ['.']
    · exact .inl (by rw [hdot])
    · exact .inr (proper_of_name (hne rfl) hdot hf)
  · rw [h.under_eq]
    exact .inr (h.join hf)

/-! ## The size of a path -/

/-- The bytes in front of a name behind a path. -/
def lead (p : Path) : Nat :=
  if p = ⟨['.']⟩ then 0
  else if p.text.getLast? = some '/' then p.text.bytes else p.text.bytes + 1

theorem bytes_under (h : Tidy p) (hf : '/' ∉ f) : (under p f).text.bytes = lead p + f.bytes := by
  unfold lead
  rcases h with rfl | h
  · rw [under_dot, if_pos rfl, Nat.zero_add]
  · have hdot : p ≠ ⟨['.']⟩ := by
      rintro rfl
      exact h.head? rfl
    rw [h.under_eq, Path.text_join hf, if_neg hdot]
    by_cases hlast : p.text.getLast? = some '/'
    · rw [if_pos (.inr hlast), if_pos hlast, Text.bytes_append]
    · rw [if_neg (by simp [h.ne_nil, hlast]), if_neg hlast, Text.bytes_append, Text.bytes_cons]
      have hslash : ('/' : Char).utf8Size = 1 := rfl
      omega

theorem lead_le (p : Path) : lead p ≤ p.text.bytes + 1 := by
  unfold lead
  split
  · exact Nat.zero_le _
  · split <;> omega

theorem Proper.bytes_le (h : Proper p) (hns : ∀ n ∈ ns, '/' ∉ n) :
    p.text.bytes ≤ (along p ns).text.bytes := by
  induction ns generalizing p with
  | nil => exact le_rfl
  | cons n ns ih =>
    have hn := hns n List.mem_cons_self
    have hrest := ih (h.join hn) fun m hm => hns m (List.mem_cons_of_mem n hm)
    obtain ⟨t, ht⟩ := Path.exists_text_join (p := p) hn
    rw [ht, Text.bytes_append] at hrest
    rw [along, List.foldl_cons, h.under_eq]
    exact (Nat.le_add_right _ _).trans hrest

/-! ## Where names lead -/

/-- A name behind a path leads one step further. -/
theorem locate_under (h : d.locate p = .ok l) (hp : Tidy p) (hf : '/' ∉ f)
    (hne : (under p f).text ≠ []) (hshort : (under p f).text.bytes < Disk.pathLimit) :
    d.locate (under p f) = d.step l f := by
  obtain ⟨-, hwalk⟩ := Disk.of_locate h
  unfold Disk.locate
  rw [Disk.origin_eq hne hshort]
  change (under p f).fields.foldlM d.step _ = _
  rcases hp with rfl | hp
  · have hl : l = d.working := Disk.goal_of_locate h
    have hstart : d.start ⟨f⟩ = d.working := by
      refine if_neg ?_
      rw [Path.isAbsolute, decide_eq_true_eq]
      exact fun hhead => hf (List.mem_of_mem_head? hhead)
    rw [under_dot, Path.fields, Text.fields_of_not_mem hf, hstart, hl, List.foldlM_cons]
    cases d.step d.working f <;> rfl
  · obtain ⟨gs, -, hfields, hjoin⟩ := Path.exists_fields_join hp.ne_nil hf
    have hgs : gs.foldlM d.step (d.start p) = .ok l := by
      rcases hfields with hfields | hfields
      · rwa [hfields] at hwalk
      · rw [hfields, List.foldlM_append] at hwalk
        cases hm : gs.foldlM d.step (d.start p) with
        | error e =>
          rw [hm] at hwalk
          cases hwalk
        | ok m =>
          rw [hm] at hwalk
          change d.step m [] >>= pure = _ at hwalk
          rw [bind_pure] at hwalk
          by_cases hfolder : d.stands? m = some .folder
          · rcases Disk.step_cases hfolder [] with ⟨-, hs⟩ | ⟨hc, -⟩ | ⟨n, hc, -⟩
            · exact hs.symm.trans hwalk
            · cases hc
            · cases hc
          · rw [Disk.step_of_not_folder hfolder] at hwalk
            cases hwalk
    have hstart : d.start (p.join ⟨f⟩) = d.start p := by
      rw [Disk.start, Disk.start, Path.isAbsolute_join hp.ne_nil hf]
    rw [hp.under_eq, hstart, hjoin, List.foldlM_append, hgs]
    change d.step l f >>= pure = _
    rw [bind_pure]

/-- A name that an entry of a folder can have. -/
structure IsName (n : Text) : Prop where
  component : component? n = some (.name n)
  slash : '/' ∉ n
  fits : n.bytes ≤ Disk.longestName

instance (n : Text) : Decidable (IsName n) :=
  decidable_of_iff (component? n = some (.name n) ∧ '/' ∉ n ∧ n.bytes ≤ Disk.longestName)
    ⟨fun h => ⟨h.1, h.2.1, h.2.2⟩, fun h => ⟨h.component, h.slash, h.fits⟩⟩

theorem IsName.ne_nil {n : Text} (h : IsName n) : n ≠ [] :=
  Path.ne_nil_of_component? (by rw [h.component]; exact Option.some_ne_none _)

theorem IsName.proper {n : Text} (h : IsName n) : Proper ⟨n⟩ := by
  refine proper_of_name h.ne_nil ?_ h.slash
  rintro rfl
  cases h.component

theorem Tidy.under_name {n : Text} (h : Tidy p) (hn : IsName n) : Proper (under p n) := by
  rcases h with rfl | h
  · rw [under_dot]
    exact hn.proper
  · rw [h.under_eq]
    exact h.join hn.slash

/-- A name leads to the entry of a folder that has it. -/
theorem step_name {n : Text} (hn : IsName n) (h : (d.stands? (l ++ [n])).isSome) :
    d.step l n = .ok (l ++ [n]) := by
  have hfolder := FileTree.stands?_eq_folder_of_append (List.cons_ne_nil n []) h
  have hfits := hn.fits
  have hcomponent := hn.component
  rcases Disk.step_cases hfolder n with ⟨hc, -⟩ | ⟨hc, -⟩ | ⟨m, hc, hs⟩
  · rw [hcomponent] at hc
    cases hc
  · rw [hcomponent] at hc
    cases hc
  · rw [hcomponent] at hc
    cases hc
    rcases hs with ⟨hlong, -⟩ | ⟨-, -, hs⟩ | ⟨hnone, -⟩
    · omega
    · exact hs
    · rw [hnone] at h
      cases h

/-- Names that lead somewhere from where a path leads do so behind it. -/
theorem locate_along (h : d.locate p = .ok l) (hp : Tidy p) (hns : ∀ n ∈ ns, IsName n)
    (hstands : (d.stands? (l ++ ns)).isSome) (hshort : (along p ns).text.bytes < Disk.pathLimit) :
    d.locate (along p ns) = .ok (l ++ ns) := by
  induction ns generalizing p l with
  | nil => rwa [List.append_nil]
  | cons n ns ih =>
    have hn := hns n List.mem_cons_self
    have hrest : ∀ m ∈ ns, IsName m := fun m hm => hns m (List.mem_cons_of_mem n hm)
    have hproper := hp.under_name hn
    have hunder : (under p n).text.bytes < Disk.pathLimit :=
      (hproper.bytes_le fun m hm => (hrest m hm).slash).trans_lt hshort
    have hall : l ++ n :: ns = l ++ [n] ++ ns := by simp
    rw [hall] at hstands ⊢
    have hentry : (d.stands? (l ++ [n])).isSome := by
      cases ns with
      | nil => simpa using hstands
      | cons m ns =>
        exact Option.isSome_of_eq_some
          (FileTree.stands?_eq_folder_of_append (List.cons_ne_nil m ns) hstands)
    have hlocate : d.locate (under p n) = .ok (l ++ [n]) := by
      rw [locate_under h hp hn.slash hproper.ne_nil hunder, step_name hn hentry]
    exact ih hlocate (.inr hproper) hrest hstands hshort

end Glob

end PixelScale
