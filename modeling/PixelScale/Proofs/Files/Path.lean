import Mathlib.Data.List.TakeWhile
import PixelScale.Files.Disk

/-!
# The folder around a path

A path moves from where it starts to where it leads, one component at a time. The path of the
folder around it makes all moves but the last, from the same start, and its text is the front of
the other. Such a path ends in a component, so its last field is what a folder would be named.

* `Path.moves`: the components that lead somewhere.
* `Path.Clean`: the last field of a path is its last move.
* `Path.surrounds_of_parent?`: what the path of the folder around a path is like.
-/

namespace PixelScale

/-! ## Fields -/

namespace Text

variable {x : Char} {t f : Text}

theorem fields_eq_splitOn (x : Char) (t : Text) : fields x t = t.splitOn x := by
  induction t with
  | nil => rfl
  | cons c t ih =>
    rw [List.splitOn_cons_eq_if_modifyHead, fields, ih]
    by_cases hc : c = x
    · simp [hc]
    · rw [if_neg hc, if_neg (by simpa using hc)]
      cases h : t.splitOn x with
      | nil => exact absurd h (List.splitOn_ne_nil _ _)
      | cons g gs => rfl

theorem join_eq_intercalate (separator : Text) (fs : List Text) :
    join separator fs = separator.intercalate fs := by
  induction fs with
  | nil => simp [join]
  | cons f fs ih =>
    cases fs with
    | nil => simp [join]
    | cons g gs => rw [join, ih, List.intercalate_cons_cons]; simp

theorem fields_ne_nil (x : Char) (t : Text) : fields x t ≠ [] := by
  rw [fields_eq_splitOn]
  exact List.splitOn_ne_nil _ _

theorem join_fields (x : Char) (t : Text) : join [x] (fields x t) = t := by
  rw [join_eq_intercalate, fields_eq_splitOn, List.intercalate_splitOn]

theorem fields_join {fs : List Text} (hne : fs ≠ []) (h : ∀ f ∈ fs, x ∉ f) :
    fields x (join [x] fs) = fs := by
  rw [join_eq_intercalate, fields_eq_splitOn, List.splitOn_intercalate x h hne]

theorem not_mem_of_mem_fields (h : f ∈ fields x t) : x ∉ f := by
  induction t generalizing f with
  | nil => simp_all [fields]
  | cons c t ih =>
    rw [fields] at h
    split at h
    next =>
      rcases List.mem_cons.mp h with rfl | h
      · exact List.not_mem_nil
      · exact ih h
    next hc =>
      cases hf : fields x t with
      | nil => exact absurd hf (fields_ne_nil x t)
      | cons g gs =>
        rw [hf] at h ih
        rcases List.mem_cons.mp h with rfl | h
        · have := ih List.mem_cons_self
          simp [Ne.symm hc, this]
        · exact ih (List.mem_cons_of_mem g h)

/-- Fields in front make up the front of a text, and a separator follows. -/
theorem exists_join_append (x : Char) {fs gs : List Text} (hf : fs ≠ []) (hg : gs ≠ []) :
    ∃ t, join [x] (fs ++ gs) = join [x] fs ++ x :: t := by
  induction fs with
  | nil => exact absurd rfl hf
  | cons f fs ih =>
    cases fs with
    | nil =>
      cases gs with
      | nil => exact absurd rfl hg
      | cons g gs => exact ⟨join [x] (g :: gs), by simp [join]⟩
    | cons f' fs =>
      obtain ⟨t, ht⟩ := ih (List.cons_ne_nil f' fs)
      exact ⟨t, by rw [List.cons_append] at ht ⊢; simp [join, ht]⟩

end Text

namespace Path

variable {p q : Path}

/-- The components that lead somewhere from where a path starts. -/
def moves (p : Path) : List Component := p.fields.filterMap component?

/-- The folder that a path is made in is where all its moves but the last lead, and its last field
is that move. -/
structure Clean (p : Path) : Prop where
  front : (Disk.splitTarget p).1.filterMap component? = p.moves.dropLast
  last : (Disk.splitTarget p).2.1.bind component? = p.moves.getLast?

/-- The last field of a path is a name, and nothing follows it. -/
def NamesFile (p : Path) : Prop :=
  ∃ fs f n, Disk.splitTarget p = (fs, some f, false) ∧ component? f = some (.name n)

/-- `q` goes from the start of `p` up to its last move. -/
structure Surrounds (q p : Path) : Prop where
  moves : q.moves = p.moves.dropLast
  isAbsolute : q.isAbsolute = p.isAbsolute
  clean : q.Clean
  text : ∃ c t, p.text = q.text ++ c :: t

/-! ## The ends of a row of fields -/

theorem dropEnd_cons (f : Text) (fs : List Text) :
    ∃ gs rest, dropEnd (f :: fs) = f :: gs ∧ fs = gs ++ rest ∧
      rest.filterMap component? = [] ∧
      (gs = [] ∨ ∃ hs g, gs = hs ++ [g] ∧ component? g ≠ none) := by
  have hsplit := List.takeWhile_append_dropWhile (p := fun g => (component? g).isNone)
    (l := fs.reverse)
  refine ⟨_, (fs.reverse.takeWhile fun g => (component? g).isNone).reverse, rfl, ?_, ?_, ?_⟩
  · rw [← List.reverse_append, hsplit, List.reverse_reverse]
  · rw [List.filterMap_eq_nil_iff]
    intro g hg
    simpa using List.mem_takeWhile_imp (List.mem_reverse.mp hg)
  · cases hdrop : fs.reverse.dropWhile fun g => (component? g).isNone with
    | nil => exact Or.inl rfl
    | cons g hs =>
      refine Or.inr ⟨hs.reverse, g, by simp, ?_⟩
      have := List.head_dropWhile_not (fun g => (component? g).isNone)
        (l := fs.reverse) (by rw [hdrop]; exact List.cons_ne_nil g hs)
      simpa [hdrop, Option.isSome_iff_ne_none] using this

theorem ne_nil_of_component? {g : Text} (h : component? g ≠ none) : g ≠ [] := by
  intro hg
  simp [component?, hg] at h

theorem splitTarget_append {p : Path} {fs : List Text} {g : Text} (h : p.fields = fs ++ [g])
    (hg : g ≠ []) : Disk.splitTarget p = (fs, some g, false) := by
  have hg' : g.isEmpty = false := by simpa using hg
  simp [Disk.splitTarget, h, hg']

theorem fields_of_splitTarget {fs : List Text} {f : Text}
    (h : Disk.splitTarget p = (fs, some f, false)) : p.fields = fs ++ [f] := by
  simp only [Disk.splitTarget, Prod.mk.injEq, decide_eq_false_iff_not] at h
  obtain ⟨hinit, hlast, hlength⟩ := h
  have hsuffix := List.dropWhile_suffix (l := p.fields.reverse) List.isEmpty
  have hall := hsuffix.eq_of_length_le (by simpa using hlength)
  rw [hall, List.reverse_reverse] at hinit hlast
  obtain ⟨fs', hfs'⟩ := List.getLast?_eq_some_iff.mp hlast
  rw [hfs', List.dropLast_concat] at hinit
  rw [hfs', hinit]

/-- A path that names a file moves to where its other fields lead, and to a name there. -/
theorem NamesFile.moves {fs : List Text} {f n : Text}
    (hsplit : Disk.splitTarget p = (fs, some f, false)) (hf : component? f = some (.name n)) :
    p.moves = fs.filterMap component? ++ [.name n] := by
  rw [Path.moves, fields_of_splitTarget hsplit, List.filterMap_append]
  simp [hf]

theorem splitTarget_of_isEmpty {p : Path} (h : ∀ f ∈ p.fields, f = []) :
    ∃ b, Disk.splitTarget p = ([], none, b) := by
  have hdrop : p.fields.reverse.dropWhile List.isEmpty = [] := by
    rw [List.dropWhile_eq_nil_iff]
    intro f hf
    simp [h f (List.mem_reverse.mp hf)]
  exact ⟨_, by simp only [Disk.splitTarget, hdrop]; rfl⟩

theorem clean_of_isEmpty (h : ∀ f ∈ p.fields, f = []) : p.Clean := by
  obtain ⟨b, hsplit⟩ := splitTarget_of_isEmpty h
  have hmoves : p.moves = [] := by
    rw [moves, List.filterMap_eq_nil_iff]
    intro f hf
    simp [h f hf, component?]
  exact ⟨by simp [hsplit, hmoves], by simp [hsplit, hmoves]⟩

/-- A path whose fields end in a component, unless there is one field only. -/
theorem clean_of_fields {f : Text} {gs : List Text} (hfields : p.fields = f :: gs)
    (hlast : gs = [] ∨ ∃ hs g, gs = hs ++ [g] ∧ component? g ≠ none) : p.Clean := by
  rcases hlast with rfl | ⟨hs, g, rfl, hg⟩
  · by_cases hf : f = []
    · exact clean_of_isEmpty (by simp [hfields, hf])
    · have hsplit : Disk.splitTarget p = ([], some f, false) := splitTarget_append hfields hf
      cases hc : component? f with
      | none => exact ⟨by simp [hsplit, moves, hfields, hc], by simp [hsplit, moves, hfields, hc]⟩
      | some c => exact ⟨by simp [hsplit, moves, hfields, hc], by simp [hsplit, moves, hfields, hc]⟩
  · have hsplit : Disk.splitTarget p = (f :: hs, some g, false) :=
      splitTarget_append hfields (ne_nil_of_component? hg)
    obtain ⟨c, hc⟩ := Option.ne_none_iff_exists'.mp hg
    have hmoves : p.moves = (f :: hs).filterMap component? ++ [c] := by
      rw [moves, hfields, ← List.cons_append, List.filterMap_append]
      simp [hc]
    exact ⟨by simp [hsplit, hmoves], by simp [hsplit, hmoves, hc]⟩

/-! ## Components -/

theorem component?_eq_some {f : Text} {c : Component} (h : component? f = some c) :
    c = .up ∨ ∃ n, c = .name n := by
  unfold component? at h
  split at h
  · cases h
  · injection h with h
    split at h
    · exact Or.inl h.symm
    · exact Or.inr ⟨f, h.symm⟩

/-- Whether a component leads somewhere. -/
def Component.leads : Component → Bool
  | root | here => false
  | up | name _ => true

theorem moves_eq (p : Path) : p.moves = p.components.filter Component.leads := by
  have rest (fs : List Text) :
      (fs.filterMap component?).filter Component.leads = fs.filterMap component? := by
    rw [List.filter_eq_self]
    intro c hc
    obtain ⟨f, _, hf⟩ := List.mem_filterMap.mp hc
    rcases component?_eq_some hf with rfl | ⟨n, rfl⟩ <;> rfl
  unfold moves components
  cases p.fields with
  | nil => rfl
  | cons f fs =>
    simp only [List.filter_append, rest]
    have hfirst : (firstComponent? f fs.isEmpty).toList.filter Component.leads =
        [f].filterMap component? := by
      unfold firstComponent?
      split
      next hf => cases fs <;> simp [hf, component?, Component.leads]
      next =>
        split
        next hf => simp [hf, component?, Component.leads]
        next =>
          cases hc : component? f with
          | none => simp [hc]
          | some c =>
            rcases component?_eq_some hc with rfl | ⟨n, rfl⟩ <;> simp [hc, Component.leads]
    rw [hfirst, ← List.filterMap_append, List.singleton_append]

/-! ## The folder around a path -/

theorem isAbsolute_eq {f : Text} {fs : List Text} (h : p.fields = f :: fs) :
    p.isAbsolute = (f.isEmpty && !fs.isEmpty) := by
  have htext : p.text = Text.join ['/'] (f :: fs) := by rw [← h]; exact (Text.join_fields ..).symm
  have hslash : '/' ∉ f := Text.not_mem_of_mem_fields (t := p.text) (by
    show f ∈ p.fields
    simp [h])
  unfold isAbsolute
  rw [htext]
  cases f with
  | nil => cases fs <;> simp [Text.join]
  | cons c f =>
    have hc : c ≠ '/' := by rintro rfl; simp at hslash
    cases fs <;> simp [Text.join, hc]

theorem isAbsolute_eq_head (p : Path) :
    p.isAbsolute = decide (p.components.head? = some .root) := by
  cases hp : p.fields with
  | nil => exact absurd hp (Text.fields_ne_nil _ _)
  | cons f fs =>
    rw [isAbsolute_eq hp]
    simp only [components, hp, firstComponent?]
    split
    next hf =>
      subst hf
      cases fs <;> simp
    next hf =>
      have hnot : f.isEmpty = false := by simpa using hf
      have hroot : component? f ≠ some .root := by
        intro hc
        rcases component?_eq_some hc with h | ⟨n, h⟩ <;> cases h
      have hrest : (fs.filterMap component?).head? ≠ some .root := by
        intro hc
        obtain ⟨g, _, hg⟩ := List.mem_filterMap.mp (List.mem_of_head? hc)
        rcases component?_eq_some hg with h | ⟨n, h⟩ <;> cases h
      rw [hnot]
      split
      next => simp
      next =>
        cases hc : component? f with
        | none => simpa using hrest
        | some c =>
          rw [hc] at hroot
          simpa using hroot

/-- Where a path starts and how it moves is told by its components. -/
theorem moves_of_same (h : p.same q) : p.moves = q.moves ∧ p.isAbsolute = q.isAbsolute := by
  have hcomponents : p.components = q.components := by simpa [same] using h
  rw [moves_eq, moves_eq, isAbsolute_eq_head, isAbsolute_eq_head, hcomponents]
  exact ⟨rfl, rfl⟩

/-- A path without a folder around it does not move. -/
theorem moves_of_parent?_eq_none (h : p.parent? = none) : p.moves = [] := by
  cases hp : p.fields with
  | nil => exact absurd hp (Text.fields_ne_nil _ _)
  | cons f fs =>
    obtain ⟨gs, rest, hdrop, hfs, hrest, hlast⟩ := dropEnd_cons f fs
    simp only [parent?, hp, hdrop] at h
    split at h
    next heq => cases heq
    next heq =>
      obtain ⟨rfl, rfl⟩ := List.cons.inj heq
      simp [moves, hp, hfs, hrest, component?]
    next => cases h
    next => cases h

theorem parent?_of_one {f : Text} (h : dropEnd p.fields = [f]) (hq : p.parent? = some q) :
    q = ⟨[]⟩ ∧ f ≠ [] := by
  simp only [parent?, h] at hq
  cases f with
  | nil => cases hq
  | cons c f =>
    cases hq
    exact ⟨rfl, List.cons_ne_nil c f⟩

theorem parent?_of_more {f g : Text} {hs : List Text} (h : dropEnd p.fields = f :: (hs ++ [g])) :
    p.parent? = some (ofFields p.isAbsolute (dropEnd (f :: hs))) := by
  have hlast : (f :: (hs ++ [g])).dropLast = f :: hs := by
    rw [← List.cons_append, List.dropLast_concat]
  unfold parent?
  rw [h]
  split
  next heq => cases heq
  next heq => simp at heq
  next heq => simp at heq
  next => rw [hlast]

theorem fields_ofFields {f : Text} {gs : List Text} (h : ∀ g ∈ f :: gs, '/' ∉ g)
    (hne : f ≠ [] ∨ gs ≠ []) (absolute : Bool) :
    (ofFields absolute (f :: gs)).text = Text.join ['/'] (f :: gs) ∧
      (ofFields absolute (f :: gs)).fields = f :: gs := by
  have htext : ofFields absolute (f :: gs) = ⟨Text.join ['/'] (f :: gs)⟩ := by
    unfold ofFields
    split
    next heq =>
      obtain ⟨rfl, rfl⟩ := List.cons.inj heq
      simp at hne
    next => rfl
  exact ⟨by rw [htext], by rw [htext]; exact Text.fields_join (List.cons_ne_nil f gs) h⟩

/-- What is in front of the only field of a path is where it starts. -/
theorem surrounds_of_one {f : Text} {rest : List Text} (hp : p.fields = f :: rest)
    (hrest : rest.filterMap component? = []) (hf : f ≠ []) : (⟨[]⟩ : Path).Surrounds p := by
  refine ⟨?_, ?_, clean_of_isEmpty (by simp [fields, Text.fields]), ?_⟩
  · have hempty : (⟨[]⟩ : Path).moves = [] := rfl
    rw [hempty, moves, hp, ← List.singleton_append, List.filterMap_append, hrest, List.append_nil]
    cases hc : component? f <;> simp [hc]
  · rw [isAbsolute_eq hp]
    simp [isAbsolute, hf]
  · have htext : p.text = Text.join ['/'] (f :: rest) := by
      rw [← hp]
      exact (Text.join_fields _ _).symm
    cases f with
    | nil => exact absurd rfl hf
    | cons c f => cases rest <;> exact ⟨c, _, htext⟩

/-- What is in front of a field with only the root in front of it is the root. -/
theorem surrounds_of_root {g : Text} {gs rest : List Text}
    (hp : p.fields = [] :: (gs ++ g :: rest)) (hgs : gs.filterMap component? = [])
    (hg : component? g ≠ none) (hrest : rest.filterMap component? = []) :
    (⟨['/']⟩ : Path).Surrounds p := by
  refine ⟨?_, by rw [isAbsolute_eq hp]; simp [isAbsolute], clean_of_isEmpty (by decide), ?_⟩
  · obtain ⟨c, hc⟩ := Option.ne_none_iff_exists'.mp hg
    have hroot : (⟨['/']⟩ : Path).moves = [] := rfl
    have hempty : component? [] = none := rfl
    rw [hroot, moves, hp, List.filterMap_cons_none hempty, List.filterMap_append, hgs,
      List.filterMap_cons_some hc, hrest]
    rfl
  · obtain ⟨t, ht⟩ := Text.exists_join_append '/' (List.cons_ne_nil [] [])
      (show gs ++ g :: rest ≠ [] by simp)
    have htext : p.text = '/' :: t := by
      rw [← Text.join_fields '/' p.text]
      show Text.join ['/'] p.fields = _
      rw [hp]
      exact ht
    cases t with
    | cons c t => exact ⟨c, t, htext⟩
    | nil =>
      -- the text would be a slash, which has no component
      have hmem : g ∈ p.fields := by simp [hp]
      rw [fields, htext] at hmem
      exact absurd (by simpa [Text.fields] using hmem) (ne_nil_of_component? hg)

/-- What is in front of the last field of a path that says something. -/
theorem surrounds_of_more {f g : Text} {gs hs rest : List Text}
    (hp : p.fields = f :: gs ++ (hs ++ g :: rest)) (hhs : hs.filterMap component? = [])
    (hg : component? g ≠ none) (hrest : rest.filterMap component? = [])
    (hlast : gs = [] ∨ ∃ is i, gs = is ++ [i] ∧ component? i ≠ none) (hne : f ≠ [] ∨ gs ≠ []) :
    (ofFields p.isAbsolute (f :: gs)).Surrounds p := by
  have hslash : ∀ i ∈ f :: gs, '/' ∉ i := by
    intro i hi
    refine Text.not_mem_of_mem_fields (t := p.text) ?_
    show i ∈ p.fields
    rw [hp]
    exact List.mem_append_left _ hi
  obtain ⟨htext, hfields⟩ := fields_ofFields hslash hne p.isAbsolute
  refine ⟨?_, ?_, clean_of_fields hfields hlast, ?_⟩
  · obtain ⟨c, hc⟩ := Option.ne_none_iff_exists'.mp hg
    rw [moves, hfields, moves, hp, List.filterMap_append, List.filterMap_append, hhs,
      List.filterMap_cons_some hc, hrest]
    simp
  · rw [isAbsolute_eq hfields, isAbsolute_eq hp]
    rcases hne with hf | hgs
    · have : f.isEmpty = false := by simpa using hf
      rw [this]
      simp
    · have : gs.isEmpty = false := by simpa using hgs
      rw [this]
      simp
  · obtain ⟨t, ht⟩ := Text.exists_join_append '/' (List.cons_ne_nil f gs)
      (show hs ++ g :: rest ≠ [] by simp)
    refine ⟨'/', t, ?_⟩
    rw [htext, ← ht, ← hp]
    exact (Text.join_fields _ _).symm

/-- What the path of the folder around a path is like. -/
theorem surrounds_of_parent? (h : p.parent? = some q) : q.Surrounds p := by
  cases hp : p.fields with
  | nil => exact absurd hp (Text.fields_ne_nil _ _)
  | cons f fs =>
    obtain ⟨gs, rest, hdrop, rfl, hrest, hlast⟩ := dropEnd_cons f fs
    rw [← hp] at hdrop
    rcases hlast with rfl | ⟨hs, g, rfl, hg⟩
    · obtain ⟨rfl, hf⟩ := parent?_of_one hdrop h
      exact surrounds_of_one hp hrest hf
    · obtain ⟨gs, rest', hdrop', rfl, hrest', hlast⟩ := dropEnd_cons f hs
      rw [parent?_of_more hdrop, hdrop', Option.some.injEq] at h
      rw [List.append_assoc, List.append_assoc] at hp
      by_cases hroot : f = [] ∧ gs = []
      · obtain ⟨rfl, rfl⟩ := hroot
        have habsolute : p.isAbsolute = true := by
          rw [isAbsolute_eq hp]
          simp
        rw [habsolute] at h
        subst h
        exact surrounds_of_root hp hrest' hg hrest
      · subst h
        refine surrounds_of_more hp hrest' hg hrest hlast ?_
        by_cases hf : f = []
        · exact Or.inr fun hgs => hroot ⟨hf, hgs⟩
        · exact Or.inl hf

end Path

end PixelScale
