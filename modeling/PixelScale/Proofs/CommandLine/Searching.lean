import PixelScale.Proofs.CommandLine.Inputs
import PixelScale.Proofs.Files.Order
import PixelScale.Proofs.Files.Search

/-!
# The stylesheets below a folder

The stylesheets below a folder are searched with a pattern that begins with the path of the folder.
If no character of the path is one of a wildcard, the pattern stands for what it should: every file
below the folder whose name ends in `.css` is found, and nothing else, as far as its path is short
enough to be looked up. A path that has such characters is read as a pattern, which stands for other
folders or for none. There is one more exception. In a path such as `./`, the pattern goes on behind
the dot with an empty name, and nothing is found.

* `Glob.ofText_stylesheetsPattern`: the pattern for a folder.
* `Glob.accepts_suffix_iff`: names that the pattern accepts.
* `findStylesheets_complete`: what is found.
-/

namespace PixelScale

/-! ## The pattern -/

namespace Path

/-- The fields of a path behind the root. -/
def innerFields (p : Path) : List Text :=
  Text.fields '/' (if p.isAbsolute then p.text.tail else p.text)

/-- A path from the working folder whose first field that is no dot is empty. -/
def Stalls (p : Path) : Prop := p.isAbsolute = false ∧ Glob.Stalls p.fields

instance (p : Path) : Decidable p.Stalls := inferInstanceAs (Decidable (_ ∧ _))

/-- A path without the characters of wildcards. -/
def Plain (p : Path) : Prop := ∀ c ∈ p.text, Glob.isWild c = false

end Path

namespace Glob

variable {d : Disk} {p q : Path} {l : Location} {s t n : Text}

/-- Characters that are in no wildcard stand for themselves. -/
theorem tokensFrom_append (hs : ∀ c ∈ s, isWild c = false) {ks : List Token}
    (h : ∀ position last, tokensFrom position last t = .ok ks) (position : Nat)
    (last : Option Char) :
    tokensFrom position last (s ++ t) = .ok (s.map Token.char ++ ks) := by
  induction s generalizing position last with
  | nil => exact h position last
  | cons c s ih =>
    have hc := hs c List.mem_cons_self
    simp only [isWild, Bool.or_eq_false_iff, beq_eq_false_iff_ne] at hc
    have hrest := ih (fun b hb => hs b (List.mem_cons_of_mem c hb)) (position + 1) (some c)
    rw [List.cons_append, tokensFrom]
    · rw [hrest, if_neg hc.1.2, if_neg hc.1.1]
      rfl
    · rintro _ rfl _
      exact hc.1.1 rfl
    · rintro _ rfl _
      exact hc.1.1 rfl
    · rintro rfl
      exact hc.2 rfl

theorem tokens_of_plain (hs : ∀ c ∈ s, isWild c = false) : tokens s = .ok (s.map Token.char) := by
  have h := tokensFrom_append (t := []) hs (fun _ _ => by rw [tokensFrom]) 0 none
  rwa [List.append_nil, List.append_nil] at h

theorem ofTokens_char (s : Text) : Part.ofTokens (s.map Token.char) = .name s := by
  have hplain : plain? (s.map Token.char) = some s := by
    unfold plain?
    induction s with
    | nil => rfl
    | cons c s ih => simp [ih]
  rw [Part.ofTokens, hplain]

/-- The tokens for names that end in `.css`. -/
def cssTokens : List Token := [.anyText, .char '.', .char 'c', .char 's', .char 's']

theorem collapse_names (fs : List Text) (ts : List Token) :
    collapse (fs.map .name ++ [.folders, .wild ts]) = fs.map .name ++ [.folders, .wild ts] := by
  induction fs with
  | nil => rfl
  | cons f fs ih =>
    rw [List.map_cons, List.cons_append, collapse, ih]
    exact nofun

theorem mapM_names {fs : List Text} (h : ∀ f ∈ fs, ∀ c ∈ f, isWild c = false) :
    (fs.mapM fun s => do return Part.ofTokens (← tokens s) : Except Problem (List Part)) =
      .ok (fs.map .name) := by
  induction fs with
  | nil => rfl
  | cons f fs ih =>
    rw [List.mapM_cons, tokens_of_plain (h f List.mem_cons_self),
      ih fun g hg => h g (List.mem_cons_of_mem f hg)]
    change Except.ok (Part.ofTokens (f.map Token.char) :: _) = _
    rw [ofTokens_char, List.map_cons]

theorem mem_of_mem_fields {x c : Char} {f : Text} (hf : f ∈ Text.fields x t) (hc : c ∈ f) :
    c ∈ t := by
  induction t generalizing f with
  | nil =>
    rw [List.mem_singleton.mp hf] at hc
    cases hc
  | cons b t ih =>
    rw [Text.fields] at hf
    split at hf
    · rcases List.mem_cons.mp hf with rfl | hf
      · cases hc
      · exact List.mem_cons_of_mem b (ih hf hc)
    · cases hfields : Text.fields x t with
      | nil => exact absurd hfields (Text.fields_ne_nil x t)
      | cons g gs =>
        rw [hfields] at hf ih
        rcases List.mem_cons.mp hf with rfl | hf
        · rcases List.mem_cons.mp hc with rfl | hc
          · exact List.mem_cons_self
          · exact List.mem_cons_of_mem b (ih List.mem_cons_self hc)
        · exact List.mem_cons_of_mem b (ih (List.mem_cons_of_mem g hf) hc)

theorem partTexts_stylesheets (t : Text) :
    partTexts (t ++ "/**/*.css".toList) = Text.fields '/' t ++ ["**".toList, "*.css".toList] := by
  have hfields : Text.fields '/' (t ++ "/**/*.css".toList) =
      Text.fields '/' t ++ ["**".toList, "*.css".toList] := Text.fields_append_cons '/' t _
  rw [partTexts, hfields, if_neg]
  rw [List.getLast?_append]
  exact fun h => by simp at h

theorem ofText_eq {ks : List Token} {ps : List Part} (htokens : tokens t = .ok ks)
    (hparts : (partTexts (if t.head? = some '/' then t.tail else t)).mapM
      (fun s => do return Part.ofTokens (← tokens s)) = .ok ps) :
    ofText t = .ok ⟨t.head? = some '/', collapse ps, t.getLast? = some '/'⟩ := by
  unfold ofText
  rw [htokens]
  exact congrArg (· >>= fun ps => Except.ok (Glob.mk _ (collapse ps) _)) hparts

/-- The pattern that the names of a path, all folders and names that end in `.css` make up. -/
def ofFolder (p : Path) : Glob :=
  ⟨p.isAbsolute, p.innerFields.map Part.name ++ [Part.folders, Part.wild cssTokens], false⟩

/-- The pattern for a folder stands for its path and all files below it that end in `.css`. -/
theorem ofText_stylesheetsPattern (hplain : p.Plain) (hne : p.text ≠ []) :
    ofText (stylesheetsPattern p) = .ok (ofFolder p) := by
  obtain ⟨c, t, htext⟩ := List.exists_cons_of_ne_nil hne
  have htokens : tokens (stylesheetsPattern p) =
      .ok (p.text.map Token.char ++ .char '/' :: .folders :: cssTokens) := by
    refine tokensFrom_append hplain (fun position last => ?_) 0 none
    simp [tokensFrom, cssTokens]
  have habsolute : (stylesheetsPattern p).head? = some '/' ↔ p.isAbsolute = true := by
    rw [Path.isAbsolute, decide_eq_true_eq, stylesheetsPattern, htext]
    rfl
  have htail : (stylesheetsPattern p).tail = p.text.tail ++ "/**/*.css".toList := by
    rw [stylesheetsPattern, htext]
    rfl
  have hlast : (stylesheetsPattern p).getLast? = some 's' := by
    rw [stylesheetsPattern, List.getLast?_append]
    rfl
  have htexts : partTexts (if (stylesheetsPattern p).head? = some '/' then
      (stylesheetsPattern p).tail else stylesheetsPattern p) =
        p.innerFields ++ ["**".toList, "*.css".toList] := by
    rw [Path.innerFields]
    by_cases h : p.isAbsolute = true
    · rw [if_pos (habsolute.mpr h), if_pos h, htail, partTexts_stylesheets]
    · rw [if_neg (habsolute.not.mpr h), if_neg h, stylesheetsPattern, partTexts_stylesheets]
  have hnames : ∀ f ∈ p.innerFields, ∀ c ∈ f, isWild c = false := by
    intro f hf c hc
    have hmem := mem_of_mem_fields hf hc
    split at hmem
    · exact hplain c (List.mem_of_mem_tail hmem)
    · exact hplain c hmem
  have hwild : (["**".toList, "*.css".toList].mapM fun s => do
      return Part.ofTokens (← tokens s) : Except Problem (List Part)) =
        .ok [.folders, .wild cssTokens] := by
    simp [tokens, tokensFrom]
    rfl
  have hparts : (partTexts (if (stylesheetsPattern p).head? = some '/' then
      (stylesheetsPattern p).tail else stylesheetsPattern p)).mapM
        (fun s => do return Part.ofTokens (← tokens s)) =
          Except.ok (p.innerFields.map .name ++ [.folders, .wild cssTokens]) := by
    rw [htexts, List.mapM_append, mapM_names hnames, hwild]
    rfl
  have hdecide : decide ((stylesheetsPattern p).head? = some '/') = p.isAbsolute := by
    rw [← Bool.coe_iff_coe, decide_eq_true_iff]
    exact habsolute
  rw [ofText_eq htokens hparts, collapse_names, hlast, hdecide]
  rfl

/-! ## Names -/

theorem mem_endings_iff : s ∈ endings t ↔ s <:+ t := by
  induction t with
  | nil => simp [endings]
  | cons c t ih => simp [endings, ih, List.suffix_cons_iff]

theorem accepts_char_iff : accepts (s.map Token.char) t = true ↔ t = s := by
  induction s generalizing t with
  | nil => simp [accepts]
  | cons c s ih =>
    cases t with
    | nil => simp [accepts]
    | cons b t =>
      rw [List.map_cons, accepts, Bool.and_eq_true, ih, Token.has, beq_iff_eq, List.cons.injEq,
        eq_comm (a := c)]
      exact nofun

/-- Names that end in a text. -/
theorem accepts_suffix_iff (s : Text) :
    accepts (.anyText :: s.map Token.char) n = true ↔ s <:+ n := by
  rw [accepts, List.any_eq_true]
  constructor
  · rintro ⟨t, ht, haccepts⟩
    rw [accepts_char_iff] at haccepts
    rw [← haccepts]
    exact mem_endings_iff.mp ht
  · exact fun h => ⟨s, mem_endings_iff.mpr h, accepts_char_iff.mpr rfl⟩

/-! ## The walk -/

/-- Where a walk for a path starts. -/
def home (p : Path) : Path := ⟨if p.isAbsolute then ['/'] else ['.']⟩

/-- How the path of a folder is written in front of what is found below it. -/
def spelled (p : Path) : Path := along (home p) p.innerFields

theorem home_cases (p : Path) :
    (p.isAbsolute = true ∧ home p = ⟨['/']⟩) ∨ (p.isAbsolute = false ∧ home p = ⟨['.']⟩) := by
  unfold home
  cases p.isAbsolute <;> simp

theorem tidy_home (p : Path) : Tidy (home p) := by
  rcases home_cases p with ⟨-, h⟩ | ⟨-, h⟩ <;> rw [h]
  · exact .inr ⟨List.cons_ne_nil _ _, nofun⟩
  · exact .inl rfl

theorem text_ne_nil_of_locate (h : d.locate p = .ok l) : p.text ≠ [] := by
  intro hempty
  unfold Disk.locate Disk.origin at h
  rw [hempty] at h
  cases h

theorem step_of_component?_eq_none {f : Text} (hl : d.stands? l = some .folder)
    (hf : Path.component? f = none) : d.step l f = .ok l := by
  rcases Disk.step_cases hl f with ⟨-, hs⟩ | ⟨hc, -⟩ | ⟨n, hc, -⟩
  · exact hs
  · rw [hf] at hc
    cases hc
  · rw [hf] at hc
    cases hc

/-- A path that leads somewhere starts in a folder, and its fields lead on from there. -/
theorem exists_home (h : d.locate p = .ok l) :
    d.locate (home p) = .ok (d.start p) ∧ d.stands? (d.start p) = some .folder ∧
      p.innerFields.foldlM d.step (d.start p) = .ok l ∧ Room (home p) p.innerFields := by
  obtain ⟨hshort, hwalk⟩ := Disk.of_locate h
  have hne := text_ne_nil_of_locate h
  have hfolder : d.stands? (d.start p) = some .folder := by
    cases hfields : p.fields with
    | nil => exact absurd hfields (Text.fields_ne_nil _ _)
    | cons f fs =>
      rw [hfields, List.foldlM_cons] at hwalk
      cases hs : d.step (d.start p) f with
      | error e =>
        rw [hs] at hwalk
        cases hwalk
      | ok m => exact (at?_of_step hs).1
  have hstays {f : Text} (hf : Path.component? f = none) := step_of_component?_eq_none hfolder hf
  have hjoin : (Text.join ['/'] p.innerFields).bytes =
      Text.bytes (if p.isAbsolute then p.text.tail else p.text) :=
    congrArg Text.bytes (Text.join_fields '/' _)
  have hlocate {q : Path} (hq : q.text ≠ []) (hsize : q.text.bytes < Disk.pathLimit)
      (hstart : d.start q = d.start p) (hdots : ∀ f ∈ q.fields, Path.component? f = none) :
      d.locate q = .ok (d.start p) := by
    unfold Disk.locate
    rw [Disk.origin_eq hq hsize, hstart]
    change q.fields.foldlM d.step (d.start p) = _
    generalize q.fields = fs at hdots
    induction fs with
    | nil => rfl
    | cons f fs ih =>
      rw [List.foldlM_cons, hstays (hdots f List.mem_cons_self)]
      exact ih fun g hg => hdots g (List.mem_cons_of_mem f hg)
  rcases home_cases p with ⟨habsolute, hhome⟩ | ⟨hrelative, hhome⟩ <;> rw [hhome]
  · rw [if_pos habsolute] at hjoin
    have htext : p.text = '/' :: p.text.tail := by
      rw [Path.isAbsolute, decide_eq_true_eq] at habsolute
      exact (List.cons_head?_tail habsolute).symm
    have hfields : p.fields = [] :: p.innerFields := by
      rw [Path.innerFields, if_pos habsolute, Path.fields]
      conv_lhs => rw [htext]
      rfl
    refine ⟨hlocate (List.cons_ne_nil _ _) (by decide) ?_ (by decide), hfolder, ?_, fun _ => ?_⟩
    · rw [Disk.start, Disk.start, habsolute]
      rfl
    · rwa [hfields, List.foldlM_cons, hstays rfl] at hwalk
    · have hlead : lead ⟨['/']⟩ = 1 := rfl
      have hslash : ('/' : Char).utf8Size = 1 := rfl
      rw [htext, Text.bytes_cons] at hshort
      omega
  · rw [if_neg (by rw [hrelative]; exact Bool.false_ne_true)] at hjoin
    have hfields : p.fields = p.innerFields := by
      rw [Path.innerFields, hrelative]
      rfl
    refine ⟨hlocate (List.cons_ne_nil _ _) (by decide) ?_ (by decide), hfolder, ?_, fun _ => ?_⟩
    · rw [Disk.start, Disk.start, hrelative]
      rfl
    · rwa [hfields] at hwalk
    · have hlead : lead ⟨['.']⟩ = 0 := rfl
      omega

theorem slash_not_mem_innerFields (p : Path) : ∀ f ∈ p.innerFields, '/' ∉ f :=
  fun _ hf => Text.not_mem_of_mem_fields hf

theorem paths_ofFolder {t : FileTree} (h : d.look? (home p) = some t) :
    paths (ofFolder p) d = walk d false (ofFolder p).parts (home p) t := by
  have hstart : d.look? ⟨if (ofFolder p).absolute = true then ['/'] else ['.']⟩ = some t := h
  simp only [paths, hstart]
  rfl

/-- The paths of a folder's pattern are those of the accepted names below the folder. -/
theorem paths_stylesheets {u : FileTree} (h : d.locate p = .ok l) (hu : d.root.at? l = some u)
    (hstalls : ¬p.Stalls) :
    paths (ofFolder p) d =
      ((u.places.filter fun x => accepts cssTokens x.2).map
        fun x => along (spelled p) (x.1 ++ [x.2])) ∧
      d.locate (spelled p) = .ok l ∧ Tidy (spelled p) := by
  obtain ⟨hhome, hfolder, hwalk, hroom⟩ := exists_home h
  obtain ⟨t, ht, -⟩ := Option.map_eq_some_iff.mp hfolder
  have hdots : home p = ⟨['.']⟩ → ¬Glob.Stalls p.innerFields := by
    intro hdot
    rcases home_cases p with ⟨-, hhome⟩ | ⟨hrelative, -⟩
    · rw [hhome] at hdot
      cases hdot
    · have hinner : p.innerFields = p.fields := by
        rw [Path.innerFields, hrelative]
        rfl
      rw [hinner]
      exact fun hinto => hstalls ⟨hrelative, hinto⟩
  obtain ⟨hnames, hlocate, htidy⟩ := walk_names [.folders, .wild cssTokens] (tidy_home p) hhome ht
    (slash_not_mem_innerFields p) hdots hroom hwalk hu
  refine ⟨?_, hlocate, htidy⟩
  have hlook : d.look? (home p) = some t := by
    rw [Disk.look?, hhome]
    exact ht
  have hbelow := below_eq (accepts cssTokens) (spelled p) u
  rw [paths_ofFolder hlook, ← hbelow]
  exact hnames

/-- The pattern of a path that stalls stands for nothing. -/
theorem paths_stalls (h : d.locate p = .ok l) (hstalls : p.Stalls) :
    paths (ofFolder p) d = [] := by
  obtain ⟨hrelative, hdots⟩ := hstalls
  obtain ⟨hhome, hfolder, -, -⟩ := exists_home h
  obtain ⟨t, ht, hentry⟩ := Option.map_eq_some_iff.mp hfolder
  have hdot : home p = ⟨['.']⟩ := by rw [home, hrelative]; rfl
  have hinner : p.innerFields = p.fields := by
    rw [Path.innerFields, hrelative]
    rfl
  rw [hdot] at hhome
  have hlook : d.look? ⟨['.']⟩ = some t := by
    rw [Disk.look?, hhome]
    exact ht
  rw [paths_ofFolder (by rwa [hdot]), hdot, ofFolder, hinner]
  exact walk_stalls _ hhome ht (FileTree.entry_eq_folder.mp hentry) hdots

end Glob

/-! ## What is found -/

variable {s : Machine} {d : Disk} {p q : Path} {l : Location}

/-- A name behind a path is looked up if the path is not too long. -/
theorem isFile_along_iff {ns : Location} (hl : d.locate p = .ok l) (hp : Glob.Tidy p)
    (hns : ∀ n ∈ ns, Glob.IsName n) (hstands : (d.stands? (l ++ ns)).isSome) :
    (d.look? (Glob.along p ns)).any FileTree.isFile = true ↔
      (∃ c, d.file? (l ++ ns) = some c) ∧ (Glob.along p ns).text.bytes < Disk.pathLimit := by
  by_cases hshort : (Glob.along p ns).text.bytes < Disk.pathLimit
  · have hlook : d.look? (Glob.along p ns) = d.root.at? (l ++ ns) := by
      rw [Disk.look?, Glob.locate_along hl hp hns hstands hshort]
    rw [hlook, and_iff_left hshort]
    simp only [Disk.file?_eq_some, Disk.stands?, FileTree.stands?_eq_file]
    cases d.root.at? (l ++ ns) with
    | none => simp
    | some t => cases t <;> simp [FileTree.isFile, FileTree.isFolder]
  · refine iff_of_false ?_ fun h => hshort h.2
    have htoo : d.locate (Glob.along p ns) = .error .nameTooLong ∨
        d.locate (Glob.along p ns) = .error .notFound := by
      unfold Disk.locate Disk.origin
      rw [if_pos (Nat.le_of_not_lt hshort)]
      split
      · exact .inr rfl
      · exact .inl rfl
    unfold Disk.look?
    rcases htoo with h | h <;> rw [h] <;> exact Bool.false_ne_true

/-- The files of a folder's pattern are those below the folder whose names end in `.css`. -/
theorem mem_filesMatching_iff {u : FileTree} (hl : d.locate p = .ok l)
    (hu : d.root.at? l = some u) (hnamed : u.Named) (hstalls : ¬p.Stalls) :
    q ∈ filesMatching (Glob.ofFolder p) d ↔ ∃ m n c, d.file? (l ++ m ++ [n]) = some c ∧
      ".css".toList <:+ n ∧ q = Glob.along (Glob.spelled p) (m ++ [n]) ∧
      q.text.bytes < Disk.pathLimit := by
  obtain ⟨hpaths, hlocate, htidy⟩ := Glob.paths_stylesheets hl hu hstalls
  have hbelow (ns : Location) : d.root.at? (l ++ ns) = u.at? ns := by
    rw [FileTree.at?_append, hu, Option.bind_some]
  have hfile {m : Location} {n : Text} (hsome : (u.at? (m ++ [n])).isSome) :=
    isFile_along_iff hlocate htidy (hnamed.isName hsome)
      (by rwa [Disk.stands?_isSome, hbelow])
  rw [filesMatching, hpaths, List.mem_filter, List.mem_map]
  constructor
  · rintro ⟨⟨⟨m, n⟩, hmem, rfl⟩, hlook⟩
    obtain ⟨hplace, haccepts⟩ := List.mem_filter.mp hmem
    obtain ⟨⟨c, hc⟩, hshort⟩ := (hfile ((FileTree.mem_places_iff hnamed).mp hplace)).mp hlook
    rw [← List.append_assoc] at hc
    exact ⟨m, n, c, hc, (Glob.accepts_suffix_iff ".css".toList).mp haccepts, rfl, hshort⟩
  · rintro ⟨m, n, c, hc, hsuffix, rfl, hshort⟩
    have hat : u.at? (m ++ [n]) = some (.file c) := by
      rw [← hbelow, ← List.append_assoc]
      exact FileTree.stands?_eq_file.mp (Disk.file?_eq_some.mp hc)
    have hsome := Option.isSome_of_eq_some hat
    rw [List.append_assoc] at hc
    refine ⟨⟨(m, n), List.mem_filter.mpr ⟨(FileTree.mem_places_iff hnamed).mpr hsome, ?_⟩, rfl⟩,
      (hfile hsome).mpr ⟨⟨c, hc⟩, hshort⟩⟩
    exact (Glob.accepts_suffix_iff ".css".toList).mpr hsuffix

/-- No two files of a folder's pattern have paths with the same components. -/
theorem pairwise_filesMatching {u : FileTree} (hl : d.locate p = .ok l)
    (hu : d.root.at? l = some u) (hnamed : u.Named) (hstalls : ¬p.Stalls) :
    (filesMatching (Glob.ofFolder p) d).Pairwise fun q r => ¬q.same r := by
  obtain ⟨hpaths, hlocate, htidy⟩ := Glob.paths_stylesheets hl hu hstalls
  have hgoal {x : Location × Text} (hx : x ∈ u.places)
      (hlook : (d.look? (Glob.along (Glob.spelled p) (x.1 ++ [x.2]))).any FileTree.isFile = true) :
      d.goal (Glob.along (Glob.spelled p) (x.1 ++ [x.2])) = l ++ (x.1 ++ [x.2]) := by
    have hsome := (FileTree.mem_places_iff hnamed).mp hx
    have hstands : (d.stands? (l ++ (x.1 ++ [x.2]))).isSome := by
      rwa [Disk.stands?_isSome, FileTree.at?_append, hu, Option.bind_some]
    have hshort := ((isFile_along_iff hlocate htidy (hnamed.isName hsome) hstands).mp hlook).2
    exact (Disk.goal_of_locate
      (Glob.locate_along hlocate htidy (hnamed.isName hsome) hstands hshort)).symm
  rw [filesMatching, hpaths, List.pairwise_filter, List.pairwise_map, List.pairwise_filter]
  refine List.Pairwise.imp_of_mem ?_ (FileTree.nodup_places u hnamed)
  rintro ⟨m, n⟩ ⟨m', n'⟩ hx hy hne - - hlook hlook' hsame
  have hsplit := Disk.goal_of_same d hsame
  rw [hgoal hx hlook, hgoal hy hlook'] at hsplit
  obtain ⟨hm, hn⟩ := List.append_inj' (List.append_cancel_left hsplit) rfl
  rw [List.cons.injEq] at hn
  exact hne (Prod.ext hm hn.1)

theorem run_findStylesheets (hplain : p.Plain) (hne : p.text ≠ []) :
    (findStylesheets p : StateM Machine _).run s =
      ((filesMatching (Glob.ofFolder p) s.disk).mergeSort fun q r => !r.before q, s) := by
  unfold findStylesheets
  rw [Glob.ofText_stylesheetsPattern hplain hne]
  rfl

/-- What is found below a folder whose path has no wildcards: the files whose names end in `.css`,
in the order of their paths and each once, as far as a path is short enough to be looked up. Where
an empty field of the path stands behind nothing but dots, nothing is found. -/
theorem findStylesheets_complete (hnamed : s.disk.root.Named)
    (hfolder : (s.disk.look? p).any FileTree.isFolder = true) (hplain : p.Plain) :
    ∃ ps, (findStylesheets p : StateM Machine _).run s = (ps, s) ∧
      (p.Stalls → ps = []) ∧
      (¬p.Stalls → ps.Pairwise (fun q r => q.before r = true) ∧
        ∀ q, q ∈ ps ↔ ∃ l n c, s.disk.file? (s.disk.goal p ++ l ++ [n]) = some c ∧
          ".css".toList <:+ n ∧ q = Glob.along (Glob.spelled p) (l ++ [n]) ∧
          q.text.bytes < Disk.pathLimit) ∧
      (¬p.Stalls → ∀ l c, s.disk.file? (s.disk.goal p ++ l) = some c →
        (Glob.along (Glob.spelled p) l).text.bytes < Disk.pathLimit →
        s.disk.locate (Glob.along (Glob.spelled p) l) = .ok (s.disk.goal p ++ l)) := by
  obtain ⟨l, u, hl, hu⟩ : ∃ l u, s.disk.locate p = .ok l ∧ s.disk.root.at? l = some u := by
    unfold Disk.look? at hfolder
    cases hl : s.disk.locate p with
    | error e =>
      rw [hl] at hfolder
      cases hfolder
    | ok l =>
      rw [hl] at hfolder
      cases hu : s.disk.root.at? l with
      | none =>
        simp only [hu] at hfolder
        cases hfolder
      | some u => exact ⟨l, u, rfl, hu⟩
  refine ⟨_, run_findStylesheets hplain (Glob.text_ne_nil_of_locate hl), ?_, ?_, ?_⟩
  · intro hstalls
    rw [filesMatching, Glob.paths_stalls hl hstalls, List.filter_nil, List.mergeSort_nil]
  · intro hstalls
    refine ⟨Path.pairwise_mergeSort (pairwise_filesMatching hl hu (hnamed.at? hu) hstalls), ?_⟩
    intro q
    rw [List.mem_mergeSort, mem_filesMatching_iff hl hu (hnamed.at? hu) hstalls,
      Disk.goal_of_locate hl]
  · intro hstalls m c hc hshort
    obtain ⟨-, hlocate, htidy⟩ := Glob.paths_stylesheets hl hu hstalls
    rw [← Disk.goal_of_locate hl] at hc ⊢
    rw [Disk.file?_eq_some] at hc
    have hsome : (u.at? m).isSome := by
      have hstands := Option.isSome_of_eq_some hc
      rwa [Disk.stands?_isSome, FileTree.at?_append, hu, Option.bind_some] at hstands
    exact Glob.locate_along hlocate htidy ((hnamed.at? hu).isName hsome)
      (Option.isSome_of_eq_some hc) hshort

/-- A folder with a stylesheet, a folder with another one, and a text. -/
def stylesheetLibrary : Machine where
  disk :=
    { root := .folder [("w".toList, .folder [("css".toList, .folder
        [("a.css".toList, .file (.text [])), ("deep".toList, .folder
          [(".css".toList, .file (.text []))]), ("b.txt".toList, .file (.text []))])])]
      working := ["w".toList] }

theorem named_stylesheetLibrary : stylesheetLibrary.disk.root.Named := by
  have hfile : (FileTree.file (.text [])).Named := FileTree.named_file _
  have hdeep : (FileTree.folder [(".css".toList, .file (.text []))]).Named := by
    refine FileTree.named_folder (by decide) (by decide) ?_
    simpa using hfile
  have hcss : (FileTree.folder [("a.css".toList, .file (.text [])),
      ("deep".toList, .folder [(".css".toList, .file (.text []))]),
      ("b.txt".toList, .file (.text []))]).Named := by
    refine FileTree.named_folder (by decide) (by decide) ?_
    simpa using ⟨hfile, hdeep, hfile⟩
  refine FileTree.named_folder (by decide) (by decide) (List.forall_mem_singleton.mpr ?_)
  exact FileTree.named_folder (by decide) (by decide) (List.forall_mem_singleton.mpr hcss)

/-- The files of the folder are found, wherever they are and although one has nothing but `.css` for
a name. -/
theorem findStylesheets_complete_library :
    ∃ ps, (findStylesheets ⟨"css".toList⟩ : StateM Machine _).run stylesheetLibrary =
        (ps, stylesheetLibrary) ∧
      ⟨"css/a.css".toList⟩ ∈ ps ∧ ⟨"css/deep/.css".toList⟩ ∈ ps := by
  obtain ⟨ps, hrun, -, hfound, -⟩ := findStylesheets_complete (p := ⟨"css".toList⟩)
    named_stylesheetLibrary (by decide +kernel) (by simp [Path.Plain, Glob.isWild])
  obtain ⟨-, hmem⟩ := hfound (by decide +kernel)
  refine ⟨ps, hrun, (hmem _).mpr ⟨[], "a.css".toList, .text [], ?_⟩,
    (hmem _).mpr ⟨["deep".toList], ".css".toList, .text [], ?_⟩⟩ <;> decide +kernel

end PixelScale
