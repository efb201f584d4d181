import TagTemplate.Project.Check
import TagTemplate.Proofs.FileSystem
import TagTemplate.Text.Alphanumeric

/-!
# Names of texts to include, as files

Main statement: `PartialFolder.mem_checkedFiles`, the file that a plain name stands for is among
the files that are checked in the folder.
-/

namespace TagTemplate

/-- A part of a name: letters, digits, dashes and underscores. -/
def IsComponent (part : List Char) : Prop :=
  part ≠ [] ∧ ∀ c ∈ part, isAlphanumeric c = true ∨ c = '-' ∨ c = '_'

instance (part : List Char) : Decidable (IsComponent part) :=
  @instDecidableAnd _ _ _ (List.decidableBAll _ _)

/-- A name that is a path of components, relative to wherever it is taken. -/
def PlainName (name : String) : Prop := ∀ part ∈ splitOn '/' name.toList, IsComponent part

instance (name : String) : Decidable (PlainName name) := List.decidableBAll _ _

/-- An extension of file names, in one piece. -/
def PlainExtension (extension : String) : Prop :=
  extension ≠ "" ∧ '.' ∉ extension.toList ∧ '/' ∉ extension.toList

instance (extension : String) : Decidable (PlainExtension extension) :=
  inferInstanceAs (Decidable (_ ∧ _ ∧ _))

theorem IsComponent.not_mem {part : List Char} (h : IsComponent part) {c : Char}
    (hc : (isAlphanumeric c || c == '-' || c == '_') = false) : c ∉ part := by
  intro hmem
  rcases h.2 c hmem with hletter | rfl | rfl
  · rw [hletter] at hc
    cases hc
  · simp at hc
  · simp at hc

/-- A plain name is written on one line. -/
theorem PlainName.line {name : String} (h : PlainName name) : '\n' ∉ name.toList := by
  intro hmem
  have hparts : '\n' = '/' ∨ ∃ part ∈ splitOn '/' name.toList, '\n' ∈ part := mem_splitOn hmem
  rcases hparts with hslash | ⟨part, hpart, hmem⟩
  · cases hslash
  · exact (h part hpart).not_mem (by decide) hmem

/-- What starts with a component and goes on with anything is the name of a file. -/
theorem IsComponent.isName {part : List Char} (h : IsComponent part) (tail : List Char) :
    Path.IsName (String.ofList (part ++ tail)) := by
  obtain ⟨c, part, rfl⟩ := List.exists_cons_of_ne_nil h.1
  have hdot : '.' ≠ c := (List.ne_and_not_mem_of_not_mem_cons (h.not_mem (by decide))).1
  have hne (cs : List Char) (hcs : ∀ x ∈ cs.head?, x = '.') :
      String.ofList (c :: part ++ tail) ≠ String.ofList cs := by
    intro heq
    have hlist := congrArg String.toList heq
    rw [String.toList_ofList, String.toList_ofList] at hlist
    exact hdot (hcs c (hlist ▸ rfl)).symm
  have hempty : String.ofList (c :: part ++ tail) ≠ "" := hne [] fun _ hx => nomatch hx
  have hone : String.ofList (c :: part ++ tail) ≠ "." := hne ['.'] fun _ hx => by cases hx; rfl
  have htwo : String.ofList (c :: part ++ tail) ≠ ".." :=
    hne ['.', '.'] fun _ hx => by cases hx; rfl
  exact ⟨by rw [Path.isIdle, beq_false_of_ne hempty, beq_false_of_ne hone, Bool.or_self], htwo⟩

theorem toList_dotted (stem extension : String) :
    (stem ++ "." ++ extension).toList = stem.toList ++ '.' :: extension.toList := by
  rw [String.toList_append, String.toList_append, List.append_assoc]
  rfl

/-- What stands behind the last dot of a name is its extension. -/
theorem extensionOf?_append {stem : String} (hstem : stem ≠ "") {extension : String}
    (hdot : '.' ∉ extension.toList) :
    Path.extensionOf? (stem ++ "." ++ extension) = some extension := by
  have hparts : splitOn '.' (stem ++ "." ++ extension).toList =
      splitOn '.' stem.toList ++ [extension.toList] := by
    rw [toList_dotted, splitOn_append_separator, splitOn_of_not_mem hdot]
  have hstem' : splitOn '.' stem.toList ≠ [[]] := by
    intro hnil
    have hcut := joinOn_splitOn '.' stem.toList
    rw [hnil] at hcut
    exact hstem (String.toList_eq_nil_iff.1 hcut.symm)
  rw [Path.extensionOf?, hparts]
  match hfront : splitOn '.' stem.toList with
  | [] => exact absurd hfront (splitOn_ne_nil _ _)
  | [[]] => exact absurd hfront hstem'
  | [_ :: _] => exact congrArg some String.ofList_toList
  | [_, _] => exact congrArg some String.ofList_toList
  | first :: second :: third :: more =>
    show ((first :: second :: third :: more) ++ [extension.toList]).getLast?.map String.ofList = _
    rw [List.getLast?_concat, Option.map_some, String.ofList_toList]

/-- A dot at the start of a name does not part an extension from it. -/
theorem extensionOf?_hidden {name : String} (hdot : '.' ∉ name.toList) :
    Path.extensionOf? ("" ++ "." ++ name) = none := by
  have hparts : splitOn '.' ("" ++ "." ++ name).toList = [[], name.toList] := by
    rw [toList_dotted, splitOn_append_separator, splitOn_of_not_mem hdot]
    rfl
  rw [Path.extensionOf?, hparts]

theorem last_dot {name : String} (h : '.' ∈ name.toList) :
    ∃ stem tail : String, name = stem ++ "." ++ tail ∧ '.' ∉ tail.toList := by
  obtain ⟨tail, stem, hname, htail⟩ := List.eq_append_cons_of_mem (List.mem_reverse.2 h)
  refine ⟨String.ofList stem.reverse, String.ofList tail.reverse, String.toList_inj.1 ?_, ?_⟩
  · rw [← List.reverse_reverse name.toList, hname]
    simp
  · simpa using htail

/-- A name has an extension if something stands before its last dot. -/
theorem extensionOf?_eq_some_iff {name extension : String} :
    Path.extensionOf? name = some extension ↔
      ∃ stem, stem ≠ "" ∧ name = stem ++ "." ++ extension ∧ '.' ∉ extension.toList := by
  constructor
  · intro h
    by_cases hdot : '.' ∈ name.toList
    · obtain ⟨stem, tail, rfl, htail⟩ := last_dot hdot
      by_cases hstem : stem = ""
      · rw [hstem, extensionOf?_hidden htail] at h
        cases h
      · rw [extensionOf?_append hstem htail] at h
        cases h
        exact ⟨stem, hstem, rfl, htail⟩
    · rw [Path.extensionOf?, splitOn_of_not_mem hdot] at h
      cases h
  · rintro ⟨stem, hstem, rfl, hdot⟩
    exact extensionOf?_append hstem hdot

theorem extensionOf?_component {part : List Char} (h : IsComponent part) {extension : String}
    (hdot : '.' ∉ extension.toList) :
    Path.extensionOf? (String.ofList (part ++ '.' :: extension.toList)) = some extension := by
  refine extensionOf?_eq_some_iff.2 ⟨String.ofList part, ?_, String.toList_inj.1 ?_, hdot⟩
  · simpa using h.1
  · simp

/-- Which of the files below a folder are checked. -/
theorem mem_checkedFiles_iff {fs : FileSystem} {folder : Path} {all : List (Place × Content)}
    (hall : fs.filesBelow folder = .ok all) (extension : String) :
    ∃ files, checkedFiles fs folder extension = .ok files ∧ ∀ place content,
      ⟨place, content⟩ ∈ files ↔
        (place, content) ∈ all ∧ place.getLast?.bind Path.extensionOf? = some extension := by
  have hfiles : checkedFiles fs folder extension =
      .ok (((all.filter fun entry => entry.1.getLast?.bind Path.extensionOf? == some extension)
        |>.mergeSort fun a b => placeLe a.1 b.1).map fun entry => ⟨entry.1, entry.2⟩) := by
    rw [checkedFiles, hall]
    rfl
  refine ⟨_, hfiles, fun place content => ?_⟩
  rw [List.mem_map]
  constructor
  · rintro ⟨entry, hentry, heq⟩
    cases heq
    obtain ⟨hmem, hextension⟩ := List.mem_filter.1 (List.mem_mergeSort.1 hentry)
    exact ⟨hmem, beq_iff_eq.1 hextension⟩
  · rintro ⟨hmem, hextension⟩
    exact ⟨(place, content),
      List.mem_mergeSort.2 (List.mem_filter.2 ⟨hmem, beq_iff_eq.2 hextension⟩), rfl⟩

namespace PartialFolder

variable {f : PartialFolder} {name : String}

/-- The file of a plain name is found along names, the last of which has the extension. -/
theorem fileName_segments (hextension : PlainExtension f.extension) (hname : PlainName name) :
    (∀ segment ∈ (Path.ofText (f.fileName name)).segments, Path.IsName segment) ∧
      (Path.ofText (f.fileName name)).segments.getLast?.bind Path.extensionOf? =
        some f.extension := by
  obtain ⟨hne, hdot, hslash⟩ := hextension
  have htext : (f.fileName name).toList = name.toList ++ '.' :: f.extension.toList := by
    rw [fileName, if_neg hne, toList_dotted]
  have hpart : '/' ∉ '.' :: f.extension.toList :=
    fun hmem => (List.mem_cons.1 hmem).elim (fun h => nomatch h) hslash
  obtain ⟨front, last, hsplit, happend⟩ := splitOn_append_part hpart name.toList
  have hsegments : (Path.ofText (f.fileName name)).segments =
      (front ++ [last ++ '.' :: f.extension.toList]).map String.ofList := by
    rw [Path.ofText, htext, happend]
  rw [PlainName, hsplit] at hname
  have hlast : IsComponent last := hname last (List.mem_append_right _ List.mem_cons_self)
  rw [hsegments, List.map_append]
  constructor
  · intro segment hmem
    rcases List.mem_append.1 hmem with hmem | hmem
    · obtain ⟨part, hpart, rfl⟩ := List.mem_map.1 hmem
      have hcomponent := hname part (List.mem_append_left _ hpart)
      have hisName := hcomponent.isName []
      rwa [List.append_nil] at hisName
    · obtain rfl := List.mem_singleton.1 hmem
      exact hlast.isName _
  · rw [List.map_singleton, List.getLast?_concat, Option.bind_some]
    exact extensionOf?_component hlast hdot

/-- A text is included if its file can be read. -/
theorem inclusions_eq_some_iff {fs : FileSystem} {text : String} :
    f.inclusions fs name = some text ↔ fs.read (f.path name) = .ok text := by
  unfold inclusions
  generalize fs.read (f.path name) = read
  cases read with
  | error fault => simp
  | ok found => simp

/-- The file that a plain name stands for is among those that are checked in the folder. -/
theorem mem_checkedFiles {fs : FileSystem} (hroot : f.root.segments ≠ [])
    (hempty : f.root.isEmpty = false) (hextension : PlainExtension f.extension)
    (hname : PlainName name) {content : Content}
    (hfile : fs.find? (f.path name) = .ok (.file content)) :
    ∃ files place, checkedFiles fs f.root f.extension = .ok files ∧ ⟨place, content⟩ ∈ files := by
  obtain ⟨hnames, hlast⟩ := fileName_segments hextension hname
  obtain ⟨all, hall, hmem⟩ := FileSystem.find?_below
    (Path.goesOn_join hroot hempty (Path.ofText_segments_ne _) (Path.isAbsolute_names hnames))
    hnames hfile
  obtain ⟨files, hfiles, hiff⟩ := mem_checkedFiles_iff hall f.extension
  exact ⟨files, _, hfiles, (hiff _ content).2 ⟨hmem, hlast⟩⟩

end PartialFolder

end TagTemplate
