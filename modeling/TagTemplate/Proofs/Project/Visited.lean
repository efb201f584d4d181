import TagTemplate.Proofs.Project.Sound

/-!
# Files that a check visits

Which of the files that can be included a check goes through. The file of a name has the extension
of the folder put behind the name; a check looks for files where that extension stands behind the
last dot, with something before it. The two agree unless the extension is empty or has dots in it,
or nothing stands behind the last slash of the name. Main statements:
`PartialFolder.mem_checkedFiles_iff_recognizes` and `loaded_file_visited`, what a check then reports
about the file. That not every file is visited: `undotted_file_unvisited`.
-/

namespace TagTemplate

/-! ## Ends of names -/

/-- What stands behind the last slash of a text. -/
def lastPart (text : String) : List Char :=
  (splitOn '/' text.toList).getLast (splitOn_ne_nil '/' text.toList)

theorem slash_not_mem_lastPart (text : String) : '/' ∉ lastPart text :=
  not_mem_of_mem_splitOn (List.getLast_mem _)

/-- What has no slash and stands behind a text goes on with its last part. -/
theorem lastPart_append {text tail : String} (h : '/' ∉ tail.toList) :
    lastPart (text ++ tail) = lastPart text ++ tail.toList := by
  obtain ⟨front, last, htext, happend⟩ := splitOn_append_part h text.toList
  simp only [lastPart, String.toList_append, htext, happend, List.getLast_concat]

theorem Path.ofText_getLast? (text : String) :
    (Path.ofText text).segments.getLast? = some (String.ofList (lastPart text)) := by
  rw [Path.ofText, List.getLast?_map, List.getLast?_eq_some_getLast (splitOn_ne_nil _ _),
    Option.map_some, lastPart]

theorem Path.join_getLast? {folder p : Path} (hp : p.segments ≠ []) :
    (folder.join p).segments.getLast? = p.segments.getLast? := by
  rw [Path.join]
  split
  · rfl
  · split <;> exact List.getLast?_append_of_ne_nil _ hp

namespace PartialFolder

variable {f : PartialFolder} {name : String}

/-- The file of a name has the extension of the folder. -/
def Recognizes (f : PartialFolder) (name : String) : Prop :=
  PlainExtension f.extension ∧ lastPart name ≠ [] ∨
    f.extension = "" ∧ ∃ stem, stem ≠ [] ∧ lastPart name = stem ++ ['.']

theorem path_getLast? (f : PartialFolder) (name : String) :
    (f.path name).segments.getLast? = some (String.ofList (lastPart (f.fileName name))) := by
  rw [path, Path.join_getLast? (Path.ofText_segments_ne _), Path.ofText_getLast?]

theorem fileName_lastPart (hne : f.extension ≠ "") (hslash : '/' ∉ f.extension.toList) :
    lastPart (f.fileName name) = lastPart name ++ '.' :: f.extension.toList := by
  have htail : ("." ++ f.extension).toList = '.' :: f.extension.toList := String.toList_append ..
  rw [fileName, if_neg hne, String.append_assoc, lastPart_append, htail]
  rw [htail]
  exact List.not_mem_cons_of_ne_of_not_mem (by decide) hslash

theorem recognizes_iff : f.Recognizes name ↔
    Path.extensionOf? (String.ofList (lastPart (f.fileName name))) = some f.extension := by
  rw [extensionOf?_eq_some_iff]
  constructor
  · rintro (⟨⟨hne, hdot, hslash⟩, hlast⟩ | ⟨hempty, stem, hstem, hlast⟩)
    · refine ⟨String.ofList (lastPart name), by simpa using hlast, String.toList_inj.1 ?_, hdot⟩
      rw [fileName_lastPart hne hslash, toList_dotted, String.toList_ofList, String.toList_ofList]
    · refine ⟨String.ofList stem, by simpa using hstem, String.toList_inj.1 ?_, ?_⟩
      · rw [fileName, if_pos hempty, hlast, hempty, toList_dotted, String.toList_ofList,
          String.toList_ofList]
        rfl
      · rw [hempty]
        exact List.not_mem_nil
  · rintro ⟨stem, hstem, hlast, hdot⟩
    have hlast : lastPart (f.fileName name) = stem.toList ++ '.' :: f.extension.toList := by
      rw [← toList_dotted, ← hlast, String.toList_ofList]
    have hstem : stem.toList ≠ [] := fun hnil => hstem (String.toList_eq_nil_iff.1 hnil)
    by_cases hempty : f.extension = ""
    · rw [fileName, if_pos hempty, hempty] at hlast
      exact .inr ⟨hempty, stem.toList, hstem, hlast⟩
    · have hslash : '/' ∉ f.extension.toList := fun hmem =>
        slash_not_mem_lastPart (f.fileName name)
          (hlast ▸ List.mem_append_right _ (List.mem_cons_of_mem _ hmem))
      rw [fileName_lastPart hempty hslash] at hlast
      exact .inl ⟨⟨hempty, hdot, hslash⟩, List.append_cancel_right hlast ▸ hstem⟩

/-! ## Files below the folder -/

/-- A file below the folder, to which the path of a name leads, is among the files that are checked
there exactly if the name is recognized. -/
theorem mem_checkedFiles_iff_recognizes {fs : FileSystem} {root place : Place} {content : Content}
    (hroot : fs.locate f.root = .ok root) (hpath : fs.locate (f.path name) = .ok (root ++ place))
    (hbelow : place ≠ []) (hfile : fs.top.at? (root ++ place) = some (.file content)) :
    ∃ files, checkedFiles fs f.root f.extension = .ok files ∧
      (⟨place, content⟩ ∈ files ↔ f.Recognizes name) := by
  obtain ⟨entries, hfolder, hplace⟩ : ∃ entries, fs.top.at? root = some (.folder entries) ∧
      (FileTree.folder entries).at? place = some (.file content) := by
    rw [FileTree.at?_append] at hfile
    obtain ⟨t, ht, hplace⟩ := Option.bind_eq_some_iff.1 hfile
    obtain ⟨first, more, rfl⟩ := List.exists_cons_of_ne_nil hbelow
    cases t with
    | file other => cases hplace
    | folder entries => exact ⟨entries, ht, hplace⟩
  have hall : fs.filesBelow f.root = .ok (FileTree.filesOfEntries entries) := by
    rw [FileSystem.filesBelow, FileSystem.find?, hroot, ok_bind, hfolder]
    rfl
  have hlast : place.getLast? = some (String.ofList (lastPart (f.fileName name))) := by
    obtain ⟨front, hsegments⟩ := List.getLast?_eq_some_iff.1 (f.path_getLast? name)
    rw [FileSystem.locate, hsegments] at hpath
    obtain ⟨start, -, hwalk⟩ := bind_eq_ok hpath
    rw [← FileSystem.walk_to_file hwalk hfile, List.getLast?_append_of_ne_nil root hbelow]
  obtain ⟨files, hfiles, hmem⟩ := mem_checkedFiles_iff hall f.extension
  have hpresent : (place, content) ∈ FileTree.filesOfEntries entries := by
    have hmem := FileTree.mem_files_of_at? hplace
    rwa [FileTree.files] at hmem
  refine ⟨files, hfiles, ?_⟩
  rw [hmem, hlast, Option.bind_some, recognizes_iff, and_iff_right hpresent]

end PartialFolder

/-- A file below the folder for texts to include, to which the path of a name leads, is visited
there by a check exactly if the name is recognized. Then the check reports what is wrong with the
file, and what the file includes without there being a file for it. -/
theorem loaded_file_visited {p : Project} {name : String} {root place : Place} {content : Content}
    (hroot : p.files.locate p.partials.root = .ok root)
    (hpath : p.files.locate (p.partials.path name) = .ok (root ++ place)) (hbelow : place ≠ [])
    (hfile : p.files.top.at? (root ++ place) = some (.file content)) :
    (p.HasPartial ⟨place, content⟩ ↔ p.partials.Recognizes name) ∧
    (p.partials.Recognizes name → ∀ report, check p.files p.folder = .ok report →
      (∀ error, (CheckedFile.mk place content).error? p.delimiters = some error →
        error ∈ report.errors) ∧
      ∀ inner ∈ (CheckedFile.mk place content).included p.delimiters,
        p.files.hasFile (p.partials.path inner) = false → .noPartial inner ∈ report.warnings) := by
  obtain ⟨files, hfiles, hmem⟩ :=
    PartialFolder.mem_checkedFiles_iff_recognizes hroot hpath hbelow hfile
  have hiff : p.HasPartial ⟨place, content⟩ ↔ p.partials.Recognizes name := by
    rw [← hmem]
    constructor
    · rintro ⟨files', hfiles', hf⟩
      rw [hfiles] at hfiles'
      cases hfiles'
      exact hf
    · exact fun hf => ⟨files, hfiles, hf⟩
  refine ⟨hiff, fun hrecognized report hcheck => ?_⟩
  have hchecks : p.Checks ⟨place, content⟩ := .inr (hiff.2 hrecognized)
  exact ⟨fun error => Project.error_reported hcheck hchecks,
    fun inner hinner => Project.warning_reported hcheck ⟨_, hchecks, hinner⟩⟩

/-! ## Examples -/

/-- A text that cannot be read as a template. -/
def pagesHeader : Content := .text "\x7b\x7b#a\x7d\x7d"

def pagesError (file : String) : ProjectError :=
  .malformed file (.malformed ⟨.unclosedBlock "a", 6, "\x7b\x7b#a\x7d\x7d"⟩)

/-- A template that includes a text, with the name of the file of this text. -/
def pagesFiles (header settings : String) : FileSystem where
  top := .folder [("pages", .folder [
    ("stache.toml", .file (.text settings)),
    ("templates", .folder [("index.mustache", .file (.text "\x7b\x7b>header\x7d\x7d"))]),
    ("partials", .folder [(header, .file pagesHeader)])])]

theorem pagesFiles_at? (header settings : String) :
    (pagesFiles header settings).top.at? (["pages", "partials"] ++ [header]) =
      some (.file pagesHeader) := by
  simp [pagesFiles, FileTree.at?, FileTree.child?]

def dottedPages : Project where
  files := pagesFiles "header.txt" "[partials]\nextension = \"txt\"\n"
  root := "/pages"
  settings := { partials := ⟨"partials", "txt"⟩ }
  delimiters := .standard
  rooted := by decide
  loaded := by decide +kernel
  paired := by decide +kernel

/-- The file is visited, and what is wrong with it is reported. -/
theorem loaded_file_visited_pages :
    dottedPages.HasPartial ⟨["header.txt"], pagesHeader⟩ ∧
    ∃ report, check dottedPages.files dottedPages.folder = .ok report ∧
      pagesError "header.txt" ∈ report.errors := by
  have hroot : dottedPages.files.locate dottedPages.partials.root = .ok ["pages", "partials"] := by
    decide +kernel
  have hpath : dottedPages.files.locate (dottedPages.partials.path "header") =
      .ok (["pages", "partials"] ++ ["header.txt"]) := by decide +kernel
  obtain ⟨hiff, hreported⟩ :=
    loaded_file_visited hroot hpath (List.cons_ne_nil _ _) (pagesFiles_at? _ _)
  have hrecognized : dottedPages.partials.Recognizes "header" :=
    .inl ⟨by decide +kernel, by decide⟩
  have hcheck : check dottedPages.files dottedPages.folder =
      .ok ⟨[pagesError "header.txt"], []⟩ := by decide +kernel
  exact ⟨hiff.2 hrecognized, _, hcheck,
    (hreported hrecognized _ hcheck).1 (pagesError "header.txt") (by decide +kernel)⟩

/-- Neither the settings nor the file have an extension. -/
def undottedPages : Project where
  files := pagesFiles "header" "[partials]\nextension = \"\"\n"
  root := "/pages"
  settings := { partials := ⟨"partials", ""⟩ }
  delimiters := .standard
  rooted := by decide
  loaded := by decide +kernel
  paired := by decide +kernel

/-- Without an extension a file below the folder is included, but it is not visited: that it cannot
be read as a template is not reported. -/
theorem undotted_file_unvisited :
    undottedPages.files.locate undottedPages.partials.root = .ok ["pages", "partials"] ∧
    undottedPages.files.locate (undottedPages.partials.path "header") =
      .ok (["pages", "partials"] ++ ["header"]) ∧
    undottedPages.files.top.at? (["pages", "partials"] ++ ["header"]) = some (.file pagesHeader) ∧
    (undottedPages.partials.inclusions undottedPages.files "header").isSome = true ∧
    (CheckedFile.mk ["header"] pagesHeader).error? undottedPages.delimiters =
      some (pagesError "header") ∧
    ¬undottedPages.HasPartial ⟨["header"], pagesHeader⟩ ∧
    check undottedPages.files undottedPages.folder = .ok {} := by
  refine ⟨by decide +kernel, by decide +kernel, pagesFiles_at? _ _, by decide +kernel,
    by decide +kernel, ?_, by decide +kernel⟩
  rintro ⟨files, hfiles, hf⟩
  have hnone : checkedFiles undottedPages.files undottedPages.partials.root
      undottedPages.partials.extension = .ok [] := by decide +kernel
  rw [hnone] at hfiles
  cases hfiles
  cases hf

end TagTemplate
