import TagTemplate.Proofs.Listing
import TagTemplate.Proofs.Project.Sound

/-!
# What a check reports

Which files a check visits, what is wrong with them and which names they include, said of the tree
of files and of the templates alone. Main statements: `checkedFiles?_visits`, a check goes through
the files that it is to visit, each once and in the order of their places; `check_rearranged`, the
order in which folders list their entries does not matter; `check_reports_faults`, the report tells
all that is wrong and nothing else.
-/

namespace TagTemplate

/-! ## What there is to report -/

/-- A node stands among others, or inside one of them, at any depth. -/
inductive Node.Inside (n : Node) : List Node → Prop
  | here {ns : List Node} : n ∈ ns → Inside n ns
  | deeper {ns : List Node} {outer : Node} : outer ∈ ns → Inside n outer.children → Inside n ns

namespace CheckedFile

/-- What is wrong with a file: it holds no text, or one that cannot be read as a template. -/
inductive Faulty (d : Delimiters) (f : CheckedFile) : ProjectError → Prop
  | unreadable : f.content = .bytes → Faulty d f (.unreadable f.name .notText)
  | malformed {text : String} {fault : Fault} : f.content = .text text →
      parse d text = .error fault → Faulty d f (.malformed f.name fault)

/-- The file is a template in which a text is included by the name, at any depth. -/
def Includes (d : Delimiters) (f : CheckedFile) (name : String) : Prop :=
  ∃ text nodes start stop margin, f.content = .text text ∧ parse d text = .ok nodes ∧
    (Node.inclusion name start stop margin).Inside nodes

/-- The file stands below the folder, at any depth, and its name has the extension. -/
def VisitedIn (fs : FileSystem) (folder : Path) (extension : String) (f : CheckedFile) : Prop :=
  ∃ t, fs.find? folder = .ok t ∧ t.at? f.place = some (.file f.content) ∧
    f.place.getLast?.bind Path.extensionOf? = some extension

end CheckedFile

/-- Some file that a check of a project visits includes a text by the name. -/
def Settings.Includes (s : Settings) (fs : FileSystem) (root : Path) (d : Delimiters)
    (name : String) : Prop :=
  ∃ f : CheckedFile, (f.VisitedIn fs (s.templatesFolder root) s.templates.extension ∨
    f.VisitedIn fs (s.partialsFolder root) s.partials.extension) ∧ f.Includes d name

/-- The file of a name among the texts to include of a project. -/
def Settings.partialPath (s : Settings) (root : Path) (name : String) : Path :=
  (PartialFolder.mk (s.partialsFolder root) s.partials.extension).path name

/-- The list holds what has a property, each once, in the order of keys. -/
structure ListsInOrder {α β : Type} [LT β] (key : α → β) (P : α → Prop) (xs : List α) : Prop where
  inOrder : xs.Pairwise fun a b => key a < key b
  mem_iff : ∀ a, a ∈ xs ↔ P a

/-- The list holds what is wrong with the files that a check of a folder visits, in the order of
their places. -/
def ListsFaults (fs : FileSystem) (folder : Path) (extension : String) (d : Delimiters) :
    List (CheckedFile × ProjectError) → Prop :=
  ListsInOrder (·.1.place) fun fault => fault.1.VisitedIn fs folder extension ∧
    fault.1.Faulty d fault.2

/-- A folder for texts to include is missing, though there are some to include. -/
def Settings.LacksPartials (s : Settings) (fs : FileSystem) (root : Path) (d : Delimiters) : Prop :=
  fs.present (s.partialsFolder root) = false ∧ ∃ name, s.Includes fs root d name

/-! ## One file -/

theorem Node.inside_cons {n m : Node} {ns : List Node} :
    n.Inside (m :: ns) ↔ n = m ∨ n.Inside m.children ∨ n.Inside ns := by
  constructor
  · rintro (hmem | ⟨houter, hinside⟩)
    · rcases List.mem_cons.1 hmem with rfl | hmem
      · exact .inl rfl
      · exact .inr (.inr (.here hmem))
    · rcases List.mem_cons.1 houter with rfl | houter
      · exact .inr (.inl hinside)
      · exact .inr (.inr (.deeper houter hinside))
  · rintro (rfl | hinside | hmem | ⟨houter, hinside⟩)
    · exact .here List.mem_cons_self
    · exact .deeper List.mem_cons_self hinside
    · exact .here (List.mem_cons_of_mem _ hmem)
    · exact .deeper (List.mem_cons_of_mem _ houter) hinside

theorem Node.mem_flatten_iff {n : Node} (m : Node) :
    n ∈ m.flatten ↔ n = m ∨ n ∈ Node.flatten.flattenAll m.children := by
  cases m <;> simp [Node.flatten, Node.children, Node.flatten.flattenAll]

theorem Node.mem_flattenAll_cons {n m : Node} {ns : List Node} :
    n ∈ Node.flatten.flattenAll (m :: ns) ↔
      n = m ∨ n ∈ Node.flatten.flattenAll m.children ∨ n ∈ Node.flatten.flattenAll ns := by
  rw [Node.flatten.flattenAll, List.mem_append, Node.mem_flatten_iff, or_assoc]

theorem Node.sizeOf_children (m : Node) : sizeOf m.children ≤ sizeOf m := by
  cases m <;> simp [Node.children] <;> omega

/-- The nodes that are listed before or behind others are those among them or inside them. -/
theorem Node.mem_flattenAll_iff {n : Node} (ns : List Node) :
    n ∈ Node.flatten.flattenAll ns ↔ n.Inside ns := by
  -- on the size of the forest: the children of its first node, then the other nodes
  cases ns with
  | nil =>
    refine iff_of_false List.not_mem_nil ?_
    rintro (hmem | ⟨houter, -⟩)
    · cases hmem
    · cases houter
  | cons m ns =>
    rw [Node.mem_flattenAll_cons, Node.inside_cons, Node.mem_flattenAll_iff m.children,
      Node.mem_flattenAll_iff ns]
termination_by sizeOf ns
decreasing_by
  · have hchildren := m.sizeOf_children
    rw [List.cons.sizeOf_spec]
    omega
  · rw [List.cons.sizeOf_spec]
    omega

namespace CheckedFile

variable {d : Delimiters} {f : CheckedFile} {error : ProjectError} {name : String}

theorem error?_eq_some_iff : f.error? d = some error ↔ f.Faulty d error := by
  rw [error?]
  constructor
  · intro h
    cases hcontent : f.content with
    | bytes =>
      rw [hcontent] at h
      cases h
      exact .unreadable hcontent
    | text text =>
      rw [hcontent] at h
      cases hparse : parse d text with
      | error fault =>
        simp only [Content.read, hparse] at h
        cases h
        exact .malformed hcontent hparse
      | ok nodes =>
        simp only [Content.read, hparse] at h
        cases h
  · rintro (hcontent | ⟨hcontent, hparse⟩)
    · rw [hcontent]
      rfl
    · simp only [hcontent, Content.read, hparse]

theorem mem_includedNames_iff {nodes : List Node} : name ∈ includedNames nodes ↔
    ∃ start stop margin, (Node.inclusion name start stop margin).Inside nodes := by
  simp only [← Node.mem_flattenAll_iff, includedNames, List.mem_filterMap]
  constructor
  · rintro ⟨n, hmem, hname⟩
    cases n with
    | inclusion key start stop margin =>
      cases hname
      exact ⟨start, stop, margin, hmem⟩
    | _ => cases hname
  · rintro ⟨start, stop, margin, hmem⟩
    exact ⟨_, hmem, rfl⟩

theorem mem_included_iff : name ∈ f.included d ↔ f.Includes d name := by
  constructor
  · intro h
    cases hcontent : f.content with
    | bytes =>
      rw [included, hcontent] at h
      cases h
    | text text =>
      have hread : f.content.read = .ok text := by rw [hcontent, Content.read]
      cases hparse : parse d text with
      | error fault =>
        simp only [included, hread, hparse] at h
        cases h
      | ok nodes =>
        rw [included_eq hread hparse, mem_includedNames_iff] at h
        obtain ⟨start, stop, margin, hinside⟩ := h
        exact ⟨text, nodes, start, stop, margin, hcontent, hparse, hinside⟩
  · rintro ⟨text, nodes, start, stop, margin, hcontent, hparse, hinside⟩
    have hread : f.content.read = .ok text := by rw [hcontent, Content.read]
    rw [included_eq hread hparse, mem_includedNames_iff]
    exact ⟨start, stop, margin, hinside⟩

end CheckedFile

/-! ## One folder -/

/-- What is sorted by keys that are all different has them in strict order. -/
theorem pairwise_lt_mergeSort {α β : Type} [LT β] [DecidableLT β] [LE β] [Std.IsLinearOrder β]
    [Std.LawfulOrderLT β] {key : α → β} {xs : List α} (hkeys : (xs.map key).Nodup) :
    (xs.mergeSort fun a b => !decide (key b < key a)).Pairwise fun a b => key a < key b := by
  have hle {a b : α} : (!decide (key b < key a)) = true ↔ key a ≤ key b := by simp [Std.not_lt]
  have htrans (a b c : α) (hab : (!decide (key b < key a)) = true)
      (hbc : (!decide (key c < key b)) = true) : (!decide (key c < key a)) = true :=
    hle.2 (Std.le_trans (hle.1 hab) (hle.1 hbc))
  have htotal (a b : α) : (!decide (key b < key a) || !decide (key a < key b)) = true := by
    rw [Bool.or_eq_true, hle, hle]
    exact Std.le_total
  have hsorted := List.pairwise_mergeSort htrans htotal xs
  have hne := List.pairwise_map.1
    (((List.mergeSort_perm xs fun a b => !decide (key b < key a)).map key).nodup_iff.2 hkeys)
  exact (hsorted.and hne).imp fun {a b} h => Std.lt_of_le_of_ne (hle.1 h.1) h.2

/-- What has a property is listed in one order only. -/
theorem ListsInOrder.unique {α β : Type} [LT β] [Std.Asymm (α := β) (· < ·)] {key : α → β}
    {P : α → Prop} {xs ys : List α} (hxs : ListsInOrder key P xs) (hys : ListsInOrder key P ys) :
    xs = ys := by
  have hnodup {zs : List α} (hzs : ListsInOrder key P zs) : zs.Nodup :=
    hzs.inOrder.imp fun {a b} (hlt : key a < key b) (heq : a = b) =>
      Std.Asymm.asymm (key b) (key b) (heq ▸ hlt) (heq ▸ hlt)
  refine List.Perm.eq_of_pairwise (fun a b _ _ hab hba => ?_) hxs.inOrder hys.inOrder
    ((List.perm_ext_iff_of_nodup (hnodup hxs) (hnodup hys)).2 fun a => ?_)
  · exact absurd hba (Std.Asymm.asymm _ _ hab)
  · rw [hxs.mem_iff, hys.mem_iff]

section

variable {fs : FileSystem} {top : FileTree} {folder : Path} {d : Delimiters} {extension : String}
  {files : List CheckedFile}

theorem CheckedFile.visitedIn_iff {t : FileTree} (hfolder : fs.find? folder = .ok t)
    {f : CheckedFile} : f.VisitedIn fs folder extension ↔
      t.at? f.place = some (.file f.content) ∧
        f.place.getLast?.bind Path.extensionOf? = some extension := by
  constructor
  · rintro ⟨t', hfolder', hfile⟩
    rw [hfolder] at hfolder'
    cases hfolder'
    exact hfile
  · exact fun hfile => ⟨t, hfolder, hfile⟩

theorem FileSystem.hasFolder_iff {p : Path} :
    fs.hasFolder p = true ↔ ∃ entries, fs.find? p = .ok (.folder entries) := by
  rw [FileSystem.hasFolder]
  cases hfind : fs.find? p with
  | error fault => simp
  | ok t => cases t <;> simp

theorem FileSystem.distinctNames_of_find? (hnames : fs.top.DistinctNames) {p : Path} {t : FileTree}
    (hfind : fs.find? p = .ok t) : t.DistinctNames := by
  obtain ⟨start, place, -, -, hplace⟩ := FileSystem.find?_eq_ok_iff.1 hfind
  exact hnames.at? hplace

/-- A check goes through the files of a folder that it is to visit, in the order of their places. -/
theorem checkedFiles_visits (hnames : fs.top.DistinctNames) (hfolder : fs.hasFolder folder = true)
    (extension : String) : ∃ files, checkedFiles fs folder extension = .ok files ∧
      ListsInOrder (·.place) (·.VisitedIn fs folder extension) files := by
  obtain ⟨entries, hfind⟩ := FileSystem.hasFolder_iff.1 hfolder
  have hentries := FileSystem.distinctNames_of_find? hnames hfind
  have hall : fs.filesBelow folder = .ok (FileTree.folder entries).files := by
    rw [FileSystem.filesBelow, hfind]
    rfl
  let chosen := (FileTree.folder entries).files.filter fun entry =>
    entry.1.getLast?.bind Path.extensionOf? == some extension
  have hfiles : checkedFiles fs folder extension =
      .ok ((chosen.mergeSort fun a b => placeLe a.1 b.1).map fun entry => ⟨entry.1, entry.2⟩) := by
    rw [checkedFiles, hall]
    rfl
  refine ⟨_, hfiles, ?_, fun f => ?_⟩
  · have hplaces : (chosen.map (·.1)).Nodup :=
      hentries.nodup_places.sublist (List.filter_sublist.map _)
    exact List.pairwise_map.2 (pairwise_lt_mergeSort hplaces)
  · obtain ⟨files, hfiles', hmem⟩ := mem_checkedFiles_iff hall extension
    rw [hfiles] at hfiles'
    cases hfiles'
    rw [hmem, CheckedFile.visitedIn_iff hfind, hentries.mem_files_iff]

/-- The same of a folder that may be missing. -/
theorem checkedFiles?_visits (hnames : fs.top.DistinctNames)
    (hfolder : fs.present folder = true → fs.hasFolder folder = true) (extension : String) :
    ∃ files, checkedFiles? fs folder extension = .ok files ∧
      files.isNone = !fs.present folder ∧
      ListsInOrder (·.place) (·.VisitedIn fs folder extension) (files.getD []) := by
  cases hpresent : fs.present folder with
  | true =>
    obtain ⟨files, hfiles, hvisits⟩ := checkedFiles_visits hnames (hfolder hpresent) extension
    exact ⟨some files, checkedFiles?_eq hfiles, rfl, hvisits⟩
  | false =>
    refine ⟨none, by rw [checkedFiles?, hpresent]; rfl, rfl, .nil, fun f => ?_⟩
    refine iff_of_false List.not_mem_nil ?_
    rintro ⟨t, hfind, -⟩
    rw [FileSystem.present, hfind] at hpresent
    cases hpresent

/-- What is wrong with the files is listed as they are. -/
theorem listsFaults (h : ListsInOrder (·.place) (·.VisitedIn fs folder extension) files) :
    ListsFaults fs folder extension d (files.filterMap fun f => (f.error? d).map (f, ·)) where
  inOrder := by
    refine h.inOrder.filterMap _ fun f f' hlt a ha b hb => ?_
    obtain ⟨error, -, rfl⟩ := Option.map_eq_some_iff.1 ha
    obtain ⟨error', -, rfl⟩ := Option.map_eq_some_iff.1 hb
    exact hlt
  mem_iff := by
    rintro ⟨f, error⟩
    rw [List.mem_filterMap]
    constructor
    · rintro ⟨f', hf', herror⟩
      obtain ⟨error', herror, heq⟩ := Option.map_eq_some_iff.1 herror
      cases heq
      exact ⟨(h.mem_iff f).1 hf', CheckedFile.error?_eq_some_iff.1 herror⟩
    · rintro ⟨hf, herror⟩
      refine ⟨f, (h.mem_iff f).2 hf, ?_⟩
      rw [CheckedFile.error?_eq_some_iff.2 herror, Option.map_some]

/-! ## The order of entries -/

theorem checkedFiles_sameAt (hnames : fs.top.DistinctNames) (hnames' : top.DistinctNames)
    (h : fs.top.SameAt top) :
    checkedFiles { fs with top } folder extension = checkedFiles fs folder extension := by
  rcases FileSystem.find?_sameAt h folder with
    ⟨fault, hfind, hfind'⟩ | ⟨t, t', hfind, hfind', hsame⟩
  · rw [checkedFiles, checkedFiles, FileSystem.filesBelow, FileSystem.filesBelow, hfind, hfind']
  · cases t with
    | file content =>
      rw [checkedFiles, checkedFiles, FileSystem.filesBelow, FileSystem.filesBelow, hfind, hfind',
        hsame.file]
    | folder entries =>
      obtain ⟨entries', rfl, -⟩ := hsame.folder
      obtain ⟨files, hfiles, hvisits⟩ :=
        checkedFiles_visits hnames (FileSystem.hasFolder_iff.2 ⟨entries, hfind⟩) extension
      obtain ⟨files', hfiles', hvisits'⟩ :=
        checkedFiles_visits hnames' (FileSystem.hasFolder_iff.2 ⟨entries', hfind'⟩) extension
      have hvisited (f : CheckedFile) : f.VisitedIn { fs with top } folder extension ↔
          f.VisitedIn fs folder extension := by
        rw [CheckedFile.visitedIn_iff hfind, CheckedFile.visitedIn_iff hfind', hsame.at?_file_iff]
      have heq : files' = files :=
        ListsInOrder.unique ⟨hvisits'.inOrder, fun f => (hvisits'.mem_iff f).trans (hvisited f)⟩
          hvisits
      rw [hfiles, hfiles', heq]

/-- The order in which folders list their entries does not matter to a check. -/
theorem check_rearranged (hnames : fs.top.DistinctNames) (h : fs.top.Rearranged top) (root : Path) :
    check { fs with top } root = check fs root := by
  have hsame := h.sameAt hnames
  have hsettings :
      Settings.loadOrDefault { fs with top } root = Settings.loadOrDefault fs root := by
    rw [Settings.loadOrDefault, Settings.loadOrDefault, Settings.load, Settings.load,
      FileSystem.present_sameAt hsame, FileSystem.read_sameAt hsame]
  have hfiles (folder : Path) (extension : String) :
      checkedFiles? { fs with top } folder extension = checkedFiles? fs folder extension := by
    rw [checkedFiles?, checkedFiles?, FileSystem.present_sameAt hsame,
      checkedFiles_sameAt hnames (h.distinctNames hnames) hsame]
  have hreport : reportOn { fs with top } = reportOn fs := by
    funext settings root d templates partials
    simp only [reportOn, FileSystem.hasFile_sameAt hsame]
  rw [check, check, hsettings]
  simp only [hfiles, hreport]

end

/-! ## Names -/

theorem nodup_eraseDups {α : Type} [BEq α] [LawfulBEq α] (xs : List α) : xs.eraseDups.Nodup := by
  match xs with
  | [] => simp
  | x :: xs =>
    rw [List.eraseDups_cons]
    refine List.nodup_cons.2 ⟨fun hmem => ?_, nodup_eraseDups _⟩
    simp [List.mem_eraseDups] at hmem
termination_by xs.length
decreasing_by exact Nat.lt_succ_of_le (List.length_filter_le ..)

theorem sortedNames_pairwise (names : List String) : (sortedNames names).Pairwise (· < ·) := by
  have hnames : (names.eraseDups.map id).Nodup := by
    rw [List.map_id]
    exact nodup_eraseDups names
  exact pairwise_lt_mergeSort hnames

/-! ## The report -/

/-- The report on a project with a folder of templates, and a folder of texts to include or nothing
in its place. The errors are what is wrong with the files that are visited, first the templates and
then the texts to include, in the order of their places. The warnings are one for the folder, if it
is missing though there are texts to include, and one for each name that is included and is not that
of a file, in the order of the names. How folders order their entries does not matter. -/
theorem check_reports_faults {fs : FileSystem} {root : Path} {settings : Settings} {d : Delimiters}
    (hnames : fs.top.DistinctNames) (hloaded : Settings.loadOrDefault fs root = .ok settings)
    (hpaired : settings.delimiters? = .ok d)
    (htemplates : fs.hasFolder (settings.templatesFolder root) = true)
    (hpartials : fs.present (settings.partialsFolder root) = true →
      fs.hasFolder (settings.partialsFolder root) = true) :
    ∃ report, check fs root = .ok report ∧
      (∃ first second, report.errors = (first ++ second).map (·.2) ∧
        ListsFaults fs (settings.templatesFolder root) settings.templates.extension d first ∧
        ListsFaults fs (settings.partialsFolder root) settings.partials.extension d second) ∧
      (∃ (missing : List ProjectWarning) (names : List String),
        report.warnings = missing ++ names.map .noPartial ∧
        (settings.LacksPartials fs root d ∧ missing = [.noPartials settings.partials.folder] ∨
          ¬settings.LacksPartials fs root d ∧ missing = []) ∧
        ListsInOrder id (fun name => settings.Includes fs root d name ∧
          ¬∃ content, fs.find? (settings.partialPath root name) = .ok (.file content)) names) ∧
      ∀ top, fs.top.Rearranged top → check { fs with top } root = .ok report := by
  obtain ⟨templates, htemplates?, hnone, hvisits⟩ :=
    checkedFiles?_visits hnames (fun _ => htemplates) settings.templates.extension
  obtain ⟨partials, hpartials?, hnone', hvisits'⟩ :=
    checkedFiles?_visits hnames hpartials settings.partials.extension
  have hcheck : check fs root = .ok (reportOn fs settings root d templates partials) := by
    rw [check, hloaded]
    simp only [hpaired, htemplates?, hpartials?, ok_bind]
    rfl
  have hpresent : templates.isNone = false := by
    obtain ⟨entries, hfind⟩ := FileSystem.hasFolder_iff.1 htemplates
    rw [hnone, FileSystem.present, hfind]
    rfl
  let files := templates.getD [] ++ partials.getD []
  let included := sortedNames (files.flatMap (·.included d))
  have hincluded : ∀ name, name ∈ included ↔ settings.Includes fs root d name := by
    intro name
    simp only [included, files, mem_sortedNames, List.mem_flatMap, List.mem_append,
      CheckedFile.mem_included_iff, hvisits.mem_iff, hvisits'.mem_iff]
    rfl
  have hlacks :
      (partials.isNone && !included.isEmpty) = true ↔ settings.LacksPartials fs root d := by
    rw [hnone', Bool.and_eq_true, Bool.not_eq_true', Bool.not_eq_true',
      List.isEmpty_eq_false_iff_exists_mem]
    exact and_congr_right fun _ => exists_congr hincluded
  refine ⟨_, hcheck, ⟨_, _, ?_, listsFaults hvisits, listsFaults hvisits'⟩, ⟨_, _, rfl, ?_,
    (sortedNames_pairwise _).filter _, fun name => ?_⟩,
    fun top htop => (check_rearranged hnames htop root).trans hcheck⟩
  · have hnothing (faults : List ProjectError) :
        (if templates.isNone = true then faults else []) = [] := by rw [hpresent]; rfl
    rw [reportOn, hnothing, List.nil_append, ← List.filterMap_append, List.map_filterMap]
    simp only [Option.map_map, Function.comp_def, Option.map_id']
  · by_cases h : settings.LacksPartials fs root d
    · exact .inl ⟨h, if_pos (hlacks.2 h)⟩
    · exact .inr ⟨h, if_neg (mt hlacks.1 h)⟩
  · rw [List.mem_filter, hincluded, Bool.not_eq_true', Bool.eq_false_iff, ne_eq,
      FileSystem.hasFile_iff]
    rfl

/-- A template inside another folder, with an inclusion inside a section, and a text to include that
is no text. -/
def shopFiles : FileSystem where
  top := .folder [("shop", .folder [
    ("partials", .folder [("logo.mustache", .file .bytes)]),
    ("templates", .folder [
      ("sale", .folder [("home.mustache", .file (.text
        "\x7b\x7b#a\x7d\x7d\x7b\x7b>foot\x7d\x7d\x7b\x7b/a\x7d\x7d"))]),
      ("notes.txt", .file .bytes)])])]

def shopReport : Report where
  errors := [.unreadable "logo.mustache" .notText]
  warnings := [.noPartial "foot"]

/-- The one fault is all that is wrong with the files that are visited, and the one name is all that
is missing; with the entries of a folder in another order the report is the same. -/
theorem check_reports_faults_shop :
    shopFiles.top.DistinctNames ∧ check shopFiles (.ofText "/shop") = .ok shopReport ∧
    (∃ first second, shopReport.errors = (first ++ second).map (·.2) ∧
      ListsFaults shopFiles (.ofText "/shop/templates") "mustache" .standard first ∧
      ListsFaults shopFiles (.ofText "/shop/partials") "mustache" .standard second) ∧
    (∃ missing names, shopReport.warnings = missing ++ names.map .noPartial ∧
      ListsInOrder id (fun name => Settings.Includes {} shopFiles (.ofText "/shop") .standard name ∧
        ¬∃ content, shopFiles.find? (Settings.partialPath {} (.ofText "/shop") name) =
          .ok (.file content)) names) ∧
    ∀ top, shopFiles.top.Rearranged top →
      check { shopFiles with top } (.ofText "/shop") = .ok shopReport := by
  have hnames : shopFiles.top.DistinctNames := by
    repeat' first
      | exact .file _
      | refine .folder (by decide) ?_
      | refine List.forall_mem_cons.2 ⟨?_, ?_⟩
      | exact List.forall_mem_nil _
  have hloaded : Settings.loadOrDefault shopFiles (.ofText "/shop") = .ok {} := by decide +kernel
  have hpaired : Settings.delimiters? {} = .ok .standard := by decide +kernel
  have hcheck : check shopFiles (.ofText "/shop") = .ok shopReport := by decide +kernel
  have htemplates : Settings.templatesFolder {} (.ofText "/shop") = .ofText "/shop/templates" := by
    decide +kernel
  have hpartials : Settings.partialsFolder {} (.ofText "/shop") = .ofText "/shop/partials" := by
    decide +kernel
  obtain ⟨report, hreport, herrors, ⟨missing, names, hwarnings, -, hnames'⟩, horder⟩ :=
    check_reports_faults hnames hloaded hpaired (by decide +kernel) (fun _ => by decide +kernel)
  obtain rfl := Except.ok.inj (hcheck.symm.trans hreport)
  rw [htemplates, hpartials] at herrors
  exact ⟨hnames, hcheck, herrors, ⟨missing, names, hwarnings, hnames'⟩, horder⟩

end TagTemplate
