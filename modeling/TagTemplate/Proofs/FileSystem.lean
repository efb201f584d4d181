import TagTemplate.Fault
import TagTemplate.FileSystem

/-!
# What a path below a folder leads to

Main statement: `find?_below`, the file that a path of names leads to from a folder is among the
files that are found below the folder, at that place.
-/

namespace TagTemplate

/-! ## Trees -/

namespace FileTree

theorem at?_append (t : FileTree) (a b : Place) : t.at? (a ++ b) = (t.at? a).bind (·.at? b) := by
  induction a generalizing t with
  | nil => rfl
  | cons name a ih =>
    cases t with
    | file content => rfl
    | folder entries =>
      rw [List.cons_append, at?, at?, Option.bind_assoc]
      exact congrArg _ (funext ih)

theorem mem_filesOfEntries {name : String} {entries : List (String × FileTree)} {t : FileTree}
    (found : child? name entries = some t) {place : Place} {content : Content}
    (present : (place, content) ∈ t.files) :
    (name :: place, content) ∈ filesOfEntries entries := by
  induction entries with
  | nil => cases found
  | cons entry rest ih =>
    obtain ⟨n, t'⟩ := entry
    rw [child?] at found
    rw [filesOfEntries, List.mem_append]
    split at found
    · next hn =>
      cases found
      exact .inl (List.mem_map.2 ⟨_, present, by rw [hn]⟩)
    · exact .inr (ih found)

/-- A file at a place of a tree is among its files. -/
theorem mem_files_of_at? {t : FileTree} {place : Place} {content : Content}
    (h : t.at? place = some (.file content)) : (place, content) ∈ t.files := by
  induction place generalizing t with
  | nil =>
    cases h
    exact List.mem_singleton_self _
  | cons name place ih =>
    cases t with
    | file other => cases h
    | folder entries =>
      rw [at?] at h
      obtain ⟨child, found, h⟩ := Option.bind_eq_some_iff.1 h
      exact mem_filesOfEntries found (ih h)

end FileTree

/-! ## Paths -/

namespace Path

/-- The segment is a name: it neither stays in its folder nor leads out of it. -/
def IsName (segment : String) : Prop := isIdle segment = false ∧ segment ≠ ".."

theorem ofText_segments_ne (text : String) : (ofText text).segments ≠ [] := by
  rw [ofText, ne_eq, List.map_eq_nil_iff]
  exact splitOn_ne_nil '/' text.toList

theorem ofText_isEmpty {text : String} (h : text ≠ "") : (ofText text).isEmpty = false := by
  refine beq_false_of_ne fun hsegments => h ?_
  have htext := text_ofText text
  rw [Path.text, hsegments] at htext
  exact htext.symm

/-- Names lead on from where they are taken. -/
theorem isAbsolute_names {p : Path} (h : ∀ segment ∈ p.segments, IsName segment) :
    p.isAbsolute = false := by
  obtain ⟨segments⟩ := p
  rw [isAbsolute]
  split
  · next first more hsegments =>
    obtain rfl : segments = "" :: first :: more := hsegments
    have hidle := (h "" List.mem_cons_self).1
    cases hidle
  · rfl

/-- A path goes on where that of a folder ends, an empty segment at the end of that one aside. -/
inductive GoesOn : Path → List String → Path → Prop
  | behind {front more : List String} : front ≠ [] → front ≠ [""] → more ≠ [] →
      GoesOn ⟨front⟩ more ⟨front ++ more⟩
  | behindSlash {front more : List String} : front ≠ [] → more ≠ [] →
      GoesOn ⟨front ++ [""]⟩ more ⟨front ++ more⟩

theorem goesOn_join {folder p : Path} (hfolder : folder.segments ≠ [])
    (hempty : folder.isEmpty = false) (hp : p.segments ≠ []) (hrelative : p.isAbsolute = false) :
    GoesOn folder p.segments (folder.join p) := by
  obtain ⟨segments⟩ := folder
  have hne : segments ≠ [""] := by
    rintro rfl
    cases hempty
  rw [join, hrelative, if_neg Bool.false_ne_true]
  split
  · next hlast =>
    obtain ⟨front, rfl⟩ := List.getLast?_eq_some_iff.1 hlast
    rw [List.dropLast_concat]
    refine .behindSlash ?_ hp
    rintro rfl
    exact hne rfl
  · exact .behind hfolder hne hp

theorem isAbsolute_cons (first next : String) (more : List String) :
    isAbsolute ⟨first :: next :: more⟩ = (first == "") := by
  by_cases hfirst : first = ""
  · rw [hfirst]
    rfl
  · simp [isAbsolute, hfirst]

theorem toList_text (p : Path) : p.text.toList = joinOn '/' (p.segments.map String.toList) := by
  rw [text, String.toList_ofList]

namespace GoesOn

variable {folder whole : Path} {more : List String}

/-- The path of the folder is written at the start. -/
theorem text_prefix (h : GoesOn folder more whole) : folder.text.toList <+: whole.text.toList := by
  rw [toList_text, toList_text]
  cases h with
  | behind hfront _ hmore =>
    rw [List.map_append, joinOn_append '/' (by simpa using hfront) (by simpa using hmore)]
    exact List.prefix_append _ _
  | behindSlash hfront hmore =>
    rw [List.map_append, List.map_append, joinOn_append '/' (by simpa using hfront) (by simp),
      joinOn_append '/' (by simpa using hfront) (by simpa using hmore),
      List.prefix_append_right_inj]
    exact List.prefix_append ['/'] _

theorem isAbsolute_eq (h : GoesOn folder more whole) : whole.isAbsolute = folder.isAbsolute := by
  cases h with
  | @behind front more hfront hne hmore =>
    obtain ⟨segment, more, rfl⟩ := List.exists_cons_of_ne_nil hmore
    obtain ⟨first, front, rfl⟩ := List.exists_cons_of_ne_nil hfront
    cases front with
    | cons next front => exact (isAbsolute_cons ..).trans (isAbsolute_cons ..).symm
    | nil =>
      have hfirst : first ≠ "" := fun h => hne (by rw [h])
      rw [List.singleton_append, isAbsolute_cons, beq_false_of_ne hfirst, isAbsolute]
      simp
  | @behindSlash front more hfront hmore =>
    obtain ⟨segment, more, rfl⟩ := List.exists_cons_of_ne_nil hmore
    obtain ⟨first, front, rfl⟩ := List.exists_cons_of_ne_nil hfront
    cases front <;> exact (isAbsolute_cons ..).trans (isAbsolute_cons ..).symm

theorem isEmpty_folder (h : GoesOn folder more whole) : folder.isEmpty = false := by
  cases h with
  | behind _ hne _ => exact beq_false_of_ne hne
  | behindSlash hfront _ =>
    refine beq_false_of_ne fun hempty => hfront ?_
    exact (List.append_eq_singleton_iff.1 hempty).elim And.left fun h => nomatch h.2

theorem isEmpty_whole (h : GoesOn folder more whole) :
    whole.segments ≠ [] ∧ whole.isEmpty = false := by
  obtain ⟨front, hfront, hmore, rfl⟩ :
      ∃ front, front ≠ [] ∧ more ≠ [] ∧ whole = ⟨front ++ more⟩ := by
    cases h with
    | behind hfront _ hmore => exact ⟨_, hfront, hmore, rfl⟩
    | behindSlash hfront hmore => exact ⟨_, hfront, hmore, rfl⟩
  refine ⟨fun hnil => hmore (List.append_eq_nil_iff.1 hnil).2, beq_false_of_ne fun hempty => ?_⟩
  rcases List.append_eq_singleton_iff.1 hempty with ⟨hnil, -⟩ | ⟨-, hnil⟩
  · exact hfront hnil
  · exact hmore hnil

end GoesOn

/-- What is taken from a folder has a name. -/
theorem join_isEmpty {folder p : Path} (hfolder : folder.segments ≠ [])
    (hempty : folder.isEmpty = false) (hp : p.segments ≠ []) :
    (folder.join p).segments ≠ [] ∧ (folder.join p).isEmpty = false := by
  cases habsolute : p.isAbsolute with
  | false => exact (goesOn_join hfolder hempty hp habsolute).isEmpty_whole
  | true =>
    rw [join, if_pos habsolute]
    refine ⟨hp, beq_false_of_ne fun hsegments => ?_⟩
    rw [isAbsolute, hsegments] at habsolute
    cases habsolute

end Path

/-! ## Walks -/

namespace FileSystem

variable {fs : FileSystem} {top : FileTree} {place next : Place} {segment : String}
  {segments more : List String} {folder whole : Path} {content : Content}

/-- A step is taken in a folder. -/
theorem step_folder (h : step top place segment = .ok next) :
    ∃ entries, top.at? place = some (.folder entries) := by
  rw [step] at h
  split at h
  · next entries hplace => exact ⟨entries, hplace⟩
  · cases h
  · cases h

theorem step_name (h : step top place segment = .ok next) (hname : Path.IsName segment) :
    next = place ++ [segment] := by
  obtain ⟨entries, hplace⟩ := step_folder h
  simp only [step, hplace, hname.1, hname.2, Bool.false_eq_true, if_false] at h
  split at h
  · cases h
  · split at h
    · exact (Except.ok.inj h).symm
    · cases h

/-- A step that ends at a file goes to the entry that it names. -/
theorem step_to_file (h : step top place segment = .ok next)
    (hfile : top.at? next = some (.file content)) : next = place ++ [segment] := by
  obtain ⟨entries, hplace⟩ := step_folder h
  refine step_name h ⟨Bool.eq_false_iff.2 fun hidle => ?_, fun hup => ?_⟩
  · simp only [step, hplace, hidle, if_true] at h
    cases h
    rw [hplace] at hfile
    cases hfile
  · -- the step up leads to what has the folder in it, which is no file
    subst hup
    have hnext : next = place.dropLast := by
      simp only [step, hplace] at h
      exact (Except.ok.inj h).symm
    rw [hnext] at hfile
    rcases List.eq_nil_or_concat place with rfl | ⟨front, last, rfl⟩
    · rw [List.dropLast_nil, hplace] at hfile
      cases hfile
    · rw [List.concat_eq_append, List.dropLast_concat] at hfile
      rw [List.concat_eq_append, FileTree.at?_append, hfile] at hplace
      cases hplace

theorem walk_cons (top : FileTree) (place : Place) (segment : String) (rest : List String) :
    walk top place (segment :: rest) =
      step top place segment >>= fun place => walk top place rest := by
  rw [walk]
  cases step top place segment <;> rfl

theorem walk_append (top : FileTree) (place : Place) (a b : List String) :
    walk top place (a ++ b) = walk top place a >>= fun place => walk top place b := by
  induction a generalizing place with
  | nil => rfl
  | cons segment a ih =>
    rw [List.cons_append, walk_cons, walk_cons]
    cases step top place segment with
    | error fault => rfl
    | ok next => exact ih next

/-- A walk that ends at a file ends with the name of the file. -/
theorem walk_to_file (h : walk top place (segments ++ [segment]) = .ok next)
    (hfile : top.at? next = some (.file content)) : next.getLast? = some segment := by
  rw [walk_append] at h
  obtain ⟨middle, -, hlast⟩ := bind_eq_ok h
  rw [walk_cons] at hlast
  obtain ⟨last, hstep, hend⟩ := bind_eq_ok hlast
  cases hend
  rw [step_to_file hstep hfile, List.getLast?_concat]

/-- A walk along names starts in a folder and leads where the names say. -/
theorem walk_names (h : walk top place more = .ok next) (hmore : more ≠ [])
    (hnames : ∀ segment ∈ more, Path.IsName segment) :
    next = place ++ more ∧ ∃ entries, top.at? place = some (.folder entries) := by
  induction more generalizing place with
  | nil => exact absurd rfl hmore
  | cons segment more ih =>
    rw [walk_cons] at h
    obtain ⟨middle, hstep, hwalk⟩ := bind_eq_ok h
    obtain ⟨hname, hnames⟩ := List.forall_mem_cons.1 hnames
    obtain rfl := step_name hstep hname
    refine ⟨?_, step_folder hstep⟩
    cases more with
    | nil =>
      cases hwalk
      rfl
    | cons other more =>
      obtain ⟨hnext, -⟩ := ih hwalk (List.cons_ne_nil _ _) hnames
      rw [hnext, List.append_assoc, List.singleton_append]

theorem start_eq_ok_iff {p : Path} : fs.start p = .ok place ↔
    '\x00' ∉ p.text.toList ∧ p.isEmpty = false ∧ byteLength p.text.toList ≤ pathLimit ∧
      place = if p.isAbsolute then [] else fs.workingFolder := by
  rw [start]
  split
  · next hzero => simp [List.contains_iff_mem.1 hzero]
  · next hzero =>
    rw [List.contains_iff_mem] at hzero
    split
    · next hempty => simp [hempty]
    · next hempty =>
      split
      · next hlimit => simp [Nat.not_le.2 hlimit]
      · next hlimit =>
        constructor
        · intro hplace
          exact ⟨hzero, Bool.eq_false_iff.2 hempty, Nat.le_of_not_lt hlimit,
            (Except.ok.inj hplace).symm⟩
        · rintro ⟨-, -, -, hplace⟩
          rw [hplace]

/-- Where a path starts, its folder starts. -/
theorem start_folder (h : folder.GoesOn more whole) (hstart : fs.start whole = .ok place) :
    fs.start folder = .ok place := by
  obtain ⟨hzero, -, hlimit, hplace⟩ := start_eq_ok_iff.1 hstart
  obtain ⟨rest, hrest⟩ := h.text_prefix
  rw [← hrest, byteLength_append] at hlimit
  refine start_eq_ok_iff.2 ⟨fun hmem => hzero ?_, h.isEmpty_folder, by omega, ?_⟩
  · rw [← hrest]
    exact List.mem_append_left rest hmem
  · rw [hplace, h.isAbsolute_eq]

/-- The walk along a path of names goes through its folder. -/
theorem walk_folder (h : folder.GoesOn more whole) (hnames : ∀ segment ∈ more, Path.IsName segment)
    (hwalk : walk top place whole.segments = .ok next) :
    ∃ middle entries, walk top place folder.segments = .ok middle ∧
      top.at? middle = some (.folder entries) ∧ next = middle ++ more := by
  have hthrough {front : List String} (hmore : more ≠ [])
      (hwalk : walk top place (front ++ more) = .ok next) : ∃ middle entries,
      walk top place front = .ok middle ∧ top.at? middle = some (.folder entries) ∧
        next = middle ++ more := by
    rw [walk_append] at hwalk
    obtain ⟨middle, hfront, hrest⟩ := bind_eq_ok hwalk
    obtain ⟨hnext, entries, hfolder⟩ := walk_names hrest hmore hnames
    exact ⟨middle, entries, hfront, hfolder, hnext⟩
  cases h with
  | behind _ _ hmore => exact hthrough hmore hwalk
  | behindSlash _ hmore =>
    obtain ⟨middle, entries, hfront, hfolder, hnext⟩ := hthrough hmore hwalk
    refine ⟨middle, entries, ?_, hfolder, hnext⟩
    -- the empty segment at the end stays in the folder
    rw [walk_append, hfront, ok_bind, walk_cons, step, hfolder]
    rfl

theorem find?_eq_ok_iff {p : Path} {t : FileTree} : fs.find? p = .ok t ↔
    ∃ start place, fs.start p = .ok start ∧ walk fs.top start p.segments = .ok place ∧
      fs.top.at? place = some t := by
  rw [find?, locate]
  cases hstart : fs.start p with
  | error fault => simp
  | ok start =>
    rw [ok_bind]
    cases hwalk : walk fs.top start p.segments with
    | error fault => simp [hwalk]
    | ok place =>
      rw [ok_bind]
      cases hplace : fs.top.at? place with
      | none => simp [hwalk, hplace]
      | some found => simp [hwalk, hplace, pure, Except.pure]

/-- The file that a path of names leads to from a folder is among the files below the folder, and
its place is the path. -/
theorem find?_below (h : folder.GoesOn more whole) (hnames : ∀ segment ∈ more, Path.IsName segment)
    (hfile : fs.find? whole = .ok (.file content)) :
    ∃ files, fs.filesBelow folder = .ok files ∧ (more, content) ∈ files := by
  obtain ⟨start, place, hstart, hwalk, hplace⟩ := find?_eq_ok_iff.1 hfile
  obtain ⟨middle, entries, hfront, hfolder, rfl⟩ := walk_folder h hnames hwalk
  have hfind := find?_eq_ok_iff.2 ⟨start, middle, start_folder h hstart, hfront, hfolder⟩
  refine ⟨FileTree.filesOfEntries entries, ?_, ?_⟩
  · rw [filesBelow, hfind]
    rfl
  · rw [FileTree.at?_append, hfolder, Option.bind_some] at hplace
    exact FileTree.mem_files_of_at? hplace

theorem read_eq_ok_iff {p : Path} {text : String} : fs.read p = .ok text ↔
    ∃ content, fs.find? p = .ok (.file content) ∧ content.read = .ok text := by
  rw [read]
  cases hfind : fs.find? p with
  | error fault => simp
  | ok t => cases t <;> simp [throw, throwThe, MonadExceptOf.throw]

theorem hasFile_iff {p : Path} :
    fs.hasFile p = true ↔ ∃ content, fs.find? p = .ok (.file content) := by
  rw [hasFile]
  cases hfind : fs.find? p with
  | error fault => simp
  | ok t => cases t <;> simp

/-- A folder that has files below it is present. -/
theorem present_of_filesBelow {p : Path} {files : List (Place × Content)}
    (h : fs.filesBelow p = .ok files) : fs.present p = true := by
  rw [filesBelow] at h
  obtain ⟨t, hfind, -⟩ := bind_eq_ok h
  rw [present, hfind]

end FileSystem

end TagTemplate
