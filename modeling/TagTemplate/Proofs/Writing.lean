import TagTemplate.Proofs.Listing

/-!
# What writing changes

A file that is written, and a folder that is made, is an entry of a folder that was there: what
stands at other places stays. Main statements: `FileSystem.write_written`, a text that is written is
what its path leads to, and no other file is new or changed; `FileSystem.makeFolders_sameFiles`,
folders are made without a file being new or changed, also where not all of them can be made.
-/

namespace TagTemplate

/-! ## Trees -/

namespace FileTree

variable {t : FileTree} {entries : List (String × FileTree)} {folder place : Place}
  {name : String} {content : Content}

theorem at?_eq_file_iff :
    t.at? place = some (.file content) ↔ (t.at? place).map held? = some (some content) := by
  constructor
  · intro h
    rw [h]
    rfl
  · intro h
    obtain ⟨found, hfound, hheld⟩ := Option.map_eq_some_iff.1 h
    cases found with
    | file other =>
      cases hheld
      exact hfound
    | folder inside => cases hheld

/-- Nothing is below what is no folder. -/
theorem at?_below (hfree : ∀ inside, t.at? place ≠ some (.folder inside)) (rest : Place) :
    t.at? (place ++ name :: rest) = none := by
  rw [at?_append]
  cases hplace : t.at? place with
  | none => rfl
  | some found =>
    cases found with
    | file other => rfl
    | folder inside => exact absurd hplace (hfree inside)

/-- What a folder is in is a folder. -/
theorem at?_dropLast (hfolder : t.at? place = some (.folder entries)) :
    ∃ outer, t.at? place.dropLast = some (.folder outer) := by
  rcases List.eq_nil_or_concat place with rfl | ⟨front, last, rfl⟩
  · exact ⟨entries, hfolder⟩
  · rw [List.concat_eq_append] at hfolder ⊢
    rw [List.dropLast_concat]
    by_contra hfree
    rw [at?_below (not_exists.1 hfree)] at hfolder
    cases hfolder

/-- What is put into a folder stands there. -/
theorem at?_put_inside (new : FileTree) (hfolder : t.at? folder = some (.folder entries))
    (rest : Place) :
    (t.put (folder ++ [name]) new).at? (folder ++ [name] ++ rest) = new.at? rest := by
  -- on the names that lead to the folder
  induction folder generalizing t with
  | nil =>
    cases hfolder
    simp [put, FileTree.at?, child?_setEntry]
  | cons first folder ih =>
    cases t with
    | file other => cases hfolder
    | folder inside =>
      obtain ⟨child, hchild, hfolder⟩ := Option.bind_eq_some_iff.1 hfolder
      rw [List.cons_append, List.cons_append, put, FileTree.at?, child?_setEntry, if_pos rfl,
        hchild]
      exact ih hfolder

theorem at?_put (new : FileTree) (hfolder : t.at? folder = some (.folder entries)) :
    (t.put (folder ++ [name]) new).at? (folder ++ [name]) = some new := by
  simpa [FileTree.at?] using at?_put_inside new hfolder []

/-- What is put into a folder changes nothing at other places, but that the folders on the way have
other entries. -/
theorem held?_put (new : FileTree) (hfolder : t.at? folder = some (.folder entries))
    (hplace : ¬folder ++ [name] <+: place) :
    ((t.put (folder ++ [name]) new).at? place).map held? = (t.at? place).map held? := by
  induction folder generalizing t place with
  | nil =>
    cases hfolder
    cases place with
    | nil => rfl
    | cons other rest =>
      have hother : other ≠ name := by
        rintro rfl
        exact hplace (List.prefix_append [other] rest)
      rw [List.nil_append, put, FileTree.at?, child?_setEntry, if_neg hother, FileTree.at?]
  | cons first folder ih =>
    cases t with
    | file other => cases hfolder
    | folder inside =>
      obtain ⟨child, hchild, hinside⟩ := Option.bind_eq_some_iff.1 hfolder
      cases place with
      | nil => rfl
      | cons other rest =>
        rw [List.cons_append, put, FileTree.at?, child?_setEntry, FileTree.at?]
        split
        · next hother =>
          subst hother
          rw [hchild]
          exact ih hinside fun hprefix => hplace (List.cons_prefix_cons.2 ⟨rfl, hprefix⟩)
        · rfl

/-- There is a folder, and if it has an entry of the name then that is a file. -/
structure HasRoom (t : FileTree) (folder : Place) (name : String) : Prop where
  inFolder : ∃ entries, t.at? folder = some (.folder entries)
  free : ∀ inside, t.at? (folder ++ [name]) ≠ some (.folder inside)

namespace HasRoom

/-- A place is the one where there is room, or below it, where nothing is, or elsewhere. -/
theorem place_cases (h : t.HasRoom folder name) (place : Place) : place = folder ++ [name] ∨
    (∃ first rest, place = folder ++ [name] ++ first :: rest ∧ t.at? place = none) ∨
      ¬folder ++ [name] <+: place := by
  by_cases hinside : folder ++ [name] <+: place
  · obtain ⟨_ | ⟨first, rest⟩, rfl⟩ := hinside
    · exact .inl (List.append_nil _)
    · exact .inr (.inl ⟨first, rest, rfl, at?_below h.free rest⟩)
  · exact .inr (.inr hinside)

variable (h : t.HasRoom folder name) (new : FileTree)
include h

/-- Folders stay where they are. -/
theorem put_folder {inside : List (String × FileTree)}
    (hplace : t.at? place = some (.folder inside)) :
    ∃ inside', (t.put (folder ++ [name]) new).at? place = some (.folder inside') := by
  obtain rfl | ⟨first, rest, -, hnone⟩ | houtside := h.place_cases place
  · exact absurd hplace (h.free inside)
  · cases hplace.symm.trans hnone
  · obtain ⟨entries, hfolder⟩ := h.inFolder
    have hheld := held?_put new hfolder houtside
    rw [hplace, Option.map_some] at hheld
    obtain ⟨found, hfound, hfolder'⟩ := Option.map_eq_some_iff.1 hheld
    cases found with
    | file content => cases hfolder'
    | folder inside' => exact ⟨inside', hfound⟩

/-- What was there is there, if only as a folder with other entries or as what was put there. -/
theorem put_isSome (hplace : (t.at? place).isSome = true) :
    ((t.put (folder ++ [name]) new).at? place).isSome = true := by
  obtain ⟨entries, hfolder⟩ := h.inFolder
  obtain rfl | ⟨first, rest, -, hnone⟩ | houtside := h.place_cases place
  · rw [at?_put new hfolder]
    rfl
  · rw [hnone] at hplace
    cases hplace
  · rwa [← Option.isSome_map (f := held?), held?_put new hfolder houtside, Option.isSome_map]

/-- No other file is new or changed if nothing is inside of what is put there. -/
theorem put_file_iff {new : FileTree} (hnew : ∀ first rest, new.at? (first :: rest) = none)
    (hplace : place ≠ folder ++ [name]) :
    (t.put (folder ++ [name]) new).at? place = some (.file content) ↔
      t.at? place = some (.file content) := by
  obtain ⟨entries, hfolder⟩ := h.inFolder
  obtain rfl | ⟨first, rest, rfl, hnone⟩ | houtside := h.place_cases place
  · exact absurd rfl hplace
  · rw [at?_put_inside new hfolder, hnew, hnone]
  · rw [at?_eq_file_iff, at?_eq_file_iff, held?_put new hfolder houtside]

end HasRoom

end FileTree

/-! ## File systems -/

namespace FileSystem

/-- No file is new, changed or gone, but for what stands at some places. -/
structure SameFilesBut (before : FileSystem) (written : List Place) (after : FileSystem) :
    Prop where
  workingFolder : after.workingFolder = before.workingFolder
  files : ∀ place, place ∉ written → ∀ content,
    after.top.at? place = some (.file content) ↔ before.top.at? place = some (.file content)

/-- No file is new, changed or gone. -/
abbrev SameFiles (before after : FileSystem) : Prop := before.SameFilesBut [] after

/-- The text is what the path leads to, and no other file is new, changed or gone. -/
def Written (before : FileSystem) (p : Path) (text : String) (after : FileSystem) : Prop :=
  ∃ place, after.locate p = .ok place ∧ after.top.at? place = some (.file (.text text)) ∧
    before.SameFilesBut [place] after

variable {fs after : FileSystem} {top : FileTree} {entries : List (String × FileTree)}
  {folder place next : Place} {name segment : String} {written : List Place} {p : Path}
  {text : String}

theorem SameFilesBut.refl (fs : FileSystem) : fs.SameFiles fs :=
  ⟨rfl, fun _ _ _ => .rfl⟩

theorem SameFilesBut.trans {last : FileSystem} (h : fs.SameFiles after)
    (h' : after.SameFilesBut written last) : fs.SameFilesBut written last where
  workingFolder := h'.workingFolder.trans h.workingFolder
  files place hplace content :=
    (h'.files place hplace content).trans (h.files place List.not_mem_nil content)

theorem Written.trans {middle : FileSystem} (h : fs.SameFiles middle)
    (h' : middle.Written p text after) : fs.Written p text after := by
  obtain ⟨place, hplace, hfile, hsame⟩ := h'
  exact ⟨place, hplace, hfile, h.trans hsame⟩

theorem Written.read (h : fs.Written p text after) : after.read p = .ok text := by
  obtain ⟨place, hplace, hfile, -⟩ := h
  rw [FileSystem.read, find?, hplace, ok_bind, hfile]
  rfl

/-! ### Steps -/

theorem step_of_folder (hfolder : top.at? place = some (.folder entries)) (segment : String) :
    step top place segment =
      if Path.isIdle segment then .ok place
      else if segment = ".." then .ok place.dropLast
      else if nameLimit < byteLength segment.toList then .error .nameTooLong
      else if (FileTree.child? segment entries).isSome then .ok (place ++ [segment])
      else .error .missing := by
  rw [step, hfolder]

/-- A segment that can be the name of an entry. -/
def CanName (segment : String) : Prop :=
  Path.IsName segment ∧ byteLength segment.toList ≤ nameLimit

theorem isSome_child? (hfolder : top.at? place = some (.folder entries)) :
    (FileTree.child? segment entries).isSome = (top.at? (place ++ [segment])).isSome := by
  rw [FileTree.at?_append, hfolder, Option.bind_some, FileTree.at?]
  cases FileTree.child? segment entries <;> rfl

/-- A step in a folder leads to a folder or to an entry, if there is one of that name. -/
theorem step_cases (hfolder : top.at? place = some (.folder entries)) (segment : String) :
    (∃ next inside, step top place segment = .ok next ∧ top.at? next = some (.folder inside)) ∨
      step top place segment = .error .nameTooLong ∨
      CanName segment ∧ step top place segment =
        if (top.at? (place ++ [segment])).isSome then .ok (place ++ [segment])
        else .error .missing := by
  rw [step_of_folder hfolder, isSome_child? hfolder]
  by_cases hidle : Path.isIdle segment = true
  · rw [if_pos hidle]
    exact .inl ⟨place, entries, rfl, hfolder⟩
  · rw [if_neg hidle]
    by_cases hup : segment = ".."
    · obtain ⟨outer, houter⟩ := FileTree.at?_dropLast hfolder
      rw [if_pos hup]
      exact .inl ⟨place.dropLast, outer, rfl, houter⟩
    · rw [if_neg hup]
      by_cases hlimit : nameLimit < byteLength segment.toList
      · rw [if_pos hlimit]
        exact .inr (.inl rfl)
      · rw [if_neg hlimit]
        exact .inr (.inr ⟨⟨⟨Bool.eq_false_iff.2 hidle, hup⟩, Nat.le_of_not_lt hlimit⟩, rfl⟩)

theorem step_of_canName (hfolder : top.at? place = some (.folder entries))
    (hname : CanName segment) (hthere : (top.at? (place ++ [segment])).isSome = true) :
    step top place segment = .ok (place ++ [segment]) := by
  obtain ⟨⟨hidle, hup⟩, hlimit⟩ := hname
  rw [step_of_folder hfolder, isSome_child? hfolder, hidle, if_neg Bool.false_ne_true, if_neg hup,
    if_neg (Nat.not_lt.2 hlimit), if_pos hthere]

theorem canName_of_missing (hfolder : top.at? place = some (.folder entries))
    (h : step top place segment = .error .missing) :
    CanName segment ∧ top.at? (place ++ [segment]) = none := by
  obtain ⟨next, inside, hstep, -⟩ | hstep | ⟨hname, hstep⟩ := step_cases hfolder segment
  · cases hstep.symm.trans h
  · cases hstep.symm.trans h
  · rw [h] at hstep
    split at hstep
    · cases hstep
    · next hnone => exact ⟨hname, Option.not_isSome_iff_eq_none.1 hnone⟩

theorem canName_of_free (hfolder : top.at? place = some (.folder entries))
    (h : step top place segment = .ok next)
    (hfree : ∀ inside, top.at? next ≠ some (.folder inside)) :
    CanName segment ∧ next = place ++ [segment] := by
  obtain ⟨next', inside, hstep, hinside⟩ | hstep | ⟨hname, hstep⟩ := step_cases hfolder segment
  · cases hstep.symm.trans h
    exact absurd hinside (hfree inside)
  · cases hstep.symm.trans h
  · rw [h] at hstep
    split at hstep
    · exact ⟨hname, Except.ok.inj hstep⟩
    · cases hstep

/-- A step that could be taken can be taken after something is put where there is room. -/
theorem step_put (hroom : top.HasRoom folder name) (new : FileTree)
    (h : step top place segment = .ok next) :
    step (top.put (folder ++ [name]) new) place segment = .ok next := by
  obtain ⟨inside, hplace⟩ := step_folder h
  obtain ⟨inside', hplace'⟩ := hroom.put_folder new hplace
  have hchild : (FileTree.child? segment inside).isSome = true →
      (FileTree.child? segment inside').isSome = true := by
    rw [isSome_child? hplace, isSome_child? hplace']
    exact hroom.put_isSome new
  rw [step_of_folder hplace] at h
  rw [step_of_folder hplace']
  -- both steps ask the same of the segment; the folder has at least the entries it had
  grind

theorem walk_put {segments : List String} (hroom : top.HasRoom folder name) (new : FileTree)
    (h : walk top place segments = .ok next) :
    walk (top.put (folder ++ [name]) new) place segments = .ok next := by
  induction segments generalizing place with
  | nil => exact h
  | cons segment segments ih =>
    rw [walk_cons] at h ⊢
    obtain ⟨middle, hstep, hwalk⟩ := bind_eq_ok h
    rw [step_put hroom new hstep, ok_bind]
    exact ih hwalk

/-! ### Writing -/

/-- The folder that the end of a path is to be found in. -/
theorem approach_eq_ok (h : fs.approach p = .ok (some (folder, name))) :
    (∃ entries, fs.top.at? folder = some (.folder entries)) ∧
      ∃ start before idle, fs.start p = .ok start ∧ walk fs.top start before = .ok folder ∧
        p.segments = before ++ name :: idle ∧ ∀ segment ∈ idle, segment = "" := by
  rw [approach] at h
  obtain ⟨start, hstart, h⟩ := bind_eq_ok h
  split at h
  · cases h
  · next last before hlast =>
    obtain ⟨found, hwalk, h⟩ := bind_eq_ok h
    split at h
    · next entries hfound =>
      cases h
      let idle := p.segments.reverse.takeWhile (· == "")
      have hsplit : idle ++ name :: before = p.segments.reverse := by
        rw [← hlast, List.takeWhile_append_dropWhile]
      have hidle := List.all_eq_true.1
        (List.all_takeWhile (p := (· == "")) (l := p.segments.reverse))
      refine ⟨⟨entries, hfound⟩, start, before.reverse, idle.reverse, hstart, hwalk, ?_, ?_⟩
      · simpa using (congrArg List.reverse hsplit).symm
      · intro segment hsegment
        exact eq_of_beq (hidle segment (List.mem_reverse.1 hsegment))
    · cases h

/-- A text is put where the path leads to, if there is room. -/
theorem write_eq_ok (h : fs.write p text = .ok after) :
    ∃ folder name, fs.approach p = .ok (some (folder, name)) ∧ p.segments.getLast? ≠ some "" ∧
      CanName name ∧ fs.top.HasRoom folder name ∧
      after = { fs with top := fs.top.put (folder ++ [name]) (.file (.text text)) } := by
  rw [write] at h
  obtain ⟨_ | ⟨folder, name⟩, happroach, h⟩ := bind_eq_ok h
  · cases h
  · obtain ⟨⟨entries, hfolder⟩, -⟩ := approach_eq_ok happroach
    refine ⟨folder, name, happroach, ?_⟩
    dsimp only at h
    split at h
    · cases h
    · next hslash =>
      refine ⟨hslash, ?_⟩
      split at h
      · next place hstep =>
        split at h
        · cases h
        · next hfree =>
          obtain ⟨hname, rfl⟩ := canName_of_free hfolder hstep hfree
          cases h
          exact ⟨hname, ⟨⟨entries, hfolder⟩, hfree⟩, rfl⟩
      · next hstep =>
        obtain ⟨hname, hnone⟩ := canName_of_missing hfolder hstep
        cases h
        exact ⟨hname, ⟨⟨entries, hfolder⟩, fun inside => by simp [hnone]⟩, rfl⟩
      · cases h

/-- A text that is written is what the path leads to, and no other file is new or changed. -/
theorem write_written (h : fs.write p text = .ok after) : fs.Written p text after := by
  obtain ⟨folder, name, happroach, hslash, hname, hroom, rfl⟩ := write_eq_ok h
  obtain ⟨⟨entries, hfolder⟩, start, before, idle, hstart, hwalk, hsegments, hidle⟩ :=
    approach_eq_ok happroach
  obtain ⟨entries', hfolder'⟩ := hroom.put_folder (.file (.text text)) hfolder
  have hplace : (fs.top.put (folder ++ [name]) (.file (.text text))).at? (folder ++ [name]) =
      some (.file (.text text)) := FileTree.at?_put _ hfolder
  refine ⟨folder ++ [name], ?_, hplace, rfl, ?_⟩
  · -- no slash is behind the name, so that the path ends with it
    have hend : idle = [] := by
      rcases List.eq_nil_or_concat idle with rfl | ⟨front, last, rfl⟩
      · rfl
      · rw [hsegments, hidle last (by simp), List.concat_eq_append, ← List.cons_append,
          ← List.append_assoc, List.getLast?_concat] at hslash
        exact absurd rfl hslash
    subst hend
    have hstart' : { fs with top := fs.top.put (folder ++ [name]) (.file (.text text)) }.start p =
      .ok start := hstart
    rw [locate, hstart', ok_bind, hsegments, walk_append, walk_put hroom _ hwalk, ok_bind,
      walk_cons, step_of_canName hfolder' hname (Option.isSome_of_eq_some hplace)]
    rfl
  · intro place hother content
    exact hroom.put_file_iff (fun _ _ => rfl) (List.ne_of_not_mem_cons hother)

/-! ### Making folders -/

theorem makeFolder_sameFiles (h : fs.makeFolder p = .ok after) : fs.SameFiles after := by
  rw [makeFolder] at h
  obtain ⟨_ | ⟨folder, name⟩, happroach, h⟩ := bind_eq_ok h
  · cases h
  · obtain ⟨⟨entries, hfolder⟩, -⟩ := approach_eq_ok happroach
    dsimp only at h
    split at h
    · cases h
    · next hstep =>
      obtain ⟨-, hnone⟩ := canName_of_missing hfolder hstep
      have hroom : fs.top.HasRoom folder name :=
        ⟨⟨entries, hfolder⟩, fun inside => by simp [hnone]⟩
      cases h
      refine ⟨rfl, fun place _ content => ?_⟩
      by_cases hplace : place = folder ++ [name]
      · simp [hplace, hnone, FileTree.at?_put _ hfolder]
      · exact hroom.put_file_iff (fun _ _ => rfl) hplace
    · cases h

theorem makeChain_sameFiles (fs : FileSystem) (chain : List Path) :
    fs.SameFiles (fs.makeChain chain).2 := by
  induction chain generalizing fs with
  | nil => exact .refl fs
  | cons p outer ih =>
    rw [makeChain]
    split
    · next hmade => exact makeFolder_sameFiles hmade
    · have houter := ih fs
      split
      · next hchain => rwa [hchain] at houter
      · next made hchain =>
        rw [hchain] at houter
        split
        · next hmade => exact houter.trans (makeFolder_sameFiles hmade)
        · exact houter
    · exact .refl fs

/-- Folders are made without a file being new or changed, whether or not all of them are made. -/
theorem makeFolders_sameFiles (fs : FileSystem) (p : Path) : fs.SameFiles (fs.makeFolders p).2 :=
  makeChain_sameFiles fs p.ancestors

end FileSystem

end TagTemplate
